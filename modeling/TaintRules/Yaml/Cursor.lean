/-!
# A place in a YAML text

What is left of the text, and where that stands: the number of bytes before it, its line and its
column. Structure in YAML hangs on columns, so every reader works on such a place.
-/

namespace TaintRules.Yaml

/-- A place in a text. -/
structure Cursor where
  rest : List Char
  /-- The number of bytes before it. -/
  index : Nat := 0
  line : Nat := 0
  column : Nat := 0
  /-- The number of characters of the whole text. -/
  size : Nat := rest.length

/-- Whether `c` ends a line. -/
def isBreak (c : Char) : Bool :=
  c = '\n' || c = '\r' || c = '\x85' || c = '\u2028' || c = '\u2029'

/-- Whether `c` is a space or a tab. -/
def isSpace (c : Char) : Bool := c = ' ' || c = '\t'

/-- Whether `c` may stand in the name of an anchor or a directive. -/
def isWordChar (c : Char) : Bool := c.isAlphanum || c = '_' || c = '-'

/-- Whether a text may hold `c`: no control characters but tabs and line breaks. -/
def isAllowed (c : Char) : Bool :=
  let n := c.toNat
  n = 0x09 || n = 0x0A || n = 0x0D || (0x20 ≤ n && n ≤ 0x7E) || n = 0x85
    || (0xA0 ≤ n && n ≤ 0xFFFD) || 0x10000 ≤ n

/-- How many bytes the UTF-8 form of some characters has. -/
def byteCount (cs : List Char) : Nat := cs.foldl (fun count c ↦ count + c.utf8Size) 0

/-- Whether there is no character, or one that separates words. -/
def separates : Option Char → Bool
  | none => true
  | some c => isSpace c || isBreak c

namespace Cursor

/-- A bound on the steps that any reader makes from here on: more than the characters left. -/
def steps (c : Cursor) : Nat := c.size + 1

/-- The character at a distance, if the text goes that far. -/
def peek (c : Cursor) (distance : Nat) : Option Char := c.rest[distance]?

/-- The next character. -/
def head (c : Cursor) : Option Char := c.rest.head?

/-- Whether the next character is the given one. -/
def sees (c : Cursor) (char : Char) : Bool := c.rest.head? = some char

/-- Whether the next character ends a line. -/
def atBreak (c : Cursor) : Bool := c.rest.head?.any isBreak

/-- Whether the next character is a space or a tab. -/
def atSpace (c : Cursor) : Bool := c.rest.head?.any isSpace

/-- Whether the text or the line ends here. -/
def atLineEnd (c : Cursor) : Bool := c.rest.isEmpty || c.atBreak

/-- Whether the text or a word ends at a distance. -/
def separatesAt (c : Cursor) (distance : Nat) : Bool := separates (c.peek distance)

/-- The place some characters further in the same line. -/
def skip (c : Cursor) (count : Nat) : Cursor :=
  { c with
    rest := c.rest.drop count
    index := c.index + byteCount (c.rest.take count)
    column := c.column + count }

/-- The place after the characters that satisfy a test, all in the same line. -/
def skipWhile (c : Cursor) (test : Char → Bool) : Cursor :=
  c.skip (c.rest.takeWhile test).length

/-- The line break here, as it counts in a scalar, and the place at the start of the next line. -/
def readBreak? (c : Cursor) : Option (Char × Cursor) :=
  let next (count : Nat) : Cursor := { c.skip count with line := c.line + 1, column := 0 }
  match c.rest with
  | '\r' :: '\n' :: _ => some ('\n', next 2)
  | '\u2028' :: _ => some ('\u2028', next 1)
  | '\u2029' :: _ => some ('\u2029', next 1)
  | char :: _ => if isBreak char then some ('\n', next 1) else none
  | [] => none

/-- The place after a line break, if there is one here. -/
def skipBreak (c : Cursor) : Cursor := (c.readBreak?.map (·.2)).getD c

/-- Whether three equal characters that mark the start or the end of a document stand here, at the
beginning of a line. -/
def atMarker (c : Cursor) (char : Char) : Bool :=
  c.column = 0 && c.rest.take 3 == [char, char, char] && c.separatesAt 3

/-- Whether a document starts or ends here. -/
def atDocumentMarker (c : Cursor) : Bool := c.atMarker '-' || c.atMarker '.'

end Cursor

end TaintRules.Yaml
