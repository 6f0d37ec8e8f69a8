import TaintRules.Yaml.Names

/-!
# The tokens of a YAML text

A key of a mapping is recognised only when the colon after it is reached, so the place of a
possible key is remembered and its tokens are put in front of it afterwards. Outside brackets the
column of a token decides which blocks it opens and closes.
-/

namespace TaintRules.Yaml

/-- A token that turns out to be a key if a colon follows in the same line. -/
structure PossibleKey where
  /-- Whether the token cannot be anything but a key. -/
  required : Bool
  /-- How many tokens stand before it. -/
  position : Nat
  index : Nat
  line : Nat
  column : Nat

/-- How far a text is cut into tokens. -/
structure Lexer where
  cursor : Cursor
  /-- The tokens so far, the last one first. -/
  tokens : List Token := []
  /-- The number of tokens so far. -/
  count : Nat := 0
  /-- The column of the innermost block, `-1` outside all blocks. -/
  indent : Int := -1
  /-- The columns of the blocks around it. -/
  outer : List Int := []
  /-- Whether a key may start here. -/
  keyAllowed : Bool := true
  /-- The possible key outside brackets, and those of the brackets around, the innermost first. -/
  keys : List (Option PossibleKey) := [none]
  /-- Whether the text goes on after what the cursor shows, in a way that cannot be read. -/
  cut : Bool := false

namespace Lexer

/-- Whether the place is inside brackets. -/
def inFlow (l : Lexer) : Bool := !(l.keys.drop 1).isEmpty

/-- Appends a token. -/
def emit (l : Lexer) (token : Token) : Lexer :=
  { l with tokens := token :: l.tokens, count := l.count + 1 }

/-- Puts a token in front of those from a position on. -/
def insertAt (l : Lexer) (position : Nat) (token : Token) : Lexer :=
  let (after, before) := l.tokens.splitAt (l.count - position)
  { l with tokens := after ++ token :: before, count := l.count + 1 }

/-- Moves on to a place. -/
def moveTo (l : Lexer) (cursor : Cursor) : Lexer := { l with cursor }

/-- Passes blanks, comments and line breaks up to the next token. Tabs are no indentation, so they
are passed only where no key may start. -/
def skipToToken : Nat → Lexer → Lexer
  | 0, l => l
  | fuel + 1, l =>
    let c := l.cursor
    let c := if c.column = 0 && c.sees '\ufeff' then c.skip 1 else c
    let tabs := l.inFlow || !l.keyAllowed
    let c := c.skipWhile fun char ↦ char = ' ' || (tabs && char = '\t')
    let c := if c.sees '#' then c.skipWhile (!isBreak ·) else c
    if c.atBreak then
      skipToToken fuel
        { l with cursor := c.skipBreak, keyAllowed := l.keyAllowed || !l.inFlow }
    else l.moveTo c

/-- The greatest distance between a key and its colon. -/
def keyReach : Nat := 1024

/-- Gives up a possible key in an earlier line or too far back, unless it had to be a key. -/
def dropStale (c : Cursor) : Option PossibleKey → Option (Option PossibleKey)
  | some key =>
    if key.line < c.line || key.index + keyReach < c.index then
      if key.required then none else some none
    else some (some key)
  | none => some none

/-- Gives up the innermost possible key if it is too far back. Those of the brackets around are
looked at once their brackets are closed. -/
def dropStaleKey (l : Lexer) : Option Lexer :=
  match l.keys with
  | key :: rest => (dropStale l.cursor key).map fun key ↦ { l with keys := key :: rest }
  | [] => some l

/-- Gives up the innermost possible key, unless it had to be a key. -/
def removeKey (l : Lexer) : Option Lexer :=
  match l.keys with
  | some key :: rest => if key.required then none else some { l with keys := none :: rest }
  | _ => some l

/-- Remembers that the token here may be a key. -/
def saveKey (l : Lexer) : Option Lexer :=
  if l.keyAllowed then do
    let c := l.cursor
    let key : PossibleKey :=
      ⟨!l.inFlow && l.indent = c.column, l.count, c.index, c.line, c.column⟩
    let l ← l.removeKey
    return { l with keys := some key :: l.keys.drop 1 }
  else some l

/-- Opens a block at a column deeper than the innermost one; its token goes to a position. -/
def openBlock (l : Lexer) (column position : Nat) (token : Token) : Lexer :=
  if !l.inFlow && l.indent < column then
    { l.insertAt position token with indent := column, outer := l.indent :: l.outer }
  else l

/-- Closes the blocks deeper than a column. -/
def closeBlocks : Nat → Int → Lexer → Lexer
  | 0, _, l => l
  | fuel + 1, column, l =>
    if !l.inFlow && column < l.indent then
      closeBlocks fuel column
        { l.emit .blockEnd with indent := l.outer.headD (-1), outer := l.outer.drop 1 }
    else l

/-- Closes the blocks deeper than a column. -/
def unroll (l : Lexer) (column : Int) : Lexer := closeBlocks (l.outer.length + 1) column l

/-- The end of the text. -/
def streamEnd (l : Lexer) : Option Lexer := do
  let l := if l.cursor.column = 0 then l
    else l.moveTo { l.cursor with column := 0, line := l.cursor.line + 1 }
  let l ← (l.unroll (-1)).removeKey
  return { l.emit .streamEnd with keyAllowed := false }

/-- A directive in front of a document. -/
def fetchDirective (l : Lexer) : Option Lexer := do
  let l ← (l.unroll (-1)).removeKey
  let (token, c) ← directive l.cursor
  return { (l.emit token).moveTo c with keyAllowed := false }

/-- The start or the end of a document. -/
def fetchMarker (l : Lexer) (token : Token) : Option Lexer := do
  let l ← (l.unroll (-1)).removeKey
  return { (l.emit token).moveTo (l.cursor.skip 3) with keyAllowed := false }

/-- An opening bracket. -/
def openFlow (l : Lexer) (token : Token) : Option Lexer := do
  let l ← l.saveKey
  return { (l.emit token).moveTo (l.cursor.skip 1) with
    keyAllowed := true, keys := none :: l.keys }

/-- A closing bracket. -/
def closeFlow (l : Lexer) (token : Token) : Option Lexer := do
  let l ← l.removeKey
  return { (l.emit token).moveTo (l.cursor.skip 1) with
    keyAllowed := false, keys := if l.inFlow then l.keys.drop 1 else l.keys }

/-- A comma inside brackets. -/
def fetchFlowEntry (l : Lexer) : Option Lexer := do
  let l ← l.removeKey
  return { (l.emit .flowEntry).moveTo (l.cursor.skip 1) with keyAllowed := true }

/-- The dash of an item of a block sequence. -/
def fetchBlockEntry (l : Lexer) : Option Lexer := do
  if !l.inFlow && !l.keyAllowed then none
  let l := l.openBlock l.cursor.column l.count .blockSequenceStart
  let l ← l.removeKey
  return { (l.emit .blockEntry).moveTo (l.cursor.skip 1) with keyAllowed := true }

/-- The question mark in front of a key. -/
def fetchKey (l : Lexer) : Option Lexer := do
  if !l.inFlow && !l.keyAllowed then none
  let l := l.openBlock l.cursor.column l.count .blockMappingStart
  let l ← l.removeKey
  return { (l.emit .key).moveTo (l.cursor.skip 1) with keyAllowed := !l.inFlow }

/-- The colon between a key and its value. -/
def fetchValue (l : Lexer) : Option Lexer :=
  match l.keys with
  | some key :: rest =>
    let l := l.insertAt key.position .key
    let l := l.openBlock key.column key.position .blockMappingStart
    some { (l.emit .value).moveTo (l.cursor.skip 1) with keys := none :: rest, keyAllowed := false }
  | _ =>
    if !l.inFlow && !l.keyAllowed then none
    else
      let l := l.openBlock l.cursor.column l.count .blockMappingStart
      some { (l.emit .value).moveTo (l.cursor.skip 1) with keyAllowed := !l.inFlow }

/-- An anchor or an alias. -/
def fetchAnchor (l : Lexer) (token : String → Token) : Option Lexer := do
  let l ← l.saveKey
  let (name, c) ← anchorName (l.cursor.skip 1)
  return { (l.emit (token name)).moveTo c with keyAllowed := false }

/-- A tag. -/
def fetchTag (l : Lexer) : Option Lexer := do
  let l ← l.saveKey
  let (token, c) ← tagToken l.inFlow l.cursor
  return { (l.emit token).moveTo c with keyAllowed := false }

/-- A literal or folded block. -/
def fetchBlockScalar (l : Lexer) (style : Style) : Option Lexer := do
  let l ← l.removeKey
  let (text, c) ← blockScalar (style = .literal) l.indent (l.cursor.skip 1)
  return { (l.emit (.scalar style text)).moveTo c with keyAllowed := true }

/-- A quoted scalar. -/
def fetchQuotedScalar (l : Lexer) (style : Style) : Option Lexer := do
  let l ← l.saveKey
  let c := l.cursor.skip 1
  let (text, c) ← quotedScalar c.steps (style = .singleQuoted) c []
  return { (l.emit (.scalar style text)).moveTo c with keyAllowed := false }

/-- A plain scalar. -/
def fetchPlainScalar (l : Lexer) : Option Lexer := do
  let l ← l.saveKey
  let c := l.cursor
  let (text, c, broken) ← plainScalar c.steps l.inFlow (l.indent + 1) c [] {}
  return { (l.emit (.scalar .plain text)).moveTo c with keyAllowed := broken }

/-- Whether a plain scalar may start with the next character. -/
def startsPlain (l : Lexer) (char : Char) : Bool :=
  !("-?:,[]\x7b\x7d#&*!|>'\"%@`".toList.contains char || isSpace char || isBreak char)
    || (char = '-' && !(l.cursor.peek 1).any isSpace)
    || (!l.inFlow && (char = '?' || char = ':') && !l.cursor.separatesAt 1)

/-- The next token, at the place where it starts. -/
def fetchAt (l : Lexer) : Option Lexer :=
  let c := l.cursor
  match c.head with
  | none => l.streamEnd
  | some char =>
    let indicator := l.inFlow || c.separatesAt 1
    if c.column = 0 && char = '%' then l.fetchDirective
    else if c.atMarker '-' then l.fetchMarker .documentStart
    else if c.atMarker '.' then l.fetchMarker .documentEnd
    else if char = '[' then l.openFlow .flowSequenceStart
    else if char = '\x7b' then l.openFlow .flowMappingStart
    else if char = ']' then l.closeFlow .flowSequenceEnd
    else if char = '\x7d' then l.closeFlow .flowMappingEnd
    else if char = ',' then l.fetchFlowEntry
    else if char = '-' && c.separatesAt 1 then l.fetchBlockEntry
    else if char = '?' && indicator then l.fetchKey
    else if char = ':' && indicator then l.fetchValue
    else if char = '*' then l.fetchAnchor .alias
    else if char = '&' then l.fetchAnchor .anchor
    else if char = '!' then l.fetchTag
    else if char = '|' && !l.inFlow then l.fetchBlockScalar .literal
    else if char = '>' && !l.inFlow then l.fetchBlockScalar .folded
    else if char = '\x27' then l.fetchQuotedScalar .singleQuoted
    else if char = '"' then l.fetchQuotedScalar .doubleQuoted
    else if l.startsPlain char then l.fetchPlainScalar
    else none

/-- The next token. Where the text is cut off, it fails if the cut is too near to tell what the
token is or where it ends. -/
def fetch (l : Lexer) : Option Lexer := do
  let l := skipToToken l.cursor.steps l
  let l ← l.dropStaleKey
  if l.cut && (l.cursor.rest.drop 3).isEmpty then none
  let l ← (l.unroll l.cursor.column).fetchAt
  if l.cut && l.cursor.rest.isEmpty then none else some l

/-- The tokens of a text that cannot be read any further: those before the first possible key,
since what is put in front of the others is not known. -/
def broken (l : Lexer) : List Token :=
  let positions := l.keys.filterMap fun key ↦
    ((dropStale l.cursor key).getD key).map (·.position)
  (.malformed :: l.tokens.drop (l.count - positions.foldl min l.count)).reverse

/-- The tokens up to the end of the text, or up to where it cannot be read. -/
def run : Nat → Lexer → List Token
  | 0, l => l.broken
  | fuel + 1, l =>
    match l.fetch with
    | none => l.broken
    | some next =>
      if next.tokens.head? = some .streamEnd then next.tokens.reverse else run fuel next

end Lexer

/-- How many bytes of a text are looked at together for characters that it may not hold. -/
def pieceSize : Nat := 16384

/-- The characters of a text in front of the piece with the first one that it may not hold, and
whether there is such a piece. Of the current piece `used` bytes were passed, which are the
characters of `piece`, reversed. -/
def readable : (piece : List Char) → (used : Nat) → List Char → List Char × Bool
  | piece, _, [] => (piece.reverse, false)
  | piece, used, c :: rest =>
    let full := pieceSize < used + c.utf8Size
    if !isAllowed c then (if full then piece.reverse else [], true)
    else if full then
      let (after, cut) := readable [c] c.utf8Size rest
      (piece.reverse ++ after, cut)
    else readable (c :: piece) (used + c.utf8Size) rest

/-- The tokens of a text. -/
def tokens (text : String) : List Token :=
  let (cs, cut) := readable [] 0 text.toList
  Lexer.run (cs.length + 2) { cursor := { rest := cs }, cut }

end TaintRules.Yaml
