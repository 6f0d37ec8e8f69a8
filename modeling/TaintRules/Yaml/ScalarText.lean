import TaintRules.Text.Characters
import TaintRules.Yaml.Cursor

/-!
# The text of scalars

How the characters of a scalar are read: plain words, quoted texts with their escapes, and literal
and folded blocks. A single line break between words counts as a blank; of several, all but the
first stay.
-/

namespace TaintRules.Yaml

/-- The blanks and line breaks after a word: blanks in its line, the first break, further breaks.
The blanks and the further breaks are reversed. -/
structure Gap where
  blanks : List Char := []
  first : List Char := []
  more : List Char := []
  /-- Whether a line break was passed. -/
  broken : Bool := false

/-- What a gap between two words counts as. -/
def Gap.text (gap : Gap) : List Char :=
  if gap.broken then
    if gap.first = ['\n'] then
      if gap.more.isEmpty then [' '] else gap.more.reverse
    else gap.first ++ gap.more.reverse
  else gap.blanks.reverse

/-- Passes blanks and line breaks. In a plain scalar a tab must not stand in the indentation, which
is as wide as `indent` says. -/
def readGap : Nat → Option Int → Cursor → Gap → Option (Cursor × Gap)
  | 0, _, c, gap => some (c, gap)
  | fuel + 1, indent, c, gap =>
    match c.readBreak? with
    | some (char, next) =>
      if gap.broken then readGap fuel indent next { gap with more := char :: gap.more }
      else readGap fuel indent next { gap with blanks := [], first := [char], broken := true }
    | none =>
      match c.rest with
      | char :: _ =>
        if isSpace char then
          if gap.broken then
            if char = '\t' && indent.any ((c.column : Int) < ·) then none
            else readGap fuel indent (c.skip 1) gap
          else readGap fuel indent (c.skip 1) { gap with blanks := char :: gap.blanks }
        else some (c, gap)
      | [] => some (c, gap)

/-- How many characters of a plain scalar follow without a blank. Inside brackets a colon must not
touch a bracket or a comma. -/
def plainRun (inFlow : Bool) : Nat → List Char → Option Nat
  | count, [] => some count
  | count, char :: rest =>
    if isSpace char || isBreak char then some count
    else if inFlow && char = ':' && rest.head?.any (",?[]\x7b\x7d".toList.contains ·) then none
    else if (char = ':' && separates rest.head?)
        || (inFlow && ",[]\x7b\x7d".toList.contains char) then some count
    else plainRun inFlow (count + 1) rest

/-- The rest of a plain scalar after `done`, its characters so far reversed. Gives the scalar, the
place after it, and whether a line break was passed at its end. -/
def plainScalar : Nat → Bool → Int → Cursor → List Char → Gap → Option (String × Cursor × Bool)
  | 0, _, _, _, _, _ => none
  | fuel + 1, inFlow, indent, c, done, gap =>
    let finish (c : Cursor) (gap : Gap) (done : List Char) :=
      some (String.ofList done.reverse, c, gap.broken)
    if c.atDocumentMarker || c.sees '#' then finish c gap done
    else
      match plainRun inFlow 0 c.rest with
      | none => none
      | some count =>
        let word := c.rest.take count
        let next := c.skip count
        let (done, gap) :=
          if count = 0 then (done, gap)
          else (word.reverse ++ (gap.text.reverse ++ done), ({} : Gap))
        if !(next.atSpace || next.atBreak) then finish next gap done
        else
          match readGap next.steps (some indent) next gap with
          | none => none
          | some (next, gap) =>
            if !inFlow && (next.column : Int) < indent then finish next gap done
            else plainScalar fuel inFlow indent next done gap

/-- The character that an escape of one letter stands for. -/
def escapedChar? (char : Char) : Option Char :=
  match char with
  | '0' => some '\x00'
  | 'a' => some '\x07'
  | 'b' => some '\x08'
  | 't' | '\t' => some '\t'
  | 'n' => some '\n'
  | 'v' => some '\x0b'
  | 'f' => some '\x0c'
  | 'r' => some '\r'
  | 'e' => some '\x1b'
  | ' ' => some ' '
  | '"' => some '"'
  | '/' => some '/'
  | '\\' => some '\\'
  | 'N' => some '\x85'
  | '_' => some '\xa0'
  | 'L' => some '\u2028'
  | 'P' => some '\u2029'
  | _ => none

/-- How many hexadecimal digits an escape has. -/
def escapeDigits? (char : Char) : Option Nat :=
  match char with
  | 'x' => some 2
  | 'u' => some 4
  | 'U' => some 8
  | _ => none

/-- The character with the number that hexadecimal digits write. -/
def hexChar? (digits : List Char) : Option Char := do
  let n ← digits.foldlM (fun n d ↦ (Text.hexValue? d).map (16 * n + ·)) 0
  if (0xD800 ≤ n && n ≤ 0xDFFF) || 0x10FFFF < n then none else some (Char.ofNat n)

/-- The characters of a quoted scalar up to a blank, a line break or the closing quote; `read` holds
those so far, reversed. Gives whether an escaped line break was passed at the end. -/
def quotedRun : Nat → Bool → Cursor → List Char → Option (Cursor × List Char × Bool)
  | 0, _, _, _ => none
  | fuel + 1, single, c, read =>
    match c.rest with
    | [] => some (c, read, false)
    | char :: rest =>
      if isSpace char || isBreak char then some (c, read, false)
      else if single then
        if char = '\x27' then
          if rest.head? = some '\x27' then quotedRun fuel single (c.skip 2) ('\x27' :: read)
          else some (c, read, false)
        else quotedRun fuel single (c.skip 1) (char :: read)
      else if char = '"' then some (c, read, false)
      else if char = '\\' then
        match rest with
        | [] => none
        | next :: more =>
          if isBreak next then some ((c.skip 1).skipBreak, read, true)
          else
            match escapeDigits? next with
            | some count =>
              let digits := more.take count
              match if digits.length = count then hexChar? digits else none with
              | some value => quotedRun fuel single (c.skip (2 + count)) (value :: read)
              | none => none
            | none =>
              match escapedChar? next with
              | some value => quotedRun fuel single (c.skip 2) (value :: read)
              | none => none
      else quotedRun fuel single (c.skip 1) (char :: read)

/-- The rest of a quoted scalar after its opening quote, and the place after its closing quote. -/
def quotedScalar : Nat → Bool → Cursor → List Char → Option (String × Cursor)
  | 0, _, _, _ => none
  | fuel + 1, single, c, read =>
    if c.atDocumentMarker || c.rest.isEmpty then none
    else
      match quotedRun c.steps single c read with
      | none => none
      | some (c, read, escapedBreak) =>
        if c.sees (if single then '\x27' else '"') then some (String.ofList read.reverse, c.skip 1)
        else
          match readGap c.steps none c { broken := escapedBreak } with
          | none => none
          | some (c, gap) => quotedScalar fuel single c (gap.text.reverse ++ read)

/-- What happens to the line breaks at the end of a block. -/
inductive Chomping where
  | strip
  | clip
  | keep
  deriving DecidableEq, Repr

/-- The empty lines in front of the next line of a block: the place after them, their breaks, and
the widest indentation among them; `breaks` holds the breaks so far, reversed. While the
indentation of the block is not known, `indent` is zero. -/
def blockBreaks : Nat → Nat → Cursor → List Char → Nat → Option (Cursor × List Char × Nat)
  | 0, _, _, _, _ => none
  | fuel + 1, indent, c, breaks, widest =>
    let spaces := (c.rest.takeWhile (· = ' ')).length
    let c := c.skip (if indent = 0 then spaces else min spaces (indent - c.column))
    let widest := max widest c.column
    if (indent = 0 || c.column < indent) && c.sees '\t' then none
    else
      match c.readBreak? with
      | some (char, next) => blockBreaks fuel indent next (char :: breaks) widest
      | none => some (c, breaks.reverse, widest)

/-- The lines of a block; `read` holds its characters so far, reversed, `lead` the break before the
next line, `breaks` the empty lines after it. -/
def blockLines : Nat → Bool → Nat → Cursor → List Char → List Char → List Char → Bool →
    Option (Cursor × List Char × List Char × List Char)
  | 0, _, _, _, _, _, _, _ => none
  | fuel + 1, literal, indent, c, read, lead, breaks, leadBlank =>
    if c.column = indent && !c.rest.isEmpty then
      let blank := c.atSpace
      let joined :=
        if !literal && lead = ['\n'] && !leadBlank && !blank then
          if breaks.isEmpty then [' '] else []
        else lead
      let line := c.rest.takeWhile (!isBreak ·)
      let read := line.reverse ++ (breaks.reverse ++ (joined.reverse ++ read))
      let c := c.skip line.length
      let (lead, c) := match c.readBreak? with
        | some (char, next) => ([char], next)
        | none => ([], c)
      match blockBreaks c.steps indent c [] 0 with
      | none => none
      | some (c, breaks, _) => blockLines fuel literal indent c read lead breaks blank
    else some (c, read, lead, breaks)

/-- The chomping and the width of the indentation that follow the sign of a block. -/
def blockHeader (c : Cursor) : Option (Cursor × Chomping × Nat) :=
  let chomping? (c : Cursor) : Option Chomping :=
    if c.sees '+' then some .keep else if c.sees '-' then some .strip else none
  let digit? (c : Cursor) : Option Nat :=
    c.head.bind fun d ↦ if d.isDigit then some (d.toNat - 48) else none
  match chomping? c with
  | some chomping =>
    let c := c.skip 1
    match digit? c with
    | some 0 => none
    | some width => some (c.skip 1, chomping, width)
    | none => some (c, chomping, 0)
  | none =>
    match digit? c with
    | some 0 => none
    | some width =>
      let c := c.skip 1
      match chomping? c with
      | some chomping => some (c.skip 1, chomping, width)
      | none => some (c, .clip, width)
    | none => some (c, .clip, 0)

/-- A block after its sign, inside a block whose indentation is `outer`, and the place after it. -/
def blockScalar (literal : Bool) (outer : Int) (c : Cursor) : Option (String × Cursor) := do
  let (c, chomping, width) ← blockHeader c
  let c := c.skipWhile isSpace
  let c := if c.sees '#' then c.skipWhile (!isBreak ·) else c
  if !c.atLineEnd then none
  let c := c.skipBreak
  let given := if width = 0 then 0 else (if 0 ≤ outer then outer.toNat + width else width)
  let (c, breaks, widest) ← blockBreaks c.steps given c [] 0
  let indent := if given ≠ 0 then given else max widest (max (outer + 1).toNat 1)
  let (c, read, lead, breaks) ←
    blockLines c.steps literal indent c [] [] breaks false
  let tail := match chomping with
    | .strip => []
    | .clip => lead
    | .keep => lead ++ breaks
  return (String.ofList (read.reverse ++ tail), c)

end TaintRules.Yaml
