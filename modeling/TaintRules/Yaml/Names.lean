import TaintRules.Decimal
import TaintRules.Yaml.ScalarText
import TaintRules.Yaml.Token

/-!
# Anchors, tags and directives

How the names in front of a node and the directives in front of a document are read.
-/

namespace TaintRules.Yaml

/-- The name of an anchor or an alias after its sign. -/
def anchorName (c : Cursor) : Option (String × Cursor) :=
  let name := c.rest.takeWhile isWordChar
  let next := c.skip name.length
  if name.isEmpty then none
  else if next.separatesAt 0 || next.head.any ("?:,]\x7d%@`".toList.contains ·) then
    some (String.ofList name, next)
  else none

/-- The handle of a tag, from its first `!`. In a directive it has to be complete. -/
def tagHandle (directive : Bool) (c : Cursor) : Option (String × Cursor) :=
  if !c.sees '!' then none
  else
    let name := (c.rest.drop 1).takeWhile isWordChar
    let next := c.skip (1 + name.length)
    if next.sees '!' then some (String.ofList ('!' :: name ++ ['!']), next.skip 1)
    else if directive && !name.isEmpty then none
    else some (String.ofList ('!' :: name), next)

/-- The bytes of `%` escapes in a tag. -/
def escapedBytes : Nat → List Char → Option (List UInt8)
  | 0, _ => some []
  | count + 1, '%' :: a :: b :: rest => do
    let high ← Text.hexValue? a
    let low ← Text.hexValue? b
    let bytes ← escapedBytes count rest
    return UInt8.ofNat (16 * high + low) :: bytes
  | _ + 1, _ => none

/-- How many bytes the UTF-8 form of a character has, by its first byte. -/
def utf8Width? (first : UInt8) : Option Nat :=
  if first < 0x80 then some 1
  else if first &&& 0xE0 = 0xC0 then some 2
  else if first &&& 0xF0 = 0xE0 then some 3
  else if first &&& 0xF8 = 0xF0 then some 4
  else none

/-- The bytes that the `%` escapes of one character write. Only the first bits of each are
checked, so they may be the form of no character. -/
def tagEscape (cs : List Char) : Option (List UInt8) := do
  let first ← (← escapedBytes 1 cs).head?
  let width ← utf8Width? first
  let bytes ← escapedBytes width cs
  if bytes.tail.all (· &&& 0xC0 = 0x80) then some bytes else none

/-- Whether `char` may stand in a tag; commas and brackets only in a full one. -/
def isTagChar (full : Bool) (char : Char) : Bool :=
  isWordChar char || ";/?:@&=+$.!~*'()%".toList.contains char
    || (full && ",[]".toList.contains char)

/-- The bytes of a tag: those in `read`, which are reversed, and those that follow. -/
def tagBytes : Nat → Bool → Cursor → List UInt8 → Option (List UInt8 × Cursor)
  | 0, _, _, _ => none
  | fuel + 1, full, c, read =>
    match c.rest with
    | char :: _ =>
      if char = '%' then
        match tagEscape c.rest with
        | some bytes => tagBytes fuel full (c.skip (3 * bytes.length)) (bytes.reverse ++ read)
        | none => none
      else if isTagChar full char then tagBytes fuel full (c.skip 1) (char.toUInt8 :: read)
      else some (read.reverse, c)
    | [] => some (read.reverse, c)

/-- A tag from its `!`, as its handle and its suffix. -/
def tagToken (inFlow : Bool) (c : Cursor) : Option (Token × Cursor) := do
  let fuel := c.steps
  let (handle, suffix, c) ←
    if c.peek 1 = some '<' then do
      let (suffix, c) ← tagBytes fuel true (c.skip 2) []
      if suffix.isEmpty || !c.sees '>' then none
      some ("", Tag.ofBytes suffix, c.skip 1)
    else do
      let (handle, c) ← tagHandle false c
      if 1 < handle.length && handle.toList.getLast? = some '!' then do
        let (suffix, c) ← tagBytes fuel false c []
        if suffix.isEmpty then none
        some (handle, Tag.ofBytes suffix, c)
      else do
        let (suffix, c) ← tagBytes fuel false c (Tag.ofText handle).bytes.tail.reverse
        let suffix := Tag.ofBytes suffix
        some (if suffix.bytes.isEmpty then ("", Tag.bare, c) else ("!", suffix, c))
  if c.separatesAt 0 || (inFlow && c.sees ',') then some (.tag handle suffix, c) else none

/-- A number of a version, of at most nine digits. -/
def versionNumber (c : Cursor) : Option (Nat × Cursor) :=
  let digits := c.rest.takeWhile Char.isDigit
  if digits.isEmpty || 9 < digits.length then none
  else some (Decimal.digitsValue digits, c.skip digits.length)

/-- What follows the name of a directive. -/
def directiveValue (name : String) (c : Cursor) : Option (Token × Cursor) := do
  let c := c.skipWhile isSpace
  match name with
  | "YAML" =>
    let (major, c) ← versionNumber c
    if !c.sees '.' then none
    let (minor, c) ← versionNumber (c.skip 1)
    return (.versionDirective major minor, c)
  | "TAG" =>
    let (handle, c) ← tagHandle true c
    if !c.atSpace then none
    let c := c.skipWhile isSpace
    let (start, c) ← tagBytes c.steps true c []
    if start.isEmpty || !c.separatesAt 0 then none
    return (.tagDirective handle (Tag.ofBytes start), c)
  | _ => none

/-- A directive from its `%` to the end of its line. -/
def directive (c : Cursor) : Option (Token × Cursor) := do
  let c := c.skip 1
  let name := c.rest.takeWhile isWordChar
  let c := c.skip name.length
  if name.isEmpty || !c.separatesAt 0 then none
  let (token, c) ← directiveValue (String.ofList name) c
  let c := c.skipWhile isSpace
  let c := if c.sees '#' then c.skipWhile (!isBreak ·) else c
  if !c.atLineEnd then none
  return (token, c.skipBreak)

end TaintRules.Yaml
