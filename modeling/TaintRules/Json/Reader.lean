import TaintRules.Decimal
import TaintRules.Json.Basic
import TaintRules.Text.Characters

/-!
# Reading JSON

A reader of JSON texts. Of several fields with one name the last one counts, and the fields of an
object come out in ascending order. A number without a point or exponent is whole if it fits into
64 bits; `-0` and all others are doubles. Each reader gives what it read and the characters after
it.
-/

namespace TaintRules.Json

/-- The characters from the first one that is no JSON blank. -/
def skipBlanks (cs : List Char) : List Char :=
  cs.dropWhile fun c ↦ c = ' ' || c = '\n' || c = '\r' || c = '\t'

/-- The number that four hexadecimal digits write. -/
def fourHex? : List Char → Option (Nat × List Char)
  | a :: b :: c :: d :: rest => do
    let a ← Text.hexValue? a
    let b ← Text.hexValue? b
    let c ← Text.hexValue? c
    let d ← Text.hexValue? d
    return (((a * 16 + b) * 16 + c) * 16 + d, rest)
  | _ => none

/-- The character of a `\u` escape, which may be a pair of surrogates. -/
def unicodeEscape? (cs : List Char) : Option (Char × List Char) := do
  let (n, rest) ← fourHex? cs
  if 0xD800 ≤ n ∧ n < 0xDC00 then
    match rest with
    | '\\' :: 'u' :: more =>
      let (low, rest) ← fourHex? more
      if 0xDC00 ≤ low ∧ low < 0xE000 then
        return (Char.ofNat (0x10000 + (n - 0xD800) * 0x400 + (low - 0xDC00)), rest)
      else none
    | _ => none
  else if 0xDC00 ≤ n ∧ n < 0xE000 then none
  else return (Char.ofNat n, rest)

/-- The character of an escape of one letter. -/
def letterEscape? (c : Char) : Option Char :=
  match c with
  | '"' => some '"'
  | '\\' => some '\\'
  | '/' => some '/'
  | 'b' => some '\x08'
  | 'f' => some '\x0c'
  | 'n' => some '\n'
  | 'r' => some '\r'
  | 't' => some '\t'
  | _ => none

/-- The rest of a string after its opening quote; `read` holds its characters so far, reversed. -/
def readString : Nat → List Char → List Char → Option (String × List Char)
  | 0, _, _ => none
  | fuel + 1, read, cs =>
    match cs with
    | '"' :: rest => some (String.ofList read.reverse, rest)
    | '\\' :: 'u' :: rest =>
      match unicodeEscape? rest with
      | some (c, rest) => readString fuel (c :: read) rest
      | none => none
    | '\\' :: c :: rest =>
      match letterEscape? c with
      | some c => readString fuel (c :: read) rest
      | none => none
    | c :: rest => if c.toNat < 0x20 then none else readString fuel (c :: read) rest
    | [] => none

/-- The exponent after a mantissa, zero if there is none, and whether one is written. -/
def readExponent (cs : List Char) : Option ((Int × Bool) × List Char) :=
  match cs with
  | e :: rest =>
    if e = 'e' ∨ e = 'E' then
      let (negative, rest) := match rest with
        | '-' :: more => (true, more)
        | '+' :: more => (false, more)
        | _ => (false, rest)
      let (ds, rest) := Decimal.spanDigits rest
      if ds.isEmpty then none
      else
        let value : Int := Decimal.digitsValue ds
        some ((if negative then -value else value, true), rest)
    else some ((0, false), cs)
  | [] => some ((0, false), cs)

/-- The digits after a point, and whether there is a point. -/
def readFraction (cs : List Char) : Option ((List Char × Bool) × List Char) :=
  match cs with
  | '.' :: rest =>
    let (ds, rest) := Decimal.spanDigits rest
    if ds.isEmpty then none else some ((ds, true), rest)
  | _ => some (([], false), cs)

/-- A number. -/
def readNumber (cs : List Char) : Option (Json × List Char) := do
  let (negative, cs) := match cs with
    | '-' :: rest => (true, rest)
    | _ => (false, cs)
  let (whole, cs) := Decimal.spanDigits cs
  if whole.isEmpty || (whole.head? = some '0' && 1 < whole.length) then none
  let ((fraction, pointed), cs) ← readFraction cs
  let ((exponent, scaled), cs) ← readExponent cs
  let n := Decimal.digitsValue whole
  let value := Decimal.toFloat negative whole fraction exponent
  if pointed || scaled then return (.float value, cs)
  else if negative then
    return (if n = 0 ∨ Nat.pow 2 63 < n then .float value else .int (-n), cs)
  else return (if UInt64.size ≤ n then .float value else .int n, cs)

/-- Sets a field of an object whose fields are in ascending order. -/
def setField (name : String) (value : Json) : List (String × Json) → List (String × Json)
  | [] => [(name, value)]
  | (other, old) :: rest =>
    if name = other then (name, value) :: rest
    else if name < other then (name, value) :: (other, old) :: rest
    else (other, old) :: setField name value rest

/-- The word in front of the text, if it is the given one. -/
def readWord (word : String) (value : Json) (cs : List Char) : Option (Json × List Char) :=
  if word.toList.isPrefixOf cs then some (value, cs.drop word.length) else none

mutual

/-- A value, after blanks. -/
def readValue : Nat → List Char → Option (Json × List Char)
  | 0, _ => none
  | fuel + 1, cs =>
    match skipBlanks cs with
    | '\x7b' :: rest =>
      match skipBlanks rest with
      | '\x7d' :: rest => some (.object [], rest)
      | _ => readFields fuel [] rest
    | '[' :: rest =>
      match skipBlanks rest with
      | ']' :: rest => some (.array [], rest)
      | _ => readItems fuel [] rest
    | '"' :: rest => (readString (rest.length + 1) [] rest).map fun (s, rest) ↦ (.text s, rest)
    | 't' :: rest => readWord "true" (.bool true) ('t' :: rest)
    | 'f' :: rest => readWord "false" (.bool false) ('f' :: rest)
    | 'n' :: rest => readWord "null" .null ('n' :: rest)
    | other => readNumber other

/-- The items of an array up to its end; `read` holds those before, reversed. -/
def readItems : Nat → List Json → List Char → Option (Json × List Char)
  | 0, _, _ => none
  | fuel + 1, read, cs =>
    match readValue fuel cs with
    | none => none
    | some (item, rest) =>
      match skipBlanks rest with
      | ',' :: rest => readItems fuel (item :: read) rest
      | ']' :: rest => some (.array (item :: read).reverse, rest)
      | _ => none

/-- The fields of an object up to its end; `read` holds those before. -/
def readFields : Nat → List (String × Json) → List Char → Option (Json × List Char)
  | 0, _, _ => none
  | fuel + 1, read, cs =>
    match skipBlanks cs with
    | '"' :: rest =>
      match readString (rest.length + 1) [] rest with
      | none => none
      | some (name, rest) =>
        match skipBlanks rest with
        | ':' :: rest =>
          match readValue fuel rest with
          | none => none
          | some (value, rest) =>
            let fields := setField name value read
            match skipBlanks rest with
            | ',' :: rest => readFields fuel fields rest
            | '\x7d' :: rest => some (.object fields, rest)
            | _ => none
        | _ => none
    | _ => none

end

/-- The value that a whole text writes. -/
def read? (s : String) : Option Json :=
  let cs := s.toList
  match readValue (cs.length + 1) cs with
  | some (value, rest) => if (skipBlanks rest).isEmpty then some value else none
  | none => none

end TaintRules.Json
