import TaintRules.Decimal

/-!
# JSON values

Records are exchanged as JSON. An object keeps its fields in the order in which they are to be
written; an object that was read has them in ascending order of their names, each once.
-/

namespace TaintRules

/-- A JSON value. A whole number and a number with a point are told apart. -/
inductive Json where
  | null
  | bool (value : Bool)
  | int (value : Int)
  | float (value : Float)
  | text (value : String)
  | array (items : List Json)
  | object (fields : List (String × Json))
  deriving Inhabited

namespace Json

/-- A count as a JSON value. -/
def nat (n : Nat) : Json := .int n

/-- A machine word as a JSON value. -/
def word (n : UInt64) : Json := .int n.toNat

/-- A list of texts as a JSON value. -/
def texts (values : List String) : Json := .array (values.map .text)

/-- A text, or the missing value. -/
def optionalText (value : Option String) : Json := (value.map Json.text).getD .null

/-- The field of the given name, if the value is given: for fields that are left out otherwise. -/
def field? (name : String) (value : Option Json) : List (String × Json) :=
  (value.map fun v ↦ (name, v)).toList

/-- The value of a field, if there is such a field. -/
def get? (value : Json) (name : String) : Option Json :=
  match value with
  | .object fields => fields.lookup name
  | _ => none

end Json

end TaintRules

namespace TaintRules.Json

/-! ### Writing JSON

The compact form: no blanks between the tokens, fields in the order of the value. Control
characters are escaped and all other characters stand for themselves. -/

/-- The two small hexadecimal digits of a number below 256. -/
def twoHexDigits (n : Nat) : List Char := [Nat.digitChar (n / 16), Nat.digitChar (n % 16)]

/-- What stands for `c` inside a JSON string. -/
def escapeChar (c : Char) : List Char :=
  if c = '"' then ['\\', '"']
  else if c = '\\' then ['\\', '\\']
  else if c = '\n' then ['\\', 'n']
  else if c = '\r' then ['\\', 'r']
  else if c = '\t' then ['\\', 't']
  else if c = '\x08' then ['\\', 'b']
  else if c = '\x0c' then ['\\', 'f']
  else if c.toNat < 0x20 then ['\\', 'u', '0', '0'] ++ twoHexDigits c.toNat
  else [c]

/-- A JSON string. -/
def quote (s : String) : List Char := '"' :: s.toList.flatMap escapeChar ++ ['"']

mutual

/-- The characters of a value in compact form. -/
def chars : Json → List Char
  | .null => ['n', 'u', 'l', 'l']
  | .bool true => ['t', 'r', 'u', 'e']
  | .bool false => ['f', 'a', 'l', 's', 'e']
  | .int n => (toString n).toList
  | .float x => (Decimal.Format.record.text x).toList
  | .text s => quote s
  | .array items => '[' :: itemsChars items ++ [']']
  | .object fields => '\x7b' :: fieldsChars fields ++ ['\x7d']

/-- The items of an array, with commas between them. -/
def itemsChars : List Json → List Char
  | [] => []
  | [item] => chars item
  | item :: rest => chars item ++ ',' :: itemsChars rest

/-- The fields of an object, with commas between them. -/
def fieldsChars : List (String × Json) → List Char
  | [] => []
  | [(name, value)] => quote name ++ ':' :: chars value
  | (name, value) :: rest => quote name ++ ':' :: chars value ++ ',' :: fieldsChars rest

end

/-- The value in compact form. -/
def write (value : Json) : String := String.ofList (chars value)

end TaintRules.Json
