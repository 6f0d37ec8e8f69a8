import TaintRules.Json.Basic
import TaintRules.Schema.Error

/-!
# Reading records from JSON

A record is read field by field. In an object the fields are visited in the order in which they
stand, the first fault is reported, and a field that is missing is reported once all others were
read. A record may also be given as an array of its fields in the order of their declaration.
-/

namespace TaintRules.Schema

/-- A reader of one JSON value. -/
abbrev Reader (α : Type) := Json → Except SchemaError α

/-- What a JSON value counts as in a message. -/
def found : Json → Found
  | .null => .missing
  | .bool b => .bool b
  | .int n => .integer n
  | .float x => .float x
  | .text s => .text s
  | .array _ => .sequence
  | .object _ => .map

/-- The error for a value of another kind. -/
def wrong (expected : String) (value : Json) : Except SchemaError α :=
  .error (.wrongType (found value) expected)

/-- A text. -/
def text : Reader String
  | .text s => .ok s
  | other => wrong "a string" other

/-- A truth value. -/
def bool : Reader Bool
  | .bool b => .ok b
  | other => wrong "a boolean" other

/-- A word of 64 bits; `expected` names it in messages. -/
def word (expected : String) : Reader UInt64
  | .int n =>
    if 0 ≤ n ∧ n < UInt64.size then .ok (UInt64.ofNat n.toNat)
    else .error (.wrongValue (.integer n) expected)
  | other => wrong expected other

/-- A size. -/
def size : Reader UInt64 := word "usize"

/-- A double; a whole number counts as one. -/
def float : Reader Float
  | .int n => .ok (Float.ofInt n)
  | .float x => .ok x
  | other => wrong "f64" other

/-- A value that may be missing. -/
def optional (item : Reader α) : Reader (Option α)
  | .null => .ok none
  | other => (item other).map some

/-- A list of values. -/
def list (item : Reader α) : Reader (List α)
  | .array items => items.mapM item
  | other => wrong "a sequence" other

/-- The value of a named variant, looked up in a table. -/
def variantNamed (table : List (String × α)) (name : String) : Except SchemaError α :=
  match table.lookup name with
  | some value => .ok value
  | none => .error (.unknownVariant name (table.map (·.1)))

/-- A variant without content: its name, or an object with its name as the one field. -/
def variant (table : List (String × α)) : Reader α
  | .text name => variantNamed table name
  | .object [(name, content)] => do
    let value ← variantNamed table name
    match content with
    | .null => return value
    | other => wrong "unit" other
  | .object _ => .error (.wrongValue .map "map with a single key")
  | other => wrong "string or map" other

/-- One field of a record that is read into a `σ`. -/
structure Field (σ : Type) where
  name : String
  required : Bool
  read : Json → σ → Except SchemaError σ

/-- A field that has to be given. -/
def required (name : String) (item : Reader α) (set : α → σ → σ) : Field σ :=
  ⟨name, true, fun value record ↦ (item value).map (set · record)⟩

/-- A field that keeps its default when it is not given. -/
def defaulted (name : String) (item : Reader α) (set : α → σ → σ) : Field σ :=
  ⟨name, false, fun value record ↦ (item value).map (set · record)⟩

/-- A kind of record: its name in messages, its fields, whether other fields are refused, and the
record of defaults. -/
structure Record (σ : Type) where
  title : String
  fields : List (Field σ)
  strict : Bool
  defaults : σ

namespace Record

variable {σ : Type}

/-- Reads one field of an object. -/
def readField (record : Record σ) (read : σ) (entry : String × Json) : Except SchemaError σ :=
  match record.fields.find? (·.name == entry.1) with
  | some field => field.read entry.2 read
  | none =>
    if record.strict then .error (.unknownField entry.1 (record.fields.map (·.name)))
    else .ok read

/-- Reads the fields of an object. -/
def ofFields (record : Record σ) (entries : List (String × Json)) : Except SchemaError σ := do
  let read ← entries.foldlM record.readField record.defaults
  match record.fields.find? fun field ↦ field.required && !entries.any (·.1 == field.name) with
  | some field => .error (.missingField field.name)
  | none => return read

/-- How many items a record given by position has, in words. -/
def lengthText (record : Record σ) : String :=
  record.title ++ " with " ++ toString record.fields.length
    ++ (if record.fields.length = 1 then " element" else " elements")

/-- Reads fields given by position; `done` of them were read before. -/
def ofItems (record : Record σ) (surplus : String) :
    Nat → List (Field σ) → List Json → σ → Except SchemaError σ
  | _, [], [], read => .ok read
  | done, [], items, _ => .error (.wrongLength (done + items.length) surplus)
  | done, field :: fields, [], read =>
    if field.required then .error (.wrongLength done record.lengthText)
    else ofItems record surplus (done + 1) fields [] read
  | done, field :: fields, item :: items, read => do
    ofItems record surplus (done + 1) fields items (← field.read item read)

/-- Reads a record from an object or an array. -/
def read (record : Record σ) : Reader σ
  | .object entries => record.ofFields entries
  | .array items =>
    record.ofItems "fewer elements in array" 0 record.fields items record.defaults
  | other => wrong record.title other

end Record

end TaintRules.Schema
