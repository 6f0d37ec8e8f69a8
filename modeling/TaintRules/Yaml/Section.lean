import TaintRules.Schema.Error
import TaintRules.Yaml.Value

/-!
# Reading settings from YAML values

A group of settings is a mapping from their names to their values. Reading goes through the entries
in the order of the document and reports the first fault; a name that is no setting is refused, and
so is a setting that is given twice. A setting that is not given keeps its default.
-/

namespace TaintRules.Yaml

/-- What a value counts as in a message. -/
def found (value : Value) : Found :=
  match value.untag with
  | .null | .tagged _ _ => .missing
  | .bool b => .bool b
  | .int n => .integer n
  | .float x => .float x
  | .text s => .text s
  | .sequence _ => .sequence
  | .mapping _ => .map

/-- A reader of one value. -/
abbrev Reader (α : Type) := Value → Except SchemaError α

/-- The error for a value of another kind. -/
def wrong (expected : String) (value : Value) : Except SchemaError α :=
  .error (.wrongType (found value) expected)

/-- A double; a whole number counts as one. -/
def readFloat : Reader Float := fun value ↦
  match value.untag with
  | .int n => .ok (Float.ofInt n)
  | .float x => .ok x
  | _ => wrong "f64" value

/-- A whole number from zero up to below a limit; `expected` names it in messages. -/
def readBelow (limit : Nat) (expected : String) : Reader Nat := fun value ↦
  match value.untag with
  | .int n =>
    if 0 ≤ n ∧ n < limit then .ok n.toNat else .error (.wrongValue (.integer n) expected)
  | _ => wrong expected value

/-- A word of 64 bits. -/
def readWord (expected : String) : Reader UInt64 := fun value ↦
  (readBelow UInt64.size expected value).map UInt64.ofNat

/-- A truth value. -/
def readBool : Reader Bool := fun value ↦
  match value.untag with
  | .bool b => .ok b
  | _ => wrong "a boolean" value

/-- A text. -/
def readText : Reader String := fun value ↦
  match value.untag with
  | .text s => .ok s
  | _ => wrong "a string" value

/-- A value that may be missing. -/
def readOptional (item : Reader α) : Reader (Option α)
  | .null => .ok none
  | value => (item value).map some

/-- One setting of a group that is read into a `σ`: how to read its value into the group, and how
to write it, if it is written at all. -/
structure Setting (σ : Type) where
  name : String
  read : Value → σ → Except SchemaError σ
  write : σ → Option Value

/-- A group of settings: its name in messages, its settings, and its defaults. -/
structure Section (σ : Type) where
  title : String
  settings : List (Setting σ)
  defaults : σ

namespace Section

variable {σ : Type}

/-- Reads entries into the group, after those of the settings in `seen`. -/
def readEntries (group : Section σ) :
    (seen : List String) → σ → List (Value × Value) → Except SchemaError σ
  | _, read, [] => .ok read
  | seen, read, (key, value) :: rest =>
    match key.untag with
    | .text name =>
      match group.settings.find? (·.name == name) with
      | some setting => do
        if seen.contains name then throw (.duplicateField name)
        readEntries group (name :: seen) (← setting.read value read) rest
      | none => .error (.unknownField name (group.settings.map (·.name)))
    | _ => wrong "field identifier" key

/-- Reads a group; the missing value counts as a mapping without entries. -/
def read (group : Section σ) : Reader σ := fun value ↦
  match value.untag with
  | .mapping entries => group.readEntries [] group.defaults entries
  | .null => .ok group.defaults
  | _ => wrong group.title value

/-- The entries that write a group. -/
def entries (group : Section σ) (settings : σ) : List (Value × Value) :=
  group.settings.filterMap fun setting ↦
    (setting.write settings).map fun value ↦ (.text setting.name, value)

/-- Sets the value of a key, in its old place if it has one. -/
def setKey (key value : Value) : List (Value × Value) → List (Value × Value)
  | [] => [(key, value)]
  | (other, old) :: rest =>
    if other.same key then (other, value) :: rest else (other, old) :: setKey key value rest

/-- Lays the entries of a mapping over a group. A mapping behind a tag is not seen. -/
def overlay (group : Section σ) (base : σ) (patch : Option Value) : Except SchemaError σ :=
  let merged := match patch with
    | some (.mapping given) =>
      given.foldl (fun entries (key, value) ↦ setKey key value entries) (group.entries base)
    | _ => group.entries base
  group.read (.mapping merged)

end Section

end TaintRules.Yaml
