import TaintRules.Decimal
import TaintRules.Text.Quoted

/-!
# Values of the wrong shape

A value that was read from a document need not have the shape that is wanted. The error says what
was found and what would have been right. Documents of either kind share the errors; they differ
in the word for the missing value and in the way a number is quoted.
-/

namespace TaintRules

/-- What was found, as far as the message shows it. -/
inductive Found where
  | missing
  | bool (value : Bool)
  | integer (value : Int)
  | float (value : Float)
  | text (value : String)
  | sequence
  | map
  | bareVariant

/-- Why a value does not have the wanted shape. -/
inductive SchemaError where
  /-- The value is of another kind than expected. -/
  | wrongType (found : Found) (expected : String)
  /-- The value is of the right kind and outside what is allowed. -/
  | wrongValue (found : Found) (expected : String)
  /-- A record given by position has too few or too many items. -/
  | wrongLength (length : Nat) (expected : String)
  | missingField (name : String)
  | duplicateField (name : String)
  | unknownField (name : String) (allowed : List String)
  | unknownVariant (name : String) (allowed : List String)
  /-- The name of a field is no number where one is due. -/
  | notNumericKey (key : String)
  /-- The name of a field begins like a number and is none that can be used. -/
  | badNumericKey (key : String)
  /-- The value has the shape and is refused for what it says. -/
  | refused (reason : String)

/-- The wording in which a kind of document reports what was found. -/
structure Wording where
  missing : String
  number : Decimal.Format

/-- The wording for JSON. -/
def Wording.json : Wording := ⟨"null", .record⟩

/-- The wording for YAML. -/
def Wording.yaml : Wording := ⟨"unit value", .quoted⟩

/-- What was found, in words. -/
def Found.describe (wording : Wording) : Found → String
  | .missing => wording.missing
  | .bool b => s!"boolean `{b}`"
  | .integer n => s!"integer `{n}`"
  | .float x => "floating point `" ++ wording.number.text x ++ "`"
  | .text s => "string " ++ Text.quote s
  | .sequence => "sequence"
  | .map => "map"
  | .bareVariant => "unit variant"

/-- The names that would have been right. -/
def oneOf : List String → String
  | [a] => s!"`{a}`"
  | [a, b] => s!"`{a}` or `{b}`"
  | names => "one of " ++ ", ".intercalate (names.map fun name ↦ s!"`{name}`")

/-- The wording of the error, where it has one. -/
def SchemaError.message? (wording : Wording) : SchemaError → Option String
  | .wrongType found expected =>
    some ("invalid type: " ++ found.describe wording ++ ", expected " ++ expected)
  | .wrongValue found expected =>
    some ("invalid value: " ++ found.describe wording ++ ", expected " ++ expected)
  | .wrongLength length expected => some s!"invalid length {length}, expected {expected}"
  | .missingField name => some s!"missing field `{name}`"
  | .duplicateField name => some s!"duplicate field `{name}`"
  | .unknownField name allowed => some (s!"unknown field `{name}`, expected " ++ oneOf allowed)
  | .unknownVariant name allowed =>
    some (s!"unknown variant `{name}`, expected " ++ oneOf allowed)
  | .notNumericKey _ => some "invalid value: expected key to be a number in quotes"
  | .badNumericKey _ => none
  | .refused reason => some reason

end TaintRules
