import TaintRules.Decimal
import TaintRules.Entity.Basic
import TaintRules.Schema.Record

/-!
# Entities and records as JSON

Entities are written with their kind in front, and missing fields are left out. They are read as
records, so that a record that describes no entity is refused with the loader's own error.
-/

namespace TaintRules

/-- The flags by position. -/
def ConstFlags.toJson (flags : ConstFlags) : Json :=
  .object (flags.entries.map fun (position, flag) ↦ (toString position.toNat, .bool flag))

/-- An entity, its kind first. -/
def Entity.toJson : Entity → Json
  | .call site =>
    .object ([("kind", .text "call"), ("id", .text site.id)]
      ++ Json.field? "base_type" (site.baseType.map .text)
      ++ [("call", .text site.call)]
      ++ Json.field? "qualified_call" (site.qualifiedCall.map .text)
      ++ [("args", .texts site.args), ("is_const", site.isConst.toJson)])
  | .read access =>
    .object ([("kind", .text "read"), ("id", .text access.id)]
      ++ Json.field? "base_type" (access.baseType.map .text)
      ++ [("read", .text access.read)])

/-- A record, with all its fields. -/
def EntityRecord.toJson (r : EntityRecord) : Json :=
  .object [("id", .text r.id), ("kind", .text r.kind), ("base_type", .optionalText r.baseType),
    ("call", .optionalText r.call), ("read", .optionalText r.read),
    ("qualified_call", .optionalText r.qualifiedCall), ("args", .texts r.args),
    ("is_const", r.isConst.toJson)]

/-- The error, under the name of its cause. -/
def MalformedEntity.toJson : MalformedEntity → Json
  | .unknownKind id kind =>
    .object [("UnknownKind", .object [("id", .text id), ("kind", .text kind)])]
  | .missingMember id kind field =>
    .object [("MissingMember",
      .object [("id", .text id), ("kind", .text kind.name), ("field", .text field)])]
  | .conflictingMembers id => .object [("ConflictingMembers", .object [("id", .text id)])]

namespace Schema

/-- The position that the name of a field writes: digits without a leading zero, below `2 ^ 64`. -/
def position (key : String) : Except SchemaError UInt64 :=
  let cs := key.toList
  let value := Decimal.digitsValue cs
  match cs with
  | first :: rest =>
    if !(first.isDigit || first = '-') then .error (.notNumericKey key)
    else if cs.all Char.isDigit && (first ≠ '0' || rest.isEmpty) && value < UInt64.size then
      .ok (UInt64.ofNat value)
    else .error (.badNumericKey key)
  | [] => .error (.notNumericKey key)

/-- The flags by position. -/
def constFlags : Reader ConstFlags
  | .object fields => fields.foldlM (fun flags (key, value) ↦ do
      let position ← position key
      return flags.insert position (← bool value)) ConstFlags.empty
  | other => wrong "a map" other

/-- A loader's record; every field may be missing and others are passed over. -/
def entityRecord : Record EntityRecord where
  title := "struct RawEntity"
  strict := false
  defaults := {}
  fields := [
    defaulted "id" text fun v r ↦ { r with id := v },
    defaulted "kind" text fun v r ↦ { r with kind := v },
    defaulted "base_type" (optional text) fun v r ↦ { r with baseType := v },
    defaulted "call" (optional text) fun v r ↦ { r with call := v },
    defaulted "read" (optional text) fun v r ↦ { r with read := v },
    defaulted "qualified_call" (optional text) fun v r ↦ { r with qualifiedCall := v },
    defaulted "args" (list text) fun v r ↦ { r with args := v },
    defaulted "is_const" constFlags fun v r ↦ { r with isConst := v }]

/-- An entity, given by a record. -/
def entity : Reader Entity := fun value ↦ do
  match (← entityRecord.read value).toEntity with
  | .ok e => return e
  | .error e => .error (.refused e.message)

end Schema

end TaintRules
