import TaintRules.Rule.Atom
import TaintRules.Schema.Record

/-!
# Atoms as JSON

An atom may have fields that are not its own; a match rule may not. A constraint on an argument
holds its position, its check and what the check needs in one object.
-/

namespace TaintRules

/-- A constraint, with the parts of its check beside its position. -/
def ArgConstraint.toJson (constraint : ArgConstraint) : Json :=
  .object ([("position", .word constraint.position), ("check", .text constraint.check.name)]
    ++ match constraint.check with
      | .matching pattern => [("pattern", .text pattern)]
      | _ => [])

/-- A match rule; what is missing is left out. -/
def MatchRule.toJson (rule : MatchRule) : Json :=
  .object (Json.field? "base_type" (rule.baseType.map .text)
    ++ Json.field? "call" (rule.call.map .text)
    ++ Json.field? "read" (rule.read.map .text)
    ++ (if rule.args.isEmpty then [] else [("args", .array (rule.args.map (·.toJson)))])
    ++ [("strategy", .text rule.strategy.name)])

/-- An atom; a missing description or category is left out. -/
def Atom.toJson (atom : Atom) : Json :=
  .object ([("id", .text atom.id), ("kind", .text atom.kind.name), ("tags", .texts atom.tags),
      ("match", .array (atom.matchRules.map (·.toJson))), ("cwe", .texts atom.cwe),
      ("owasp", .texts atom.owasp), ("severity", .text atom.severity.name)]
    ++ Json.field? "description" (atom.description.map .text)
    ++ Json.field? "category" (atom.category.map .text)
    ++ [("debug", .bool atom.debug)])

namespace Schema

/-- The check of a name, with the pattern that belongs to some. -/
def checkNamed (name : String) (pattern : Option Json) : Except SchemaError ArgCheck :=
  match name with
  | "present" => .ok .present
  | "not_const" => .ok .notConst
  | "const" => .ok .const
  | "matches" =>
    match pattern with
    | some value => (text value).map .matching
    | none => .error (.missingField "pattern")
  | other => .error (.unknownVariant other ArgCheck.names)

/-- The name of a check, given as a text or by its number. -/
def checkName : Reader String
  | .text name => .ok name
  | .int n =>
    if n < 0 then wrong "variant identifier" (.int n)
    else match ArgCheck.names[n.toNat]? with
      | some name => .ok name
      | none => .error (.wrongValue (.integer n) "variant index 0 <= i < 4")
  | other => wrong "variant identifier" other

/-- A constraint on an argument. Its position is read first. -/
def argConstraint : Reader ArgConstraint
  | .object fields => do
    let some position := fields.lookup "position" | .error (.missingField "position")
    let position ← size position
    let some check := fields.lookup "check" | .error (.missingField "check")
    return ⟨position, ← checkNamed (← checkName check) (fields.lookup "pattern")⟩
  | other => wrong "struct ArgConstraint" other

/-- A match rule. -/
def matchRule : Record MatchRule where
  title := "struct MatchRule"
  strict := true
  defaults := {}
  fields := [
    defaulted "base_type" (optional text) fun v r ↦ { r with baseType := v },
    defaulted "call" (optional text) fun v r ↦ { r with call := v },
    defaulted "read" (optional text) fun v r ↦ { r with read := v },
    defaulted "args" (list argConstraint) fun v r ↦ { r with args := v },
    defaulted "strategy" (variant Strategy.table) fun v r ↦ { r with strategy := v }]

/-- An atom. -/
def atom : Record Atom where
  title := "struct AtomSpec"
  strict := false
  defaults := { id := "", kind := .source }
  fields := [
    required "id" text fun v a ↦ { a with id := v },
    required "kind" (variant AtomKind.table) fun v a ↦ { a with kind := v },
    defaulted "tags" (list text) fun v a ↦ { a with tags := v },
    defaulted "match" (list matchRule.read) fun v a ↦ { a with matchRules := v },
    defaulted "cwe" (list text) fun v a ↦ { a with cwe := v },
    defaulted "owasp" (list text) fun v a ↦ { a with owasp := v },
    defaulted "severity" (variant Severity.table) fun v a ↦ { a with severity := v },
    defaulted "description" (optional text) fun v a ↦ { a with description := v },
    defaulted "category" (optional text) fun v a ↦ { a with category := v },
    defaulted "debug" bool fun v a ↦ { a with debug := v }]

end Schema

end TaintRules
