import TaintRules.Entity.Json
import TaintRules.Json.Basic
import TaintRules.Run.MatchSet

/-!
# Results as JSON

A diagnostic is written with its name beside its fields. It may also be read from an array of its
name and its fields.
-/

namespace TaintRules

/-- A match; a missing category is left out. -/
def RuleMatch.toJson (found : RuleMatch) : Json :=
  .object ([("rule_id", .text found.ruleId), ("atom_id", .text found.atomId),
      ("entity", found.entity.toJson), ("confidence", .float found.confidence),
      ("effect_kind", .text found.effectKind.name)]
    ++ Json.field? "category" (found.category.map .text)
    ++ [("severity", .text found.severity.name), ("tier", .text found.tier.name),
      ("guarded", .bool found.guarded)])

/-- A diagnostic, its name first. -/
def Diagnostic.toJson : Diagnostic → Json
  | .overflow ruleId generated kept =>
    .object [("diagnostic", .text "candidate_overflow"), ("rule_id", .text ruleId),
      ("generated", .nat generated), ("kept", .nat kept)]
  | .timeout ruleId evaluated skipped budget =>
    .object [("diagnostic", .text "execution_timeout"), ("rule_id", .text ruleId),
      ("evaluated", .nat evaluated), ("skipped", .nat skipped), ("budget_ms", .nat budget)]
  | .malformed error =>
    .object [("diagnostic", .text "malformed_entity"), ("error", error.toJson)]

/-- The counts of a run without its duration. -/
def RunStats.countFields (stats : RunStats) : List (String × Json) :=
  [("entities", .nat stats.entities), ("rules_evaluated", .nat stats.rulesEvaluated),
    ("rules_skipped", .nat stats.rulesSkipped), ("candidates_generated", .nat stats.generated),
    ("candidates_evaluated", .nat stats.evaluated), ("matches", .nat stats.reported),
    ("capped", .nat stats.capped), ("below_threshold", .nat stats.belowThreshold),
    ("index_cache_hit", .bool stats.cacheHit)]

/-- The counts of a run. -/
def RunStats.toJson (stats : RunStats) : Json :=
  .object (stats.countFields ++ [("elapsed_us", .nat stats.elapsedMicros)])

/-- A result. -/
def MatchSet.toJson (set : MatchSet) : Json :=
  .object [("matches", .array (set.found.map (·.toJson))),
    ("diagnostics", .array (set.diagnostics.map (·.toJson))), ("stats", set.stats.toJson)]

namespace Schema

/-- A count. -/
def count : Reader Nat := fun value ↦ (size value).map (·.toNat)

/-- A match. -/
def ruleMatch : Record RuleMatch where
  title := "struct RuleMatch"
  strict := false
  defaults := {
    ruleId := "", atomId := "", entity := .read { id := "", read := "" }, confidence := 0.0
    effectKind := .source, category := none, severity := .medium, tier := .tier1, guarded := false }
  fields := [
    required "rule_id" text fun v r ↦ { r with ruleId := v },
    required "atom_id" text fun v r ↦ { r with atomId := v },
    required "entity" entity fun v r ↦ { r with entity := v },
    required "confidence" float fun v r ↦ { r with confidence := v },
    required "effect_kind" (variant AtomKind.table) fun v r ↦ { r with effectKind := v },
    defaulted "category" (optional text) fun v r ↦ { r with category := v },
    required "severity" (variant Severity.table) fun v r ↦ { r with severity := v },
    required "tier" (variant Tier.table) fun v r ↦ { r with tier := v },
    defaulted "guarded" bool fun v r ↦ { r with guarded := v }]

/-- The fields of a variant, read by name or by position. -/
def variantFields (record : Record σ) : Reader σ
  | .object entries => record.ofFields entries
  | .array items =>
    record.ofItems (toString record.fields.length ++ " elements in sequence") 0 record.fields items
      record.defaults
  | other => wrong "struct variant" other

/-- The fields of an entity of unknown kind. -/
def unknownKindRecord : Record (String × String) where
  title := "struct variant MalformedEntity::UnknownKind"
  strict := false
  defaults := ("", "")
  fields := [
    required "id" text fun v r ↦ (v, r.2),
    required "kind" text fun v r ↦ (r.1, v)]

/-- The fields of an entity without a name. -/
def missingMemberRecord : Record (String × EntityKind × String) where
  title := "struct variant MalformedEntity::MissingMember"
  strict := false
  defaults := ("", .call, "")
  fields := [
    required "id" text fun v r ↦ (v, r.2),
    required "kind" (variant [("call", EntityKind.call), ("read", .read)])
      fun v r ↦ (r.1, v, r.2.2),
    required "field" text fun v r ↦ (r.1, r.2.1, v)]

/-- The fields of an entity with two names. -/
def conflictingMembersRecord : Record String where
  title := "struct variant MalformedEntity::ConflictingMembers"
  strict := false
  defaults := ""
  fields := [required "id" text fun v _ ↦ v]

/-- The reader of each cause for which an entity is left out. -/
def malformedVariants : List (String × Reader MalformedEntity) := [
  ("UnknownKind", fun value ↦
    (variantFields unknownKindRecord value).map fun r ↦ .unknownKind r.1 r.2),
  ("MissingMember", fun value ↦
    (variantFields missingMemberRecord value).map fun r ↦ .missingMember r.1 r.2.1 r.2.2),
  ("ConflictingMembers", fun value ↦
    (variantFields conflictingMembersRecord value).map .conflictingMembers)]

/-- The cause for which an entity was left out: an object with its name as the one field. -/
def malformedEntity : Reader MalformedEntity
  | .object [(name, content)] => do (← variantNamed malformedVariants name) content
  | .text name => do
    let _ ← variantNamed malformedVariants name
    .error (.wrongType .bareVariant "struct variant")
  | .object _ => .error (.wrongValue .map "map with a single key")
  | other => wrong "string or map" other

/-- The fields of an overflow. -/
def overflowRecord : Record (String × Nat × Nat) where
  title := "struct variant ExecutionDiagnostic::CandidateOverflow"
  strict := false
  defaults := ("", 0, 0)
  fields := [
    required "rule_id" text fun v r ↦ (v, r.2),
    required "generated" count fun v r ↦ (r.1, v, r.2.2),
    required "kept" count fun v r ↦ (r.1, r.2.1, v)]

/-- The fields of a timeout. -/
def timeoutRecord : Record (String × Nat × Nat × Nat) where
  title := "struct variant ExecutionDiagnostic::ExecutionTimeout"
  strict := false
  defaults := ("", 0, 0, 0)
  fields := [
    required "rule_id" text fun v r ↦ (v, r.2),
    required "evaluated" count fun v r ↦ (r.1, v, r.2.2),
    required "skipped" count fun v r ↦ (r.1, r.2.1, v, r.2.2.2),
    required "budget_ms" (fun value ↦ (word "u64" value).map (·.toNat))
      fun v r ↦ (r.1, r.2.1, r.2.2.1, v)]

/-- The field of an entity that was left out. -/
def malformedRecord : Record MalformedEntity where
  title := "struct variant ExecutionDiagnostic::MalformedEntity"
  strict := false
  defaults := .conflictingMembers ""
  fields := [required "error" malformedEntity fun v _ ↦ v]

/-- The reader of each diagnostic. -/
def diagnosticVariants : List (String × Reader Diagnostic) := [
  ("candidate_overflow", fun value ↦
    (variantFields overflowRecord value).map fun r ↦ .overflow r.1 r.2.1 r.2.2),
  ("execution_timeout", fun value ↦
    (variantFields timeoutRecord value).map fun r ↦ .timeout r.1 r.2.1 r.2.2.1 r.2.2.2),
  ("malformed_entity", fun value ↦ (variantFields malformedRecord value).map .malformed)]

/-- The reader of the diagnostic that a value names. -/
def diagnosticNamed : Json → Except SchemaError (Reader Diagnostic)
  | .text name => variantNamed diagnosticVariants name
  | other => wrong "variant identifier" other

/-- A diagnostic, its name among its fields or in front of them. -/
def diagnostic : Reader Diagnostic
  | .object fields => do
    match fields.lookup "diagnostic" with
    | some name => (← diagnosticNamed name) (.object (fields.filter (·.1 != "diagnostic")))
    | none => .error (.missingField "diagnostic")
  | .array (name :: items) => do (← diagnosticNamed name) (.array items)
  | .array [] => .error (.missingField "diagnostic")
  | other => wrong "internally tagged enum ExecutionDiagnostic" other

/-- The counts of a run. -/
def runStats : Record RunStats where
  title := "struct ExecutionStats"
  strict := false
  defaults := {}
  fields := [
    required "entities" count fun v s ↦ { s with entities := v },
    required "rules_evaluated" count fun v s ↦ { s with rulesEvaluated := v },
    required "rules_skipped" count fun v s ↦ { s with rulesSkipped := v },
    required "candidates_generated" count fun v s ↦ { s with generated := v },
    required "candidates_evaluated" count fun v s ↦ { s with evaluated := v },
    required "matches" count fun v s ↦ { s with reported := v },
    required "capped" count fun v s ↦ { s with capped := v },
    required "below_threshold" count fun v s ↦ { s with belowThreshold := v },
    required "index_cache_hit" bool fun v s ↦ { s with cacheHit := v },
    required "elapsed_us" (fun value ↦ (word "u64" value).map (·.toNat))
      fun v s ↦ { s with elapsedMicros := v }]

/-- A result. -/
def matchSet : Record MatchSet where
  title := "struct MatchSet"
  strict := false
  defaults := { found := [], diagnostics := [], stats := {} }
  fields := [
    required "matches" (list ruleMatch.read) fun v s ↦ { s with found := v },
    required "diagnostics" (list diagnostic) fun v s ↦ { s with diagnostics := v },
    required "stats" runStats.read fun v s ↦ { s with stats := v }]

end Schema

end TaintRules
