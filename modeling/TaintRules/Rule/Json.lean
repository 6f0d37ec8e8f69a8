import TaintRules.Hash.Blake3
import TaintRules.Json.Basic
import TaintRules.Pattern.Basic
import TaintRules.Rule.Basic

/-!
# Compiled rules as JSON

A rule is written with all that was decided when it was compiled. Its checks in compact form are
part of what it is recognised by.
-/

namespace TaintRules

/-- A check, its name first. -/
def Predicate.toJson (step : Predicate) : Json :=
  .object (("check", .text step.name) :: match step with
    | .baseType pattern => [("pattern", pattern.toJson)]
    | .argPresent position | .argConst position | .argNotConst position =>
      [("position", .word position)]
    | .argMatches position pattern =>
      [("position", .word position), ("pattern", pattern.toJson)])

/-- A lookup, its name first. -/
def Lookup.toJson (lookup : Lookup) : Json :=
  .object (("lookup", .text lookup.name) :: match lookup with
    | .literalScan field anchor => [("field", .text field.name), ("anchor", .text anchor)]
    | .exact | .keyScan => [])

/-- A plan for candidates. -/
def GeneratorPlan.toJson (plan : GeneratorPlan) : Json :=
  .object [("target", .text plan.target.name), ("lookup", plan.lookup.toJson),
    ("filters_base_type", .bool plan.filtersBaseType), ("cost_hint", .nat plan.cost),
    ("estimated_candidates", .nat plan.estimate), ("expected_cache_hit_rate", .float plan.hitRate)]

/-- A plan for checks, with its costs. -/
def PredicatePlan.toJson (plan : PredicatePlan) : Json :=
  .object [("steps", .array (plan.steps.map (·.toJson))), ("total_cost", .nat plan.totalCost),
    ("best_case_cost", .nat plan.bestCaseCost)]

/-- The patterns of a rule. -/
def RulePatterns.toJson (patterns : RulePatterns) : Json :=
  .object ([("target", .text patterns.target.name)]
    ++ Json.field? "base_type" (patterns.baseType.map (·.toJson))
    ++ [("member", patterns.member.toJson)])

/-- Specificity with its parts. -/
def Specificity.toJson (specificity : Specificity) : Json :=
  .object [("final_score", .float specificity.score.toFloat),
    ("wildcard_count", .nat specificity.wildcards), ("literal_length", .nat specificity.literals)]

/-- Confidence with its parts. -/
def Confidence.toJson (confidence : Confidence) : Json :=
  .object [("base", .float confidence.base), ("adjustment", .float confidence.adjustment),
    ("value", .float confidence.value), ("min_report_threshold", .float confidence.threshold)]

/-- The effect; a missing category is left out. -/
def Effect.toJson (effect : Effect) : Json :=
  .object ([("kind", .text effect.kind.name)]
    ++ Json.field? "category" (effect.category.map .text))

/-- The metadata; a missing description is left out. -/
def RuleMetadata.toJson (metadata : RuleMetadata) : Json :=
  .object ([("severity", .text metadata.severity.name), ("cwe", .texts metadata.cwe),
      ("owasp", .texts metadata.owasp), ("tags", .texts metadata.tags)]
    ++ Json.field? "description" (metadata.description.map .text))

/-- The fields of a rule. -/
def CompiledRule.jsonFields (rule : CompiledRule) : List (String × Json) :=
  [("compiled_id", .text rule.compiledId), ("rule_id", .text rule.ruleId),
    ("atom_id", .text rule.atomId), ("tier", .text rule.tier.name),
    ("pattern_type", .text rule.patternType.name), ("patterns", rule.patterns.toJson),
    ("generator_exec", rule.generator.toJson), ("predicate_exec", rule.predicates.toJson),
    ("specificity", rule.specificity.toJson), ("confidence", rule.confidence.toJson),
    ("effect", rule.effect.toJson), ("metadata", rule.metadata.toJson),
    ("trace", .text (if rule.verbose then "verbose" else "off"))]

/-! ### The identity of compiled rules

A rule is recognised by the hash of what it matches: its name, its tier, its patterns and its
checks. -/

/-- What a rule matches, and under which name. -/
structure RuleIdentity where
  ruleId : String
  tier : Tier
  patternType : PatternType
  patterns : RulePatterns
  steps : List Predicate
  deriving DecidableEq, Repr

namespace RuleIdentity

/-- The texts that go into the identity, in order; a missing pattern counts as the empty text. -/
def parts (identity : RuleIdentity) : List String :=
  [identity.ruleId, identity.tier.name, identity.patternType.name, identity.patterns.target.name,
    (identity.patterns.baseType.map (·.raw)).getD "", identity.patterns.member.raw]

/-- The checks in compact form. -/
def stepsText (identity : RuleIdentity) : String :=
  (Json.array (identity.steps.map (·.toJson))).write

/-- The bytes that are hashed. -/
def encode (identity : RuleIdentity) : List UInt8 :=
  identity.parts.flatMap Bytes.sized ++ Bytes.utf8 identity.stepsText

/-- The hash in hexadecimal digits. -/
def toHex (identity : RuleIdentity) : String := Bytes.hex (Blake3.hash identity.encode)

end RuleIdentity

end TaintRules
