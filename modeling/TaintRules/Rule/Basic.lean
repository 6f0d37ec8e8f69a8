import TaintRules.Rule.Predicate
import TaintRules.Rule.Score

/-!
# Compiled rules

A compiled rule holds everything that a run needs: its patterns, its plans and its scores. Rules
are ordered from the most to the least specific one; of two rules with equal scores the one with
fewer wildcards comes first, then the one with more literal characters, then the one with the
smaller name.
-/

namespace TaintRules

/-- What a match of a rule means. -/
structure Effect where
  kind : AtomKind
  category : Option String
  deriving DecidableEq, Repr

/-- What is known about the findings of a rule. -/
structure RuleMetadata where
  severity : Severity
  cwe : List String
  owasp : List String
  tags : List String
  description : Option String
  deriving DecidableEq, Repr

/-- A match rule that is ready to run. -/
structure CompiledRule where
  compiledId : String
  ruleId : String
  atomId : String
  tier : Tier
  patternType : PatternType
  patterns : RulePatterns
  generator : GeneratorPlan
  predicates : PredicatePlan
  specificity : Specificity
  confidence : Confidence
  effect : Effect
  metadata : RuleMetadata
  /-- Whether runs trace each candidate. -/
  verbose : Bool
  deriving Repr

namespace CompiledRule

/-- The order in which rules run. -/
def order (a b : CompiledRule) : Ordering :=
  (compare b.specificity.score.rank a.specificity.score.rank).then <|
    (compare a.specificity.wildcards b.specificity.wildcards).then <|
      (compare b.specificity.literals a.specificity.literals).then <|
        compare a.ruleId b.ruleId

/-- The patterns as they are written. -/
def patternText (rule : CompiledRule) : String :=
  match rule.patterns.baseType with
  | some type => type.raw ++ "." ++ rule.patterns.member.raw
  | none => rule.patterns.member.raw

/-- The rule in one line. -/
def explain (rule : CompiledRule) : String :=
  rule.ruleId ++ " [" ++ rule.tier.name ++ "/" ++ rule.patternType.name ++ "] "
    ++ rule.patterns.target.name ++ " " ++ rule.patternText
    ++ " via " ++ rule.generator.target.name ++ ":" ++ rule.generator.lookup.name
    ++ " (cost " ++ toString rule.generator.cost
    ++ ", ~" ++ toString rule.generator.estimate ++ " candidates, "
    ++ toString rule.predicates.steps.length ++ " predicates)"
    ++ " specificity " ++ Decimal.twoPlaces rule.specificity.score.toFloat
    ++ " (wildcards " ++ toString rule.specificity.wildcards
    ++ ", literals " ++ toString rule.specificity.literals
    ++ ") confidence " ++ Decimal.twoPlaces rule.confidence.value

end CompiledRule

/-- Rules in the order in which they run. -/
structure RuleSet where
  rules : List CompiledRule
  deriving Repr

namespace RuleSet

/-- The set of the given rules; rules that are equal in order keep their places. -/
def ofRules (rules : List CompiledRule) : RuleSet :=
  ⟨rules.mergeSort fun a b ↦ (a.order b).isLE⟩

/-- The number of rules. -/
def size (set : RuleSet) : Nat := set.rules.length

/-- The rule of a name. -/
def get? (set : RuleSet) (ruleId : String) : Option CompiledRule :=
  set.rules.find? (·.ruleId == ruleId)

/-- The names of the rules. -/
def ids (set : RuleSet) : List String := set.rules.map (·.ruleId)

/-- The rules of an atom. -/
def forAtom (set : RuleSet) (atomId : String) : RuleSet :=
  ⟨set.rules.filter (·.atomId == atomId)⟩

/-- The rules, one a line. -/
def explain (set : RuleSet) : String := "\n".intercalate (set.rules.map (·.explain))

end RuleSet

end TaintRules
