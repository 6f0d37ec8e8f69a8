import TaintRules.Entity.Basic
import TaintRules.Rule.Patterns

/-!
# Results of runs

A run gives its matches, what kept it from being complete, and its counts.
-/

namespace TaintRules

/-- A match of a rule. -/
structure RuleMatch where
  ruleId : String
  atomId : String
  entity : Entity
  confidence : Float
  effectKind : AtomKind
  category : Option String
  severity : Severity
  tier : Tier
  /-- Whether the match rests on weaker evidence, which its confidence takes into account. -/
  guarded : Bool
  deriving DecidableEq, Repr

/-- A condition under which a run goes on without something. -/
inductive Diagnostic where
  /-- A rule had too many candidates, and only the first were kept. -/
  | overflow (ruleId : String) (generated kept : Nat)
  /-- The time of a rule was over, and its other candidates were skipped. -/
  | timeout (ruleId : String) (evaluated skipped budget : Nat)
  /-- An entity was left out. -/
  | malformed (error : MalformedEntity)
  deriving DecidableEq, Repr

/-- The counts of a run. -/
structure RunStats where
  entities : Nat := 0
  rulesEvaluated : Nat := 0
  rulesSkipped : Nat := 0
  generated : Nat := 0
  evaluated : Nat := 0
  reported : Nat := 0
  capped : Nat := 0
  belowThreshold : Nat := 0
  cacheHit : Bool := false
  /-- A run leaves it at zero. -/
  elapsedMicros : Nat := 0
  deriving DecidableEq, Repr

/-- The result of a run; matches come in the order of the rules, then of the entities. -/
structure MatchSet where
  found : List RuleMatch
  diagnostics : List Diagnostic
  stats : RunStats
  deriving DecidableEq, Repr

namespace Diagnostic

/-- The rule at fault. -/
def ruleId? : Diagnostic → Option String
  | .overflow ruleId _ _ | .timeout ruleId _ _ _ => some ruleId
  | .malformed _ => none

/-- Whether matches of a rule may be missing. -/
def isPartial (diagnostic : Diagnostic) : Bool := diagnostic.ruleId?.isSome

end Diagnostic

namespace MatchSet

/-- Whether matches of some rule may be missing. -/
def isPartial (set : MatchSet) : Bool := set.diagnostics.any (·.isPartial)

/-- The rules of which matches may be missing, each once, in the order of the diagnostics. -/
def partialRules (set : MatchSet) : List String :=
  (set.diagnostics.filterMap (·.ruleId?)).eraseDups

/-- The matches of an entity. -/
def forEntity (set : MatchSet) (entityId : String) : List RuleMatch :=
  set.found.filter (·.entity.id == entityId)

/-- Puts diagnostics in front of those of the run. -/
def precede (diagnostics : List Diagnostic) (set : MatchSet) : MatchSet :=
  { set with diagnostics := diagnostics ++ set.diagnostics }

end MatchSet

end TaintRules
