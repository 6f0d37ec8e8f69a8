import TaintRules.Rule.Generator

/-!
# Plans for checks

What candidates are checked for: the type of the receiver, if the plan for candidates does not
decide it, and the declared conditions on arguments. Each condition is checked once, cheap ones
first, and a rule with conditions that contradict each other is refused.
-/

namespace TaintRules

/-- One check of a candidate. -/
inductive Predicate where
  | baseType (pattern : Pattern)
  | argPresent (position : UInt64)
  | argConst (position : UInt64)
  | argNotConst (position : UInt64)
  | argMatches (position : UInt64) (pattern : Pattern)
  deriving DecidableEq, Repr

namespace Predicate

/-- The relative cost of the check. -/
def cost : Predicate → Nat
  | .argPresent _ | .argConst _ | .argNotConst _ => 1
  | .baseType pattern | .argMatches _ pattern => 1 + pattern.shape.evalCost

/-- The name of the check. -/
def name : Predicate → String
  | .baseType _ => "base_type"
  | .argPresent _ => "arg_present"
  | .argConst _ => "arg_const"
  | .argNotConst _ => "arg_not_const"
  | .argMatches _ _ => "arg_matches"

/-- Whether no candidate passes both checks. -/
def contradicts : Predicate → Predicate → Bool
  | .argConst x, .argNotConst y | .argNotConst x, .argConst y => x == y
  | _, _ => false

/-- The check that a constraint asks for. -/
def ofConstraint (constraint : ArgConstraint) : Except PatternError Predicate :=
  let position := constraint.position
  match constraint.check with
  | .present => .ok (.argPresent position)
  | .const => .ok (.argConst position)
  | .notConst => .ok (.argNotConst position)
  | .matching pattern => (Pattern.parse pattern).map (.argMatches position)

end Predicate

/-- The checks of a rule, in the order in which they are made, with what they cost. -/
structure PredicatePlan where
  steps : List Predicate
  /-- The cost of a candidate that passes every check. -/
  totalCost : Nat
  /-- The cost of a candidate that fails the first check. -/
  bestCaseCost : Nat
  deriving DecidableEq, Repr

namespace PredicatePlan

/-- The plan that makes some checks one after the other. -/
def ofSteps (steps : List Predicate) : PredicatePlan where
  steps := steps
  totalCost := total (steps.map (·.cost))
  bestCaseCost := (steps.head?.map (·.cost)).getD 0

/-- Adds the check of a constraint, unless it is there already. -/
def addConstraint (ruleId : String) (steps : List Predicate) (constraint : ArgConstraint) :
    Except CompileError (List Predicate) := do
  let refuse := CompileError.badConstraint ruleId constraint.position
  let step ← (Predicate.ofConstraint constraint).mapError (refuse ·.message)
  match steps.find? (·.contradicts step) with
  | some other => throw (refuse ("'" ++ step.name ++ "' contradicts '" ++ other.name ++ "'"))
  | none => return if steps.contains step then steps else steps ++ [step]

/-- The check of the type, if the plan for candidates leaves it. -/
def typeSteps (patterns : RulePatterns) (generator : GeneratorPlan) : List Predicate :=
  if generator.filtersBaseType then [] else patterns.baseType.toList.map .baseType

/-- The plan for the constraints of a rule. Reads have no arguments. -/
def make (ruleId : String) (patterns : RulePatterns) (generator : GeneratorPlan)
    (args : List ArgConstraint) : Except CompileError PredicatePlan := do
  match patterns.target, args with
  | .read, first :: _ =>
    throw (.badConstraint ruleId first.position "property reads have no arguments")
  | _, _ =>
    let steps ← args.foldlM (addConstraint ruleId) (typeSteps patterns generator)
    return ofSteps (steps.mergeSort fun a b ↦ a.cost ≤ b.cost)

end PredicatePlan

end TaintRules
