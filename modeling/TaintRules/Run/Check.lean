import TaintRules.Run.Candidates

/-!
# Checking candidates

A candidate passes a check, fails it, or passes it on weaker evidence: that an argument is no
constant may be unknown. It passes a plan if it fails none of its checks.
-/

namespace TaintRules

/-- What one check says of a candidate. -/
inductive Verdict where
  | pass
  /-- Passed on weaker evidence. -/
  | guarded
  | fail
  deriving DecidableEq, Repr

/-- What a plan says of a candidate. -/
inductive Outcome where
  | pass (guarded : Bool)
  /-- The first check that failed. -/
  | fail (step : Nat)
  deriving DecidableEq, Repr

/-- The verdict of a check that knows no weaker evidence. -/
def Verdict.ofBool (passed : Bool) : Verdict := if passed then .pass else .fail

/-- The flag of an argument that is there: whether it is a constant, as far as this is known. -/
def CallSite.constFlag (site : CallSite) (position : UInt64) : Option (Option Bool) :=
  if position.toNat < site.args.length then some (site.isConst.get? position) else none

section Check

variable {m : Type → Type} [Monad m]

/-- Whether a pattern matches a text, if there is one. -/
def decideText (decide : Decider m) (mode : CaseMode) (pattern : Pattern) :
    Option String → m Verdict
  | some text => return .ofBool (← decide pattern mode (mode.fold text))
  | none => return .fail

/-- What a check says of an entity. -/
def Predicate.check (decide : Decider m) (mode : CaseMode) (entity : Entity) :
    Predicate → m Verdict
  | .baseType pattern => decideText decide mode pattern entity.baseType
  | .argPresent position =>
    return .ofBool ((entity.asCall?.bind (·.constFlag position)).isSome)
  | .argConst position =>
    return .ofBool (entity.asCall?.bind (·.constFlag position) = some (some true))
  | .argNotConst position =>
    match entity.asCall?.bind (·.constFlag position) with
    | some (some false) => return .pass
    | some none => return .guarded
    | some (some true) | none => return .fail
  | .argMatches position pattern =>
    decideText decide mode pattern (entity.asCall?.bind (·.args[position.toNat]?))

/-- What some checks say of an entity, when `step` checks were made before. -/
def evaluateFrom (decide : Decider m) (mode : CaseMode) (entity : Entity) :
    Nat → Bool → List Predicate → m Outcome
  | _, guarded, [] => return .pass guarded
  | step, guarded, check :: rest => do
    match ← check.check decide mode entity with
    | .pass => evaluateFrom decide mode entity (step + 1) guarded rest
    | .guarded => evaluateFrom decide mode entity (step + 1) true rest
    | .fail => return .fail step

/-- What a plan says of an entity. -/
def PredicatePlan.evaluate (decide : Decider m) (mode : CaseMode) (entity : Entity)
    (plan : PredicatePlan) : m Outcome :=
  evaluateFrom decide mode entity 0 false plan.steps

end Check

end TaintRules
