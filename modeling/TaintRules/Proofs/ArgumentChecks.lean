import TaintRules.Run.Check

/-!
# What the checks of a plan amount to

A plan makes its checks one after the other and stops at the first failure. What it says does not
depend on their order: an entity passes if it fails none of the checks, on weaker evidence if one
of them says so. The checks of a plan are those that the constraints of the rule ask for, and the
check of the type if that was left.
-/

namespace TaintRules

/-! ### Verdicts -/

/-- What a check says of an entity, decided without a cache. -/
def Predicate.verdict (mode : CaseMode) (e : Entity) (check : Predicate) : Verdict :=
  Id.run (check.check .plain mode e)

/-- What verdicts amount to: nothing if one of them is a failure, and else whether one of them
rests on weaker evidence. -/
def Verdict.conclude (verdicts : List Verdict) : Option Bool :=
  if .fail ∈ verdicts then none else some (decide (.guarded ∈ verdicts))

/-- Whether the candidate passed, and if so whether on weaker evidence. -/
def Outcome.guarded? : Outcome → Option Bool
  | .pass guarded => some guarded
  | .fail _ => none

/-- Checks that are made one after the other amount to all their verdicts, and to what was known
before. -/
theorem guarded?_evaluateFrom (mode : CaseMode) (e : Entity) (step : Nat) (guarded : Bool)
    (checks : List Predicate) :
    (Id.run (evaluateFrom .plain mode e step guarded checks)).guarded? =
      (Verdict.conclude (checks.map (·.verdict mode e))).map (guarded || ·) := by
  induction checks generalizing step guarded with
  | nil => simp [evaluateFrom, Outcome.guarded?, Verdict.conclude]
  | cons check rest ih =>
    rw [evaluateFrom, Id.run_bind, List.map_cons]
    cases hv : check.verdict mode e with
    | pass =>
      rw [show Id.run (check.check .plain mode e) = .pass from hv]
      simp only [ih, Verdict.conclude, List.mem_cons, reduceCtorEq, false_or]
    | guarded =>
      rw [show Id.run (check.check .plain mode e) = .guarded from hv]
      simp only [ih, Verdict.conclude, List.mem_cons, reduceCtorEq, false_or]
      split <;> simp
    | fail =>
      rw [show Id.run (check.check .plain mode e) = .fail from hv]
      simp [Outcome.guarded?, Verdict.conclude]

/-! ### The checks of a plan -/

namespace Predicate

/-- Whether the check is about an argument. -/
def isArgument : Predicate → Bool
  | .baseType _ => false
  | .argPresent _ | .argConst _ | .argNotConst _ | .argMatches _ _ => true

/-- Which constraint asks for a check. -/
theorem ofConstraint_eq_ok_iff {constraint : ArgConstraint} {check : Predicate} :
    ofConstraint constraint = .ok check ↔
      match check with
      | .baseType _ => False
      | .argPresent position => constraint = ⟨position, .present⟩
      | .argConst position => constraint = ⟨position, .const⟩
      | .argNotConst position => constraint = ⟨position, .notConst⟩
      | .argMatches position pattern =>
        ∃ raw, constraint = ⟨position, .matching raw⟩ ∧ Pattern.parse raw = .ok pattern := by
  obtain ⟨place, wanted⟩ := constraint
  cases wanted with
  | present | notConst | const => cases check <;> simp [ofConstraint]
  | matching raw =>
    simp only [ofConstraint]
    cases hp : Pattern.parse raw <;> cases check <;> simp [Except.map, hp, and_assoc]

/-- Constraints ask for checks of arguments. -/
theorem isArgument_of_ofConstraint {constraint : ArgConstraint} {check : Predicate}
    (h : ofConstraint constraint = .ok check) : check.isArgument = true := by
  cases check with
  | baseType pattern => exact (ofConstraint_eq_ok_iff.mp h).elim
  | argPresent | argConst | argNotConst | argMatches => rfl

end Predicate

namespace PredicatePlan

variable {ruleId : String} {patterns : RulePatterns} {generator : GeneratorPlan}

/-- The check that is left of the type is about no argument. -/
theorem isArgument_of_mem_typeSteps {check : Predicate}
    (h : check ∈ typeSteps patterns generator) : check.isArgument = false := by
  unfold typeSteps at h
  split at h
  · cases h
  · obtain ⟨type, -, rfl⟩ := List.mem_map.mp h
    rfl

/-- A constraint is added if its pattern can be read and no check is there that contradicts its own,
which goes to the end unless it is there already. -/
theorem addConstraint_eq_ok_iff {steps result : List Predicate} {constraint : ArgConstraint} :
    addConstraint ruleId steps constraint = .ok result ↔
      ∃ step, Predicate.ofConstraint constraint = .ok step ∧
        (∀ other ∈ steps, other.contradicts step = false) ∧
        result = if steps.contains step then steps else steps ++ [step] := by
  unfold addConstraint
  cases hc : Predicate.ofConstraint constraint with
  | error e =>
    constructor
    · intro h
      cases h
    · rintro ⟨step, hs, -⟩
      cases hs
  | ok step =>
    dsimp only [Except.mapError, bind, Except.bind]
    cases hf : steps.find? (·.contradicts step) with
    | some other =>
      have hm := List.mem_of_find?_eq_some hf
      have hx := List.find?_some hf
      constructor
      · intro h
        cases h
      · rintro ⟨found, hfound, hn, -⟩
        cases hfound
        rw [hn other hm] at hx
        cases hx
    | none =>
      have hn : ∀ other ∈ steps, other.contradicts step = false := by simpa using hf
      constructor
      · intro h
        exact ⟨step, rfl, hn, (Except.ok.inj h).symm⟩
      · rintro ⟨found, hfound, -, rfl⟩
        cases hfound
        rfl

/-- Adding a constraint adds the check that it asks for and no other. -/
theorem mem_of_addConstraint {steps result : List Predicate} {constraint : ArgConstraint}
    (h : addConstraint ruleId steps constraint = .ok result) (check : Predicate) :
    check ∈ result ↔ check ∈ steps ∨ Predicate.ofConstraint constraint = .ok check := by
  obtain ⟨step, hc, -, rfl⟩ := addConstraint_eq_ok_iff.mp h
  rw [hc, Except.ok.injEq]
  split
  · next hm =>
    rw [List.contains_iff_mem] at hm
    constructor
    · exact Or.inl
    · rintro (h | rfl)
      · exact h
      · exact hm
  · rw [List.mem_append, List.mem_singleton, eq_comm]

private theorem mem_of_foldlM {args : List ArgConstraint} {steps result : List Predicate}
    (h : args.foldlM (addConstraint ruleId) steps = .ok result) (check : Predicate) :
    check ∈ result ↔
      check ∈ steps ∨ ∃ constraint ∈ args, Predicate.ofConstraint constraint = .ok check := by
  induction args generalizing steps with
  | nil =>
    cases h
    simp
  | cons constraint rest ih =>
    rw [List.foldlM_cons] at h
    cases hs : addConstraint ruleId steps constraint with
    | error e =>
      rw [hs] at h
      cases h
    | ok added =>
      rw [hs] at h
      rw [ih h, mem_of_addConstraint hs, or_assoc]
      simp

/-- A plan has the checks that the constraints add to that of the type, cheap ones first; only calls
have arguments to check. -/
theorem make_eq_ok_iff {args : List ArgConstraint} {plan : PredicatePlan} :
    make ruleId patterns generator args = .ok plan ↔
      (patterns.target = .call ∨ args = []) ∧
        ∃ steps, args.foldlM (addConstraint ruleId) (typeSteps patterns generator) = .ok steps ∧
          plan = ofSteps (steps.mergeSort fun a b ↦ a.cost ≤ b.cost) := by
  unfold make
  cases ht : patterns.target with
  | call =>
    cases args.foldlM (addConstraint ruleId) (typeSteps patterns generator) with
    | error e => exact ⟨nofun, nofun⟩
    | ok steps =>
      simp [bind, Except.bind, pure, Except.pure, eq_comm]
  | read =>
    cases args with
    | cons first rest => exact ⟨nofun, nofun⟩
    | nil => simp [bind, Except.bind, pure, Except.pure, eq_comm]

/-- The checks of a plan are that of the type, if it was left, and those that the constraints ask
for. -/
theorem mem_steps_of_make {args : List ArgConstraint} {plan : PredicatePlan}
    (h : make ruleId patterns generator args = .ok plan) (check : Predicate) :
    check ∈ plan.steps ↔ check ∈ typeSteps patterns generator ∨
      ∃ constraint ∈ args, Predicate.ofConstraint constraint = .ok check := by
  obtain ⟨-, steps, hf, rfl⟩ := make_eq_ok_iff.mp h
  rw [ofSteps, List.mem_mergeSort]
  exact mem_of_foldlM hf check

end PredicatePlan

end TaintRules
