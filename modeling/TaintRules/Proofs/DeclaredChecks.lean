import TaintRules.Proofs.PlainRun
import TaintRules.Proofs.RuleMeaning

/-!
# Plans for checks mean the declared constraints

The constraints of a rule mean something without a plan: each says of the argument at its position
that it is there, that it is or is no constant, or that its text matches a pattern. A plan puts the
checks into an order of its own and makes each of them once. What it says of an entity is still the
conjunction of the constraints, however they are ordered and repeated, and a plan is only refused if
there is nothing to plan: for reads, for patterns that cannot be read, and for constraints that no
entity meets.
-/

namespace TaintRules

/-! ### Constraints -/

/-- The argument of a call at a position: its text, and whether it is a constant, as far as this is
known. -/
def Entity.argument? (e : Entity) (position : UInt64) : Option (String × Option Bool) :=
  e.asCall?.bind fun site ↦
    site.args[position.toNat]?.map fun text ↦ (text, site.isConst.get? position)

namespace ArgConstraint

/-- Whether the pattern of the constraint, if it has one, can be read. -/
def isReadable (constraint : ArgConstraint) : Bool :=
  match constraint.check with
  | .present | .const | .notConst => true
  | .matching raw => (Pattern.parse raw).isOk

/-- Whether an entity meets the constraint. An argument of which it is not known that it is a
constant counts as none. -/
def holds (mode : CaseMode) (e : Entity) (constraint : ArgConstraint) : Bool :=
  (e.argument? constraint.position).any fun (text, known) ↦
    match constraint.check with
    | .present => true
    | .const => known = some true
    | .notConst => known ≠ some true
    | .matching raw => (Pattern.parse raw).toOption.any (·.accepts mode text)

/-- Whether the constraint wants no constant where an argument is there and it is not known whether
it is one. -/
def isUnsure (e : Entity) (constraint : ArgConstraint) : Bool :=
  constraint.check = .notConst && (e.argument? constraint.position).any (·.2 = none)

/-- Whether some position is to carry a constant and no constant. -/
def Clash (args : List ArgConstraint) : Prop :=
  ∃ position, ⟨position, .const⟩ ∈ args ∧ ⟨position, .notConst⟩ ∈ args

/-- An entity meets a constraint that is unsure of it. -/
theorem holds_of_isUnsure {e : Entity} {constraint : ArgConstraint}
    (h : constraint.isUnsure e = true) (mode : CaseMode) : constraint.holds mode e = true := by
  rw [isUnsure, Bool.and_eq_true, decide_eq_true_eq] at h
  obtain ⟨hc, ha⟩ := h
  obtain ⟨⟨text, known⟩, ha, hk⟩ := (Option.any_eq_true _ _).mp ha
  obtain rfl : known = none := of_decide_eq_true hk
  rw [holds, ha, hc]
  rfl

/-- No entity meets constraints that clash. -/
theorem exists_not_holds_of_clash {args : List ArgConstraint} (h : Clash args) (mode : CaseMode)
    (e : Entity) : ∃ constraint ∈ args, constraint.holds mode e = false := by
  obtain ⟨position, hc, hn⟩ := h
  by_cases hf : holds mode e ⟨position, .const⟩ = true
  · refine ⟨_, hn, ?_⟩
    obtain ⟨⟨text, known⟩, ha, hk⟩ := (Option.any_eq_true _ _).mp hf
    have hk : known = some true := of_decide_eq_true hk
    rw [holds, ha, hk]
    rfl
  · exact ⟨_, hc, Bool.eq_false_of_not_eq_true hf⟩

end ArgConstraint

/-! ### Checks of constraints -/

/-- An argument is there if its constness can be asked for. -/
theorem Entity.constFlag_eq (e : Entity) (position : UInt64) :
    e.asCall?.bind (·.constFlag position) = (e.argument? position).map (·.2) := by
  cases e with
  | read access => rfl
  | call site =>
    change site.constFlag position =
      (site.args[position.toNat]?.map fun text ↦ (text, site.isConst.get? position)).map (·.2)
    unfold CallSite.constFlag
    split
    · next h => simp [List.getElem?_eq_getElem h]
    · next h => simp [List.getElem?_eq_none (Nat.le_of_not_lt h)]

/-- The text of an argument. -/
theorem Entity.argument?_text (e : Entity) (position : UInt64) :
    e.asCall?.bind (·.args[position.toNat]?) = (e.argument? position).map (·.1) := by
  cases e with
  | read access => rfl
  | call site =>
    change site.args[position.toNat]? =
      (site.args[position.toNat]?.map fun text ↦ (text, site.isConst.get? position)).map (·.1)
    rw [Option.map_map]
    exact Option.map_id'.symm

namespace Predicate

/-- A constraint asks for a check if its pattern can be read. -/
theorem exists_ofConstraint_iff (constraint : ArgConstraint) :
    (∃ check, ofConstraint constraint = .ok check) ↔ constraint.isReadable = true := by
  obtain ⟨position, check⟩ := constraint
  cases check with
  | present => exact ⟨fun _ ↦ rfl, fun _ ↦ ⟨_, rfl⟩⟩
  | notConst => exact ⟨fun _ ↦ rfl, fun _ ↦ ⟨_, rfl⟩⟩
  | const => exact ⟨fun _ ↦ rfl, fun _ ↦ ⟨_, rfl⟩⟩
  | matching raw =>
    simp only [ofConstraint, ArgConstraint.isReadable]
    cases Pattern.parse raw with
    | ok pattern => exact ⟨fun _ ↦ rfl, fun _ ↦ ⟨_, rfl⟩⟩
    | error e =>
      constructor
      · rintro ⟨check, hc⟩
        cases hc
      · intro h
        cases h

/-- What the check of a constraint says of an entity. -/
theorem verdict_of_ofConstraint {constraint : ArgConstraint} {check : Predicate}
    (h : ofConstraint constraint = .ok check) (mode : CaseMode) (e : Entity) :
    check.verdict mode e =
      if constraint.isUnsure e then .guarded else .ofBool (constraint.holds mode e) := by
  obtain ⟨position, wanted⟩ := constraint
  cases wanted with
  | present =>
    cases h
    change Verdict.ofBool _ = Verdict.ofBool _
    rw [Entity.constFlag_eq, ArgConstraint.holds]
    cases e.argument? position <;> rfl
  | notConst =>
    cases h
    unfold verdict Predicate.check ArgConstraint.isUnsure ArgConstraint.holds
    dsimp only
    rw [Entity.constFlag_eq]
    obtain _ | ⟨text, _ | _ | _⟩ := e.argument? position <;> rfl
  | const =>
    cases h
    change Verdict.ofBool _ = Verdict.ofBool _
    rw [Entity.constFlag_eq, ArgConstraint.holds]
    obtain _ | ⟨text, _ | _ | _⟩ := e.argument? position <;> rfl
  | matching raw =>
    cases hp : Pattern.parse raw with
    | error error =>
      simp only [ofConstraint, hp] at h
      cases h
    | ok pattern =>
      simp only [ofConstraint, hp] at h
      cases h
      change Id.run (decideText .plain mode pattern _) = Verdict.ofBool _
      simp only [Entity.argument?_text, ArgConstraint.holds, hp, Pattern.accepts_eq_acceptsFolded]
      cases e.argument? position <;> rfl

/-- The check of a constraint fails if the constraint is not met. -/
theorem verdict_eq_fail_iff {constraint : ArgConstraint} {check : Predicate}
    (h : ofConstraint constraint = .ok check) (mode : CaseMode) (e : Entity) :
    check.verdict mode e = .fail ↔ constraint.holds mode e = false := by
  rw [verdict_of_ofConstraint h]
  split
  · next hu => simp [ArgConstraint.holds_of_isUnsure hu]
  · cases constraint.holds mode e <;> simp [Verdict.ofBool]

/-- The check of a constraint rests on weaker evidence if the constraint is unsure. -/
theorem verdict_eq_guarded_iff {constraint : ArgConstraint} {check : Predicate}
    (h : ofConstraint constraint = .ok check) (mode : CaseMode) (e : Entity) :
    check.verdict mode e = .guarded ↔ constraint.isUnsure e = true := by
  rw [verdict_of_ofConstraint h]
  split
  · next hu => simp [hu]
  · next hu => cases constraint.holds mode e <;> simp [Verdict.ofBool, hu]

/-- Two checks contradict each other if one wants a constant where the other wants none. -/
theorem contradicts_iff (a b : Predicate) :
    a.contradicts b = true ↔ ∃ position,
      (a = .argConst position ∧ b = .argNotConst position) ∨
        (a = .argNotConst position ∧ b = .argConst position) := by
  unfold contradicts
  split
  · simpa using eq_comm
  · simpa using eq_comm
  · next hc hn =>
    rw [Bool.false_eq_true, false_iff]
    rintro ⟨position, ⟨rfl, rfl⟩ | ⟨rfl, rfl⟩⟩
    · exact hc _ _ rfl rfl
    · exact hn _ _ rfl rfl

theorem contradicts_comm (a b : Predicate) : a.contradicts b = b.contradicts a := by
  rw [Bool.eq_iff_iff, contradicts_iff, contradicts_iff]
  simp only [and_comm, or_comm]

theorem contradicts_self (a : Predicate) : a.contradicts a = false := by
  cases a <;> rfl

end Predicate

namespace ArgConstraint

/-- Whether one of the constraints asks for a check. -/
def Ask (args : List ArgConstraint) (check : Predicate) : Prop :=
  ∃ constraint ∈ args, Predicate.ofConstraint constraint = .ok check

theorem ask_nil (check : Predicate) : ¬ Ask [] check := by
  simp [Ask]

theorem ask_cons {constraint : ArgConstraint} {rest : List ArgConstraint} {check : Predicate} :
    Ask (constraint :: rest) check ↔
      Predicate.ofConstraint constraint = .ok check ∨ Ask rest check := by
  simp [Ask]

/-- Constraints clash if they ask for checks that contradict each other. -/
theorem clash_iff (args : List ArgConstraint) :
    Clash args ↔ ∃ a b, Ask args a ∧ Ask args b ∧ a.contradicts b = true := by
  constructor
  · rintro ⟨position, hc, hn⟩
    exact ⟨.argConst position, .argNotConst position, ⟨_, hc, rfl⟩, ⟨_, hn, rfl⟩,
      (Predicate.contradicts_iff _ _).mpr ⟨position, .inl ⟨rfl, rfl⟩⟩⟩
  · rintro ⟨a, b, ⟨c, hc, ha⟩, ⟨d, hd, hb⟩, hab⟩
    obtain ⟨position, ⟨rfl, rfl⟩ | ⟨rfl, rfl⟩⟩ := (Predicate.contradicts_iff a b).mp hab
    · obtain rfl : c = ⟨position, .const⟩ := Predicate.ofConstraint_eq_ok_iff.mp ha
      obtain rfl : d = ⟨position, .notConst⟩ := Predicate.ofConstraint_eq_ok_iff.mp hb
      exact ⟨position, hc, hd⟩
    · obtain rfl : c = ⟨position, .notConst⟩ := Predicate.ofConstraint_eq_ok_iff.mp ha
      obtain rfl : d = ⟨position, .const⟩ := Predicate.ofConstraint_eq_ok_iff.mp hb
      exact ⟨position, hd, hc⟩

end ArgConstraint

/-! ### Planning -/

namespace PredicatePlan

open ArgConstraint

variable {ruleId : String} {patterns : RulePatterns} {generator : GeneratorPlan}

/-- Constraints are added one after the other if each of them can be read and no two checks, old or
new, contradict each other. -/
theorem exists_foldlM_iff (steps : List Predicate) (args : List ArgConstraint) :
    (∃ result, args.foldlM (addConstraint ruleId) steps = .ok result) ↔
      (∀ constraint ∈ args, constraint.isReadable = true) ∧
        ∀ a b, (a ∈ steps ∨ Ask args a) → Ask args b → a.contradicts b = false := by
  induction args generalizing steps with
  | nil =>
    refine ⟨fun _ ↦ ⟨by simp, fun a b _ hb ↦ absurd hb (ask_nil b)⟩, fun _ ↦ ⟨steps, rfl⟩⟩
  | cons constraint rest ih =>
    rw [List.forall_mem_cons, ← Predicate.exists_ofConstraint_iff]
    simp only [List.foldlM_cons]
    cases hs : addConstraint ruleId steps constraint with
    | error e =>
      -- either the pattern cannot be read, or the check contradicts one that is there
      constructor
      · rintro ⟨result, hr⟩
        cases hr
      · rintro ⟨⟨⟨step, hc⟩, -⟩, hab⟩
        have hadd : addConstraint ruleId steps constraint = .ok _ := addConstraint_eq_ok_iff.mpr
          ⟨step, hc, fun other ho ↦ hab other step (.inl ho) (ask_cons.mpr (.inl hc)), rfl⟩
        rw [hs] at hadd
        cases hadd
    | ok added =>
      obtain ⟨step, hc, hn, -⟩ := addConstraint_eq_ok_iff.mp hs
      have hm (check : Predicate) : check ∈ added ↔ check ∈ steps ∨ step = check := by
        rw [mem_of_addConstraint hs, hc, Except.ok.injEq]
      have hask (check : Predicate) : Ask (constraint :: rest) check ↔
          step = check ∨ Ask rest check := by
        rw [ask_cons, hc, Except.ok.injEq]
      change (∃ result, rest.foldlM (addConstraint ruleId) added = .ok result) ↔ _
      rw [ih added]
      simp only [hm, hask]
      constructor
      · rintro ⟨hr, hab⟩
        refine ⟨⟨⟨step, hc⟩, hr⟩, ?_⟩
        rintro a b ha (rfl | hb)
        · rcases ha with ha | rfl | ha
          · exact hn a ha
          · exact Predicate.contradicts_self _
          · rw [Predicate.contradicts_comm]
            exact hab _ a (.inl (.inr rfl)) ha
        · exact hab a b (or_assoc.mpr ha) hb
      · rintro ⟨⟨-, hr⟩, hab⟩
        exact ⟨hr, fun a b ha hb ↦ hab a b (or_assoc.mp ha) (.inr hb)⟩

/-- A plan can be made unless the constraints are for reads, have a pattern that cannot be read, or
clash. -/
theorem exists_make_iff (ruleId : String) (patterns : RulePatterns) (generator : GeneratorPlan)
    (args : List ArgConstraint) :
    (∃ plan, make ruleId patterns generator args = .ok plan) ↔
      (patterns.target = .call ∨ args = []) ∧
        (∀ constraint ∈ args, constraint.isReadable = true) ∧ ¬ Clash args := by
  have hsteps : (∃ plan, make ruleId patterns generator args = .ok plan) ↔
      (patterns.target = .call ∨ args = []) ∧
        ∃ steps, args.foldlM (addConstraint ruleId) (typeSteps patterns generator) = .ok steps := by
    simp only [make_eq_ok_iff]
    constructor
    · rintro ⟨plan, ht, steps, hf, -⟩
      exact ⟨ht, steps, hf⟩
    · rintro ⟨ht, steps, hf⟩
      exact ⟨_, ht, steps, hf, rfl⟩
  rw [hsteps, exists_foldlM_iff, clash_iff]
  refine and_congr_right fun _ ↦ and_congr_right fun _ ↦ ?_
  constructor
  · rintro hab ⟨a, b, ha, hb, hc⟩
    rw [hab a b (.inr ha) hb] at hc
    cases hc
  · rintro hn a b (ht | ha) hb
    · -- the check of the type contradicts nothing
      have hx := isArgument_of_mem_typeSteps ht
      cases a with
      | baseType pattern => rfl
      | argPresent | argConst | argNotConst | argMatches => cases hx
    · exact Bool.eq_false_of_not_eq_true fun hc ↦ hn ⟨a, b, ha, hb, hc⟩

/-! ### Arrangement -/

/-- How the checks of a plan are arranged: each is made once, cheap ones first. The cost in the best
case is that of the first check, if there is one, and no check costs less. -/
structure IsArranged (plan : PredicatePlan) : Prop where
  nodup : plan.steps.Nodup
  sorted : plan.steps.Pairwise fun a b ↦ a.cost ≤ b.cost
  bestCaseCost_eq : plan.bestCaseCost = plan.steps.head?.elim 0 (·.cost)
  bestCaseCost_le : ∀ check ∈ plan.steps, plan.bestCaseCost ≤ check.cost
  totalCost_eq : plan.totalCost = plan.steps.foldr (fun check sum ↦ check.cost + sum) 0

private theorem nodup_of_foldlM {args : List ArgConstraint} {steps result : List Predicate}
    (h : args.foldlM (addConstraint ruleId) steps = .ok result) (hs : steps.Nodup) :
    result.Nodup := by
  induction args generalizing steps with
  | nil =>
    cases h
    exact hs
  | cons constraint rest ih =>
    rw [List.foldlM_cons] at h
    cases ha : addConstraint ruleId steps constraint with
    | error e =>
      rw [ha] at h
      cases h
    | ok added =>
      rw [ha] at h
      apply ih h
      obtain ⟨step, -, -, rfl⟩ := addConstraint_eq_ok_iff.mp ha
      split
      · exact hs
      · next hn =>
        rw [List.contains_iff_mem] at hn
        rw [← List.concat_eq_append]
        exact hs.concat hn

private theorem nodup_typeSteps : (typeSteps patterns generator).Nodup := by
  unfold typeSteps
  split
  · exact List.nodup_nil
  · cases patterns.baseType <;> simp

private theorem sorted_mergeSort (steps : List Predicate) :
    (steps.mergeSort fun a b ↦ a.cost ≤ b.cost).Pairwise fun a b ↦ a.cost ≤ b.cost := by
  have htrans (a b c : Predicate) (hab : decide (a.cost ≤ b.cost) = true)
      (hbc : decide (b.cost ≤ c.cost) = true) : decide (a.cost ≤ c.cost) = true := by
    rw [decide_eq_true_eq] at *
    exact hab.trans hbc
  have htotal (a b : Predicate) :
      (decide (a.cost ≤ b.cost) || decide (b.cost ≤ a.cost)) = true := by
    rw [Bool.or_eq_true, decide_eq_true_eq, decide_eq_true_eq]
    exact Nat.le_total _ _
  exact (List.pairwise_mergeSort htrans htotal steps).imp fun h ↦ of_decide_eq_true h

/-- The checks of every plan are arranged. -/
theorem isArranged_of_make {args : List ArgConstraint} {plan : PredicatePlan}
    (h : make ruleId patterns generator args = .ok plan) : plan.IsArranged := by
  obtain ⟨-, steps, hf, rfl⟩ := make_eq_ok_iff.mp h
  have hsorted := sorted_mergeSort steps
  have hnodup : (steps.mergeSort fun a b ↦ a.cost ≤ b.cost).Nodup :=
    (List.mergeSort_perm _ _).nodup_iff.mpr (nodup_of_foldlM hf nodup_typeSteps)
  generalize (steps.mergeSort fun a b ↦ a.cost ≤ b.cost) = checks at hsorted hnodup
  cases checks with
  | nil => exact ⟨hnodup, hsorted, rfl, fun _ _ ↦ Nat.zero_le _, rfl⟩
  | cons first rest =>
    refine ⟨hnodup, hsorted, rfl, ?_, List.foldr_map⟩
    intro check hcheck
    rcases List.mem_cons.mp hcheck with rfl | hcheck
    · exact Nat.le_refl _
    · exact List.rel_of_pairwise_cons hsorted hcheck

/-! ### Evaluation -/

/-- Whether an entity has a type that the rule accepts, where the plan for candidates does not
decide this. -/
def typeHolds (patterns : RulePatterns) (generator : GeneratorPlan) (mode : CaseMode) (e : Entity) :
    Bool :=
  generator.filtersBaseType || patterns.baseType.all fun type ↦ e.baseType.any (type.accepts mode)

/-- The check that is left of the type fails unless the type is accepted. -/
theorem exists_typeSteps_fail_iff (mode : CaseMode) (e : Entity) :
    (∃ check ∈ typeSteps patterns generator, check.verdict mode e = .fail) ↔
      typeHolds patterns generator mode e = false := by
  unfold typeHolds
  cases hf : generator.filtersBaseType with
  | true => simp [typeSteps, hf]
  | false =>
    rw [Bool.false_or, ← all_typeSteps hf mode e]
    simp

variable {args : List ArgConstraint} {plan : PredicatePlan}

/-- Some check of a plan has a verdict if that of the type has it, or one that a constraint asks
for. -/
theorem exists_verdict_iff (h : make ruleId patterns generator args = .ok plan) {mode : CaseMode}
    {e : Entity} {verdict : Verdict} {gives : ArgConstraint → Prop}
    (hv : ∀ constraint check, Predicate.ofConstraint constraint = .ok check →
      (check.verdict mode e = verdict ↔ gives constraint)) :
    (∃ check ∈ plan.steps, check.verdict mode e = verdict) ↔
      (∃ check ∈ typeSteps patterns generator, check.verdict mode e = verdict) ∨
        ∃ constraint ∈ args, gives constraint := by
  have hread := ((exists_make_iff ..).mp ⟨plan, h⟩).2.1
  simp only [mem_steps_of_make h]
  constructor
  · rintro ⟨check, ht | ⟨constraint, hm, hc⟩, hcheck⟩
    · exact .inl ⟨check, ht, hcheck⟩
    · exact .inr ⟨constraint, hm, (hv constraint check hc).mp hcheck⟩
  · rintro (⟨check, ht, hcheck⟩ | ⟨constraint, hm, hg⟩)
    · exact ⟨check, .inl ht, hcheck⟩
    · obtain ⟨check, hc⟩ := (Predicate.exists_ofConstraint_iff constraint).mpr (hread _ hm)
      exact ⟨check, .inr ⟨constraint, hm, hc⟩, (hv constraint check hc).mpr hg⟩

/-- Some check of a plan fails if the type is not accepted or a constraint is not met. -/
theorem exists_fail_iff (h : make ruleId patterns generator args = .ok plan) (mode : CaseMode)
    (e : Entity) :
    (∃ check ∈ plan.steps, check.verdict mode e = .fail) ↔
      typeHolds patterns generator mode e = false ∨
        ∃ constraint ∈ args, constraint.holds mode e = false := by
  rw [exists_verdict_iff h fun _ _ hc ↦ Predicate.verdict_eq_fail_iff hc mode e,
    exists_typeSteps_fail_iff]

/-- Some check of a plan rests on weaker evidence if a constraint is unsure. -/
theorem exists_guarded_iff (h : make ruleId patterns generator args = .ok plan) (mode : CaseMode)
    (e : Entity) :
    (∃ check ∈ plan.steps, check.verdict mode e = .guarded) ↔
      ∃ constraint ∈ args, constraint.isUnsure e = true := by
  rw [exists_verdict_iff h fun _ _ hc ↦ Predicate.verdict_eq_guarded_iff hc mode e]
  apply or_iff_right
  rintro ⟨check, ht, hcheck⟩
  exact CompiledRule.verdict_typeSteps_ne_guarded ht mode e hcheck

/-- What a plan says of an entity, whatever the matcher was used for before. -/
theorem guarded?_evaluate_of_make (h : make ruleId patterns generator args = .ok plan)
    (mode : CaseMode) (e : Entity) {matcher : Matcher} (hm : matcher.Reached) :
    (plan.evaluate .cached mode e matcher).1.guarded? =
      if typeHolds patterns generator mode e && args.all (·.holds mode e) then
        some (args.any (·.isUnsure e))
      else none := by
  have hplain : (plan.evaluate .cached mode e matcher).1 =
      Id.run (evaluateFrom .plain mode e 0 false plan.steps) :=
    (gives_evaluateFrom mode e 0 false plan.steps matcher hm.faithful).1
  rw [hplain, guarded?_evaluateFrom]
  simp only [Verdict.conclude, List.mem_map, Bool.false_or, Option.map_id',
    exists_fail_iff h, exists_guarded_iff h]
  by_cases hp : (typeHolds patterns generator mode e && args.all (·.holds mode e)) = true
  · rw [if_pos hp, if_neg (by simpa using hp)]
    congr 1
    rw [Bool.eq_iff_iff, decide_eq_true_eq, List.any_eq_true]
  · rw [if_neg hp, if_pos (by simpa [imp_iff_not_or] using hp)]

/-- An entity passes a plan if its type is accepted, where this was left, and it meets every
constraint; it passes on weaker evidence if one of the constraints is unsure. -/
theorem evaluate_eq_pass_iff (h : make ruleId patterns generator args = .ok plan) (mode : CaseMode)
    (e : Entity) {matcher : Matcher} (hm : matcher.Reached) (guarded : Bool) :
    (plan.evaluate .cached mode e matcher).1 = .pass guarded ↔
      typeHolds patterns generator mode e = true ∧
        (∀ constraint ∈ args, constraint.holds mode e = true) ∧
        (guarded = true ↔ ∃ constraint ∈ args, constraint.isUnsure e = true) := by
  have hpass (outcome : Outcome) : outcome = .pass guarded ↔ outcome.guarded? = some guarded := by
    cases outcome <;> simp [Outcome.guarded?]
  have hguard : args.any (·.isUnsure e) = guarded ↔
      (guarded = true ↔ ∃ constraint ∈ args, constraint.isUnsure e = true) := by
    rw [eq_comm, Bool.eq_iff_iff, List.any_eq_true]
  rw [hpass, guarded?_evaluate_of_make h mode e hm, Option.ite_none_right_eq_some, Bool.and_eq_true,
    List.all_eq_true, and_assoc, Option.some.injEq, hguard]

/-- Plans for the same constraints, in any order and however often each is declared, say the same of
every entity. -/
theorem guarded?_evaluate_congr {others : List ArgConstraint} {other : PredicatePlan}
    (hsame : ∀ constraint, constraint ∈ others ↔ constraint ∈ args)
    (h : make ruleId patterns generator args = .ok plan)
    (h' : make ruleId patterns generator others = .ok other) (mode : CaseMode) (e : Entity)
    {matcher matcher' : Matcher} (hm : matcher.Reached) (hm' : matcher'.Reached) :
    (other.evaluate .cached mode e matcher').1.guarded? =
      (plan.evaluate .cached mode e matcher).1.guarded? := by
  have hall : others.all (·.holds mode e) = args.all (·.holds mode e) := by
    rw [Bool.eq_iff_iff, List.all_eq_true, List.all_eq_true]
    simp only [hsame]
  have hany : others.any (·.isUnsure e) = args.any (·.isUnsure e) := by
    rw [Bool.eq_iff_iff, List.any_eq_true, List.any_eq_true]
    simp only [hsame]
  rw [guarded?_evaluate_of_make h mode e hm, guarded?_evaluate_of_make h' mode e hm', hall, hany]

/-- **A plan means the conjunction of the declared constraints, whatever their order.** It is
refused for constraints on reads, for patterns that cannot be read and for constraints that clash,
which no entity meets. -/
theorem make_conjoins_constraints (ruleId : String) (patterns : RulePatterns)
    (generator : GeneratorPlan) (args : List ArgConstraint) :
    ((∃ plan, make ruleId patterns generator args = .ok plan) ↔
        (patterns.target = .call ∨ args = []) ∧
          (∀ constraint ∈ args, constraint.isReadable = true) ∧ ¬ Clash args) ∧
      (∀ plan, make ruleId patterns generator args = .ok plan →
        plan.IsArranged ∧
          ∀ mode e, ∀ matcher : Matcher, matcher.Reached → ∀ guarded,
            ((plan.evaluate .cached mode e matcher).1 = .pass guarded ↔
              typeHolds patterns generator mode e = true ∧
                (∀ constraint ∈ args, constraint.holds mode e = true) ∧
                (guarded = true ↔ ∃ constraint ∈ args, constraint.isUnsure e = true))) ∧
      (∀ others : List ArgConstraint, (∀ constraint, constraint ∈ others ↔ constraint ∈ args) →
        ((∃ other, make ruleId patterns generator others = .ok other) ↔
            ∃ plan, make ruleId patterns generator args = .ok plan) ∧
          ∀ plan other, make ruleId patterns generator args = .ok plan →
            make ruleId patterns generator others = .ok other →
            ∀ mode e, ∀ matcher matcher' : Matcher, matcher.Reached → matcher'.Reached →
              (other.evaluate .cached mode e matcher').1.guarded? =
                (plan.evaluate .cached mode e matcher).1.guarded?) ∧
      ((patterns.target = .call ∨ args = []) →
        (∀ constraint ∈ args, constraint.isReadable = true) →
        (¬ ∃ plan, make ruleId patterns generator args = .ok plan) →
        ∀ mode e, ∃ constraint ∈ args, constraint.holds mode e = false) := by
  refine ⟨exists_make_iff .., ?_, ?_, ?_⟩
  · intro plan h
    exact ⟨isArranged_of_make h, fun mode e _ hm guarded ↦ evaluate_eq_pass_iff h mode e hm guarded⟩
  · intro others hsame
    refine ⟨?_, fun plan other h h' mode e _ _ hm hm' ↦
      guarded?_evaluate_congr hsame h h' mode e hm hm'⟩
    have hnil : others = [] ↔ args = [] := by
      simp only [List.eq_nil_iff_forall_not_mem, hsame]
    simp only [exists_make_iff, hnil, hsame, Clash]
  · intro ht hr hn mode e
    have hclash : Clash args := by
      by_contra hc
      exact hn ((exists_make_iff ..).mpr ⟨ht, hr, hc⟩)
    exact exists_not_holds_of_clash hclash mode e

/-- Patterns for a call whose type is checked after the lookup. -/
def shellPatterns : RulePatterns := ⟨.call, some (.ofText "os*"), .ofText "exec"⟩

/-- The plan that looks the call up by its name. -/
def shellLookup : GeneratorPlan :=
  .make .call [(.member, shellPatterns.member)] false shellPatterns.baseType

/-- A call with a constant and with an argument of which nothing is known. -/
def shellCall : Entity :=
  .call ((CallSite.addArg { id := "call", baseType := some "os", call := "exec" } "'ls'"
    (some true)).addArg "path" none)

/-- Constraints, one of them twice, are checked in the order of their costs. The call meets them on
weaker evidence, and constraints that clash are refused. -/
theorem make_conjoins_constraints_shell :
    let args : List ArgConstraint :=
      [⟨0, .matching "*ls*"⟩, ⟨1, .notConst⟩, ⟨0, .const⟩, ⟨1, .notConst⟩]
    GeneratorPlan.choose "shell" shellPatterns = .ok shellLookup ∧
    (∃ plan, make "shell" shellPatterns shellLookup args = .ok plan ∧ plan.steps.Nodup ∧
        (plan.evaluate .cached .sensitive shellCall (.new 8)).1 = .pass true) ∧
      ¬ ∃ plan, make "shell" shellPatterns shellLookup (⟨1, .const⟩ :: args) = .ok plan := by
  intro args
  obtain ⟨hok, hplan, -⟩ := make_conjoins_constraints "shell" shellPatterns shellLookup args
  have hclash : ¬ Clash args := by
    rintro ⟨position, hc, hn⟩
    obtain rfl : position = 0 := by simpa [args] using hc
    simp [args] at hn
  obtain ⟨plan, hmake⟩ := hok.mpr ⟨.inl rfl, by decide +kernel, hclash⟩
  refine ⟨rfl, ⟨plan, hmake, (hplan plan hmake).1.nodup, ?_⟩, ?_⟩
  · exact ((hplan plan hmake).2 _ _ _ (.new 8) _).mpr (by decide +kernel)
  · intro hother
    have hall := (make_conjoins_constraints "shell" shellPatterns shellLookup _).1.mp hother
    exact hall.2.2 ⟨1, List.mem_cons_self, by simp [args]⟩

end PredicatePlan

end TaintRules
