import TaintRules.Proofs.PlanAgreement
import TaintRules.Proofs.SpelledNames

/-!
# Every rule finds something, and none finds everything

Patterns without any literal are refused, and so a compiled rule misses some entity of its kind, one
whose type and name are digits. It finds the entity with the names that spell its patterns: they
are accepted, and they contain the literal by which the scan is narrowed. Only a check of arguments
can stand against that one.
-/

namespace TaintRules

/-! ### Entities by their type and name -/

namespace Entity

/-- An entity of a kind with a type and a name. -/
def typed (kind : EntityKind) (type member : String) : Entity :=
  match kind with
  | .call => .call { id := "", baseType := some type, call := member }
  | .read => .read { id := "", baseType := some type, read := member }

@[simp] theorem kind_typed (kind : EntityKind) (type member : String) :
    (typed kind type member).kind = kind := by
  cases kind <;> rfl

@[simp] theorem baseType_typed (kind : EntityKind) (type member : String) :
    (typed kind type member).baseType = some type := by
  cases kind <;> rfl

@[simp] theorem member_typed (kind : EntityKind) (type member : String) :
    (typed kind type member).member = member := by
  cases kind <;> rfl

end Entity

namespace GeneratorPlan

variable {patterns : RulePatterns} {plan : GeneratorPlan}

/-- An entity with a type and a name is taken and passes the check of the type, if it was left,
exactly if the patterns accept both and the literal of the plan is where it is wanted. -/
theorem takes_typed (hr : patterns.AreRead) (hp : plan ∈ options patterns)
    (ht : plan.target = patterns.table) (mode : CaseMode) (type member : String) :
    (plan.takes mode patterns (.typed patterns.target type member)
      && (PredicatePlan.typeSteps patterns plan).all
        (·.verdict mode (.typed patterns.target type member) ≠ .fail)) =
      ((plan.lookup.admits mode .baseType type && plan.lookup.admits mode .member member)
        && (patterns.baseType.all (·.accepts mode type)
          && patterns.member.accepts mode member)) := by
  obtain ⟨-, hf, hc⟩ := eq_of_mem_options hp
  -- the table of names alone leaves the type to the check, and the others decide both
  by_cases hn : plan.target = .call
  · have hk : patterns.target = .call := by
      cases hk : patterns.target with
      | call => rfl
      | read =>
        rw [ht, RulePatterns.table, hk] at hn
        cases hn
    have hb : plan.lookup.admits mode .baseType type = true := by
      rw [Lookup.admits, anchorFor_baseType_of_call hp hn]
      rfl
    have hname := takesName_eq hr hp mode (mode.fold member)
    rw [← Pattern.accepts_eq_acceptsFolded] at hname
    rw [all_typeSteps (hc hn), takes, hn, hk, hb]
    simp only [Entity.typed, Entity.callKeys, CallSite.any_names, Option.any_none, Bool.or_false,
      hname, Entity.baseType, Option.any_some, Bool.true_and, Lookup.admits]
    rw [Bool.and_assoc, Bool.and_comm (patterns.member.accepts mode member)]
  · have hkeys : plan.takes mode patterns (.typed patterns.target type member) =
        plan.takesKey mode patterns (.fold mode type member) := by
      unfold takes
      rw [ht] at hn ⊢
      unfold RulePatterns.table at hn ⊢
      cases hk : patterns.target with
      | read => simp [Entity.typed, Entity.typedReadKeys]
      | call =>
        simp only [hk] at hn
        rw [if_neg (fun h ↦ hn (if_pos h))]
        simp [Entity.typed, Entity.typedCallKeys]
    rw [typeSteps_eq_nil (hf hn), List.all_nil, Bool.and_true, hkeys, takesKey_eq hr hp hn]
    simp only [RulePatterns.acceptsKey, TypedKey.fold, ← Pattern.accepts_eq_acceptsFolded,
      Lookup.admits]

end GeneratorPlan

/-! ### Patterns of a rule -/

/-- The names that spell the patterns; where there is no pattern for the type, any type will do. -/
def RulePatterns.spelled (patterns : RulePatterns) : KeyField → String
  | .baseType => (patterns.baseType.map (·.spelled)).getD "0"
  | .member => patterns.member.spelled

namespace GeneratorPlan

variable {patterns : RulePatterns} {plan : GeneratorPlan}

/-- A plan is chosen only for patterns of which one has a literal character. -/
theorem exists_literal_of_choose {ruleId : String} (h : choose ruleId patterns = .ok plan) :
    ∃ p ∈ patterns.all, p.literalLength ≠ 0 := by
  have hl : patterns.literalLength ≠ 0 := by
    intro hl
    rw [choose, if_pos hl] at h
    cases h
  obtain ⟨n, hn, hne⟩ := exists_ne_zero_of_total hl
  obtain ⟨p, hp, rfl⟩ := List.mem_map.mp hn
  exact ⟨p, hp, hne⟩

/-- A part of the key is spelled by the name of the pattern that the table is asked for. -/
theorem spelled_of_mem_components {target : IndexTarget} {field : KeyField} {p : Pattern}
    (h : (field, p) ∈ components patterns target) : patterns.spelled field = p.spelled := by
  have hc : (field, p) ∈ components patterns .typeCall := by
    cases target with
    | call => exact List.mem_append_right _ h
    | typeCall | typeRead => exact h
  rcases List.mem_append.mp hc with ht | hm
  · obtain ⟨type, ht, he⟩ := List.mem_map.mp ht
    cases he
    rw [RulePatterns.spelled, Option.mem_toList.mp ht]
    rfl
  · cases List.mem_singleton.mp hm
    rfl

/-- The names that spell the patterns contain the literal of a plan that the patterns admit. -/
theorem admits_spelled (hr : patterns.AreRead) (hp : plan ∈ options patterns) (mode : CaseMode)
    (field : KeyField) : plan.lookup.admits mode field (patterns.spelled field) = true := by
  unfold Lookup.admits
  cases hl : plan.lookup with
  | exact | keyScan => rfl
  | literalScan other anchor =>
    rw [Lookup.anchorFor]
    split
    · next he =>
      subst he
      rw [(eq_of_mem_options hp).1] at hl
      obtain ⟨p, hc, hm⟩ := exists_of_lookupFor hl
      rw [spelled_of_mem_components hc]
      exact (isRead_of_mem_components hr hc).occursIn_spelled hm mode
    · rfl

end GeneratorPlan

namespace RulePatterns

variable {patterns : RulePatterns}

/-- The patterns accept the names that spell them. -/
theorem accepts_spelled (hr : patterns.AreRead) (mode : CaseMode) :
    (patterns.baseType.all (·.accepts mode (patterns.spelled .baseType))
      && patterns.member.accepts mode (patterns.spelled .member)) = true := by
  rw [Bool.and_eq_true]
  refine ⟨?_, (hr _ (by simp [all])).accepts_spelled mode⟩
  cases hb : patterns.baseType with
  | none => rfl
  | some type =>
    rw [spelled, hb]
    exact (hr type (by simp [all, hb])).accepts_spelled mode

/-- There are a type and a name, of one digit each, that the patterns do not accept together if one
of them has a literal character. -/
theorem exists_not_accepts (hr : patterns.AreRead) {p : Pattern} (hp : p ∈ patterns.all)
    (hl : p.literalLength ≠ 0) (mode : CaseMode) :
    ∃ type member, member ∈ ["0", "1"] ∧
      (patterns.baseType.all (·.accepts mode type) && patterns.member.accepts mode member) =
        false := by
  obtain ⟨text, hm, ha⟩ := (hr p hp).exists_not_accepts hl mode
  rcases List.mem_append.mp hp with ht | hn
  · refine ⟨text, "0", by simp, ?_⟩
    rw [Option.mem_toList.mp ht, Option.all_some, ha, Bool.false_and]
  · rw [List.mem_singleton.mp hn] at ha
    exact ⟨"0", text, hm, by rw [ha, Bool.and_false]⟩

end RulePatterns

/-! ### Compiled rules -/

namespace CompiledRule

/-- A rule finds an entity: it is a candidate in the batch that holds it alone, and it passes the
checks. -/
def Finds (mode : CaseMode) (rule : CompiledRule) (e : Entity) (matcher : Matcher) : Prop :=
  let found := rule.candidates .cached (Index.build [e] mode) .endless matcher
  0 ∈ found.1.positions ∧
    ∃ guarded, (rule.predicates.evaluate .cached mode e found.2).1 = .pass guarded

variable {rule : CompiledRule} {declared : MatchRule}

/-- Whatever the matcher was asked before, a rule finds the entities that its plan takes and that
fail no check. -/
theorem Declared.finds_iff (h : rule.Declared declared) {matcher : Matcher}
    (hm : matcher.Reached) (mode : CaseMode) (e : Entity) :
    rule.Finds mode e matcher ↔
      (rule.generator.takes mode rule.patterns e
          && (PredicatePlan.typeSteps rule.patterns rule.generator).all
            (·.verdict mode e ≠ .fail)) = true ∧
        (Verdict.conclude (rule.argumentChecks.map (·.verdict mode e))).isSome = true := by
  have hasked := (gives_candidates (Index.build [e] mode) rule.patterns .endless rule.generator
    matcher hm.faithful).2
  have hout := (gives_evaluateFrom mode e 0 false rule.predicates.steps _ hasked).1
  have hcand : 0 ∈ (rule.candidates .cached (Index.build [e] mode) .endless matcher).1.positions ↔
      rule.generator.takes mode rule.patterns e = true := by
    rw [CompiledRule.candidates, positions_candidates hm, List.mem_findIdxs_iff_exists_getElem_pos]
    simp
  have hpass (outcome : Outcome) :
      (∃ guarded, outcome = .pass guarded) ↔ outcome.guarded?.isSome = true := by
    cases outcome <;> simp [Outcome.guarded?]
  have hchecks := h.guarded?_evaluate mode e
  rw [Bool.and_eq_true, and_assoc, Finds, hcand]
  refine and_congr_right fun _ ↦ ?_
  rw [hpass, PredicatePlan.evaluate, CompiledRule.candidates, hout]
  change (Id.run (rule.predicates.evaluate .plain mode e)).guarded?.isSome = true ↔ _
  rw [hchecks]
  split
  · next ht => rw [and_iff_right ht]
  · next ht => exact iff_of_false Bool.false_ne_true fun hc ↦ ht hc.1

/-- Without declared constraints there are no checks of arguments. -/
theorem Declared.argumentChecks_eq_nil (h : rule.Declared declared) (ha : declared.args = []) :
    rule.argumentChecks = [] := by
  refine List.eq_nil_iff_forall_not_mem.mpr fun check hc ↦ ?_
  obtain ⟨constraint, hm, -⟩ := (h.mem_argumentChecks_iff check).mp hc
  rw [ha] at hm
  cases hm

/-- A compiled rule misses some entity of its kind that has a type and a name, in either mode and
whatever the matcher was asked before. If no constraints on arguments are declared, it finds some
valid entity of its kind, one with a name without wildcards. -/
theorem finds_some_not_all {config : ValidConfig} {atom : Atom} {place : Nat}
    (hr : atom.compileRule config place = .ok rule) (mode : CaseMode) :
    (∃ e : Entity, e.kind = rule.patterns.target ∧ e.baseType.isSome = true ∧
        Text.isBlank e.member = false ∧
        ∀ matcher : Matcher, matcher.Reached → ¬ rule.Finds mode e matcher) ∧
      ∀ declared, atom.matchRules[place]? = some declared → declared.args = [] →
        ∃ e : Entity, e.kind = rule.patterns.target ∧ e.validate = .ok () ∧
          wildcard ∉ e.member.toList ∧
          ∀ matcher : Matcher, matcher.Reached → rule.Finds mode e matcher := by
  obtain ⟨declared, hd, h, -⟩ := Atom.exists_of_compileRule hr
  have hread := MatchRule.areRead_of_patterns h.patterns_eq
  obtain ⟨hp, ht⟩ := GeneratorPlan.mem_options_of_choose h.generator_eq
  have htyped := GeneratorPlan.takes_typed hread hp ht mode
  constructor
  · -- a plan was chosen, so that one of the patterns has a literal, and that one misses a digit
    obtain ⟨p, hmem, hl⟩ := GeneratorPlan.exists_literal_of_choose h.generator_eq
    obtain ⟨type, member, hm, hn⟩ := RulePatterns.exists_not_accepts hread hmem hl mode
    refine ⟨.typed rule.patterns.target type member, by simp, by simp, ?_, fun matcher hr hf ↦ ?_⟩
    · rw [Entity.member_typed]
      rcases List.mem_pair.mp hm with rfl | rfl <;> decide
    · have hf := ((h.finds_iff hr mode _).mp hf).1
      rw [htyped, hn, Bool.and_false] at hf
      cases hf
  · intro other ho ha
    cases hd.symm.trans ho
    refine ⟨.typed rule.patterns.target (rule.patterns.spelled .baseType)
      (rule.patterns.spelled .member), by simp, ?_, ?_, fun matcher hr ↦ ?_⟩
    · obtain ⟨raw, hparse⟩ := MatchRule.exists_parse_of_patterns h.patterns_eq rule.patterns.member
        (by simp [RulePatterns.all])
      have hb : Text.isBlank (rule.patterns.spelled .member) = false :=
        Pattern.isBlank_spelled hparse
      rw [Entity.validate, Entity.member_typed, hb]
      rfl
    · rw [Entity.member_typed]
      exact rule.patterns.member.wildcard_not_mem_spelled
    · rw [h.finds_iff hr, htyped, GeneratorPlan.admits_spelled hread hp,
        GeneratorPlan.admits_spelled hread hp, RulePatterns.accepts_spelled hread,
        h.argumentChecks_eq_nil ha]
      exact ⟨rfl, rfl⟩

/-- A sink of any name, on types in which a blank stands somewhere within. -/
def blankAtom : Atom where
  id := "blank"
  kind := .sink
  matchRules := [{ baseType := some "* *", call := some "*" }]

/-- A rule whose only literal is a blank, and whose name is a wildcard. -/
theorem finds_some_not_all_blank :
    ∃ rule, blankAtom.compileRule (.ofPreset .balanced) 0 = .ok rule ∧
      (∃ e : Entity, e.kind = rule.patterns.target ∧ e.baseType.isSome = true ∧
        Text.isBlank e.member = false ∧
        ∀ matcher : Matcher, matcher.Reached → ¬ rule.Finds .insensitive e matcher) ∧
      ∃ e : Entity, e.kind = rule.patterns.target ∧ e.validate = .ok () ∧
        wildcard ∉ e.member.toList ∧
        ∀ matcher : Matcher, matcher.Reached → rule.Finds .insensitive e matcher := by
  have hok : (blankAtom.compileRule (.ofPreset .balanced) 0).toOption.isSome = true := by
    decide +kernel
  cases hr : blankAtom.compileRule (.ofPreset .balanced) 0 with
  | error e =>
    rw [hr] at hok
    cases hok
  | ok rule =>
    obtain ⟨hmissed, hfound⟩ := finds_some_not_all hr .insensitive
    exact ⟨rule, rfl, hmissed, hfound _ rfl rfl⟩

end CompiledRule

end TaintRules
