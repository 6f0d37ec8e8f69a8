import TaintRules.Proofs.ArgumentChecks
import TaintRules.Proofs.CompiledRules
import TaintRules.Proofs.PlanChoice
import TaintRules.Proofs.RuleRuns

/-!
# What a set of rules means

A rule means something without any index: which entities its patterns describe, and which of them
pass the checks of arguments. Running a set of rules over the index of a batch reports exactly the
matches that a loop over the rules and the entities of the batch finds by this meaning. Plans,
tables, scans and caches decide nothing but the cost, with one exception that is part of the
meaning: a call rule whose name leads to the table of all calls finds qualified names too.
-/

namespace TaintRules

/-! ### Meaning -/

/-- Whether the patterns describe an entity: it is of the kind they are for, its type is known
where a type is wanted and accepted where there is a pattern for it, and its name is accepted. The
qualified name of a call counts where the name alone leads to the call. -/
def RulePatterns.describes (mode : CaseMode) (patterns : RulePatterns) (e : Entity) : Bool :=
  e.kind = patterns.target
    && (patterns.target = .call || e.baseType.isSome)
    && patterns.baseType.all (fun type ↦ e.baseType.any (type.accepts mode))
    && (patterns.member.accepts mode e.member
      || patterns.leadsByName && e.qualifiedCall.any (patterns.member.accepts mode))

namespace CompiledRule

/-- The checks of arguments. -/
def argumentChecks (rule : CompiledRule) : List Predicate :=
  rule.predicates.steps.filter (·.isArgument)

/-- The match of an entity that passed, if it is sure enough to be reported. -/
def report? (config : Config) (rule : CompiledRule) (e : Entity) (guarded : Bool) :
    Option RuleMatch :=
  let confidence :=
    if guarded then rule.confidence.value * config.confidence.guardMultiplier
    else rule.confidence.value
  if confidence < config.confidence.minReportThreshold then none
  else
    some {
      ruleId := rule.ruleId, atomId := rule.atomId, entity := e, confidence
      effectKind := rule.effect.kind, category := rule.effect.category
      severity := rule.metadata.severity, tier := rule.tier, guarded }

/-- The match that an entity is by the meaning of the rule. -/
def matchOf? (config : Config) (mode : CaseMode) (rule : CompiledRule) (e : Entity) :
    Option RuleMatch :=
  if rule.patterns.describes mode e then
    (Verdict.conclude (rule.argumentChecks.map (·.verdict mode e))).bind (rule.report? config e)
  else none

end CompiledRule

/-! ### Plans and checks together decide the patterns -/

/-- The check of the type says whether the type is known and accepted. -/
theorem Predicate.verdict_baseType (mode : CaseMode) (e : Entity) (type : Pattern) :
    (Predicate.baseType type).verdict mode e = .ofBool (e.baseType.any (type.accepts mode)) := by
  unfold verdict check
  cases e.baseType with
  | none => rfl
  | some text => exact congrArg Verdict.ofBool (type.accepts_eq_acceptsFolded mode text).symm

/-- The key of a typed entity is accepted if its type and its name are. -/
theorem any_typedKeys (mode : CaseMode) (patterns : RulePatterns)
    (baseType : Option String) (member : String) :
    (baseType.map (TypedKey.fold mode · member)).toList.any (patterns.acceptsKey mode) =
      (baseType.isSome && patterns.baseType.all (fun type ↦ baseType.any (type.accepts mode))
        && patterns.member.accepts mode member) := by
  cases baseType with
  | none => rfl
  | some text => simp [RulePatterns.acceptsKey, TypedKey.fold, Pattern.accepts_eq_acceptsFolded]

/-- A plan that decides the type leaves no check of it. -/
theorem typeSteps_eq_nil {patterns : RulePatterns} {plan : GeneratorPlan}
    (h : plan.filtersBaseType = patterns.baseType.isSome) :
    PredicatePlan.typeSteps patterns plan = [] := by
  unfold PredicatePlan.typeSteps
  rw [h]
  cases patterns.baseType <;> rfl

/-- A plan that does not decide the type leaves its check. -/
theorem all_typeSteps {patterns : RulePatterns} {plan : GeneratorPlan}
    (h : plan.filtersBaseType = false) (mode : CaseMode) (e : Entity) :
    (PredicatePlan.typeSteps patterns plan).all (·.verdict mode e ≠ .fail) =
      patterns.baseType.all (fun type ↦ e.baseType.any (type.accepts mode)) := by
  unfold PredicatePlan.typeSteps
  rw [h]
  cases patterns.baseType with
  | none => rfl
  | some type =>
    change (decide ((Predicate.baseType type).verdict mode e ≠ .fail) && true) = _
    rw [Predicate.verdict_baseType, Option.all_some]
    cases e.baseType.any (type.accepts mode) <;> rfl

/-- The patterns describe exactly the entities that the chosen plan reaches and that pass the
check of the type, if it was left. -/
theorem RulePatterns.describes_eq {patterns : RulePatterns} {plan : GeneratorPlan}
    (hp : plan ∈ GeneratorPlan.options patterns) (ht : plan.target = patterns.table)
    (mode : CaseMode) (e : Entity) :
    patterns.describes mode e = (plan.reaches mode patterns e
      && (PredicatePlan.typeSteps patterns plan).all (·.verdict mode e ≠ .fail)) := by
  obtain ⟨-, hf, hc⟩ := GeneratorPlan.eq_of_mem_options hp
  unfold describes GeneratorPlan.reaches
  rw [ht] at hf hc ⊢
  unfold table at hf hc ⊢
  cases hk : patterns.target with
  | read =>
    rw [typeSteps_eq_nil (hf (by simp [hk]))]
    cases e with
    | call site => simp [Entity.kind, Entity.typedReadKeys]
    | read access =>
      simp only [Entity.typedReadKeys, any_typedKeys]
      simp [Entity.kind, Entity.baseType, Entity.member, Entity.qualifiedCall]
  | call =>
    cases hl : patterns.leadsByName with
    | true =>
      rw [all_typeSteps (hc (by simp [hk, hl]))]
      cases e with
      | read access => simp [Entity.kind, Entity.callKeys]
      | call site =>
        simp only [Entity.callKeys, CallSite.any_names, ← Pattern.accepts_eq_acceptsFolded]
        rw [Bool.and_comm]
        simp only [Entity.kind, Entity.member, Entity.qualifiedCall, decide_true, Bool.true_or,
          Bool.true_and]
        rfl
    | false =>
      rw [typeSteps_eq_nil (hf (by simp [hk, hl]))]
      cases e with
      | read access => simp [Entity.kind, Entity.typedCallKeys]
      | call site =>
        -- the name does not lead to the call, so there is a pattern for the type
        obtain ⟨type, hb⟩ : ∃ type, patterns.baseType = some type := by
          cases hb : patterns.baseType with
          | none => simp [leadsByName, hb] at hl
          | some type => exact ⟨type, rfl⟩
        simp only [Entity.typedCallKeys, any_typedKeys]
        cases hs : site.baseType <;> simp [hb, hs, Entity.kind, Entity.baseType, Entity.member]

/-! ### Checks -/

namespace CompiledRule

variable {rule : CompiledRule} {declared : MatchRule}

/-- The checks of arguments are those that the declared constraints ask for. -/
theorem Declared.mem_argumentChecks_iff (h : rule.Declared declared) (check : Predicate) :
    check ∈ rule.argumentChecks ↔
      ∃ constraint ∈ declared.args, Predicate.ofConstraint constraint = .ok check := by
  rw [argumentChecks, List.mem_filter, PredicatePlan.mem_steps_of_make h.predicates_eq]
  constructor
  · rintro ⟨ht | hc, ha⟩
    · rw [PredicatePlan.isArgument_of_mem_typeSteps ht] at ha
      cases ha
    · exact hc
  · rintro ⟨constraint, hm, hc⟩
    exact ⟨.inr ⟨constraint, hm, hc⟩, Predicate.isArgument_of_ofConstraint hc⟩

private theorem Declared.mem_steps_iff (h : rule.Declared declared) (check : Predicate) :
    check ∈ rule.predicates.steps ↔
      check ∈ PredicatePlan.typeSteps rule.patterns rule.generator ∨
        check ∈ rule.argumentChecks := by
  rw [h.mem_argumentChecks_iff]
  exact PredicatePlan.mem_steps_of_make h.predicates_eq check

/-- The check of the type knows no weaker evidence. -/
theorem verdict_typeSteps_ne_guarded {patterns : RulePatterns} {plan : GeneratorPlan}
    {check : Predicate} (h : check ∈ PredicatePlan.typeSteps patterns plan) (mode : CaseMode)
    (e : Entity) : check.verdict mode e ≠ .guarded := by
  unfold PredicatePlan.typeSteps at h
  split at h
  · cases h
  · obtain ⟨type, _, rfl⟩ := List.mem_map.mp h
    rw [Predicate.verdict_baseType]
    cases e.baseType.any (type.accepts mode) <;> nofun

/-- The checks of a rule amount to that of the type, if it was left, and those of arguments. -/
theorem Declared.guarded?_evaluate (h : rule.Declared declared) (mode : CaseMode) (e : Entity) :
    (Id.run (rule.predicates.evaluate .plain mode e)).guarded? =
      if (PredicatePlan.typeSteps rule.patterns rule.generator).all (·.verdict mode e ≠ .fail)
      then Verdict.conclude (rule.argumentChecks.map (·.verdict mode e)) else none := by
  have hg : Verdict.guarded ∈ rule.predicates.steps.map (·.verdict mode e) ↔
      Verdict.guarded ∈ rule.argumentChecks.map (·.verdict mode e) := by
    simp only [List.mem_map, h.mem_steps_iff]
    constructor
    · rintro ⟨check, ht | ha, hv⟩
      · exact absurd hv (verdict_typeSteps_ne_guarded ht mode e)
      · exact ⟨check, ha, hv⟩
    · rintro ⟨check, ha, hv⟩
      exact ⟨check, .inr ha, hv⟩
  have hf : Verdict.fail ∈ rule.predicates.steps.map (·.verdict mode e) ↔
      ¬ (PredicatePlan.typeSteps rule.patterns rule.generator).all (·.verdict mode e ≠ .fail) ∨
        Verdict.fail ∈ rule.argumentChecks.map (·.verdict mode e) := by
    simp only [List.mem_map, h.mem_steps_iff, List.all_eq_true, decide_eq_true_eq]
    push Not
    simp only [or_and_right, exists_or]
  rw [PredicatePlan.evaluate, guarded?_evaluateFrom]
  simp only [Verdict.conclude, hg, hf, Bool.false_or, Option.map_id']
  by_cases ht : (PredicatePlan.typeSteps rule.patterns rule.generator).all
      (·.verdict mode e ≠ .fail)
  · simp only [ht, not_true, false_or, if_true]
  · rw [if_pos (.inl ht), if_neg ht]

end CompiledRule

/-! ### Runs -/

private theorem filterMap_findIdxs {α β : Type} (test : α → Bool) (g : α → Option β)
    (front rest : List α) :
    (rest.findIdxs test front.length).filterMap (fun i ↦ (front ++ rest)[i]?.bind g) =
      rest.filterMap fun item ↦ if test item then g item else none := by
  induction rest generalizing front with
  | nil => rfl
  | cons item rest ih =>
    have hi := ih (front ++ [item])
    rw [List.append_assoc, List.singleton_append, List.length_append, List.length_singleton] at hi
    rw [List.findIdxs_cons, List.filterMap_cons]
    cases test item with
    | true => simp [List.filterMap_cons, hi]
    | false => simpa using hi

namespace CompiledRule

variable {rule : CompiledRule} {config : Config}

private theorem match?_judge (rule : CompiledRule)
    (hc : config.runtime.maxMatchesPerEntity = none) (mode : CaseMode) (count position : Nat)
    (e : Entity) :
    (Judged.mk position e (Id.run (rule.judge .plain config mode count e))).match? rule =
      (Id.run (rule.predicates.evaluate .plain mode e)).guarded?.bind (rule.report? config e) := by
  have hn : config.isFull count = false := by
    rw [Config.isFull, hc]
    rfl
  unfold judge
  simp only [hn, Bool.false_eq_true, if_false, Id.run_bind]
  cases Id.run (rule.predicates.evaluate .plain mode e) with
  | fail step => rfl
  | pass guarded =>
    simp only [Id.run_pure, Outcome.guarded?, Option.bind_some, report?, Config.weigh]
    by_cases hl : (if guarded then rule.confidence.value * config.confidence.guardMultiplier
        else rule.confidence.value) < config.confidence.minReportThreshold
    · rw [if_pos hl, if_pos hl]
      rfl
    · rw [if_neg hl, if_neg hl]
      rfl

/-- The matches among some candidates are those that pass the checks, one by one. -/
theorem filterMap_judgeAll (hc : config.runtime.maxMatchesPerEntity = none) (index : Index)
    (progress : Progress) (positions : List Nat) :
    (Id.run (rule.judgeAll .plain config index .endless progress positions)).judged.filterMap
        (·.match? rule) =
      positions.filterMap fun i ↦ index.entities[i]?.bind fun e ↦
        (Id.run (rule.predicates.evaluate .plain index.mode e)).guarded?.bind
          (rule.report? config e) := by
  induction positions generalizing progress with
  | nil => rfl
  | cons position rest ih =>
    rw [List.filterMap_cons]
    cases he : index.entities[position]? with
    | none =>
      rw [judgeAll_of_absent rfl he]
      exact ih progress
    | some e =>
      have hm := match?_judge rule hc index.mode (progress.tally.get position) position e
      rw [judgeAll_of_present rfl he]
      simp only [List.filterMap_cons, hm, ih, Option.bind_some]

/-- The candidates of a rule that pass its checks are the entities of its meaning. -/
theorem Declared.matchOf?_eq {declared : MatchRule} (h : rule.Declared declared) (config : Config)
    (mode : CaseMode) (e : Entity) :
    rule.matchOf? config mode e =
      if rule.generator.reaches mode rule.patterns e then
        (Id.run (rule.predicates.evaluate .plain mode e)).guarded?.bind (rule.report? config e)
      else none := by
  obtain ⟨hp, ht⟩ := GeneratorPlan.mem_options_of_choose h.generator_eq
  rw [matchOf?, RulePatterns.describes_eq hp ht, h.guarded?_evaluate]
  cases rule.generator.reaches mode rule.patterns e with
  | false => rfl
  | true =>
    rw [Bool.true_and]
    split <;> rfl

/-- Running a rule over the index of a batch finds the entities of its meaning, in the order of
the batch. -/
theorem Declared.found_run {declared : MatchRule} (h : rule.Declared declared)
    (hc : config.runtime.maxMatchesPerEntity = none)
    {mode : CaseMode} (hm : mode = .sensitive ∨ rule.generator.lookup.HasNoAnchor)
    {batch : List Entity} (hb : batch.length ≤ config.runtime.maxCandidatesPerRule.toNat)
    (progress : Progress) :
    (Id.run (rule.run .plain config (Index.build batch mode) .endless progress)).1.found =
      batch.filterMap (rule.matchOf? config mode) := by
  have hp := (GeneratorPlan.mem_options_of_choose h.generator_eq).1
  have hcand : rule.isCandidate mode = rule.generator.reaches mode rule.patterns :=
    GeneratorPlan.takes_eq_reaches (MatchRule.areRead_of_patterns h.patterns_eq) hp hm
  have hlen : (batch.findIdxs (rule.isCandidate mode)).length ≤
      config.runtime.maxCandidatesPerRule.toNat := by
    rw [List.length_findIdxs]
    exact List.countP_le_length.trans hb
  rw [run_of_endless, RuleRun.found]
  dsimp only
  rw [List.take_of_length_le hlen, filterMap_judgeAll hc, hcand]
  have hf := filterMap_findIdxs (rule.generator.reaches mode rule.patterns) (fun e ↦
    (Id.run (rule.predicates.evaluate .plain mode e)).guarded?.bind (rule.report? config e))
    [] batch
  rw [List.nil_append, List.length_nil] at hf
  simp only [h.matchOf?_eq config mode]
  exact hf

end CompiledRule

/-- Running rules that have time one after the other finds the entities of their meanings. -/
theorem flatMap_found_runRules {config : Config} {mode : CaseMode} {rules : List CompiledRule}
    (hd : ∀ rule ∈ rules, ∃ declared, rule.Declared declared)
    (hc : config.runtime.maxMatchesPerEntity = none)
    (hm : mode = .sensitive ∨ ∀ rule ∈ rules, rule.generator.lookup.HasNoAnchor)
    {batch : List Entity} (hb : batch.length ≤ config.runtime.maxCandidatesPerRule.toNat)
    (progress : Progress) :
    (Id.run (runRules .plain config (Index.build batch mode) .endless progress rules)).1.flatMap
        (·.found) =
      (rules.filter config.runs).flatMap fun rule ↦
        batch.filterMap (rule.matchOf? config mode) := by
  induction rules generalizing progress with
  | nil => rfl
  | cons rule rest ih =>
    obtain ⟨declared, hr⟩ := hd rule List.mem_cons_self
    have hrest := ih (fun other ho ↦ hd other (List.mem_cons_of_mem _ ho))
      (hm.imp_right fun hn other ho ↦ hn other (List.mem_cons_of_mem _ ho))
    cases hrun : config.runs rule with
    | false => rw [runRules_of_not_runs hrun, hrest, List.filter_cons_of_neg (by simp [hrun])]
    | true =>
      have hfirst := hr.found_run hc (hm.imp_right fun hn ↦ hn rule List.mem_cons_self) hb progress
      rw [runRules_of_runs hrun, List.filter_cons_of_pos hrun]
      dsimp only
      rw [List.flatMap_cons, List.flatMap_cons, Clock.next_endless, hrest]
      exact congrArg (· ++ _) hfirst

/-- Running the rules of a compiled catalog over the index of a batch, whatever the matcher was
asked before, reports exactly the matches that a loop over the rules and the entities finds by the
meaning of the rules. Each rule has the patterns and the constraints of a match rule that one of
the atoms declares. -/
theorem found_executeIndex_eq {compileConfig : ValidConfig} {atoms : List Atom}
    {executor : Executor} (hm : executor.matcher.Reached)
    (hr : executor.rules = (Compilation.ofAtoms compileConfig atoms).rules)
    (hx : executor.config.runtime.maxExecutionTimeMs ≠ 0)
    (hc : executor.config.runtime.maxMatchesPerEntity = none) {batch : List Entity}
    (hb : batch.length ≤ executor.config.runtime.maxCandidatesPerRule.toNat) {mode : CaseMode}
    (ha : mode = .sensitive ∨
      ∀ rule ∈ executor.rules.rules, ∀ field anchor,
        rule.generator.lookup ≠ .literalScan field anchor) :
    (Executor.executeIndex (Index.build batch mode) executor).1.found =
        ((executor.rules.rules.filter executor.config.toConfig.runs).flatMap fun rule ↦
          batch.filterMap (rule.matchOf? executor.config.toConfig mode)) ∧
      ∀ rule ∈ executor.rules.rules, ∃ atom ∈ atoms, ∃ declared ∈ atom.matchRules,
        declared.patterns rule.ruleId = .ok rule.patterns ∧
          ∀ check, check ∈ rule.argumentChecks ↔
            ∃ constraint ∈ declared.args, Predicate.ofConstraint constraint = .ok check := by
  have hd : ∀ rule ∈ executor.rules.rules,
      ∃ atom ∈ atoms, ∃ declared ∈ atom.matchRules, rule.Declared declared := by
    rw [hr]
    exact fun rule ↦ Compilation.declared_of_mem
  constructor
  · rw [Executor.executeIndex_eq hm.faithful, Config.clock_of_ne_zero hx]
    refine flatMap_found_runRules (fun rule h ↦ ?_) hc ha hb _
    obtain ⟨_, _, declared, _, h⟩ := hd rule h
    exact ⟨declared, h⟩
  · intro rule h
    obtain ⟨atom, hatom, declared, hmem, h⟩ := hd rule h
    exact ⟨atom, hatom, declared, hmem, h.patterns_eq, h.mem_argumentChecks_iff⟩

/-! ### A rule whose name leads to its calls -/

/-- A sink whose rule has an exact name and a wildcard in its type. -/
def shellAtom : Atom where
  id := "shell"
  kind := .sink
  matchRules := [{ baseType := some "*.Shell", call := some "os.system" }]

/-- A call that has the name of the rule as its qualified name only. -/
def shellCall : Entity :=
  .call {
    id := "qualified", baseType := some "lib.Shell", call := "system"
    qualifiedCall := some "os.system" }

/-- Calls and a read, some of which the rule describes. -/
def shellBatch : List Entity := [
  .call { id := "untyped", call := "os.system" },
  shellCall,
  .read { id := "read", baseType := some "lib.Shell", read := "os.system" },
  .call { id := "simple", baseType := some "my.Shell", call := "os.system" }]

/-- An executor with the rule of the sink. -/
def shellExecutor : Executor :=
  .new (Compilation.ofAtoms (.ofPreset .thorough) [shellAtom]).rules (.ofPreset .thorough)

/-- Of four entities, the calls of the type are found, one of them by its qualified name. -/
theorem found_executeIndex_shell :
    (Executor.executeIndex (Index.build shellBatch .sensitive) shellExecutor).1.found.map
      (·.entity.id) = ["qualified", "simple"] := by
  rw [(@found_executeIndex_eq (.ofPreset .thorough) [shellAtom] shellExecutor (.new _) rfl
    (by decide) rfl shellBatch (by decide) .sensitive (.inl rfl)).1]
  decide +kernel

/-- A call is found by its qualified name although the rule has a pattern for the type and does
not accept the simple name. -/
theorem found_by_qualified_name_with_type :
    shellExecutor.rules.rules.map (fun rule ↦
        (rule.patterns.baseType.isSome, rule.patterns.member.accepts .sensitive shellCall.member)) =
      [(true, false)] ∧
    (Executor.executeIndex (Index.build [shellCall] .sensitive) shellExecutor).1.found.map
      (·.entity) = [shellCall] := by
  decide +kernel

end TaintRules
