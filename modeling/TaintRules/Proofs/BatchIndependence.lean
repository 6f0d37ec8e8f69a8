import Mathlib.Data.List.Perm.Basic
import TaintRules.Proofs.CompiledRules
import TaintRules.Proofs.RuleRuns

/-!
# Entities of a batch do not interfere

All that one rule leaves to the next is how many matches of each entity were reported. So an entity
goes through the rules as if it were alone, whatever keys it shares with others, and a batch that no
rule has too many candidates in reports what its entities report one by one.
-/

open scoped List

namespace TaintRules

/-! ### Entities by themselves -/

/-- An entity, and how many matches of it were reported. -/
structure Standing where
  entity : Entity
  reported : Nat
  deriving DecidableEq, Repr

namespace Standing

/-- An entity of which nothing was reported. -/
def fresh (e : Entity) : Standing := ⟨e, 0⟩

/-- Counts a match, if there is one. -/
def note (s : Standing) : Fate → Standing
  | .reported _ _ => { s with reported := s.reported + 1 }
  | .capped | .rejected _ | .tooWeak => s

@[simp] theorem entity_note (s : Standing) (fate : Fate) : (s.note fate).entity = s.entity := by
  cases fate <;> rfl

end Standing

namespace CompiledRule

/-- What becomes of an entity under a rule, if it is a candidate. -/
def fateOf? (config : Config) (mode : CaseMode) (rule : CompiledRule) (s : Standing) :
    Option Fate :=
  if rule.isCandidate mode s.entity then
    some (Id.run (rule.judge .plain config mode s.reported s.entity))
  else none

/-- The match that an entity is under a rule. -/
def reportOf? (config : Config) (mode : CaseMode) (rule : CompiledRule) (s : Standing) :
    Option RuleMatch :=
  (rule.fateOf? config mode s).bind fun fate ↦ (Judged.mk 0 s.entity fate).match? rule

/-- Where an entity stands after a rule. -/
def advance (config : Config) (mode : CaseMode) (rule : CompiledRule) (s : Standing) : Standing :=
  (rule.fateOf? config mode s).elim s s.note

@[simp] theorem entity_advance (config : Config) (mode : CaseMode) (rule : CompiledRule)
    (s : Standing) : (rule.advance config mode s).entity = s.entity := by
  unfold advance
  cases rule.fateOf? config mode s with
  | none => rfl
  | some fate => exact s.entity_note fate

end CompiledRule

/-- What is reported of entities that go through rules. -/
def reports (config : Config) (mode : CaseMode) :
    List CompiledRule → List Standing → List RuleMatch
  | [], _ => []
  | rule :: rest, standings =>
    standings.filterMap (rule.reportOf? config mode)
      ++ reports config mode rest (standings.map (rule.advance config mode))

/-! ### A run keeps the entities apart -/

/-- The counts of a run are those of the entities. -/
def Tally.Counts (tally : Tally) (standings : List Standing) : Prop :=
  tally.counts.toList = standings.map (·.reported)

namespace Tally.Counts

variable {tally : Tally} {front rest : List Standing} {s : Standing}

theorem zero (batch : List Entity) : (Tally.zero batch.length).Counts (batch.map .fresh) := by
  unfold Counts Tally.zero
  rw [Array.toList_replicate, List.map_map]
  exact List.map_const.symm

theorem get_eq (h : tally.Counts (front ++ s :: rest)) : tally.get front.length = s.reported := by
  have hg : tally.counts[front.length]? = some s.reported := by
    rw [← Array.getElem?_toList, h]
    simp
  rw [get, hg]
  rfl

theorem note (h : tally.Counts (front ++ s :: rest)) (fate : Fate) :
    (tally.note front.length fate).Counts (front ++ s.note fate :: rest) := by
  cases fate with
  | capped | rejected | tooWeak => exact h
  | reported confidence guarded =>
    have hl : front.length = (front.map (·.reported)).length := by simp
    unfold Counts Tally.note Tally.add
    rw [Array.toList_modify, h, List.map_append, List.map_cons, hl]
    simp [List.modify_eq_take_drop, Standing.note]

end Tally.Counts

namespace CompiledRule

variable {config : Config} {rule : CompiledRule}

/-- Judging the candidates among the entities from a position on reports them one by one. -/
theorem judgeAll_standings (rule : CompiledRule) (config : Config) (index : Index)
    (progress : Progress) (front rest : List Standing)
    (he : index.entities = (front ++ rest).map (·.entity))
    (ht : progress.tally.Counts (front ++ rest)) :
    let result := Id.run (rule.judgeAll .plain config index .endless progress
      ((rest.map (·.entity)).findIdxs (rule.isCandidate index.mode) front.length))
    result.judged.filterMap (·.match? rule) = rest.filterMap (rule.reportOf? config index.mode) ∧
      result.progress.tally.Counts (front ++ rest.map (rule.advance config index.mode)) := by
  induction rest generalizing front progress with
  | nil => exact ⟨rfl, ht⟩
  | cons s rest ih =>
    by_cases hc : rule.isCandidate index.mode s.entity = true
    · -- the entity is judged by the count at its position, and its new count is written there
      let fate := Id.run (rule.judge .plain config index.mode s.reported s.entity)
      have hf : rule.fateOf? config index.mode s = some fate := if_pos hc
      have ha : rule.advance config index.mode s = s.note fate := by
        rw [advance, hf]
        rfl
      have hg : index.entities[front.length]? = some s.entity := by
        rw [he]
        simp
      have hrest := ih (progress.note front.length fate) (front ++ [s.note fate])
        (by simp [he]) (by simpa using ht.note fate)
      simp only [List.length_append, List.length_singleton, List.append_assoc,
        List.singleton_append] at hrest
      have hm : rule.reportOf? config index.mode s =
          (Judged.mk front.length s.entity fate).match? rule := by
        rw [reportOf?, hf]
        rfl
      rw [List.map_cons, List.findIdxs_cons, hc, List.map_cons, ha, List.filterMap_cons, hm,
        if_pos rfl, judgeAll_of_present rfl hg]
      simp only [ht.get_eq, List.filterMap_cons]
      refine ⟨?_, hrest.2⟩
      rw [hrest.1]
    · have hf : rule.fateOf? config index.mode s = none := if_neg hc
      have ha : rule.advance config index.mode s = s := by
        rw [advance, hf]
        rfl
      have hrest := ih progress (front ++ [s]) (by simp [he]) (by simpa using ht)
      simp only [List.length_append, List.length_singleton, List.append_assoc,
        List.singleton_append] at hrest
      have hm : rule.reportOf? config index.mode s = none := by
        rw [reportOf?, hf]
        rfl
      rw [List.map_cons, List.findIdxs_cons, if_neg hc, List.map_cons, ha, List.filterMap_cons, hm]
      exact hrest

/-- A rule that has time, and not too many candidates, reports the entities one by one and counts
what it reports. -/
theorem found_run_standings {mode : CaseMode} {batch : List Entity}
    (hl : batch.countP (rule.isCandidate mode) ≤ config.runtime.maxCandidatesPerRule.toNat)
    {standings : List Standing} (hs : standings.map (·.entity) = batch) {progress : Progress}
    (ht : progress.tally.Counts standings) :
    let result := Id.run (rule.run .plain config (Index.build batch mode) .endless progress)
    result.1.found = standings.filterMap (rule.reportOf? config mode) ∧
      result.2.tally.Counts (standings.map (rule.advance config mode)) := by
  have hj := judgeAll_standings rule config (Index.build batch mode)
    (progress.enter (batch.findIdxs (rule.isCandidate mode)).length) [] standings hs.symm ht
  rw [hs] at hj
  rw [run_of_endless]
  dsimp only
  rw [List.take_of_length_le (by rwa [List.length_findIdxs])]
  exact hj

end CompiledRule

/-- Running rules over a batch reports its entities one by one. -/
theorem flatMap_found_runRules_eq_reports {config : Config} {mode : CaseMode} {batch : List Entity}
    {rules : List CompiledRule}
    (hl : ∀ rule ∈ rules.filter config.runs,
      batch.countP (rule.isCandidate mode) ≤ config.runtime.maxCandidatesPerRule.toNat)
    {standings : List Standing} (hs : standings.map (·.entity) = batch) {progress : Progress}
    (ht : progress.tally.Counts standings) :
    (Id.run (runRules .plain config (Index.build batch mode) .endless progress rules)).1.flatMap
        (·.found) =
      reports config mode (rules.filter config.runs) standings := by
  induction rules generalizing standings progress with
  | nil => rfl
  | cons rule rest ih =>
    cases hrun : config.runs rule with
    | false =>
      rw [List.filter_cons_of_neg (by simp [hrun])] at hl ⊢
      rw [runRules_of_not_runs hrun]
      exact @ih hl standings hs progress.skip ht
    | true =>
      rw [List.filter_cons_of_pos hrun] at hl ⊢
      obtain ⟨hf, hc⟩ := rule.found_run_standings (hl rule List.mem_cons_self) hs ht
      have he : (standings.map (rule.advance config mode)).map (·.entity) = batch := by
        rw [List.map_map, ← hs]
        simp [Function.comp_def]
      have hrest := ih (fun other ho ↦ hl other (List.mem_cons_of_mem _ ho)) he hc
      rw [runRules_of_runs hrun, reports]
      exact congr (congrArg _ hf) hrest

/-! ### What is reported of a batch, entity by entity -/

section Reports

variable {config : Config} {mode : CaseMode}

theorem CompiledRule.ruleId_of_reportOf? {rule : CompiledRule} {s : Standing} {found : RuleMatch}
    (h : rule.reportOf? config mode s = some found) : found.ruleId = rule.ruleId := by
  obtain ⟨fate, -, hm⟩ := Option.bind_eq_some_iff.mp h
  exact Judged.ruleId_of_match? hm

/-- Every match carries the name of one of the rules. -/
theorem ruleId_mem_of_mem_reports {rules : List CompiledRule} {standings : List Standing}
    {found : RuleMatch} (h : found ∈ reports config mode rules standings) :
    found.ruleId ∈ rules.map (·.ruleId) := by
  induction rules generalizing standings with
  | nil => cases h
  | cons rule rest ih =>
    rw [reports, List.mem_append, List.mem_filterMap] at h
    rw [List.map_cons, List.mem_cons]
    rcases h with ⟨s, -, hs⟩ | h
    · exact .inl (CompiledRule.ruleId_of_reportOf? hs)
    · exact .inr (ih h)

private theorem reports_cons_singleton (rule : CompiledRule) (rest : List CompiledRule)
    (s : Standing) :
    reports config mode (rule :: rest) [s] =
      (rule.reportOf? config mode s).toList
        ++ reports config mode rest [rule.advance config mode s] := by
  rw [reports, List.filterMap_eq_flatMap_toList]
  simp

private theorem filter_reports_of_not_mem {rules : List CompiledRule} {ruleId : String}
    (h : ruleId ∉ rules.map (·.ruleId)) (standings : List Standing) :
    (reports config mode rules standings).filter (·.ruleId == ruleId) = [] := by
  rw [List.filter_eq_nil_iff]
  intro found hm he
  rw [beq_iff_eq] at he
  exact h (he ▸ ruleId_mem_of_mem_reports hm)

private theorem filter_toList_reportOf? (rule : CompiledRule) (s : Standing) (ruleId : String) :
    (rule.reportOf? config mode s).toList.filter (·.ruleId == ruleId) =
      if rule.ruleId = ruleId then (rule.reportOf? config mode s).toList else [] := by
  cases h : rule.reportOf? config mode s with
  | none => simp
  | some found => simp [CompiledRule.ruleId_of_reportOf? h, List.filter_cons]

/-- If no two rules have one name, what is reported is, rule by rule and entity by entity, what the
rule reports of the entity alone. -/
theorem reports_eq_flatMap {rules : List CompiledRule} (hn : (rules.map (·.ruleId)).Nodup)
    (standings : List Standing) :
    reports config mode rules standings =
      rules.flatMap fun rule ↦ standings.flatMap fun s ↦
        (reports config mode rules [s]).filter (·.ruleId == rule.ruleId) := by
  induction rules generalizing standings with
  | nil => rfl
  | cons rule rest ih =>
    obtain ⟨hr, hn⟩ := List.nodup_cons.mp hn
    -- of the first rule only its own matches are left, and of each other rule none of these
    have first : (fun s ↦ (reports config mode (rule :: rest) [s]).filter
        (·.ruleId == rule.ruleId)) = fun s ↦ (rule.reportOf? config mode s).toList := by
      funext s
      rw [reports_cons_singleton, List.filter_append, filter_toList_reportOf?, if_pos rfl,
        filter_reports_of_not_mem hr, List.append_nil]
    have others : ∀ other ∈ rest, (standings.flatMap fun s ↦
        (reports config mode (rule :: rest) [s]).filter (·.ruleId == other.ruleId)) =
          (standings.map (rule.advance config mode)).flatMap fun s ↦
            (reports config mode rest [s]).filter (·.ruleId == other.ruleId) := by
      intro other ho
      have hne : rule.ruleId ≠ other.ruleId := by
        intro he
        exact hr (List.mem_map.mpr ⟨other, ho, he.symm⟩)
      rw [List.flatMap_map]
      congr 1
      funext s
      rw [reports_cons_singleton, List.filter_append, filter_toList_reportOf?, if_neg hne,
        List.nil_append]
    rw [List.flatMap_cons, first, List.flatMap_congr others, ← ih hn, reports,
      List.filterMap_eq_flatMap_toList]

private theorem flatMap_filter_eq {α β : Type} {keep : α → Bool} {f : α → List β} {items : List α}
    (h : ∀ item ∈ items, keep item = false → f item = []) :
    (items.filter keep).flatMap f = items.flatMap f := by
  induction items with
  | nil => rfl
  | cons item rest ih =>
    have hrest := ih fun other ho ↦ h other (List.mem_cons_of_mem _ ho)
    cases hk : keep item with
    | true => simp [hk, hrest]
    | false => simp [hk, hrest, h item List.mem_cons_self hk]

/-- Rules that are skipped report nothing, so that all rules may be gone through. -/
theorem reports_filter_eq_flatMap {rules : List CompiledRule}
    (hn : (rules.map (·.ruleId)).Nodup) (keep : CompiledRule → Bool) (standings : List Standing) :
    reports config mode (rules.filter keep) standings =
      rules.flatMap fun rule ↦ standings.flatMap fun s ↦
        (reports config mode (rules.filter keep) [s]).filter (·.ruleId == rule.ruleId) := by
  have hsub : ((rules.filter keep).map (·.ruleId)).Nodup :=
    hn.sublist (List.filter_sublist.map _)
  rw [reports_eq_flatMap hsub]
  apply flatMap_filter_eq
  intro rule hrule hskip
  have hid : rule.ruleId ∉ (rules.filter keep).map (·.ruleId) := by
    intro hmem
    obtain ⟨other, hother, he⟩ := List.mem_map.mp hmem
    obtain ⟨ho, hkeep⟩ := List.mem_filter.mp hother
    rw [List.inj_on_of_nodup_map hn ho hrule he, hskip] at hkeep
    cases hkeep
  simp [filter_reports_of_not_mem hid]

/-- What is reported of some entities is what is reported of each of them, in another order. -/
theorem perm_reports (rules : List CompiledRule) (standings : List Standing) :
    (standings.flatMap fun s ↦ reports config mode rules [s]).Perm
      (reports config mode rules standings) := by
  induction rules generalizing standings with
  | nil => simp [reports]
  | cons rule rest ih =>
    simp only [reports_cons_singleton]
    calc (standings.flatMap fun s ↦ (rule.reportOf? config mode s).toList
          ++ reports config mode rest [rule.advance config mode s])
      _ ~ (standings.flatMap fun s ↦ (rule.reportOf? config mode s).toList)
          ++ standings.flatMap fun s ↦ reports config mode rest [rule.advance config mode s] :=
        (List.flatMap_append_perm _ _ _).symm
      _ = standings.filterMap (rule.reportOf? config mode)
          ++ (standings.map (rule.advance config mode)).flatMap
            fun s ↦ reports config mode rest [s] := by
        rw [List.filterMap_eq_flatMap_toList, List.flatMap_map]
      _ ~ standings.filterMap (rule.reportOf? config mode)
          ++ reports config mode rest (standings.map (rule.advance config mode)) :=
        (ih _).append_left _

/-- However entities are put into batches, the same is reported of them together. -/
theorem perm_flatMap_reports (rules : List CompiledRule) {parts : List (List Entity)}
    {batch : List Entity} (h : parts.flatten ~ batch) :
    parts.flatMap (fun part ↦ reports config mode rules (part.map .fresh)) ~
      reports config mode rules (batch.map .fresh) := by
  let alone (e : Entity) : List RuleMatch := reports config mode rules [.fresh e]
  have gathered (entities : List Entity) :
      entities.flatMap alone ~ reports config mode rules (entities.map .fresh) := by
    have hp := @perm_reports config mode rules (entities.map .fresh)
    rwa [List.flatMap_map] at hp
  calc parts.flatMap (fun part ↦ reports config mode rules (part.map .fresh))
    _ ~ parts.flatMap fun part ↦ part.flatMap alone :=
      List.Perm.flatMap_left parts fun part _ ↦ (gathered part).symm
    _ = parts.flatten.flatMap alone := by rw [← List.flatMap_id, List.flatMap_assoc]; rfl
    _ ~ batch.flatMap alone := h.flatMap_right alone
    _ ~ reports config mode rules (batch.map .fresh) := gathered batch

end Reports

/-! ### Executors -/

/-- Rules that have time complain of nothing but too many candidates. -/
theorem flatMap_diagnostics_runRules (config : Config) (mode : CaseMode) (batch : List Entity)
    (progress : Progress) (rules : List CompiledRule) :
    let limit := config.runtime.maxCandidatesPerRule.toNat
    (Id.run (runRules .plain config (Index.build batch mode) .endless progress rules)).1.flatMap
        (·.diagnostics) =
      (rules.filter config.runs).flatMap fun rule ↦
        let generated := batch.countP (rule.isCandidate mode)
        if limit < generated then [.overflow rule.ruleId generated limit] else [] := by
  induction rules generalizing progress with
  | nil => rfl
  | cons rule rest ih =>
    cases hrun : config.runs rule with
    | false => rw [runRules_of_not_runs hrun, ih, List.filter_cons_of_neg (by simp [hrun])]
    | true =>
      have hfirst := congrArg (·.1.diagnostics) (rule.run_of_endless config batch mode progress)
      dsimp only at hfirst
      rw [List.length_findIdxs] at hfirst
      rw [runRules_of_runs hrun, List.filter_cons_of_pos hrun]
      exact congr (congrArg _ hfirst) (ih _)

namespace Executor

variable {executor : Executor} {mode : CaseMode} {batch : List Entity}

/-- If no rule has too many candidates, an executor reports the entities one by one. -/
theorem found_executeIndex_eq_reports (hm : executor.matcher.Reached)
    (hx : executor.config.runtime.maxExecutionTimeMs ≠ 0)
    (hl : ∀ rule ∈ executor.rules.rules.filter executor.config.toConfig.runs,
      batch.countP (rule.isCandidate mode) ≤
        executor.config.runtime.maxCandidatesPerRule.toNat) :
    (executeIndex (Index.build batch mode) executor).1.found =
      reports executor.config.toConfig mode
        (executor.rules.rules.filter executor.config.toConfig.runs) (batch.map .fresh) := by
  rw [executeIndex_eq hm.faithful, Config.clock_of_ne_zero hx]
  apply flatMap_found_runRules_eq_reports hl
  · simp [Standing.fresh, Function.comp_def]
  · exact Tally.Counts.zero batch

/-- No rule complains of too many candidates exactly if none has too many. -/
theorem no_overflow_iff (hm : executor.matcher.Reached)
    (hx : executor.config.runtime.maxExecutionTimeMs ≠ 0) :
    (∀ ruleId generated kept, .overflow ruleId generated kept ∉
        (executeIndex (Index.build batch mode) executor).1.diagnostics) ↔
      ∀ rule ∈ executor.rules.rules.filter executor.config.toConfig.runs,
        batch.countP (rule.isCandidate mode) ≤
          executor.config.runtime.maxCandidatesPerRule.toNat := by
  have hd := flatMap_diagnostics_runRules executor.config.toConfig mode batch (.start batch.length)
    executor.rules.rules
  rw [executeIndex_eq hm.faithful, Config.clock_of_ne_zero hx,
    show (executor.rules.run (m := Id) _ _ _ _).diagnostics = _ from hd]
  constructor
  · intro ho rule hr
    by_contra hl
    apply ho rule.ruleId (batch.countP (rule.isCandidate mode))
      executor.config.runtime.maxCandidatesPerRule.toNat
    rw [List.mem_flatMap]
    refine ⟨rule, hr, ?_⟩
    rw [if_pos (Nat.lt_of_not_le hl)]
    exact List.mem_singleton_self _
  · intro hl ruleId generated kept hmem
    obtain ⟨rule, hr, hrule⟩ := List.mem_flatMap.mp hmem
    rw [if_neg (Nat.not_lt_of_le (hl rule hr))] at hrule
    cases hrule

end Executor

/-- If no rule has too many candidates in a batch, the matches of the batch are, rule by rule and
entity by entity, those that the rule has in the batch of this entity alone. However the batch is
cut into others, and whatever the order, these have the same matches together. -/
theorem found_executeIndex_by_entity {compileConfig : ValidConfig} {atoms : List Atom}
    {executor : Executor} (hm : executor.matcher.Reached)
    (hr : executor.rules = (Compilation.ofAtoms compileConfig atoms).rules)
    (hx : executor.config.runtime.maxExecutionTimeMs ≠ 0) {mode : CaseMode} {batch : List Entity}
    (ho : ∀ ruleId generated kept, .overflow ruleId generated kept ∉
      (Executor.executeIndex (Index.build batch mode) executor).1.diagnostics) :
    let found (entities : List Entity) : List RuleMatch :=
      (Executor.executeIndex (Index.build entities mode) executor).1.found
    (found batch = executor.rules.rules.flatMap fun rule ↦ batch.flatMap fun e ↦
        (found [e]).filter (·.ruleId == rule.ruleId)) ∧
      ∀ parts : List (List Entity), parts.flatten.Perm batch →
        (parts.flatMap found).Perm (found batch) := by
  intro found
  let config := executor.config.toConfig
  let active := executor.rules.rules.filter config.runs
  have hl := (Executor.no_overflow_iff hm hx).mp ho
  -- a part of the batch has no more candidates than the batch
  have hpart (entities : List Entity) (hs : entities <+~ batch) :
      found entities = reports config mode active (entities.map .fresh) := by
    apply Executor.found_executeIndex_eq_reports hm hx
    intro rule hrule
    exact (hs.countP_le _).trans (hl rule hrule)
  have hbatch := hpart batch (List.Subperm.refl batch)
  constructor
  · have hids : (executor.rules.rules.map (·.ruleId)).Nodup := by
      rw [hr]
      exact Compilation.nodup_ids compileConfig atoms
    rw [hbatch, reports_filter_eq_flatMap hids]
    simp only [List.flatMap_map]
    refine List.flatMap_congr fun rule _ ↦ List.flatMap_congr fun e he ↦ ?_
    rw [hpart [e] (List.singleton_subperm_iff.mpr he)]
    rfl
  · intro parts hperm
    have hparts : parts.flatMap found =
        parts.flatMap fun part ↦ reports config mode active (part.map .fresh) := by
      apply List.flatMap_congr
      intro part hp
      exact hpart part ((List.sublist_flatten_of_mem hp).subperm.trans hperm.subperm)
    rw [hparts, hbatch]
    exact perm_flatMap_reports active hperm

/-! ### Entities that share their name, under a bound for matches -/

/-- Two sinks whose rules describe the same calls. -/
def execAtoms : List Atom := [
  { id := "exec", kind := .sink, matchRules := [{ call := some "exec" }] },
  { id := "any", kind := .sink, matchRules := [{ call := some "ex*" }] }]

/-- Of each entity one match is reported. -/
def oneMatchConfig : ValidConfig where
  toConfig := (Config.ofPreset .thorough).updateRuntime fun s ↦
    { s with maxMatchesPerEntity := some 1 }
  valid := rfl

/-- An executor with the rules of the sinks. -/
def oneMatchExecutor : Executor :=
  .new (Compilation.ofAtoms oneMatchConfig execAtoms).rules oneMatchConfig

/-- A call that both rules describe. -/
def execCall : Entity := .call { id := "call", call := "exec" }

/-- A call that one rule describes, with the identifier of the other call. -/
def exitCall : Entity := .call { id := "call", call := "exit", qualifiedCall := some "os.exit" }

/-- The call that stands twice in a batch is reported twice, each time by the first rule alone, and
the matches stay the same when the batch is cut. -/
theorem found_executeIndex_by_entity_oneMatch :
    let found (entities : List Entity) : List RuleMatch :=
      (Executor.executeIndex (Index.build entities .insensitive) oneMatchExecutor).1.found
    (found [execCall, exitCall, execCall]).map (fun m ↦ (m.ruleId, m.entity)) =
        [("exec#0", execCall), ("exec#0", execCall), ("any#0", exitCall)] ∧
      ([[exitCall, execCall], [execCall]].flatMap found).Perm
        (found [execCall, exitCall, execCall]) := by
  have hm : oneMatchExecutor.matcher.Reached := .new _
  have hl : ∀ ruleId generated kept, .overflow ruleId generated kept ∉
      (Executor.executeIndex (Index.build [execCall, exitCall, execCall] .insensitive)
        oneMatchExecutor).1.diagnostics := by
    rw [Executor.no_overflow_iff hm (by decide)]
    intro rule _
    exact List.countP_le_length.trans (by decide)
  have hr : oneMatchExecutor.rules = (Compilation.ofAtoms oneMatchConfig execAtoms).rules := rfl
  obtain ⟨heach, hcut⟩ := found_executeIndex_by_entity hm hr (by decide) hl
  refine ⟨?_, hcut _ (by decide)⟩
  -- the rules were declared in the order in which they run
  have hs : oneMatchExecutor = .new
      ⟨(Compilation.collect [] (Compilation.results oneMatchConfig 0 execAtoms)).1⟩
      oneMatchConfig :=
    congrArg (Executor.new · oneMatchConfig)
      (Compilation.rules_ofAtoms_of_pairwise (by decide +kernel))
  rw [heach, hs]
  decide +kernel

end TaintRules
