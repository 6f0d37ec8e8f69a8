import TaintRules.Proofs.Candidates

/-!
# Runs of rules

A rule comes to its candidates in the order of the batch, up to the bound for candidates and until
its time is over. Whenever that is, the rule judges the candidates that it has reached as one that
has time, and complains about the others. What it reports and what it complains about carries its
name, so that the parts of a result that belong to one rule can be told apart.
-/

namespace TaintRules

variable {config : Config} {index : Index} {rule : CompiledRule}

/-! ### Time -/

namespace Timer

variable {timer next : Timer}

/-- How many of `n` readings are in time. -/
def inTime : Timer → Nat → Nat
  | .endless, n => n
  | .readings left, n => min left n

theorem inTime_of_late (h : timer.read = none) (n : Nat) : timer.inTime n = 0 := by
  cases timer with
  | endless => cases h
  | readings left =>
    cases left with
    | zero => exact Nat.zero_min n
    | succ left => cases h

theorem inTime_succ (h : timer.read = some next) (n : Nat) :
    timer.inTime (n + 1) = next.inTime n + 1 := by
  cases timer with
  | endless =>
    cases h
    rfl
  | readings left =>
    cases left with
    | zero => cases h
    | succ left =>
      cases h
      exact Nat.add_min_add_right left n 1

end Timer

/-- The clock that ends the time of no rule. -/
def Clock.endless : Clock := fun _ ↦ .endless

theorem Clock.next_endless : Clock.endless.next = .endless := rfl

/-- While the clock stands still, no rule that has any time runs out of it. -/
theorem Config.clock_of_ne_zero (h : config.runtime.maxExecutionTimeMs ≠ 0) :
    config.clock = .endless := by
  funext n
  exact if_neg h

/-- Candidates that were found before the time was over: some of those that can be found, and all
of them if there was time. -/
structure Candidates.PartOf (found all : Candidates) : Prop where
  subset : ∀ i ∈ found.positions, i ∈ all.positions
  positions_eq : found.timedOut = false → found.positions = all.positions

/-- Scanning finds no more in less time. -/
theorem partOf_scanKeys {κ : Type} (test : κ → Id Bool) (timer : Timer)
    (entries : List (κ × List Nat)) :
    (Id.run (scanKeys test timer entries)).PartOf (Id.run (scanKeys test .endless entries)) := by
  induction entries generalizing timer with
  | nil => exact ⟨fun _ h ↦ h, fun _ ↦ rfl⟩
  | cons entry rest ih =>
    cases h : timer.read with
    | none =>
      rw [scanKeys, h]
      constructor
      · intro i hi
        cases hi
      · intro ht
        cases ht
    | some next =>
      obtain ⟨hs, he⟩ := ih next
      rw [scanKeys_cons h, scanKeys_cons rfl]
      dsimp only
      split
      · refine ⟨fun i hi ↦ ?_, fun ht ↦ ?_⟩
        · exact List.mem_append.mpr ((List.mem_append.mp hi).imp_right (hs i))
        · exact congrArg (entry.2 ++ ·) (he ht)
      · exact ⟨hs, he⟩

/-- A plan finds no more in less time. -/
theorem GeneratorPlan.partOf_candidates (index : Index) (patterns : RulePatterns) (timer : Timer)
    (plan : GeneratorPlan) :
    (Id.run (plan.candidates .plain index patterns timer)).PartOf
      (Id.run (plan.candidates .plain index patterns .endless)) := by
  have hf : (Id.run (plan.find .plain index patterns timer)).PartOf
      (Id.run (plan.find .plain index patterns .endless)) := by
    unfold find
    dsimp only
    split
    · exact ⟨fun _ h ↦ h, fun _ ↦ rfl⟩
    · exact ⟨fun _ h ↦ h, fun _ ↦ rfl⟩
    · exact ⟨fun _ h ↦ h, fun _ ↦ rfl⟩
    · exact partOf_scanKeys _ timer _
    · exact partOf_scanKeys _ timer _
    · exact partOf_scanKeys _ timer _
  rw [candidates_plain, candidates_plain]
  constructor
  · intro i hi
    rw [mem_eraseReps, List.mem_mergeSort] at hi ⊢
    exact hf.subset i hi
  · intro ht
    dsimp only
    rw [hf.positions_eq ht]

/-! ### The loop over candidates -/

namespace CompiledRule

section Loop

variable {timer next : Timer} {position : Nat}

/-- After a reading that is late nothing is judged. -/
theorem judgeAll_of_late (h : timer.read = none) (progress : Progress) (positions : List Nat) :
    Id.run (rule.judgeAll .plain config index timer progress positions) =
      { judged := [], skipped := positions.length, progress } := by
  cases positions with
  | nil => rfl
  | cons position rest =>
    unfold judgeAll
    rw [h]
    rfl

/-- A position without an entity is left out. -/
theorem judgeAll_of_absent (h : timer.read = some next) (he : index.entities[position]? = none)
    (progress : Progress) (rest : List Nat) :
    Id.run (rule.judgeAll .plain config index timer progress (position :: rest)) =
      Id.run (rule.judgeAll .plain config index next progress rest) := by
  rw [judgeAll, h, he]

/-- A candidate is judged in view of the matches that its entity has, and noted. -/
theorem judgeAll_of_present {e : Entity} (h : timer.read = some next)
    (he : index.entities[position]? = some e) (progress : Progress) (rest : List Nat) :
    Id.run (rule.judgeAll .plain config index timer progress (position :: rest)) =
      let fate := Id.run (rule.judge .plain config index.mode (progress.tally.get position) e)
      let others := Id.run
        (rule.judgeAll .plain config index next (progress.note position fate) rest)
      { others with judged := ⟨position, e, fate⟩ :: others.judged } := by
  rw [judgeAll, h, he]
  rfl

/-- Whenever the time is over, the candidates before are judged as if there was time. -/
theorem judgeAll_eq (timer : Timer) (progress : Progress) (positions : List Nat) :
    Id.run (rule.judgeAll .plain config index timer progress positions) =
      let reached := positions.take (timer.inTime positions.length)
      { Id.run (rule.judgeAll .plain config index .endless progress reached) with
        skipped := positions.length - reached.length } := by
  induction positions generalizing timer progress with
  | nil => simp [judgeAll]
  | cons position rest ih =>
    -- the clock is read once for each position, also for one without an entity
    dsimp only
    cases h : timer.read with
    | none => rw [judgeAll_of_late h, Timer.inTime_of_late h]; rfl
    | some next =>
      rw [List.length_cons, Timer.inTime_succ h, List.take_succ_cons, List.length_cons,
        Nat.add_sub_add_right]
      cases he : index.entities[position]? with
      | none => rw [judgeAll_of_absent h he, judgeAll_of_absent rfl he, ih]
      | some e =>
        rw [judgeAll_of_present h he, judgeAll_of_present rfl he]
        dsimp only
        rw [ih]

/-- A candidate that was judged is the entity at its position, and was judged in view of some
count of its matches. -/
theorem of_mem_judgeAll {progress : Progress} {positions : List Nat} {judged : Judged}
    (h : judged ∈
      (Id.run (rule.judgeAll .plain config index .endless progress positions)).judged) :
    index.entities[judged.position]? = some judged.entity ∧
      ∃ count, judged.fate = Id.run (rule.judge .plain config index.mode count judged.entity) := by
  induction positions generalizing progress with
  | nil => cases h
  | cons position rest ih =>
    cases he : index.entities[position]? with
    | none =>
      rw [judgeAll_of_absent rfl he] at h
      exact ih h
    | some e =>
      rw [judgeAll_of_present rfl he] at h
      rcases List.mem_cons.mp h with rfl | h
      · exact ⟨he, progress.tally.get position, rfl⟩
      · exact ih h

end Loop

/-! ### The run of one rule -/

/-- The candidates that a rule keeps. -/
def kept (config : Config) (index : Index) (timer : Timer) (rule : CompiledRule) : List Nat :=
  (Id.run (rule.candidates .plain index timer)).positions.take
    config.runtime.maxCandidatesPerRule.toNat

/-- The candidates that a rule comes to before its time is over. -/
def reached (config : Config) (index : Index) (timer : Timer) (rule : CompiledRule) : List Nat :=
  let found := Id.run (rule.candidates .plain index timer)
  let kept := rule.kept config index timer
  if found.timedOut then [] else kept.take (found.timer.inTime kept.length)

/-- What a rule complains about: candidates beyond the bound, and those that it did not reach. -/
def complaints (config : Config) (index : Index) (timer : Timer) (rule : CompiledRule) :
    List Diagnostic :=
  let found := Id.run (rule.candidates .plain index timer)
  let limit := config.runtime.maxCandidatesPerRule.toNat
  let kept := (rule.kept config index timer).length
  let reached := (rule.reached config index timer).length
  (if limit < found.positions.length then
      [.overflow rule.ruleId found.positions.length limit] else [])
    ++ if found.timedOut = true ∨ reached < kept then
      [.timeout rule.ruleId reached (kept - reached) config.runtime.maxExecutionTimeMs.toNat]
    else []

variable {timer : Timer} {progress : Progress}

theorem reached_prefix_kept (config : Config) (index : Index) (timer : Timer)
    (rule : CompiledRule) :
    rule.reached config index timer <+: rule.kept config index timer := by
  unfold reached
  dsimp only
  split
  · exact List.nil_prefix
  · exact List.take_prefix _ _

private theorem timeout_of_le {reached kept : Nat} (h : reached ≤ kept) (ruleId : String)
    (budget : Nat) :
    (if kept - reached = 0 then []
      else [Diagnostic.timeout ruleId (kept - (kept - reached)) (kept - reached) budget]) =
      if reached < kept then [.timeout ruleId reached (kept - reached) budget] else [] := by
  rw [Nat.sub_sub_self h]
  by_cases hk : reached < kept
  · rw [if_neg (Nat.sub_ne_zero_of_lt hk), if_pos hk]
  · rw [if_pos (Nat.sub_eq_zero_of_le (Nat.le_of_not_lt hk)), if_neg hk]

/-- A rule judges the candidates that it comes to, and complains about the others. -/
theorem run_eq (config : Config) (index : Index) (timer : Timer) (progress : Progress)
    (rule : CompiledRule) :
    Id.run (rule.run .plain config index timer progress) =
      let generated := (Id.run (rule.candidates .plain index timer)).positions.length
      let result := Id.run (rule.judgeAll .plain config index .endless (progress.enter generated)
        (rule.reached config index timer))
      ({ rule, generated
         diagnostics := rule.complaints config index timer
         judged := result.judged }, result.progress) := by
  unfold run complaints reached kept
  rw [Id.run_bind]
  dsimp only
  split
  · next ht => simp [ht, judgeAll]
  · next ht =>
    rw [Id.run_bind, judgeAll_eq]
    simp only [Id.run_pure]
    rw [timeout_of_le (List.length_take_le' _ _)]
    simp [ht]

/-- A run is the run of its rule. -/
theorem rule_run (config : Config) (index : Index) (timer : Timer) (progress : Progress)
    (rule : CompiledRule) :
    (Id.run (rule.run .plain config index timer progress)).1.rule = rule := by
  rw [run_eq]

/-- The same of a candidate that was judged in a run. -/
theorem of_mem_run {judged : Judged}
    (h : judged ∈ (Id.run (rule.run .plain config index timer progress)).1.judged) :
    index.entities[judged.position]? = some judged.entity ∧
      ∃ count, judged.fate = Id.run (rule.judge .plain config index.mode count judged.entity) := by
  rw [run_eq] at h
  exact of_mem_judgeAll h

/-! ### Names in results -/

/-- Everything that a rule complains about carries its name. -/
theorem ruleId?_of_mem_complaints {diagnostic : Diagnostic}
    (h : diagnostic ∈ rule.complaints config index timer) :
    diagnostic.ruleId? = some rule.ruleId := by
  simp only [complaints, List.mem_append, List.mem_ite_nil_right, List.mem_singleton] at h
  rcases h with ⟨-, rfl⟩ | ⟨-, rfl⟩
  · rfl
  · rfl

end CompiledRule

/-- A match carries the name of its rule. -/
theorem Judged.ruleId_of_match? {judged : Judged} {found : RuleMatch}
    (h : judged.match? rule = some found) : found.ruleId = rule.ruleId := by
  unfold match? at h
  split at h
  · cases h
    rfl
  · cases h
  · cases h
  · cases h

/-- The matches of a run carry the name of its rule. -/
theorem RuleRun.ruleId_of_mem_found {run : RuleRun} {found : RuleMatch} (h : found ∈ run.found) :
    found.ruleId = run.rule.ruleId := by
  obtain ⟨judged, -, hj⟩ := List.mem_filterMap.mp h
  exact Judged.ruleId_of_match? hj

/-! ### Rules one after the other -/

/-- A rule that is skipped takes no time and is counted. -/
theorem runRules_of_not_runs (h : config.runs rule = false) (clock : Clock) (progress : Progress)
    (rest : List CompiledRule) :
    Id.run (runRules .plain config index clock progress (rule :: rest)) =
      Id.run (runRules .plain config index clock progress.skip rest) := by
  rw [runRules, h]
  rfl

/-- A rule that is run leaves its counts to the rules after it. -/
theorem runRules_of_runs (h : config.runs rule = true) (clock : Clock) (progress : Progress)
    (rest : List CompiledRule) :
    Id.run (runRules .plain config index clock progress (rule :: rest)) =
      let first := Id.run (rule.run .plain config index (clock 0) progress)
      let others := Id.run (runRules .plain config index clock.next first.2 rest)
      (first.1 :: others.1, others.2) := by
  rw [runRules, h]
  rfl

/-- Each rule that is not skipped is run once, in order. -/
theorem map_rule_runRules (config : Config) (index : Index) (clock : Clock) (progress : Progress)
    (rules : List CompiledRule) :
    (Id.run (runRules .plain config index clock progress rules)).1.map (·.rule) =
      rules.filter config.runs := by
  induction rules generalizing clock progress with
  | nil => rfl
  | cons rule rest ih =>
    cases h : config.runs rule with
    | false => rw [runRules_of_not_runs h, ih, List.filter_cons_of_neg (by simp [h])]
    | true =>
      rw [runRules_of_runs h, List.filter_cons_of_pos h]
      dsimp only
      rw [List.map_cons, CompiledRule.rule_run, ih]

/-- What holds of the run of every rule, whatever was counted before and whenever its time is over,
holds of all runs. -/
theorem forall_mem_runRules {holds : RuleRun → Prop}
    (h : ∀ (rule : CompiledRule) (timer : Timer) (progress : Progress),
      holds (Id.run (rule.run .plain config index timer progress)).1)
    (clock : Clock) (progress : Progress) (rules : List CompiledRule) :
    ∀ run ∈ (Id.run (runRules .plain config index clock progress rules)).1, holds run := by
  induction rules generalizing clock progress with
  | nil =>
    intro run hr
    cases hr
  | cons rule rest ih =>
    cases hrun : config.runs rule with
    | false =>
      rw [runRules_of_not_runs hrun]
      exact ih clock progress.skip
    | true =>
      rw [runRules_of_runs hrun]
      exact List.forall_mem_cons.mpr ⟨h rule (clock 0) progress, ih _ _⟩

/-- Everything that rules complain about carries the name of the rule. -/
theorem ruleId?_of_mem_runRules {clock : Clock} {progress : Progress} {rules : List CompiledRule}
    {run : RuleRun} (hr : run ∈ (Id.run (runRules .plain config index clock progress rules)).1)
    {diagnostic : Diagnostic} (hd : diagnostic ∈ run.diagnostics) :
    diagnostic.ruleId? = some run.rule.ruleId := by
  have hall := @forall_mem_runRules config index
    (fun run ↦ ∀ diagnostic ∈ run.diagnostics, diagnostic.ruleId? = some run.rule.ruleId)
    (fun rule timer progress diagnostic hd ↦ by
      rw [CompiledRule.run_eq] at hd ⊢
      exact CompiledRule.ruleId?_of_mem_complaints hd) clock progress rules
  exact hall run hr diagnostic hd

/-! ### Candidates in a batch -/

namespace CompiledRule

variable {timer : Timer} {batch : List Entity} {mode : CaseMode}

/-- Whether an entity is a candidate of a rule. -/
def isCandidate (mode : CaseMode) (rule : CompiledRule) (e : Entity) : Bool :=
  rule.generator.takes mode rule.patterns e

/-- The candidates of a rule that has time. -/
theorem candidates_build (rule : CompiledRule) (batch : List Entity) (mode : CaseMode) :
    Id.run (rule.candidates .plain (Index.build batch mode) .endless) =
      ⟨batch.findIdxs (rule.isCandidate mode), false, .endless⟩ :=
  GeneratorPlan.candidates_eq_takes rule.patterns rule.generator mode batch

/-- Whenever the time is over, what a rule finds is among the candidates in the batch, and is all
of them if there was time to look. -/
theorem positions_candidates_build (rule : CompiledRule) (batch : List Entity) (mode : CaseMode)
    (timer : Timer) :
    let found := Id.run (rule.candidates .plain (Index.build batch mode) timer)
    (∀ i ∈ found.positions, i ∈ batch.findIdxs (rule.isCandidate mode)) ∧
      (found.timedOut = false → found.positions = batch.findIdxs (rule.isCandidate mode)) := by
  intro found
  obtain ⟨hs, he⟩ := rule.generator.partOf_candidates (Index.build batch mode) rule.patterns timer
  have hall : (Id.run (rule.candidates .plain (Index.build batch mode) .endless)).positions =
      batch.findIdxs (rule.isCandidate mode) := by rw [candidates_build]
  rw [← hall]
  exact ⟨hs, he⟩

/-- There is an entity at the position of every candidate. -/
theorem lt_length_of_mem_kept {position : Nat}
    (h : position ∈ rule.kept config (Index.build batch mode) timer) : position < batch.length := by
  have hmem := (rule.positions_candidates_build batch mode timer).1 position
    (List.mem_of_mem_take h)
  obtain ⟨hl, -⟩ := List.mem_findIdxs_iff_exists_getElem_pos.mp hmem
  exact hl

/-- A rule comes to the first candidates in the batch. -/
theorem reached_prefix_findIdxs (config : Config) (rule : CompiledRule) (batch : List Entity)
    (mode : CaseMode) (timer : Timer) :
    rule.reached config (Index.build batch mode) timer <+:
      batch.findIdxs (rule.isCandidate mode) := by
  cases ht : (Id.run (rule.candidates .plain (Index.build batch mode) timer)).timedOut with
  | true =>
    rw [reached, ht]
    exact List.nil_prefix
  | false =>
    rw [← (rule.positions_candidates_build batch mode timer).2 ht]
    exact (reached_prefix_kept _ _ _ _).trans (List.take_prefix _ _)

/-- A rule that complains of nothing comes to all candidates in the batch. -/
theorem reached_of_no_complaints
    (h : rule.complaints config (Index.build batch mode) timer = []) :
    rule.reached config (Index.build batch mode) timer = batch.findIdxs (rule.isCandidate mode) ∧
      (Id.run (rule.candidates .plain (Index.build batch mode) timer)).positions =
        batch.findIdxs (rule.isCandidate mode) := by
  simp only [complaints, List.append_eq_nil_iff, ite_eq_right_iff, List.cons_ne_nil, imp_false,
    not_or, Bool.not_eq_true, Nat.not_lt] at h
  obtain ⟨hover, ht, hk⟩ := h
  have hall := (rule.positions_candidates_build batch mode timer).2 ht
  refine ⟨?_, hall⟩
  rw [(reached_prefix_kept config (Index.build batch mode) timer rule).eq_of_length_le hk, kept,
    List.take_of_length_le hover]
  exact hall

/-- A rule that has time judges as many of its candidates as the bound allows. -/
theorem run_of_endless (config : Config) (rule : CompiledRule) (batch : List Entity)
    (mode : CaseMode) (progress : Progress) :
    Id.run (rule.run .plain config (Index.build batch mode) .endless progress) =
      let positions := batch.findIdxs (rule.isCandidate mode)
      let limit := config.runtime.maxCandidatesPerRule.toNat
      let result := Id.run (rule.judgeAll .plain config (Index.build batch mode) .endless
        (progress.enter positions.length) (positions.take limit))
      ({ rule
         generated := positions.length
         diagnostics :=
           if limit < positions.length then [.overflow rule.ruleId positions.length limit] else []
         judged := result.judged }, result.progress) := by
  rw [run_eq, complaints, reached, kept, candidates_build]
  simp only [Bool.false_eq_true, if_false, false_or, Timer.inTime, List.take_length, Nat.lt_irrefl,
    List.append_nil]

end CompiledRule

end TaintRules
