import TaintRules.Proofs.BoundedRuns
import TaintRules.Proofs.MatchCap

/-!
# No candidate is lost

Every candidate that a rule generates is accounted for: it is evaluated, or passed over because its
entity is full, or cut off by the bound for candidates, or skipped because the time is over. What is
evaluated fails a check, is too weak, or is reported. The counts of a result say so, since each rule
comes to an entity and a count at the position of each of its candidates.
-/

namespace TaintRules

/-! ### Fates -/

namespace Fate

/-- Whether the candidate became a match. -/
def isReported : Fate → Bool
  | .reported _ _ => true
  | .capped | .rejected _ | .tooWeak => false

/-- Whether the candidate failed a check. -/
def isRejected : Fate → Bool
  | .rejected _ => true
  | .capped | .tooWeak | .reported _ _ => false

end Fate

/-- A candidate that passed its checks is too weak or reported. -/
theorem Config.weigh_cases (config : Config) (confidence : Float) (guarded : Bool) :
    config.weigh confidence guarded = .tooWeak ∨
      ∃ value, config.weigh confidence guarded = .reported value guarded := by
  unfold weigh
  dsimp only
  generalize (if guarded then confidence * config.confidence.guardMultiplier else confidence) =
    value
  split
  · exact .inl rfl
  · exact .inr ⟨value, rfl⟩

/-- Every candidate that was judged was evaluated or passed over. -/
theorem length_judged (judged : List Judged) :
    judged.length = judged.countP (·.fate ≠ .capped) + judged.countP (·.fate = .capped) := by
  rw [List.length_eq_countP_add_countP (fun judged : Judged ↦ decide (judged.fate ≠ .capped))]
  simp

/-- Every candidate that was evaluated was reported, too weak or rejected. -/
theorem countP_evaluated (judged : List Judged) :
    judged.countP (·.fate ≠ .capped) =
      judged.countP (·.fate.isReported) + judged.countP (·.fate = .tooWeak)
        + judged.countP (·.fate.isRejected) := by
  induction judged with
  | nil => rfl
  | cons judged rest ih =>
    obtain ⟨position, entity, fate⟩ := judged
    simp only [List.countP_cons, ih]
    cases fate <;> simp [Fate.isReported, Fate.isRejected] <;> omega

namespace RuleRun

/-- The matches of a run are the candidates that were reported. -/
theorem length_found (run : RuleRun) :
    run.found.length = run.judged.countP (·.fate.isReported) := by
  rw [found, List.length_filterMap_eq_countP]
  refine List.countP_congr fun judged _ ↦ ?_
  obtain ⟨position, entity, fate⟩ := judged
  cases fate <;> simp [Judged.match?, Fate.isReported]

/-- The evaluated candidates that the checks of the rule refuse. -/
def refused (mode : CaseMode) (run : RuleRun) : Nat :=
  run.judged.countP fun judged ↦ judged.fate ≠ .capped
    && (Id.run (run.rule.predicates.evaluate .plain mode judged.entity)).guarded?.isNone

end RuleRun

/-! ### Candidates that are cut off or skipped -/

namespace Diagnostic

/-- The candidates that were cut off. -/
def truncated : Diagnostic → Nat
  | .overflow _ generated kept => generated - kept
  | .timeout _ _ _ _ | .malformed _ => 0

/-- The candidates that were skipped. -/
def skipped : Diagnostic → Nat
  | .timeout _ _ skipped _ => skipped
  | .overflow _ _ _ | .malformed _ => 0

/-- A complaint about too many candidates counts those that are too many. -/
theorem total_of_overflow (ruleId : String) (generated limit : Nat) :
    let diagnostics := if limit < generated then [overflow ruleId generated limit] else []
    total (diagnostics.map (·.truncated)) = generated - limit ∧
      total (diagnostics.map (·.skipped)) = 0 := by
  dsimp only
  split
  · exact ⟨rfl, rfl⟩
  · next h => exact ⟨(Nat.sub_eq_zero_of_le (Nat.le_of_not_lt h)).symm, rfl⟩

/-- A complaint about the time counts the candidates that were not reached, and there is one if
there are any. -/
theorem total_of_timeout (ruleId : String) (timedOut : Bool) (reached kept budget : Nat) :
    let diagnostics :=
      if timedOut = true ∨ reached < kept then [timeout ruleId reached (kept - reached) budget]
      else []
    total (diagnostics.map (·.truncated)) = 0 ∧
      total (diagnostics.map (·.skipped)) = kept - reached := by
  dsimp only
  split
  · exact ⟨rfl, rfl⟩
  · next hn =>
    have hk : kept ≤ reached := Nat.le_of_not_lt fun hl ↦ hn (.inr hl)
    exact ⟨rfl, (Nat.sub_eq_zero_of_le hk).symm⟩

end Diagnostic

/-! ### One rule -/

namespace CompiledRule

variable {config : Config} {rule : CompiledRule} {batch : List Entity} {mode : CaseMode}

/-- What a rule generates it reaches, or it complains that it was cut off or skipped. -/
theorem length_candidates (config : Config) (index : Index) (timer : Timer) (rule : CompiledRule) :
    (Id.run (rule.candidates .plain index timer)).positions.length =
      (rule.reached config index timer).length
        + total ((rule.complaints config index timer).map (·.truncated))
        + total ((rule.complaints config index timer).map (·.skipped)) := by
  have hle := (reached_prefix_kept config index timer rule).length_le
  obtain ⟨hover, hoverTime⟩ := Diagnostic.total_of_overflow rule.ruleId
    (Id.run (rule.candidates .plain index timer)).positions.length
    config.runtime.maxCandidatesPerRule.toNat
  obtain ⟨htime, hskip⟩ := Diagnostic.total_of_timeout rule.ruleId
    (Id.run (rule.candidates .plain index timer)).timedOut (rule.reached config index timer).length
    (rule.kept config index timer).length config.runtime.maxExecutionTimeMs.toNat
  have hkept : (rule.kept config index timer).length = _ := List.length_take
  rw [complaints, List.map_append, List.map_append, total_append, total_append, hover, hoverTime,
    htime, hskip]
  omega

/-- Judging leaves no candidate out if there is an entity at every position. -/
theorem map_position_judgeAll {index : Index} {positions : List Nat}
    (hp : ∀ position ∈ positions, position < index.size) (progress : Progress) :
    (Id.run (rule.judgeAll .plain config index .endless progress positions)).judged.map
      (·.position) = positions := by
  induction positions generalizing progress with
  | nil => rfl
  | cons position rest ih =>
    obtain ⟨hf, hr⟩ := List.forall_mem_cons.mp hp
    rw [judgeAll_of_present rfl (List.getElem?_eq_getElem hf)]
    dsimp only
    rw [List.map_cons, ih hr]

/-- What a rule generates is judged, cut off or skipped. -/
theorem generated_run (config : Config) (rule : CompiledRule) (batch : List Entity)
    (mode : CaseMode) (timer : Timer) (progress : Progress) :
    let run := (Id.run (rule.run .plain config (Index.build batch mode) timer progress)).1
    run.generated = run.judged.length + total (run.diagnostics.map (·.truncated))
      + total (run.diagnostics.map (·.skipped)) := by
  have hp : ∀ position ∈ rule.reached config (Index.build batch mode) timer,
      position < (Index.build batch mode).size := fun position h ↦
    lt_length_of_mem_kept ((reached_prefix_kept _ _ _ _).subset h)
  rw [run_eq]
  dsimp only
  have hjudged := congrArg List.length (@map_position_judgeAll config rule _ _ hp
    (progress.enter
      (Id.run (rule.candidates .plain (Index.build batch mode) timer)).positions.length))
  rw [List.length_map] at hjudged
  rw [hjudged]
  exact rule.length_candidates config (Index.build batch mode) timer

/-- What can become of a candidate: it is passed over if its entity is full, and else rejected if a
check fails, or too weak, or reported. -/
theorem judge_cases (config : Config) (mode : CaseMode) (rule : CompiledRule) (count : Nat)
    (e : Entity) :
    let fate := Id.run (rule.judge .plain config mode count e)
    let outcome := Id.run (rule.predicates.evaluate .plain mode e)
    (config.isFull count = true ∧ fate = .capped) ∨
      (config.isFull count = false ∧ ∃ step, outcome = .fail step ∧ fate = .rejected step) ∨
      (config.isFull count = false ∧ ∃ guarded, outcome = .pass guarded ∧
        (fate = .tooWeak ∨ ∃ value, fate = .reported value guarded)) := by
  unfold judge
  cases config.isFull count with
  | true => exact .inl ⟨rfl, rfl⟩
  | false =>
    simp only [Bool.false_eq_true, if_false, Id.run_bind]
    cases Id.run (rule.predicates.evaluate .plain mode e) with
    | fail step => exact .inr (.inl ⟨trivial, step, rfl, rfl⟩)
    | pass guarded =>
      exact .inr (.inr ⟨trivial, guarded, rfl, config.weigh_cases rule.confidence.value guarded⟩)

/-- A candidate is rejected exactly if it is evaluated and the checks refuse it. -/
theorem isRejected_judge (config : Config) (mode : CaseMode) (rule : CompiledRule) (count : Nat)
    (e : Entity) :
    let fate := Id.run (rule.judge .plain config mode count e)
    fate.isRejected = (decide (fate ≠ .capped)
      && (Id.run (rule.predicates.evaluate .plain mode e)).guarded?.isNone) := by
  intro fate
  obtain ⟨-, hf⟩ | ⟨-, step, ho, hf⟩ | ⟨-, guarded, ho, hf | ⟨value, hf⟩⟩ :=
    rule.judge_cases config mode count e
  · rw [show fate = _ from hf]
    rfl
  · rw [show fate = _ from hf, ho]
    rfl
  · rw [show fate = _ from hf, ho]
    rfl
  · rw [show fate = _ from hf, ho]
    rfl

/-- The candidates of a run that were rejected are those that the checks refuse. -/
theorem refused_run (config : Config) (rule : CompiledRule) (index : Index) (timer : Timer)
    (progress : Progress) :
    let run := (Id.run (rule.run .plain config index timer progress)).1
    run.refused index.mode = run.judged.countP (·.fate.isRejected) := by
  intro run
  refine List.countP_congr fun judged hj ↦ ?_
  obtain ⟨-, count, hfate⟩ := of_mem_run hj
  rw [show run.rule = rule from rule.rule_run config index timer progress, hfate,
    ← rule.isRejected_judge config index.mode count judged.entity]

/-- Judging keeps one count for each entity. -/
theorem size_judgeAll (config : Config) (index : Index) (rule : CompiledRule)
    (progress : Progress) (positions : List Nat) :
    (Id.run (rule.judgeAll .plain config index .endless progress
      positions)).progress.tally.counts.size = progress.tally.counts.size := by
  have step (tally : Tally) (position : Nat) (fate : Fate) :
      (tally.note position fate).counts.size = tally.counts.size := by
    cases fate with
    | reported confidence guarded => exact Array.size_modify
    | capped | rejected step | tooWeak => rfl
  induction positions generalizing progress with
  | nil => rfl
  | cons position rest ih =>
    cases he : index.entities[position]? with
    | none =>
      rw [judgeAll_of_absent rfl he]
      exact ih progress
    | some e =>
      rw [judgeAll_of_present rfl he]
      dsimp only
      rw [ih, Progress.tally_note, step]

end CompiledRule

/-! ### The rules one after the other -/

/-- Running rules keeps one count for each entity. -/
theorem size_runRules (config : Config) (index : Index) (clock : Clock) (progress : Progress)
    (rules : List CompiledRule) :
    (Id.run (runRules .plain config index clock progress rules)).2.tally.counts.size =
      progress.tally.counts.size := by
  induction rules generalizing clock progress with
  | nil => rfl
  | cons rule rest ih =>
    cases hrun : config.runs rule with
    | false =>
      rw [runRules_of_not_runs hrun]
      exact ih clock progress.skip
    | true =>
      rw [runRules_of_runs hrun]
      dsimp only
      rw [ih, CompiledRule.run_eq]
      exact CompiledRule.size_judgeAll config index rule _ _

namespace RuleSet

/-- The rules that are not skipped. -/
def active (config : Config) (set : RuleSet) : List CompiledRule := set.rules.filter config.runs

/-- Whenever a rule comes to one of the candidates that it keeps, there is an entity at the
position, and a count among those of the rules before and of the candidates before. -/
def StaysInRange (config : Config) (clock : Clock) (index : Index) (set : RuleSet) : Prop :=
  ∀ front rule rest, set.active config = front ++ rule :: rest →
    ∀ before position others,
      rule.kept config index (clock front.length) = before ++ position :: others →
        let earlier := (Id.run (runRules .plain config index clock (.start index.size) front)).2
        (∃ e, index.entities[position]? = some e) ∧
          position < (Id.run (rule.judgeAll .plain config index .endless earlier
            before)).progress.tally.counts.size

/-- Over the index of a batch, every set of rules stays in range. -/
theorem staysInRange_build (config : Config) (clock : Clock) (set : RuleSet) (batch : List Entity)
    (mode : CaseMode) : set.StaysInRange config clock (Index.build batch mode) := by
  intro front rule rest _ before position others hk
  have hmem : position ∈ rule.kept config (Index.build batch mode) (clock front.length) :=
    hk ▸ List.mem_append_right before List.mem_cons_self
  have hl : position < batch.length := CompiledRule.lt_length_of_mem_kept hmem
  refine ⟨⟨batch[position], List.getElem?_eq_getElem hl⟩, ?_⟩
  rw [CompiledRule.size_judgeAll, size_runRules]
  exact hl.trans_eq Array.size_replicate.symm

end RuleSet

/-! ### Results -/

section Results

variable {runs : List RuleRun}

/-- If every run accounts for what its rule generated, so do the runs together. -/
theorem total_generated (h : ∀ run ∈ runs, run.generated = run.judged.length
      + total (run.diagnostics.map (·.truncated)) + total (run.diagnostics.map (·.skipped))) :
    let judged := runs.flatMap (·.judged)
    let diagnostics := runs.flatMap (·.diagnostics)
    total (runs.map (·.generated)) =
      judged.countP (·.fate ≠ .capped) + judged.countP (·.fate = .capped)
        + total (diagnostics.map (·.truncated)) + total (diagnostics.map (·.skipped)) := by
  intro judged diagnostics
  have hsum : total (runs.map (·.generated)) = _ := congrArg total (List.map_congr_left h)
  simp only [total_map_add] at hsum
  have hlength : judged.length = total (runs.map (·.judged.length)) := List.length_flatMap
  rw [← length_judged, hlength, List.map_flatMap, List.map_flatMap, total_flatMap, total_flatMap]
  exact hsum

/-- The matches of some runs are the candidates that were reported. -/
theorem length_flatMap_found (runs : List RuleRun) :
    (runs.flatMap (·.found)).length =
      (runs.flatMap (·.judged)).countP (·.fate.isReported) := by
  rw [List.length_flatMap, List.countP_flatMap]
  simp only [RuleRun.length_found]
  rfl

/-- If every run rejects what the checks of its rule refuse, the evaluated candidates of the runs
are reported, too weak or refused. -/
theorem countP_evaluated_of_refused {mode : CaseMode}
    (h : ∀ run ∈ runs, run.refused mode = run.judged.countP (·.fate.isRejected)) :
    let judged := runs.flatMap (·.judged)
    judged.countP (·.fate ≠ .capped) =
      (runs.flatMap (·.found)).length + judged.countP (·.fate = .tooWeak)
        + total (runs.map (·.refused mode)) := by
  intro judged
  have hrefused : total (runs.map (·.refused mode)) = judged.countP (·.fate.isRejected) := by
    rw [List.countP_flatMap, List.map_congr_left h]
    rfl
  rw [length_flatMap_found, hrefused]
  exact countP_evaluated judged

end Results

/-- Each candidate that the rules of a set generate over the index of a batch is evaluated, passed
over, cut off or skipped, and the counts of the result add up accordingly, whenever the clock ends
the time of a rule, and be it between two keys or between two candidates. Those that are evaluated
are reported, too weak, or refused by the checks of their rule. Rules are run or skipped, and there
is an entity and a count for each candidate. -/
theorem candidates_are_conserved {executor : Executor} (hm : executor.matcher.Reached)
    (clock : Clock) (batch : List Entity) (mode : CaseMode) :
    let config := executor.config.toConfig
    let index := Index.build batch mode
    let result := (Executor.executeIndexBy clock index executor).1
    result.stats.generated = result.stats.evaluated + result.stats.capped
        + total (result.diagnostics.map (·.truncated))
        + total (result.diagnostics.map (·.skipped)) ∧
      result.stats.rulesEvaluated + result.stats.rulesSkipped = executor.rules.size ∧
      result.stats.reported = result.found.length ∧
      result.stats.evaluated = result.stats.reported + result.stats.belowThreshold
        + total ((executor.rules.runs config clock index).map (·.refused mode)) ∧
      executor.rules.StaysInRange config clock index := by
  intro config index result
  have hresult : result = Id.run (executor.rules.run .plain config clock index) :=
    Executor.executeIndexBy_eq hm.faithful clock index
  have hruns : (executor.rules.runs config clock index).length =
      executor.rules.rules.countP config.runs := by
    have hrules := congrArg List.length
      (map_rule_runRules config index clock (.start index.size) executor.rules.rules)
    rwa [List.length_map, ← List.countP_eq_length_filter] at hrules
  rw [hresult, RuleSet.run_eq]
  refine ⟨?_, ?_, rfl, ?_, executor.rules.staysInRange_build config clock batch mode⟩
  · exact total_generated (forall_mem_runRules
      (fun rule timer progress ↦ rule.generated_run config batch mode timer progress) _ _ _)
  · dsimp only
    rw [hruns, RuleSet.size, List.length_eq_countP_add_countP config.runs]
    simp
  · exact countP_evaluated_of_refused (forall_mem_runRules
      (fun rule timer progress ↦ rule.refused_run config index timer progress) _ _ _)

/-! ### A call that three rules ask for -/

/-- Three sinks for the same calls: with a second argument, with any arguments, and with a first
argument that is no constant. -/
def argumentAtoms : List Atom := [
  { id := "bare", kind := .sink,
    matchRules := [{ call := some "exec", args := [⟨1, .present⟩] }] },
  { id := "call", kind := .sink, matchRules := [{ call := some "exec" }] },
  { id := "input", kind := .sink,
    matchRules := [{ call := some "exec", args := [⟨0, .notConst⟩] }] }]

/-- An executor with the rules of the sinks. -/
def argumentExecutor (config : ValidConfig) : Executor :=
  .new (Compilation.ofAtoms (.ofPreset .balanced) argumentAtoms).rules config

/-- A call with a constant as its only argument. -/
def constantCall : Entity :=
  .call (CallSite.addArg { id := "call", call := "exec" } "'ls'" (some true))

/-- The rules of the sinks were declared in the order in which they run. -/
theorem argumentExecutor_eq (config : ValidConfig) : argumentExecutor config = .new
    ⟨(Compilation.collect [] (Compilation.results (.ofPreset .balanced) 0 argumentAtoms)).1⟩
      config :=
  congrArg (Executor.new · config) (Compilation.rules_ofAtoms_of_pairwise (by decide +kernel))

/-- The clock that leaves no time to the second rule. -/
def lateClock : Clock := fun n ↦ if n = 1 then .readings 0 else .endless

/-- Of three candidates one is refused, one is reported and one is passed over. If the second rule
has no time, its candidate is skipped, and the others are refused. -/
theorem candidates_are_conserved_exec :
    let result := (Executor.executeIndex (Index.build [constantCall] .sensitive)
      (argumentExecutor singleConfig)).1
    let late := (Executor.executeIndexBy lateClock (Index.build [constantCall] .sensitive)
      (argumentExecutor singleConfig)).1
    ((result.stats.generated, result.stats.evaluated, result.stats.capped, result.found.length) =
        (3, 2, 1, 1) ∧
      result.stats.generated = result.stats.evaluated + result.stats.capped
        + total (result.diagnostics.map (·.truncated))
        + total (result.diagnostics.map (·.skipped))) ∧
    (late.stats.generated, late.stats.evaluated, late.stats.capped, late.found.length) =
        (3, 2, 0, 0) ∧
      late.diagnostics = [.timeout "call#0" 0 1 1000] ∧
      late.stats.generated = late.stats.evaluated + late.stats.capped
        + total (late.diagnostics.map (·.truncated))
        + total (late.diagnostics.map (·.skipped)) := by
  intro result late
  have hm : (argumentExecutor singleConfig).matcher.Reached := .new _
  have hresult : result = _ := congrArg (fun executor ↦ (Executor.executeIndex
    (Index.build [constantCall] .sensitive) executor).1) (argumentExecutor_eq singleConfig)
  have hlate : late = _ := congrArg (fun executor ↦ (Executor.executeIndexBy lateClock
    (Index.build [constantCall] .sensitive) executor).1) (argumentExecutor_eq singleConfig)
  refine ⟨⟨?_, (candidates_are_conserved hm _ [constantCall] .sensitive).1⟩, ?_, ?_,
    (candidates_are_conserved hm lateClock [constantCall] .sensitive).1⟩
  · rw [hresult]
    decide +kernel
  · rw [hlate]
    decide +kernel
  · rw [hlate]
    decide +kernel

end TaintRules
