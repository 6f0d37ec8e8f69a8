import TaintRules.Proofs.CandidateAccounts

/-!
# Candidates that are passed over

Under a bound for the matches of an entity, a candidate whose entity is full is passed over and
counted before it is checked. What a run passes over can be read off the run without the bound: the
candidates that come late, after as many matches of their position as the bound allows. Those that
are matches there are the matches that the bound drops; the others are counted although nothing is
dropped.
-/

namespace TaintRules

/-! ### Candidates that come late -/

/-- How many of some candidates are matches of a position. -/
def reportsAt (position : Nat) (judged : List Judged) : Nat :=
  judged.countP fun other ↦ other.fate.isReported && other.position == position

/-- The candidates that come late: before them are, with the `earlier` ones, as many matches of
their position as the bound allows. -/
def lateAfter (cap : Nat) (earlier : List Judged) : List Judged → List Judged
  | [] => []
  | judged :: rest =>
    (if cap ≤ reportsAt judged.position earlier then [judged] else [])
      ++ lateAfter cap (earlier ++ [judged]) rest

/-- The candidates as the bound leaves them: those that come late are passed over. -/
def passLate (cap : Nat) (earlier : List Judged) : List Judged → List Judged
  | [] => []
  | judged :: rest =>
    { judged with
      fate := if cap ≤ reportsAt judged.position earlier then .capped else judged.fate }
      :: passLate cap (earlier ++ [judged]) rest

theorem passLate_append (cap : Nat) (earlier front rest : List Judged) :
    passLate cap earlier (front ++ rest) =
      passLate cap earlier front ++ passLate cap (earlier ++ front) rest := by
  induction front generalizing earlier with
  | nil => simp [passLate]
  | cons judged front ih =>
    rw [List.cons_append, passLate, ih, passLate, List.cons_append, List.append_assoc,
      List.singleton_append]

/-- If nothing was passed over before, the candidates that come late are. -/
theorem countP_capped_passLate {judged : List Judged} (h : ∀ j ∈ judged, j.fate ≠ .capped)
    (cap : Nat) (earlier : List Judged) :
    (passLate cap earlier judged).countP (·.fate = .capped) =
      (lateAfter cap earlier judged).length := by
  induction judged generalizing earlier with
  | nil => rfl
  | cons j rest ih =>
    obtain ⟨hj, hr⟩ := List.forall_mem_cons.mp h
    rw [passLate, lateAfter, List.countP_cons, ih hr, List.length_append]
    by_cases hc : cap ≤ reportsAt j.position earlier
    · simp [hc, Nat.add_comm]
    · simp [hc, hj]

/-- A match is left as it is or comes late. -/
theorem countP_isReported_passLate (cap : Nat) (earlier judged : List Judged) :
    judged.countP (·.fate.isReported) =
      (passLate cap earlier judged).countP (·.fate.isReported)
        + (lateAfter cap earlier judged).countP (·.fate.isReported) := by
  induction judged generalizing earlier with
  | nil => rfl
  | cons j rest ih =>
    rw [passLate, lateAfter, List.countP_cons, List.countP_cons, List.countP_append,
      ih (earlier ++ [j])]
    by_cases hc : cap ≤ reportsAt j.position earlier
    · have hcapped : Fate.capped.isReported = false := rfl
      simp only [hc, if_true, List.countP_singleton, hcapped, Bool.false_eq_true, if_false]
      omega
    · simp only [hc, if_false, List.countP_nil]
      omega

/-! ### Counts -/

/-- The counts of a run under a bound, after some candidates of the run without it. -/
def Tally.Tracks (tally : Tally) (cap size : Nat) (earlier : List Judged) : Prop :=
  ∃ placed : List PlacedMatch, tally.Follows cap size placed ∧
    ∀ position, placed.countP (·.position == position) = reportsAt position earlier

namespace Tally.Tracks

variable {tally : Tally} {cap : UInt64} {size : Nat} {earlier : List Judged}

theorem zero (cap size : Nat) : (Tally.zero size).Tracks cap size [] :=
  ⟨[], .zero cap size, fun _ ↦ rfl⟩

/-- The count of a position says whether a candidate comes late. -/
theorem le_get_iff {cap : Nat} (h : tally.Tracks cap size earlier) {position : Nat}
    (hp : position < size) : cap ≤ tally.get position ↔ cap ≤ reportsAt position earlier := by
  obtain ⟨placed, hf, hc⟩ := h
  rw [hf.get_eq position hp, hc]
  omega

/-- Another candidate is counted if it does not come late and is a match. -/
theorem note (h : tally.Tracks cap.toNat size earlier) {position : Nat} (hp : position < size)
    (rule : CompiledRule) (e : Entity) (fate : Fate) :
    let kept := if cap.toNat ≤ tally.get position then .capped else fate
    (tally.note position kept).Tracks cap.toNat size (earlier ++ [⟨position, e, fate⟩]) := by
  intro kept
  obtain ⟨placed, hf, hc⟩ := h
  refine ⟨_, (CompiledRule.note_of_follows hf hp rule e fate).2, fun other ↦ ?_⟩
  rw [List.countP_append, hc, reportsAt, reportsAt, List.countP_append]
  cases fate with
  | capped | rejected step | tooWeak => rfl
  | reported confidence guarded => rfl

end Tally.Tracks

/-! ### Two runs side by side -/

section Runs

variable {capped free : Config} {cap : UInt64} {progress : Progress} {earlier : List Judged}

namespace CompiledRule

/-- The candidates of one rule: under the bound those that come late are passed over, and the
counts keep track. -/
theorem judged_judgeAll (h : capped.Caps free cap) (index : Index) (rule : CompiledRule)
    (ht : progress.tally.Tracks cap.toNat index.size earlier) (other : Progress)
    (positions : List Nat) :
    let bounded := Id.run (rule.judgeAll .plain capped index .endless progress positions)
    let judged := (Id.run (rule.judgeAll .plain free index .endless other positions)).judged
    bounded.judged = passLate cap.toNat earlier judged ∧
      bounded.progress.tally.Tracks cap.toNat index.size (earlier ++ judged) := by
  induction positions generalizing progress earlier other with
  | nil => exact ⟨rfl, by simpa [judgeAll] using ht⟩
  | cons position rest ih =>
    cases he : index.entities[position]? with
    | none =>
      rw [judgeAll_of_absent rfl he, judgeAll_of_absent rfl he]
      exact ih ht other
    | some e =>
      let fate := Id.run (rule.judge .plain free index.mode (other.tally.get position) e)
      let kept := if cap.toNat ≤ progress.tally.get position then .capped else fate
      have hp : position < index.size := (List.getElem?_eq_some_iff.mp he).1
      obtain ⟨hrest, hlast⟩ :=
        @ih (progress.note position kept) _ (ht.note hp rule e fate) (other.note position fate)
      have hjudge := judge_of_caps h rule index.mode (progress.tally.get position)
        (other.tally.get position) e
      rw [List.append_assoc, List.singleton_append] at hlast
      rw [judgeAll_of_present rfl he, judgeAll_of_present rfl he]
      simp only [hjudge, passLate, ← ht.le_get_iff hp]
      exact ⟨congrArg _ hrest, hlast⟩

/-- One rule, which comes to the same candidates in both runs. -/
theorem judged_run (h : capped.Caps free cap) (index : Index) (timer : Timer) (rule : CompiledRule)
    (ht : progress.tally.Tracks cap.toNat index.size earlier) (other : Progress) :
    let bounded := Id.run (rule.run .plain capped index timer progress)
    let judged := (Id.run (rule.run .plain free index timer other)).1.judged
    bounded.1.judged = passLate cap.toNat earlier judged ∧
      bounded.2.tally.Tracks cap.toNat index.size (earlier ++ judged) := by
  let generated := (Id.run (rule.candidates .plain index timer)).positions.length
  rw [run_eq, run_eq, h.reached_eq]
  exact @judged_judgeAll _ _ _ (progress.enter generated) _ h index rule ht
    (other.enter generated) (rule.reached free index timer)

/-- Without a bound for the matches of an entity no candidate is passed over. -/
theorem judge_ne_capped (hfree : free.runtime.maxMatchesPerEntity = none) (rule : CompiledRule)
    (mode : CaseMode) (count : Nat) (e : Entity) :
    Id.run (rule.judge .plain free mode count e) ≠ .capped := by
  have hn : free.isFull count = false := by
    rw [Config.isFull, hfree]
    rfl
  obtain ⟨hfull, -⟩ | ⟨-, step, -, hf⟩ | ⟨-, guarded, -, hf | ⟨value, hf⟩⟩ :=
    rule.judge_cases free mode count e
  · rw [hn] at hfull
    cases hfull
  · simp [hf]
  · simp [hf]
  · simp [hf]

end CompiledRule

/-- Rules one after the other. -/
theorem judged_runRules (h : capped.Caps free cap) (index : Index) (clock : Clock)
    (ht : progress.tally.Tracks cap.toNat index.size earlier) (other : Progress)
    (rules : List CompiledRule) :
    (Id.run (runRules .plain capped index clock progress rules)).1.flatMap (·.judged) =
      passLate cap.toNat earlier
        ((Id.run (runRules .plain free index clock other rules)).1.flatMap (·.judged)) := by
  induction rules generalizing clock progress earlier other with
  | nil => rfl
  | cons rule rest ih =>
    cases hrun : free.runs rule with
    | false =>
      rw [runRules_of_not_runs hrun, runRules_of_not_runs (h.runs_eq ▸ hrun)]
      exact @ih progress.skip earlier clock ht other.skip
    | true =>
      obtain ⟨hfirst, hcounts⟩ := rule.judged_run h index (clock 0) ht other
      have hrest := ih clock.next hcounts (Id.run (rule.run .plain free index (clock 0) other)).2
      rw [runRules_of_runs hrun, runRules_of_runs (h.runs_eq ▸ hrun)]
      simp only [List.flatMap_cons, passLate_append]
      rw [hfirst, hrest]

end Runs

namespace RuleSet

/-- The candidates that the rules of a set judge over an index, in order. -/
def judged (config : Config) (index : Index) (set : RuleSet) : List Judged :=
  (set.runs config config.clock index).flatMap (·.judged)

/-- A set of rules under the bound passes over the candidates that come late. -/
theorem judged_of_caps {capped free : Config} {cap : UInt64} (h : capped.Caps free cap)
    (index : Index) (set : RuleSet) :
    set.judged capped index = passLate cap.toNat [] (set.judged free index) := by
  rw [judged, judged, runs, runs, h.clock_eq]
  exact judged_runRules h index free.clock (Tally.Tracks.zero _ _) _ _

/-- Without a bound for the matches of an entity no candidate of a set is passed over. -/
theorem fate_ne_capped_of_mem_judged {free : Config}
    (hfree : free.runtime.maxMatchesPerEntity = none) (index : Index) (set : RuleSet) :
    ∀ judged ∈ set.judged free index, judged.fate ≠ .capped := by
  intro judged hj
  obtain ⟨run, hr, hj⟩ := List.mem_flatMap.mp hj
  have hrun := @forall_mem_runRules free index
    (fun run ↦ ∀ judged ∈ run.judged, judged.fate ≠ .capped) (fun rule timer progress judged hj ↦ by
      obtain ⟨-, count, hfate⟩ := CompiledRule.of_mem_run hj
      rw [hfate]
      exact CompiledRule.judge_ne_capped hfree rule index.mode count judged.entity) _ _ _ run hr
  exact hrun judged hj

/-- The result of a set of rules counts what becomes of its candidates. -/
theorem counts_run (config : Config) (index : Index) (set : RuleSet) :
    let result := Id.run (set.run .plain config config.clock index)
    result.stats.capped = (set.judged config index).countP (·.fate = .capped) ∧
      result.found.length = (set.judged config index).countP (·.fate.isReported) := by
  rw [run_eq]
  exact ⟨rfl, length_flatMap_found _⟩

end RuleSet

/-- A run under a bound for the matches of an entity counts the candidates that come late in the
run that differs in nothing else. These are the matches that the bound drops and the late
candidates that are no matches, so that the count is the number of dropped matches exactly if every
late candidate is a match. -/
theorem capped_eq_dropped_add {capped free : Executor} (hc : capped.matcher.Reached)
    (hf : free.matcher.Reached) (hr : capped.rules = free.rules)
    (hconf : capped.config.confidence = free.config.confidence) {cap : UInt64}
    (hcap : capped.config.runtime =
      { free.config.runtime with maxMatchesPerEntity := some cap })
    (hfree : free.config.runtime.maxMatchesPerEntity = none) (index : Index) :
    let late := lateAfter cap.toNat [] (free.rules.judged free.config.toConfig index)
    let bounded := (Executor.executeIndex index capped).1
    let full := (Executor.executeIndex index free).1
    bounded.stats.capped = late.length ∧ bounded.found.length ≤ full.found.length ∧
      bounded.stats.capped = (full.found.length - bounded.found.length)
        + late.countP (!·.fate.isReported) ∧
      (bounded.stats.capped = full.found.length - bounded.found.length ↔
        ∀ judged ∈ late, judged.fate.isReported = true) := by
  intro late bounded full
  have h : capped.config.toConfig.Caps free.config.toConfig cap :=
    ⟨hconf, by rw [hcap], by rw [hcap], by rw [hcap], hfree⟩
  have hbounded : bounded = Id.run (free.rules.run .plain capped.config.toConfig
      capped.config.clock index) := by
    rw [← hr]
    exact Executor.executeIndex_eq hc.faithful index
  have hfull : full = Id.run (free.rules.run .plain free.config.toConfig free.config.clock index) :=
    Executor.executeIndex_eq hf.faithful index
  obtain ⟨hcount, hfound⟩ := free.rules.counts_run capped.config.toConfig index
  rw [← hbounded, RuleSet.judged_of_caps h] at hcount hfound
  rw [countP_capped_passLate (RuleSet.fate_ne_capped_of_mem_judged hfree index _)] at hcount
  have hall := (free.rules.counts_run free.config.toConfig index).2
  rw [← hfull, countP_isReported_passLate cap.toNat [], ← hfound] at hall
  have hlength : late.length =
      late.countP (·.fate.isReported) + late.countP (!·.fate.isReported) := by
    simpa using @List.length_eq_countP_add_countP _ (·.fate.isReported) late
  have hcapped : bounded.stats.capped = late.length := hcount
  have hdropped : full.found.length =
      bounded.found.length + late.countP (·.fate.isReported) := hall
  have hnone : late.countP (!·.fate.isReported) = 0 ↔
      ∀ judged ∈ late, judged.fate.isReported = true := by
    simp [List.countP_eq_zero]
  rw [← hnone]
  omega

/-! ### A candidate that would have been refused -/

/-- The bound drops no match, and yet a candidate is counted: it comes late, and in the other run
its checks refuse it. -/
theorem capped_eq_dropped_add_exec :
    let index := Index.build [constantCall] .sensitive
    let late := lateAfter 1 [] ((argumentExecutor (.ofPreset .balanced)).rules.judged
      (.ofPreset .balanced) index)
    let bounded := (Executor.executeIndex index (argumentExecutor singleConfig)).1
    let full := (Executor.executeIndex index (argumentExecutor (.ofPreset .balanced))).1
    bounded.found.map (·.ruleId) = ["call#0"] ∧ full.found.map (·.ruleId) = ["call#0"] ∧
      late.map (·.fate) = [.rejected 0] ∧ bounded.stats.capped = 1 := by
  intro index late bounded full
  obtain ⟨hcapped, -⟩ := @capped_eq_dropped_add (argumentExecutor singleConfig)
    (argumentExecutor (.ofPreset .balanced)) (.new _) (.new _) rfl rfl 1 rfl rfl index
  have hlate : late.map (·.fate) = [.rejected 0] := by
    change List.map _ (lateAfter 1 []
      ((argumentExecutor (.ofPreset .balanced)).rules.judged _ _)) = _
    rw [argumentExecutor_eq]
    decide +kernel
  refine ⟨?_, ?_, hlate, ?_⟩
  · change List.map _ (Executor.executeIndex _ (argumentExecutor singleConfig)).1.found = _
    rw [argumentExecutor_eq]
    decide +kernel
  · change List.map _
      (Executor.executeIndex _ (argumentExecutor (.ofPreset .balanced))).1.found = _
    rw [argumentExecutor_eq]
    decide +kernel
  · have hone := congrArg List.length hlate
    rw [List.length_map] at hone
    exact hcapped.trans hone

end TaintRules
