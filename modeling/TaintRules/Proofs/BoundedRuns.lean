import TaintRules.Proofs.RuleMeaning
import TaintRules.Proofs.RunCounts

/-!
# Bounded runs name the rules that lose matches

The candidates of a rule are bounded, and so is its time. A run that meets a bound goes on and
complains. What it reports of a rule is then a first part of what a run without bounds reports, and
all of that if there is no complaint about the rule. If matches are bounded for each entity, a rule
that reports less may leave more to later rules, and the two runs agree if there is no complaint
at all.
-/

namespace TaintRules

/-! ### One rule under two configurations -/

/-- Configurations that judge a candidate alike: they may differ in the bounds for time and for
candidates. -/
structure Config.JudgesLike (config other : Config) : Prop where
  confidence : config.confidence = other.confidence
  cap : config.runtime.maxMatchesPerEntity = other.runtime.maxMatchesPerEntity

/-- A configuration with room for all candidates in a batch. -/
def Config.IsAmple (config : Config) (batch : List Entity) : Prop :=
  batch.length ≤ config.runtime.maxCandidatesPerRule.toNat

namespace Config.JudgesLike

variable {config other : Config}

theorem runs_eq (h : config.JudgesLike other) : config.runs = other.runs := by
  funext rule
  unfold runs
  rw [h.confidence]

theorem judge_eq (h : config.JudgesLike other) (mode : CaseMode) (rule : CompiledRule)
    (count : Nat) (e : Entity) :
    rule.judge .plain config mode count e = rule.judge .plain other mode count e := by
  unfold CompiledRule.judge Config.isFull Config.weigh
  rw [h.confidence, h.cap]

theorem judgeAll_eq (h : config.JudgesLike other) (index : Index) (rule : CompiledRule)
    (timer : Timer) (progress : Progress) (positions : List Nat) :
    rule.judgeAll .plain config index timer progress positions =
      rule.judgeAll .plain other index timer progress positions := by
  induction positions generalizing timer progress with
  | nil => rfl
  | cons position rest ih =>
    unfold CompiledRule.judgeAll
    simp only [h.judge_eq, ih]

end Config.JudgesLike

namespace CompiledRule

variable {config other : Config} {rule : CompiledRule} {batch : List Entity} {mode : CaseMode}
  {timer : Timer} {progress : Progress}

/-- A rule that has time and room complains of nothing. -/
theorem complaints_of_isAmple (h : config.IsAmple batch) (rule : CompiledRule) (mode : CaseMode) :
    rule.complaints config (Index.build batch mode) .endless = [] := by
  have hl : (batch.findIdxs (rule.isCandidate mode)).length ≤
      config.runtime.maxCandidatesPerRule.toNat := by
    rw [List.length_findIdxs]
    exact List.countP_le_length.trans h
  rw [complaints, reached, kept, candidates_build]
  simp only [Nat.not_lt_of_le hl, Bool.false_eq_true, if_false, false_or, Timer.inTime,
    List.take_length, Nat.lt_irrefl, List.append_nil]

/-- A rule that complains of nothing reports and counts what it does under no bound. -/
theorem run_of_no_complaints (hj : config.JudgesLike other) (ho : other.IsAmple batch)
    (hd : rule.complaints config (Index.build batch mode) timer = []) (progress : Progress) :
    let bounded := Id.run (rule.run .plain config (Index.build batch mode) timer progress)
    let full := Id.run (rule.run .plain other (Index.build batch mode) .endless progress)
    bounded.1.found = full.1.found ∧ bounded.2 = full.2 := by
  obtain ⟨hreached, hfound⟩ := reached_of_no_complaints hd
  obtain ⟨hall, hfull⟩ := reached_of_no_complaints (rule.complaints_of_isAmple ho mode)
  rw [run_eq, run_eq, hreached, hfound, hall, hfull]
  dsimp only
  rw [hj.judgeAll_eq]
  exact ⟨rfl, rfl⟩

/-- Without a bound for the matches of an entity, the matches of a rule are those of the candidates
that it comes to. -/
theorem found_run_of_uncapped (hc : config.runtime.maxMatchesPerEntity = none) (timer : Timer)
    (progress : Progress) :
    (Id.run (rule.run .plain config (Index.build batch mode) timer progress)).1.found =
      (rule.reached config (Index.build batch mode) timer).filterMap fun i ↦ batch[i]?.bind fun e ↦
        (Id.run (rule.predicates.evaluate .plain mode e)).guarded?.bind
          (rule.report? config e) := by
  rw [run_eq]
  exact filterMap_judgeAll hc (Index.build batch mode) _ _

/-- Without a bound for the matches of an entity, a rule reports a first part of what it reports
under no bound, and all of it if it complains of nothing, whatever was counted before. -/
theorem found_of_uncapped (hj : config.JudgesLike other) (ho : other.IsAmple batch)
    (hc : config.runtime.maxMatchesPerEntity = none) (timer : Timer)
    (progress otherProgress : Progress) :
    let bounded := (Id.run (rule.run .plain config (Index.build batch mode) timer progress)).1
    let full :=
      (Id.run (rule.run .plain other (Index.build batch mode) .endless otherProgress)).1
    bounded.found <+: full.found ∧
      (rule.complaints config (Index.build batch mode) timer = [] →
        bounded.found = full.found) := by
  have hr : rule.report? config = rule.report? other := by
    unfold report?
    rw [hj.confidence]
  dsimp only
  rw [found_run_of_uncapped hc, found_run_of_uncapped (hj.cap ▸ hc), hr,
    (reached_of_no_complaints (rule.complaints_of_isAmple ho mode)).1]
  refine ⟨(rule.reached_prefix_findIdxs config batch mode timer).filterMap _, fun hd ↦ ?_⟩
  rw [(reached_of_no_complaints hd).1]

end CompiledRule

/-! ### The rules one after the other -/

section Runs

variable {config other : Config} {batch : List Entity} {mode : CaseMode}

/-- If no rule complains, two runs report the same and count the same from rule to rule. -/
theorem flatMap_found_of_no_diagnostics (hj : config.JudgesLike other) (ho : other.IsAmple batch)
    {rules : List CompiledRule} {clock : Clock} {progress : Progress}
    (hd : (Id.run (runRules .plain config (Index.build batch mode) clock progress rules)).1.flatMap
      (·.diagnostics) = []) :
    (Id.run (runRules .plain config (Index.build batch mode) clock progress rules)).1.flatMap
        (·.found) =
      (Id.run (runRules .plain other (Index.build batch mode) .endless progress rules)).1.flatMap
        (·.found) := by
  induction rules generalizing clock progress with
  | nil => rfl
  | cons rule rest ih =>
    cases hrun : config.runs rule with
    | false =>
      rw [runRules_of_not_runs hrun] at hd ⊢
      rw [runRules_of_not_runs (hj.runs_eq ▸ hrun)]
      exact ih hd
    | true =>
      rw [runRules_of_runs hrun] at hd ⊢
      rw [runRules_of_runs (hj.runs_eq ▸ hrun)]
      obtain ⟨hfirst, hrest⟩ := List.append_eq_nil_iff.mp hd
      rw [CompiledRule.run_eq] at hfirst
      -- the rules after this one start from the same counts
      obtain ⟨hfound, hnext⟩ := CompiledRule.run_of_no_complaints hj ho hfirst progress
      rw [List.flatMap_cons, List.flatMap_cons, hfound, ih hrest, hnext, Clock.next_endless]
      rfl

/-- Without a bound for the matches of an entity, each rule reports a first part of what it reports
under no bound, and all of it if it complains of nothing. -/
theorem forall₂_runRules_of_uncapped (hj : config.JudgesLike other) (ho : other.IsAmple batch)
    (hc : config.runtime.maxMatchesPerEntity = none) (clock : Clock)
    (progress otherProgress : Progress) (rules : List CompiledRule) :
    List.Forall₂ (fun run full ↦ run.rule = full.rule ∧ run.found <+: full.found ∧
        (run.diagnostics = [] → run.found = full.found))
      (Id.run (runRules .plain config (Index.build batch mode) clock progress rules)).1
      (Id.run (runRules .plain other (Index.build batch mode) .endless otherProgress rules)).1 := by
  induction rules generalizing clock progress otherProgress with
  | nil => exact .nil
  | cons rule rest ih =>
    cases hrun : config.runs rule with
    | false =>
      rw [runRules_of_not_runs hrun, runRules_of_not_runs (hj.runs_eq ▸ hrun)]
      exact ih _ _ _
    | true =>
      obtain ⟨hpart, hall⟩ :=
        @CompiledRule.found_of_uncapped _ _ rule _ mode hj ho hc (clock 0) progress otherProgress
      have hrule := rule.rule_run config (Index.build batch mode) (clock 0) progress
      rw [runRules_of_runs hrun, runRules_of_runs (hj.runs_eq ▸ hrun)]
      refine .cons ⟨?_, hpart, fun hd ↦ hall ?_⟩ (ih _ _ _)
      · exact hrule.trans (rule.rule_run _ _ _ _).symm
      · rwa [CompiledRule.run_eq] at hd

end Runs

/-! ### The part of one rule -/

section Parts

variable {runs fullRuns : List RuleRun} {ruleId : String}

private theorem filter_found_of_ne {run : RuleRun} (h : run.rule.ruleId ≠ ruleId) :
    run.found.filter (·.ruleId == ruleId) = [] := by
  rw [List.filter_eq_nil_iff]
  intro found hf
  rw [RuleRun.ruleId_of_mem_found hf, beq_iff_eq]
  exact h

private theorem filter_found_of_eq {run : RuleRun} (h : run.rule.ruleId = ruleId) :
    run.found.filter (·.ruleId == ruleId) = run.found := by
  rw [List.filter_eq_self]
  intro found hf
  rw [RuleRun.ruleId_of_mem_found hf, beq_iff_eq]
  exact h

private theorem filter_flatMap_found_of_not_mem (h : ruleId ∉ runs.map (·.rule.ruleId)) :
    (runs.flatMap (·.found)).filter (·.ruleId == ruleId) = [] := by
  rw [List.filter_flatMap, List.flatMap_eq_nil_iff]
  intro run hr
  exact filter_found_of_ne fun he ↦ h (List.mem_map.mpr ⟨run, hr, he⟩)

/-- If each rule is run once, what holds of the matches of a rule in two runs holds of the parts of
the two results that carry its name. -/
theorem filter_found_of_forall₂ {R : List RuleMatch → List RuleMatch → Prop} (hnil : R [] [])
    (h : List.Forall₂ (fun run full ↦ run.rule = full.rule ∧
      (run.rule.ruleId = ruleId → R run.found full.found)) runs fullRuns)
    (hn : (runs.map (·.rule.ruleId)).Nodup) (hf : (fullRuns.map (·.rule.ruleId)).Nodup) :
    R ((runs.flatMap (·.found)).filter (·.ruleId == ruleId))
      ((fullRuns.flatMap (·.found)).filter (·.ruleId == ruleId)) := by
  induction h with
  | nil => exact hnil
  | @cons run full rest fullRest hrun _ ih =>
    obtain ⟨hrule, hfound⟩ := hrun
    rw [List.map_cons, List.nodup_cons] at hn hf
    rw [List.flatMap_cons, List.flatMap_cons, List.filter_append, List.filter_append]
    by_cases he : run.rule.ruleId = ruleId
    · have hef : full.rule.ruleId = ruleId := by rw [← hrule, he]
      rw [filter_found_of_eq he, filter_found_of_eq hef,
        filter_flatMap_found_of_not_mem (he ▸ hn.1), filter_flatMap_found_of_not_mem (hef ▸ hf.1),
        List.append_nil, List.append_nil]
      exact hfound he
    · have hef : full.rule.ruleId ≠ ruleId := by rwa [← hrule]
      rw [filter_found_of_ne he, filter_found_of_ne hef, List.nil_append, List.nil_append]
      exact ih hn.2 hf.2

/-- The rules that a result names are those that complained, each once and in order. -/
theorem eraseDups_ruleIds (hd : ∀ run ∈ runs, ∀ d ∈ run.diagnostics,
      d.ruleId? = some run.rule.ruleId) (hn : (runs.map (·.rule.ruleId)).Nodup) :
    ((runs.flatMap (·.diagnostics)).filterMap (·.ruleId?)).eraseDups =
      (runs.filter (!·.diagnostics.isEmpty)).map (·.rule.ruleId) := by
  induction runs with
  | nil => rfl
  | cons run rest ih =>
    rw [List.map_cons, List.nodup_cons] at hn
    have hrest := ih (fun other ho ↦ hd other (List.mem_cons_of_mem _ ho)) hn.2
    have hfirst : run.diagnostics.filterMap (·.ruleId?) =
        List.replicate run.diagnostics.length run.rule.ruleId := by
      rw [List.filterMap_congr (hd run List.mem_cons_self)]
      simp
    rw [List.flatMap_cons, List.filterMap_append, hfirst]
    cases hc : run.diagnostics with
    | nil => simp [hc, hrest]
    | cons d others =>
      -- no other run has the name of this one
      have hothers : ((rest.flatMap (·.diagnostics)).filterMap (·.ruleId?)).removeAll
          (List.replicate (d :: others).length run.rule.ruleId) =
            (rest.flatMap (·.diagnostics)).filterMap (·.ruleId?) := by
        rw [List.removeAll, List.filter_eq_self]
        intro ruleId hid
        obtain ⟨diagnostic, hdiag, hname⟩ := List.mem_filterMap.mp hid
        obtain ⟨other, hother, hmem⟩ := List.mem_flatMap.mp hdiag
        rw [hd other (List.mem_cons_of_mem _ hother) diagnostic hmem] at hname
        have hne : ruleId ≠ run.rule.ruleId := by
          intro he
          exact hn.1 (List.mem_map.mpr ⟨other, hother, (Option.some.inj hname).trans he⟩)
        simp [hne]
      have hone : (List.replicate (d :: others).length run.rule.ruleId).eraseDups =
          [run.rule.ruleId] := by
        rw [List.length_cons, List.replicate_succ, List.eraseDups_cons]
        simp
      rw [List.eraseDups_append, hothers, hone, hrest]
      simp [hc]

end Parts

/-! ### Results -/

namespace RuleSet

variable {config other : Config} {clock : Clock} {index : Index} {set : RuleSet}

/-- If a result names no rule, there is no complaint. -/
theorem no_diagnostics_of_isPartial
    (h : (Id.run (set.run .plain config clock index)).isPartial = false) :
    (set.runs config clock index).flatMap (·.diagnostics) = [] := by
  rw [List.eq_nil_iff_forall_not_mem]
  intro diagnostic hd
  obtain ⟨run, hrun, hmem⟩ := List.mem_flatMap.mp hd
  rw [run_eq] at h
  have hp := List.any_eq_false.mp h diagnostic hd
  rw [Diagnostic.isPartial, ruleId?_of_mem_runRules hrun hmem] at hp
  exact hp rfl

/-- The names of the rules that are run. -/
theorem map_ruleId_runs (config : Config) (clock : Clock) (index : Index) (set : RuleSet) :
    (set.runs config clock index).map (·.rule.ruleId) =
      (set.rules.filter config.runs).map (·.ruleId) := by
  rw [← map_rule_runRules config index clock (.start index.size), List.map_map]
  rfl

/-- If names are distinct, so are those of the rules that are run. -/
theorem nodup_runs (hn : set.ids.Nodup) :
    ((set.runs config clock index).map (·.rule.ruleId)).Nodup := by
  rw [map_ruleId_runs]
  exact hn.sublist (List.filter_sublist.map _)

/-- A result names the rules that complained, each once and in order. -/
theorem partialRules_run (hn : set.ids.Nodup) :
    (Id.run (set.run .plain config clock index)).partialRules =
      ((set.runs config clock index).filter (!·.diagnostics.isEmpty)).map (·.rule.ruleId) := by
  rw [run_eq]
  apply eraseDups_ruleIds
  · exact fun run hrun diagnostic hd ↦ ruleId?_of_mem_runRules hrun hd
  · exact nodup_runs hn

/-- Rules are named once, and in their order. -/
theorem partialRules_sublist (hn : set.ids.Nodup) :
    (Id.run (set.run .plain config clock index)).partialRules.Sublist set.ids := by
  rw [partialRules_run hn]
  refine (List.filter_sublist.map _).trans ?_
  rw [map_ruleId_runs]
  exact List.filter_sublist.map _

/-- Without a bound for the matches of an entity, the part of a rule in a bounded result is a first
part of its part in a result under no bound, and the whole unless the rule is named. -/
theorem filter_found_of_uncapped {batch : List Entity} {mode : CaseMode}
    (hj : config.JudgesLike other) (ho : other.IsAmple batch)
    (hc : config.runtime.maxMatchesPerEntity = none) (hn : set.ids.Nodup) (clock : Clock)
    (ruleId : String) :
    let result := Id.run (set.run .plain config clock (Index.build batch mode))
    let complete := Id.run (set.run .plain other .endless (Index.build batch mode))
    result.found.filter (·.ruleId == ruleId) <+: complete.found.filter (·.ruleId == ruleId) ∧
      (ruleId ∉ result.partialRules →
        result.found.filter (·.ruleId == ruleId) = complete.found.filter (·.ruleId == ruleId)) := by
  intro result complete
  have hall := @forall₂_runRules_of_uncapped _ _ _ mode hj ho hc clock (.start batch.length)
    (.start batch.length) set.rules
  constructor
  · exact filter_found_of_forall₂ List.prefix_rfl
      (hall.imp fun _ _ h ↦ ⟨h.1, fun _ ↦ h.2.1⟩) (nodup_runs hn) (nodup_runs hn)
  · intro hnot
    have hclean : ∀ run ∈ set.runs config clock (Index.build batch mode),
        run.rule.ruleId = ruleId → run.diagnostics = [] := by
      intro run hrun hid
      by_contra hne
      apply hnot
      rw [partialRules_run hn]
      exact List.mem_map.mpr ⟨run, List.mem_filter.mpr ⟨hrun, by simpa using hne⟩, hid⟩
    have hboth := (List.forall₂_and_left _ _).mpr ⟨hclean, hall⟩
    exact filter_found_of_forall₂ rfl
      (hboth.imp fun _ _ h ↦ ⟨h.2.1, fun hid ↦ h.2.2.2 (h.1 hid)⟩) (nodup_runs hn) (nodup_runs hn)

end RuleSet

/-- A bounded run of a compiled catalog loses no match without naming the rule, whenever the clock
ends the time of its rules. Compare it with a run of the same rules over the same index that has
time and room for all candidates. Without a bound for the matches of an entity, the matches of each
rule are a first part of its matches in the other run, and all of them unless the rule is named.
With any such bound, the runs agree if no rule is named. Rules are named once and in their order. -/
theorem bounded_run_names_losses {compileConfig : ValidConfig} {atoms : List Atom}
    {bounded full : Executor} (hb : bounded.matcher.Reached) (hf : full.matcher.Reached)
    (hr : bounded.rules = (Compilation.ofAtoms compileConfig atoms).rules)
    (hs : full.rules = bounded.rules)
    (hconf : bounded.config.confidence = full.config.confidence)
    (hcap : bounded.config.runtime.maxMatchesPerEntity = full.config.runtime.maxMatchesPerEntity)
    (hx : full.config.runtime.maxExecutionTimeMs ≠ 0) {batch : List Entity}
    (hl : batch.length ≤ full.config.runtime.maxCandidatesPerRule.toNat) (mode : CaseMode)
    (clock : Clock) :
    let result := (Executor.executeIndexBy clock (Index.build batch mode) bounded).1
    let complete := (Executor.executeIndex (Index.build batch mode) full).1
    (bounded.config.runtime.maxMatchesPerEntity = none → ∀ rule ∈ bounded.rules.rules,
        result.found.filter (·.ruleId == rule.ruleId) <+:
            complete.found.filter (·.ruleId == rule.ruleId) ∧
          (rule.ruleId ∉ result.partialRules →
            result.found.filter (·.ruleId == rule.ruleId) =
              complete.found.filter (·.ruleId == rule.ruleId))) ∧
      (result.isPartial = false → result.found = complete.found) ∧
      result.partialRules.Nodup ∧ result.partialRules.Sublist bounded.rules.ids := by
  intro result complete
  have hj : bounded.config.toConfig.JudgesLike full.config.toConfig := ⟨hconf, hcap⟩
  have hids : bounded.rules.ids.Nodup := hr ▸ Compilation.nodup_ids compileConfig atoms
  have hresult : result = Id.run (bounded.rules.run .plain bounded.config.toConfig clock
      (Index.build batch mode)) := Executor.executeIndexBy_eq hb.faithful clock _
  have hcomplete : complete = Id.run (bounded.rules.run .plain full.config.toConfig .endless
      (Index.build batch mode)) := by
    rw [← hs, ← Config.clock_of_ne_zero hx]
    exact Executor.executeIndex_eq hf.faithful _
  rw [hresult, hcomplete]
  refine ⟨?_, ?_, ?_, ?_⟩
  · intro hc rule _
    exact RuleSet.filter_found_of_uncapped hj hl hc hids clock rule.ruleId
  · intro hwhole
    exact flatMap_found_of_no_diagnostics hj hl (RuleSet.no_diagnostics_of_isPartial hwhole)
  · exact hids.sublist (RuleSet.partialRules_sublist hids)
  · exact RuleSet.partialRules_sublist hids

/-! ### Rules without time -/

/-- Two sinks: the rule of one asks for a full name, that of the other has to scan. -/
def evalAtoms : List Atom := [
  { id := "eval", kind := .sink, matchRules := [{ call := some "eval" }] },
  { id := "spawn", kind := .sink, matchRules := [{ call := some "sp*" }] }]

/-- An executor with the rules of the sinks, whose rules have the given time. -/
def evalExecutor (config : ValidConfig) : Executor :=
  .new (Compilation.ofAtoms (.ofPreset .thorough) evalAtoms).rules config

/-- No rule has any time. -/
def noTimeConfig : ValidConfig where
  toConfig := (Config.ofPreset .thorough).updateRuntime fun s ↦ { s with maxExecutionTimeMs := 0 }
  valid := rfl

/-- A call that the second rule describes. -/
def spawnCall : Entity := .call { id := "call", call := "spawn" }

/-- Without time, the rule that has to scan is named and loses its match; the rule that looks up its
name finds that there is none, and is not named. -/
theorem bounded_run_names_losses_noTime :
    let result := (Executor.executeIndex (Index.build [spawnCall] .sensitive)
      (evalExecutor noTimeConfig)).1
    let complete := (Executor.executeIndex (Index.build [spawnCall] .sensitive)
      (evalExecutor (.ofPreset .thorough))).1
    result.partialRules = ["spawn#0"] ∧ complete.found.map (·.ruleId) = ["spawn#0"] ∧
      ∀ rule ∈ (evalExecutor noTimeConfig).rules.rules,
        result.found.filter (·.ruleId == rule.ruleId) <+:
            complete.found.filter (·.ruleId == rule.ruleId) ∧
          (rule.ruleId ∉ result.partialRules →
            result.found.filter (·.ruleId == rule.ruleId) =
              complete.found.filter (·.ruleId == rule.ruleId)) := by
  intro result complete
  have hr : (evalExecutor noTimeConfig).rules =
    (Compilation.ofAtoms (.ofPreset .thorough) evalAtoms).rules := rfl
  have hnames := (bounded_run_names_losses (.new _) (.new _) hr
    (rfl : (evalExecutor (.ofPreset .thorough)).rules = _) rfl rfl (by decide)
    (by decide : [spawnCall].length ≤ _) .sensitive noTimeConfig.clock).1 rfl
  -- the rules were declared in the order in which they run
  have hs (config : ValidConfig) : evalExecutor config = .new
      ⟨(Compilation.collect [] (Compilation.results (.ofPreset .thorough) 0 evalAtoms)).1⟩ config :=
    congrArg (Executor.new · config) (Compilation.rules_ofAtoms_of_pairwise (by decide +kernel))
  have hpartial : result.partialRules = ["spawn#0"] := by
    change (Executor.executeIndex _ (evalExecutor noTimeConfig)).1.partialRules = _
    rw [hs]
    decide +kernel
  have hcomplete : complete.found.map (·.ruleId) = ["spawn#0"] := by
    change (Executor.executeIndex _ (evalExecutor (.ofPreset .thorough))).1.found.map _ = _
    rw [hs]
    decide +kernel
  exact ⟨hpartial, hcomplete, hnames⟩

end TaintRules
