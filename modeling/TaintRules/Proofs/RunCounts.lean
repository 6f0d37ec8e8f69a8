import TaintRules.Proofs.RuleRuns

/-!
# The counts of a run

The counts of a run are kept up while it goes on. A rule is counted when it is skipped or entered,
and a candidate when it is known what becomes of it, whichever way that is. In the end the counts
are those of the runs of the rules: how many they are, what they generated, and what became of the
candidates that they judged.
-/

namespace TaintRules

namespace RunStats

/-- The counts after some candidates. -/
def after (stats : RunStats) (judged : List Judged) : RunStats :=
  { stats with
    evaluated := stats.evaluated + judged.countP (·.fate ≠ .capped)
    capped := stats.capped + judged.countP (·.fate = .capped)
    belowThreshold := stats.belowThreshold + judged.countP (·.fate = .tooWeak) }

/-- Each candidate is counted by its fate. -/
theorem after_cons (stats : RunStats) (judged : Judged) (rest : List Judged) :
    stats.after (judged :: rest) = (stats.note judged.fate).after rest := by
  obtain ⟨position, entity, fate⟩ := judged
  unfold after
  rw [List.countP_cons, List.countP_cons, List.countP_cons]
  cases fate with
  | capped | rejected step | tooWeak | reported confidence guarded =>
    simp [note, Nat.add_assoc, Nat.add_comm 1]

theorem after_append (stats : RunStats) (judged rest : List Judged) :
    stats.after (judged ++ rest) = (stats.after judged).after rest := by
  simp [after, Nat.add_assoc]

end RunStats

namespace CompiledRule

/-- Judging candidates counts them. -/
theorem stats_judgeAll (config : Config) (index : Index) (rule : CompiledRule)
    (progress : Progress) (positions : List Nat) :
    let result := Id.run (rule.judgeAll .plain config index .endless progress positions)
    result.progress.stats = progress.stats.after result.judged := by
  induction positions generalizing progress with
  | nil => rfl
  | cons position rest ih =>
    cases he : index.entities[position]? with
    | none =>
      rw [judgeAll_of_absent rfl he]
      exact ih progress
    | some e =>
      rw [judgeAll_of_present rfl he]
      dsimp only
      rw [ih, RunStats.after_cons]
      rfl

/-- A run counts the rule and what it generates, and then the candidates that it judges. -/
theorem stats_run (config : Config) (index : Index) (timer : Timer) (progress : Progress)
    (rule : CompiledRule) :
    let result := Id.run (rule.run .plain config index timer progress)
    result.2.stats = (progress.enter result.1.generated).stats.after result.1.judged := by
  rw [run_eq]
  exact stats_judgeAll config index rule _ _

end CompiledRule

/-- The counts after some rules have run and others were skipped. -/
def RunStats.afterRuns (stats : RunStats) (runs : List RuleRun) (skipped : Nat) : RunStats :=
  { stats.after (runs.flatMap (·.judged)) with
    rulesEvaluated := stats.rulesEvaluated + runs.length
    rulesSkipped := stats.rulesSkipped + skipped
    generated := stats.generated + total (runs.map (·.generated)) }

/-- A rule is counted when it is skipped. -/
theorem Progress.afterRuns_skip (progress : Progress) (runs : List RuleRun) (skipped : Nat) :
    progress.skip.stats.afterRuns runs skipped = progress.stats.afterRuns runs (skipped + 1) := by
  simp [RunStats.afterRuns, RunStats.after, skip, Nat.add_assoc, Nat.add_comm 1]

/-- A rule is counted with what it generates when it is entered, and then its candidates are. -/
theorem Progress.afterRuns_enter (progress : Progress) (run : RuleRun) (runs : List RuleRun)
    (skipped : Nat) :
    ((progress.enter run.generated).stats.after run.judged).afterRuns runs skipped =
      progress.stats.afterRuns (run :: runs) skipped := by
  unfold RunStats.afterRuns
  rw [List.flatMap_cons, RunStats.after_append]
  simp [RunStats.after, enter, Nat.add_assoc, Nat.add_comm 1]

/-- Running rules counts those that are run and those that are skipped. -/
theorem stats_runRules (config : Config) (index : Index) (clock : Clock) (progress : Progress)
    (rules : List CompiledRule) :
    let result := Id.run (runRules .plain config index clock progress rules)
    result.2.stats =
      progress.stats.afterRuns result.1 (rules.countP fun rule ↦ !config.runs rule) := by
  induction rules generalizing clock progress with
  | nil => rfl
  | cons rule rest ih =>
    cases hrun : config.runs rule with
    | false =>
      rw [runRules_of_not_runs hrun]
      dsimp only
      rw [ih, List.countP_cons_of_pos (by simp [hrun]), Progress.afterRuns_skip]
    | true =>
      rw [runRules_of_runs hrun]
      dsimp only
      rw [ih, CompiledRule.stats_run, List.countP_cons_of_neg (by simp [hrun]),
        Progress.afterRuns_enter]

namespace RuleSet

/-- The runs of the rules that are not skipped, one after the other. -/
def runs (config : Config) (clock : Clock) (index : Index) (set : RuleSet) : List RuleRun :=
  (Id.run (runRules .plain config index clock (.start index.size) set.rules)).1

/-- The result of a set of rules has the matches and the complaints of the runs, and counts what is
in them. -/
theorem run_eq (config : Config) (clock : Clock) (index : Index) (set : RuleSet) :
    Id.run (set.run .plain config clock index) =
      let runs := set.runs config clock index
      let judged := runs.flatMap (·.judged)
      let found := runs.flatMap (·.found)
      { found, diagnostics := runs.flatMap (·.diagnostics)
        stats := {
          entities := index.size
          rulesEvaluated := runs.length
          rulesSkipped := set.rules.countP fun rule ↦ !config.runs rule
          generated := total (runs.map (·.generated))
          evaluated := judged.countP (·.fate ≠ .capped)
          reported := found.length
          capped := judged.countP (·.fate = .capped)
          belowThreshold := judged.countP (·.fate = .tooWeak) } } := by
  have hstats := stats_runRules config index clock (.start index.size) set.rules
  unfold RuleSet.run
  rw [Id.run_bind]
  simp only [Id.run_pure, hstats]
  simp [RunStats.afterRuns, RunStats.after, Progress.start, runs]

end RuleSet

end TaintRules
