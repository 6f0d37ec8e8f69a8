import TaintRules.Config.Basic
import TaintRules.Run.Check
import TaintRules.Run.MatchSet

/-!
# Running rules over an index

Rules run in their order, each over its candidates in the order of their positions. A rule whose
matches could not be reported is skipped. A rule keeps no more candidates than the configuration
allows. The clock is read before each candidate, and none is judged after a reading that is late. A
candidate is passed over when its entity has all the matches that are reported of one entity.
-/

namespace TaintRules

/-- What became of a candidate. -/
inductive Fate where
  /-- The entity has all the matches that are reported of one entity. -/
  | capped
  /-- A check failed. -/
  | rejected (step : Nat)
  /-- The evidence is too weak to be reported. -/
  | tooWeak
  | reported (confidence : Float) (guarded : Bool)
  deriving DecidableEq, Repr

/-- A candidate that was judged. -/
structure Judged where
  position : Nat
  entity : Entity
  fate : Fate
  deriving DecidableEq, Repr

/-- How many matches were reported of the entity at each position. -/
structure Tally where
  counts : Array Nat
  deriving DecidableEq, Repr

/-- What changes while rules run: the matches of each entity, and the counts of the run. -/
structure Progress where
  tally : Tally
  stats : RunStats
  deriving DecidableEq, Repr

/-- What judging candidates gives. -/
structure Judging where
  judged : List Judged
  /-- The candidates that were left when the time was over. -/
  skipped : Nat
  progress : Progress
  deriving Repr

/-- The time that each rule has, by the number of rules that were run before. -/
abbrev Clock := Nat → Timer

/-- The run of one rule. -/
structure RuleRun where
  rule : CompiledRule
  generated : Nat
  diagnostics : List Diagnostic
  judged : List Judged
  deriving Repr

namespace Tally

/-- No matches of any of `size` entities. -/
def zero (size : Nat) : Tally := ⟨Array.replicate size 0⟩

/-- The matches of the entity at a position. -/
def get (tally : Tally) (position : Nat) : Nat := tally.counts[position]?.getD 0

/-- Counts one more match. -/
def add (tally : Tally) (position : Nat) : Tally := ⟨tally.counts.modify position (· + 1)⟩

/-- Counts a candidate, if it was reported. -/
def note (tally : Tally) (position : Nat) : Fate → Tally
  | .reported _ _ => tally.add position
  | .capped | .rejected _ | .tooWeak => tally

end Tally

/-- Counts what became of a candidate. -/
def RunStats.note (stats : RunStats) : Fate → RunStats
  | .capped => { stats with capped := stats.capped + 1 }
  | .rejected _ | .reported _ _ => { stats with evaluated := stats.evaluated + 1 }
  | .tooWeak =>
    { stats with
      evaluated := stats.evaluated + 1, belowThreshold := stats.belowThreshold + 1 }

namespace Progress

/-- Nothing was run over `size` entities yet. -/
def start (size : Nat) : Progress := ⟨.zero size, { entities := size }⟩

/-- Counts a rule that is skipped. -/
def skip (progress : Progress) : Progress :=
  { progress with
    stats := { progress.stats with rulesSkipped := progress.stats.rulesSkipped + 1 } }

/-- Counts a rule that is run, and its candidates. -/
def enter (progress : Progress) (generated : Nat) : Progress :=
  { progress with
    stats := { progress.stats with
      rulesEvaluated := progress.stats.rulesEvaluated + 1
      generated := progress.stats.generated + generated } }

/-- Counts what became of the candidate at a position. -/
def note (progress : Progress) (position : Nat) (fate : Fate) : Progress where
  tally := progress.tally.note position fate
  stats := progress.stats.note fate

variable (progress : Progress)

@[simp] theorem tally_skip : progress.skip.tally = progress.tally := rfl

@[simp] theorem tally_enter (generated : Nat) :
    (progress.enter generated).tally = progress.tally := rfl

@[simp] theorem tally_note (position : Nat) (fate : Fate) :
    (progress.note position fate).tally = progress.tally.note position fate := rfl

end Progress

/-- The time that the rules after the next one have. -/
def Clock.next (clock : Clock) : Clock := fun n ↦ clock (n + 1)

namespace Config

/-- Whether the matches of a rule can be reported at all. -/
def runs (config : Config) (rule : CompiledRule) : Bool :=
  rule.confidence.shouldReport
    && !(rule.confidence.value < config.confidence.minReportThreshold)

/-- The time of each rule when the clock stands still: it is over at once, or never. -/
def clock (config : Config) : Clock := fun _ ↦
  if config.runtime.maxExecutionTimeMs = 0 then .readings 0 else .endless

/-- Whether an entity with a number of matches has all that are reported of one. -/
def isFull (config : Config) (count : Nat) : Bool :=
  config.runtime.maxMatchesPerEntity.any fun cap ↦ cap.toNat ≤ count

/-- What becomes of a candidate that passed its checks. -/
def weigh (config : Config) (confidence : Float) (guarded : Bool) : Fate :=
  let value := if guarded then confidence * config.confidence.guardMultiplier else confidence
  if value < config.confidence.minReportThreshold then .tooWeak else .reported value guarded

end Config

/-- The match that a judged candidate is, if it was reported. -/
def Judged.match? (rule : CompiledRule) (judged : Judged) : Option RuleMatch :=
  match judged.fate with
  | .reported confidence guarded =>
    some {
      ruleId := rule.ruleId, atomId := rule.atomId, entity := judged.entity, confidence
      effectKind := rule.effect.kind, category := rule.effect.category
      severity := rule.metadata.severity, tier := rule.tier, guarded }
  | .capped | .rejected _ | .tooWeak => none

/-- The matches of a run of a rule. -/
def RuleRun.found (run : RuleRun) : List RuleMatch := run.judged.filterMap (·.match? run.rule)

section Run

variable {m : Type → Type} [Monad m]

/-- Judges a candidate. -/
def CompiledRule.judge (decide : Decider m) (config : Config) (mode : CaseMode)
    (rule : CompiledRule) (count : Nat) (entity : Entity) : m Fate := do
  if config.isFull count then return .capped
  match ← rule.predicates.evaluate decide mode entity with
  | .fail step => return .rejected step
  | .pass guarded => return config.weigh rule.confidence.value guarded

/-- Judges the candidates at some positions, as far as the time allows. -/
def CompiledRule.judgeAll (decide : Decider m) (config : Config) (index : Index)
    (rule : CompiledRule) : Timer → Progress → List Nat → m Judging
  | _, progress, [] => return { judged := [], skipped := 0, progress }
  | timer, progress, position :: rest =>
    match timer.read with
    | none => return { judged := [], skipped := rest.length + 1, progress }
    | some timer =>
      match index.entities[position]? with
      | none => judgeAll decide config index rule timer progress rest
      | some entity => do
        let fate ← rule.judge decide config index.mode (progress.tally.get position) entity
        let others ← judgeAll decide config index rule timer (progress.note position fate) rest
        return { others with judged := ⟨position, entity, fate⟩ :: others.judged }

/-- Runs a rule. -/
def CompiledRule.run (decide : Decider m) (config : Config) (index : Index) (timer : Timer)
    (progress : Progress) (rule : CompiledRule) : m (RuleRun × Progress) := do
  let candidates ← rule.candidates decide index timer
  let generated := candidates.positions.length
  let limit := config.runtime.maxCandidatesPerRule.toNat
  let kept := candidates.positions.take limit
  let overflow :=
    if limit < generated then [Diagnostic.overflow rule.ruleId generated limit] else []
  let timeout (skipped : Nat) :=
    Diagnostic.timeout rule.ruleId (kept.length - skipped) skipped
      config.runtime.maxExecutionTimeMs.toNat
  let progress := progress.enter generated
  if candidates.timedOut then
    let diagnostics := overflow ++ [timeout kept.length]
    return ({ rule, generated, diagnostics, judged := [] }, progress)
  else
    let result ← rule.judgeAll decide config index candidates.timer progress kept
    let diagnostics := overflow ++ if result.skipped = 0 then [] else [timeout result.skipped]
    return ({ rule, generated, diagnostics, judged := result.judged }, result.progress)

/-- Runs rules one after the other. -/
def runRules (decide : Decider m) (config : Config) (index : Index) :
    Clock → Progress → List CompiledRule → m (List RuleRun × Progress)
  | _, progress, [] => return ([], progress)
  | clock, progress, rule :: rest =>
    if config.runs rule then do
      let (run, progress) ← rule.run decide config index (clock 0) progress
      let (runs, progress) ← runRules decide config index clock.next progress rest
      return (run :: runs, progress)
    else runRules decide config index clock progress.skip rest

/-- Runs a set of rules over an index. -/
def RuleSet.run (decide : Decider m) (config : Config) (clock : Clock) (index : Index)
    (set : RuleSet) : m MatchSet := do
  let (runs, progress) ← runRules decide config index clock (.start index.size) set.rules
  let found := runs.flatMap (·.found)
  return {
    found, diagnostics := runs.flatMap (·.diagnostics)
    stats := { progress.stats with reported := found.length } }

end Run

end TaintRules
