import TaintRules.Proofs.CompiledRules
import TaintRules.Proofs.RuleRuns

/-!
# The bound for the matches of one entity

A run under a bound for the matches of an entity reports what the run without this bound reports,
less the matches of entities that had all of theirs. The two runs part as soon as an entity is full,
since its candidates are then no longer checked; what holds them together is that the count of each
position is the number of its matches in the other run, as far as the bound goes.
-/

namespace TaintRules

/-! ### Matches and their positions -/

/-- A match, and the position of its entity in the batch. -/
structure PlacedMatch where
  position : Nat
  found : RuleMatch
  deriving DecidableEq, Repr

/-- The match that a judged candidate is, if it was reported, at its position. -/
def Judged.placed? (rule : CompiledRule) (judged : Judged) : Option PlacedMatch :=
  (judged.match? rule).map (PlacedMatch.mk judged.position)

/-- The matches of a run of a rule, at their positions. -/
def RuleRun.placed (run : RuleRun) : List PlacedMatch := run.judged.filterMap (·.placed? run.rule)

/-- The matches of a set of rules over an index, at their positions. -/
def RuleSet.placed (config : Config) (index : Index) (set : RuleSet) : List PlacedMatch :=
  (Id.run (runRules .plain config index config.clock (.start index.size) set.rules)).1.flatMap
    (·.placed)

theorem RuleRun.map_placed (run : RuleRun) : run.placed.map (·.found) = run.found := by
  rw [placed, found, List.map_filterMap]
  simp [Judged.placed?, Function.comp_def]

/-- Without their positions, the matches of a set are what its run finds. -/
theorem RuleSet.map_placed (config : Config) (index : Index) (set : RuleSet) :
    (set.placed config index).map (·.found) =
      (Id.run (set.run .plain config config.clock index)).found := by
  rw [placed, List.map_flatMap]
  simp only [RuleRun.map_placed]
  rfl

/-! ### The first matches of each position -/

/-- The matches before which fewer than `cap` others of the list belong to the same position. -/
def firstOfEach (cap : Nat) (placed : List PlacedMatch) : List PlacedMatch :=
  (placed.zipIdx.filter fun (m, i) ↦
    (placed.take i).countP (·.position == m.position) < cap).map (·.1)

/-- The same for the rest of a list whose first matches are `earlier`. -/
def firstAfter (cap : Nat) (earlier : List PlacedMatch) : List PlacedMatch → List PlacedMatch
  | [] => []
  | m :: rest =>
    (if earlier.countP (·.position == m.position) < cap then [m] else [])
      ++ firstAfter cap (earlier ++ [m]) rest

private theorem firstAfter_eq (cap : Nat) (earlier rest : List PlacedMatch) :
    firstAfter cap earlier rest =
      ((rest.zipIdx earlier.length).filter fun (m, i) ↦
        ((earlier ++ rest).take i).countP (·.position == m.position) < cap).map (·.1) := by
  induction rest generalizing earlier with
  | nil => rfl
  | cons m rest ih =>
    have hrest := ih (earlier ++ [m])
    rw [List.length_append, List.length_singleton, List.append_assoc, List.singleton_append]
      at hrest
    rw [firstAfter, hrest, List.zipIdx_cons, List.filter_cons]
    simp only [List.take_left', decide_eq_true_eq]
    split <;> simp

theorem firstOfEach_eq_firstAfter (cap : Nat) (placed : List PlacedMatch) :
    firstOfEach cap placed = firstAfter cap [] placed :=
  (firstAfter_eq cap [] placed).symm

theorem firstAfter_append (cap : Nat) (earlier front rest : List PlacedMatch) :
    firstAfter cap earlier (front ++ rest) =
      firstAfter cap earlier front ++ firstAfter cap (earlier ++ front) rest := by
  induction front generalizing earlier with
  | nil => simp [firstAfter]
  | cons m front ih =>
    rw [List.cons_append, firstAfter, ih, firstAfter, List.append_assoc, List.append_assoc,
      List.singleton_append]

/-! ### Counts -/

/-- The counts of a run under a bound, after some matches of the run without it: each position has
as many as the bound allows. -/
structure Tally.Follows (tally : Tally) (cap size : Nat) (earlier : List PlacedMatch) : Prop where
  size_eq : tally.counts.size = size
  get_eq : ∀ position < size,
    tally.get position = min cap (earlier.countP (·.position == position))

namespace Tally.Follows

variable {tally : Tally} {cap size : Nat} {earlier : List PlacedMatch} {m : PlacedMatch}

theorem zero (cap size : Nat) : (Tally.zero size).Follows cap size [] := by
  constructor
  · exact Array.size_replicate
  · intro position hp
    simp [Tally.zero, Tally.get, hp]

/-- A match of a position that has all of its matches is not counted. -/
theorem skip (h : tally.Follows cap size earlier)
    (hfull : cap ≤ earlier.countP (·.position == m.position)) :
    tally.Follows cap size (earlier ++ [m]) := by
  refine ⟨h.size_eq, fun position hp ↦ ?_⟩
  rw [h.get_eq position hp, List.countP_append, List.countP_singleton]
  by_cases he : m.position = position
  · subst he
    omega
  · simp [he]

/-- Another match is counted at its position. -/
theorem add (h : tally.Follows cap size earlier)
    (hfree : earlier.countP (·.position == m.position) < cap) :
    (tally.add m.position).Follows cap size (earlier ++ [m]) := by
  refine ⟨?_, fun position hp ↦ ?_⟩
  · rw [Tally.add, Array.size_modify, h.size_eq]
  · have hget := h.get_eq position hp
    rw [← h.size_eq] at hp
    unfold Tally.get at hget ⊢
    rw [Array.getElem?_eq_getElem hp, Option.getD_some] at hget
    rw [Tally.add, Array.getElem?_modify, Array.getElem?_eq_getElem hp, List.countP_append,
      List.countP_singleton]
    by_cases he : m.position = position
    · subst he
      simp only [if_true, Option.map_some, Option.getD_some, beq_self_eq_true]
      omega
    · simp [he, hget]

end Tally.Follows

/-! ### Two runs side by side -/

/-- Configurations of two runs that differ only in the bound for the matches of an entity, which one
of them has. -/
structure Config.Caps (capped free : Config) (cap : UInt64) : Prop where
  confidence : capped.confidence = free.confidence
  candidates : capped.runtime.maxCandidatesPerRule = free.runtime.maxCandidatesPerRule
  time : capped.runtime.maxExecutionTimeMs = free.runtime.maxExecutionTimeMs
  bound : capped.runtime.maxMatchesPerEntity = some cap
  unbound : free.runtime.maxMatchesPerEntity = none

section Runs

variable {capped free : Config} {cap : UInt64} {tally : Tally} {progress : Progress}
  {earlier : List PlacedMatch}

theorem Config.Caps.runs_eq (h : capped.Caps free cap) : capped.runs = free.runs := by
  funext rule
  unfold runs
  rw [h.confidence]

theorem Config.Caps.clock_eq (h : capped.Caps free cap) : capped.clock = free.clock := by
  unfold clock
  rw [h.time]

/-- Both runs come to the same candidates. -/
theorem Config.Caps.reached_eq (h : capped.Caps free cap) (index : Index) (timer : Timer)
    (rule : CompiledRule) : rule.reached capped index timer = rule.reached free index timer := by
  unfold CompiledRule.reached CompiledRule.kept
  rw [h.candidates]

namespace CompiledRule

variable {rule : CompiledRule}

/-- Under the bound a candidate is passed over or judged as without it. -/
theorem judge_of_caps (h : capped.Caps free cap) (rule : CompiledRule) (mode : CaseMode)
    (count other : Nat) (e : Entity) :
    Id.run (rule.judge .plain capped mode count e) =
      if cap.toNat ≤ count then .capped else Id.run (rule.judge .plain free mode other e) := by
  have hcapped : capped.isFull count = decide (cap.toNat ≤ count) := by
    rw [Config.isFull, h.bound]
    rfl
  have hfree : free.isFull other = false := by
    rw [Config.isFull, h.unbound]
    rfl
  have hweigh : capped.weigh = free.weigh := by
    funext confidence guarded
    unfold Config.weigh
    rw [h.confidence]
  unfold judge
  rw [hcapped, hfree, hweigh]
  by_cases hc : cap.toNat ≤ count
  · simp [hc]
  · simp [hc]

/-- A candidate that is not reported is no match and is not counted. -/
private theorem placed?_eq_none (position : Nat) (e : Entity) {fate : Fate}
    (h : ∀ confidence guarded, fate ≠ .reported confidence guarded) (tally : Tally) :
    (Judged.mk position e fate).placed? rule = none ∧ tally.note position fate = tally := by
  cases fate with
  | capped | rejected step | tooWeak => exact ⟨rfl, rfl⟩
  | reported confidence guarded => exact absurd rfl (h confidence guarded)

/-- One candidate: what the run under the bound keeps of its match, and what it counts. -/
theorem note_of_follows {size : Nat} (ht : tally.Follows cap.toNat size earlier) {position : Nat}
    (hp : position < size) (rule : CompiledRule) (e : Entity) (fate : Fate) :
    let kept := if cap.toNat ≤ tally.get position then .capped else fate
    let placed := ((Judged.mk position e fate).placed? rule).toList
    ((Judged.mk position e kept).placed? rule).toList = firstAfter cap.toNat earlier placed ∧
      (tally.note position kept).Follows cap.toNat size (earlier ++ placed) := by
  intro kept placed
  have hget := ht.get_eq position hp
  by_cases hr : ∃ confidence guarded, fate = .reported confidence guarded
  · obtain ⟨confidence, guarded, rfl⟩ := hr
    obtain ⟨m, hm, rfl⟩ : ∃ m : PlacedMatch,
        (Judged.mk position e (.reported confidence guarded)).placed? rule = some m ∧
          m.position = position := ⟨_, rfl, rfl⟩
    have hplaced : placed = [m] := congrArg Option.toList hm
    rw [hplaced, firstAfter, firstAfter, List.append_nil]
    by_cases hc : cap.toNat ≤ tally.get m.position
    · -- the entity is full: its match is dropped here and counts on in the other run
      have hfull : cap.toNat ≤ earlier.countP (·.position == m.position) := by omega
      have hkept : kept = .capped := if_pos hc
      rw [hkept, if_neg (Nat.not_lt_of_le hfull)]
      exact ⟨rfl, ht.skip hfull⟩
    · have hfree : earlier.countP (·.position == m.position) < cap.toNat := by omega
      have hkept : kept = .reported confidence guarded := if_neg hc
      rw [hkept, hm, if_pos hfree]
      exact ⟨rfl, ht.add hfree⟩
  · have hfate : ∀ confidence guarded, fate ≠ .reported confidence guarded :=
      fun confidence guarded h ↦ hr ⟨confidence, guarded, h⟩
    have hkept : ∀ confidence guarded, kept ≠ .reported confidence guarded := by
      intro confidence guarded h
      by_cases hc : cap.toNat ≤ tally.get position
      · simp [kept, hc] at h
      · exact hfate confidence guarded (by simpa [kept, hc] using h)
    have hplaced : placed = [] :=
      congrArg Option.toList (@placed?_eq_none rule position e fate hfate tally).1
    obtain ⟨hnone, hnote⟩ := @placed?_eq_none rule position e kept hkept tally
    rw [hplaced, hnone, hnote, List.append_nil]
    exact ⟨rfl, ht⟩

private theorem filterMap_cons_eq_append {α β : Type} (f : α → Option β) (item : α)
    (rest : List α) : (item :: rest).filterMap f = (f item).toList ++ rest.filterMap f := by
  cases h : f item <;> simp [h]

/-- The candidates of one rule: the run under the bound keeps the first matches of each position
among those of the other run, and its counts follow. -/
theorem placed_judgeAll (h : capped.Caps free cap) (index : Index) (rule : CompiledRule)
    (ht : progress.tally.Follows cap.toNat index.size earlier) (other : Progress)
    (positions : List Nat) :
    let bounded := Id.run (rule.judgeAll .plain capped index .endless progress positions)
    let placed := (Id.run
      (rule.judgeAll .plain free index .endless other positions)).judged.filterMap (·.placed? rule)
    bounded.judged.filterMap (·.placed? rule) = firstAfter cap.toNat earlier placed ∧
      bounded.progress.tally.Follows cap.toNat index.size (earlier ++ placed) := by
  induction positions generalizing progress earlier other with
  | nil => exact ⟨rfl, by simpa [judgeAll] using ht⟩
  | cons position rest ih =>
    cases he : index.entities[position]? with
    | none =>
      rw [judgeAll_of_absent rfl he, judgeAll_of_absent rfl he]
      exact ih ht other
    | some e =>
      let fate := Id.run (rule.judge .plain free index.mode (other.tally.get position) e)
      have hp : position < index.size := (List.getElem?_eq_some_iff.mp he).1
      obtain ⟨hkept, hnote⟩ := note_of_follows ht hp rule e fate
      let kept := if cap.toNat ≤ progress.tally.get position then .capped else fate
      obtain ⟨hrest, hlast⟩ := @ih (progress.note position kept) _ hnote (other.note position fate)
      have hjudge := judge_of_caps h rule index.mode (progress.tally.get position)
        (other.tally.get position) e
      rw [List.append_assoc] at hlast
      rw [judgeAll_of_present rfl he, judgeAll_of_present rfl he]
      simp only [hjudge, filterMap_cons_eq_append, firstAfter_append]
      exact ⟨congr (congrArg _ hkept) hrest, hlast⟩

/-- One rule, which comes to the same candidates in both runs. -/
theorem placed_run (h : capped.Caps free cap) (index : Index) (timer : Timer) (rule : CompiledRule)
    (ht : progress.tally.Follows cap.toNat index.size earlier) (other : Progress) :
    let bounded := Id.run (rule.run .plain capped index timer progress)
    let placed := (Id.run (rule.run .plain free index timer other)).1.placed
    bounded.1.placed = firstAfter cap.toNat earlier placed ∧
      bounded.2.tally.Follows cap.toNat index.size (earlier ++ placed) := by
  let generated := (Id.run (rule.candidates .plain index timer)).positions.length
  rw [run_eq, run_eq, h.reached_eq]
  exact @placed_judgeAll _ _ _ (progress.enter generated) _ h index rule ht
    (other.enter generated) (rule.reached free index timer)

end CompiledRule

/-- Rules one after the other. -/
theorem placed_runRules (h : capped.Caps free cap) (index : Index) (clock : Clock)
    (ht : progress.tally.Follows cap.toNat index.size earlier) (other : Progress)
    (rules : List CompiledRule) :
    (Id.run (runRules .plain capped index clock progress rules)).1.flatMap (·.placed) =
      firstAfter cap.toNat earlier
        ((Id.run (runRules .plain free index clock other rules)).1.flatMap (·.placed)) := by
  induction rules generalizing clock progress earlier other with
  | nil => rfl
  | cons rule rest ih =>
    cases hrun : free.runs rule with
    | false =>
      rw [runRules_of_not_runs hrun, runRules_of_not_runs (h.runs_eq ▸ hrun)]
      exact @ih progress.skip earlier clock ht other.skip
    | true =>
      obtain ⟨hfirst, hcounts⟩ := rule.placed_run h index (clock 0) ht other
      have hrest := ih clock.next hcounts (Id.run (rule.run .plain free index (clock 0) other)).2
      rw [runRules_of_runs hrun, runRules_of_runs (h.runs_eq ▸ hrun)]
      simp only [List.flatMap_cons, firstAfter_append]
      rw [hfirst, hrest]

/-- A set of rules under the bound has the first matches of each position. -/
theorem RuleSet.placed_of_caps (h : capped.Caps free cap) (index : Index) (set : RuleSet) :
    set.placed capped index = firstOfEach cap.toNat (set.placed free index) := by
  rw [firstOfEach_eq_firstAfter, placed, placed, h.clock_eq]
  exact placed_runRules h index free.clock (Tally.Follows.zero _ _) _ _

end Runs

/-! ### Positions -/

section Positions

variable {config : Config} {index : Index}

private theorem entity_of_placed? {rule : CompiledRule} {judged : Judged} {m : PlacedMatch}
    (h : judged.placed? rule = some m) :
    m.position = judged.position ∧ m.found.entity = judged.entity := by
  obtain ⟨position, entity, fate⟩ := judged
  cases fate with
  | capped | rejected step | tooWeak => cases h
  | reported confidence guarded =>
    cases h
    exact ⟨rfl, rfl⟩

private theorem entity_of_mem_run {rule : CompiledRule} {timer : Timer} {progress : Progress}
    {m : PlacedMatch}
    (h : m ∈ (Id.run (rule.run .plain config index timer progress)).1.placed) :
    index.entities[m.position]? = some m.found.entity := by
  obtain ⟨judged, hj, hm⟩ := List.mem_filterMap.mp h
  obtain ⟨hposition, hentity⟩ := entity_of_placed? hm
  rw [hposition, hentity]
  exact (CompiledRule.of_mem_run hj).1

/-- Every match is one of the entity at its position. -/
theorem RuleSet.entity_of_mem_placed {set : RuleSet} {m : PlacedMatch}
    (h : m ∈ set.placed config index) : index.entities[m.position]? = some m.found.entity := by
  obtain ⟨run, hr, hm⟩ := List.mem_flatMap.mp h
  have hrun := @forall_mem_runRules config index
    (fun run ↦ ∀ m ∈ run.placed, index.entities[m.position]? = some m.found.entity)
    (fun _ _ _ _ ↦ entity_of_mem_run) _ _ _ run hr
  exact hrun m hm

end Positions

/-- A run under a bound for the matches of an entity reports the matches of the run that differs in
nothing else, in the same order, without those before which the other run has as many matches of
the same position as the bound allows. -/
theorem found_of_capped_run {capped free : Executor} (hc : capped.matcher.Reached)
    (hf : free.matcher.Reached) (hr : capped.rules = free.rules)
    (hconf : capped.config.confidence = free.config.confidence) {cap : UInt64}
    (hcap : capped.config.runtime =
      { free.config.runtime with maxMatchesPerEntity := some cap })
    (hfree : free.config.runtime.maxMatchesPerEntity = none) (index : Index) :
    let placed := free.rules.placed free.config.toConfig index
    (Executor.executeIndex index free).1.found = placed.map (·.found) ∧
      (∀ m ∈ placed, index.entities[m.position]? = some m.found.entity) ∧
      (Executor.executeIndex index capped).1.found =
        (firstOfEach cap.toNat placed).map (·.found) := by
  intro placed
  have h : capped.config.toConfig.Caps free.config.toConfig cap :=
    ⟨hconf, by rw [hcap], by rw [hcap], by rw [hcap], hfree⟩
  refine ⟨?_, fun m hm ↦ RuleSet.entity_of_mem_placed hm, ?_⟩
  · rw [Executor.executeIndex_eq hf.faithful]
    exact (RuleSet.map_placed _ _ _).symm
  · rw [Executor.executeIndex_eq hc.faithful, ← RuleSet.placed_of_caps h, ← hr]
    exact (RuleSet.map_placed _ _ _).symm

/-! ### Entities that share their identifier -/

/-- Three sinks, the last of which takes a call of the first. -/
def loadAtoms : List Atom := [
  { id := "load", kind := .sink, matchRules := [{ call := some "load" }] },
  { id := "lock", kind := .sink, matchRules := [{ call := some "lock" }] },
  { id := "tail", kind := .sink, matchRules := [{ call := some "*ad" }] }]

/-- An executor with the rules of the sinks. -/
def loadExecutor (config : ValidConfig) : Executor :=
  .new (Compilation.ofAtoms (.ofPreset .balanced) loadAtoms).rules config

/-- One match of each entity is reported. -/
def singleConfig : ValidConfig where
  toConfig := (Config.ofPreset .balanced).updateRuntime fun s ↦
    { s with maxMatchesPerEntity := some 1 }
  valid := rfl

/-- Two calls with one identifier. -/
def loadBatch : List Entity := [
  .call { id := "call", call := "load" },
  .call { id := "call", call := "lock" }]

/-- Of three matches the first of each position is left, although both calls have one
identifier. -/
theorem found_of_capped_run_single :
    let names (config : ValidConfig) : List (String × String) :=
      (Executor.executeIndex (Index.build loadBatch .sensitive) (loadExecutor config)).1.found.map
        fun m ↦ (m.ruleId, m.entity.member)
    names (.ofPreset .balanced) =
        [("load#0", "load"), ("lock#0", "lock"), ("tail#0", "load")] ∧
      names singleConfig = [("load#0", "load"), ("lock#0", "lock")] := by
  intro names
  obtain ⟨hall, -, hfirst⟩ :=
    @found_of_capped_run (loadExecutor singleConfig) (loadExecutor (.ofPreset .balanced))
      (.new _) (.new _) rfl rfl 1 rfl rfl (Index.build loadBatch .sensitive)
  -- the rules were declared in the order in which they run
  have hs : (loadExecutor (.ofPreset .balanced)).rules =
      ⟨(Compilation.collect [] (Compilation.results (.ofPreset .balanced) 0 loadAtoms)).1⟩ :=
    @Compilation.rules_ofAtoms_of_pairwise (.ofPreset .balanced) loadAtoms (by decide +kernel)
  rw [hs] at hall hfirst
  constructor
  · change List.map _ (Executor.executeIndex _ _).1.found = _
    rw [hall]
    decide +kernel
  · change List.map _ (Executor.executeIndex _ _).1.found = _
    rw [hfirst]
    decide +kernel

end TaintRules
