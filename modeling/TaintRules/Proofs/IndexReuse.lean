import TaintRules.Proofs.BatchEncoding
import TaintRules.Proofs.IndexRequests
import TaintRules.Proofs.PlainRun
import TaintRules.Rule.Compile

/-!
# When a kept index is the right one

An executor uses the index of the last batch again while batches with the same fingerprint come.
So a call runs over the index of the batch that serves: the first of the last batches in a row that
have the same bytes. Where this is the batch of the call, the call gives what a fresh executor
gives, and it always is if no flag of the batches begins like an entity.
-/

namespace TaintRules

/-! ### The cache -/

namespace IndexCache

/-- An empty cache builds the index of a batch and keeps it. -/
theorem getOrBuild_of_none {cache : IndexCache} (hw : cache.window ≠ 0)
    (hs : cache.slot = none) (batch : List Entity) (mode : CaseMode) :
    (getOrBuild batch mode cache).1.1 = Index.build batch mode ∧
      (getOrBuild batch mode cache).2.slot = some (.ofBatch batch mode) := by
  obtain ⟨index, hi, -⟩ | ⟨-, he⟩ := getOrBuild_cases cache batch mode
  · rw [hs] at hi
    cases hi
  · rw [he]
    exact ⟨rfl, if_neg hw⟩

/-- An index that is kept is given for a batch with its fingerprint, and kept on. -/
theorem getOrBuild_of_serves {cache : IndexCache} (hw : cache.window ≠ 0) {kept : List Entity}
    {mode : CaseMode} (hs : cache.slot = some (.ofBatch kept mode)) {batch : List Entity}
    (h : Fingerprint.ofBatch kept = Fingerprint.ofBatch batch) :
    (getOrBuild batch mode cache).1.1 = Index.build kept mode ∧
      (getOrBuild batch mode cache).2.slot = some (.ofBatch kept mode) := by
  obtain ⟨index, hi, -, -, he⟩ | ⟨hn, -⟩ := getOrBuild_cases cache batch mode
  · rw [he]
    exact ⟨congrArg CachedIndex.index (Option.some.inj (hi.symm.trans hs)), hs⟩
  · refine absurd ?_ (hn hw)
    rw [hs, ← h]
    rfl

/-- An index that is kept gives way to that of a batch with another fingerprint. -/
theorem getOrBuild_of_not_serves {cache : IndexCache} (hw : cache.window ≠ 0) {kept : List Entity}
    {mode : CaseMode} (hs : cache.slot = some (.ofBatch kept mode)) {batch : List Entity}
    (h : Fingerprint.ofBatch kept ≠ Fingerprint.ofBatch batch) :
    (getOrBuild batch mode cache).1.1 = Index.build batch mode ∧
      (getOrBuild batch mode cache).2.slot = some (.ofBatch batch mode) := by
  obtain ⟨index, hi, -, hl, -⟩ | ⟨-, he⟩ := getOrBuild_cases cache batch mode
  · rw [← Option.some.inj (hs.symm.trans hi)] at hl
    exact absurd (Prod.mk.inj hl).1 h
  · rw [he]
    exact ⟨rfl, if_neg hw⟩

/-- Asking for an index changes no window. -/
theorem window_getOrBuild (cache : IndexCache) (batch : List Entity) (mode : CaseMode) :
    (getOrBuild batch mode cache).2.window = cache.window := by
  obtain ⟨index, -, -, -, he⟩ | ⟨-, he⟩ := getOrBuild_cases cache batch mode <;> rw [he]

end IndexCache

/-! ### Executors -/

namespace Executor

/-- The entities of a batch that can be indexed. -/
def indexed (batch : List Entity) : List Entity := batch.filter (·.isValid)

/-- The executor after it ran over batches, the last of which comes first. -/
def after (executor : Executor) : List (List Entity) → Executor
  | [] => executor
  | last :: earlier => (execute last (after executor earlier)).2

/-- The batch whose index serves for a batch after others, the last of which comes first: that of
the last one while the bytes stay the same. -/
def servedBy : List (List Entity) → List Entity → List Entity
  | [], batch => indexed batch
  | last :: earlier, batch =>
    if encodeBatch (indexed last) = encodeBatch (indexed batch) then servedBy earlier last
    else indexed batch

/-- No two of the batches have one hash and different bytes. -/
def HashesApart (batches : List (List Entity)) : Prop :=
  ∀ a ∈ batches, ∀ b ∈ batches,
    Blake3.hash (encodeBatch (indexed a)) = Blake3.hash (encodeBatch (indexed b)) →
      encodeBatch (indexed a) = encodeBatch (indexed b)

/-- The index that a call runs over. -/
def indexFor (executor : Executor) (batch : List Entity) : Index :=
  (IndexCache.getOrBuild (indexed batch) executor.mode executor.cache).1.1

/-- A call runs the rules over its index, reports what could not be indexed, and changes nothing
but the matcher and the cache. -/
theorem execute_eq {executor : Executor} (hm : executor.matcher.Faithful) (batch : List Entity) :
    let set := executor.rules.run (m := Id) .plain executor.config.toConfig executor.config.clock
      (executor.indexFor batch)
    (execute batch executor).1.found = set.found ∧
      (execute batch executor).1.diagnostics = screen batch ++ set.diagnostics ∧
      ∃ matcher : Matcher, matcher.Faithful ∧
        (execute batch executor).2 = { executor with
          matcher
          cache := (IndexCache.getOrBuild (indexed batch) executor.mode executor.cache).2 } := by
  intro set
  let asked : Executor := { executor with
    cache := (IndexCache.getOrBuild (indexed batch) executor.mode executor.cache).2 }
  have hr := @executeIndex_eq asked hm (executor.indexFor batch)
  obtain ⟨matcher, hf, hs⟩ := @executeIndex_state asked hm (executor.indexFor batch)
  have hfound : (execute batch executor).1.found =
      (executeIndex (executor.indexFor batch) asked).1.found := rfl
  have hdiag : (execute batch executor).1.diagnostics =
      screen batch ++ (executeIndex (executor.indexFor batch) asked).1.diagnostics := rfl
  rw [hfound, hdiag, hr]
  exact ⟨rfl, rfl, matcher, hf, hs⟩

/-- What is true of an executor after any history. -/
structure Kept (rules : RuleSet) (config : ValidConfig) (history : List (List Entity))
    (executor : Executor) : Prop where
  rules_eq : executor.rules = rules
  config_eq : executor.config = config
  faithful : executor.matcher.Faithful
  window_ne : executor.cache.window ≠ 0
  slot_eq : executor.cache.slot =
    match history with
    | [] => none
    | last :: earlier => some (.ofBatch (servedBy earlier last) executor.mode)

/-- The batch whose index serves has the bytes of the batch it serves for. -/
theorem encodeBatch_servedBy (history : List (List Entity)) (batch : List Entity) :
    encodeBatch (servedBy history batch) = encodeBatch (indexed batch) := by
  induction history generalizing batch with
  | nil => rfl
  | cons last earlier ih =>
    rw [servedBy]
    split
    · next h => rw [ih, h]
    · rfl

/-- One call: the index is that of the batch that serves, and it is kept. -/
theorem Kept.getOrBuild_eq {rules : RuleSet} {config : ValidConfig}
    {history : List (List Entity)} {executor : Executor}
    (h : Kept rules config history executor) {batch : List Entity}
    (hh : HashesApart (batch :: history)) :
    executor.indexFor batch = Index.build (servedBy history batch) executor.mode ∧
      (IndexCache.getOrBuild (indexed batch) executor.mode executor.cache).2.slot =
        some (.ofBatch (servedBy history batch) executor.mode) := by
  have hs := h.slot_eq
  cases history with
  | nil => exact IndexCache.getOrBuild_of_none h.window_ne hs _ _
  | cons last earlier =>
    dsimp only at hs
    have hb := encodeBatch_servedBy earlier last
    rw [servedBy]
    split
    · next he =>
      refine IndexCache.getOrBuild_of_serves h.window_ne hs ?_
      rw [Fingerprint.ofBatch, Fingerprint.ofBatch, hb, he]
    · next he =>
      refine IndexCache.getOrBuild_of_not_serves h.window_ne hs fun hf ↦ he ?_
      have hd : Blake3.hash (encodeBatch (servedBy earlier last)) =
          Blake3.hash (encodeBatch (indexed batch)) := congrArg Fingerprint.digest hf
      rw [hb] at hd
      exact hh last (by simp) batch (by simp) hd

/-- Whatever an executor ran over, it keeps its rules and its configuration, and the index of the
batch that serves. -/
theorem kept_after {rules : RuleSet} {config : ValidConfig}
    (ht : config.runtime.indexCacheTtlMs ≠ 0) {history : List (List Entity)}
    (hh : HashesApart history) :
    Kept rules config history ((new rules config).after history) := by
  induction history with
  | nil =>
    have hw : config.runtime.indexCacheTtlMs.toNat ≠ 0 := fun h ↦
      ht (UInt64.toNat_inj.mp h)
    exact ⟨rfl, rfl, Matcher.faithful_new _, hw, rfl⟩
  | cons last earlier ih =>
    have hk := ih fun a ha b hb ↦ hh a (List.mem_cons_of_mem _ ha) b (List.mem_cons_of_mem _ hb)
    obtain ⟨-, -, matcher, hf, hs⟩ := execute_eq hk.faithful last
    have hslot := (hk.getOrBuild_eq hh).2
    rw [after, hs]
    exact ⟨hk.rules_eq, hk.config_eq, hf, by
      rw [IndexCache.window_getOrBuild]; exact hk.window_ne, hslot⟩

/-- Batches of which no flag begins like an entity are served by their own index. -/
theorem servedBy_eq {history : List (List Entity)} {batch : List Entity}
    (hs : ∀ b ∈ batch :: history, BatchSized (indexed b))
    (hc : ∀ b ∈ batch :: history, ∀ e ∈ indexed b, e.IsClear) :
    servedBy history batch = indexed batch := by
  induction history generalizing batch with
  | nil => rfl
  | cons last earlier ih =>
    rw [servedBy]
    split
    · next h =>
      rw [ih (fun b hb ↦ hs b (List.mem_cons_of_mem _ hb))
        fun b hb ↦ hc b (List.mem_cons_of_mem _ hb)]
      exact encodeBatch_inj (hs last (by simp)) (hs batch (by simp)) (hc last (by simp))
        (hc batch (by simp)) h
    · rfl

/-- After any history, a call runs over the index of the batch that serves, which is the right
index exactly if that batch is the batch of the call. Then the call gives the matches and the
diagnostics that a fresh executor gives. Among batches whose sizes fit into eight bytes and of
which no flag begins like an entity, it always is. -/
theorem execute_after_history {rules : RuleSet} {config : ValidConfig}
    (ht : config.runtime.indexCacheTtlMs ≠ 0) {history : List (List Entity)}
    {batch : List Entity} (hh : HashesApart (batch :: history)) :
    let fresh := new rules config
    let executor := fresh.after history
    executor.indexFor batch = Index.build (servedBy history batch) executor.mode ∧
      (executor.indexFor batch = Index.build (indexed batch) executor.mode ↔
        servedBy history batch = indexed batch) ∧
      (servedBy history batch = indexed batch →
        (execute batch executor).1.found = (execute batch fresh).1.found ∧
          (execute batch executor).1.diagnostics = (execute batch fresh).1.diagnostics) ∧
      ((∀ b ∈ batch :: history, BatchSized (indexed b) ∧ ∀ e ∈ indexed b, e.IsClear) →
        servedBy history batch = indexed batch) := by
  intro fresh executor
  have hk : Kept rules config history executor := kept_after ht fun a ha b hb ↦
    hh a (List.mem_cons_of_mem _ ha) b (List.mem_cons_of_mem _ hb)
  have hf : Kept rules config [] fresh := kept_after ht (by simp [HashesApart])
  have hi := (hk.getOrBuild_eq hh).1
  have hmode : executor.mode = fresh.mode := by rw [mode, mode, hk.config_eq, hf.config_eq]
  refine ⟨hi, ?_, fun hs ↦ ?_, fun hc ↦ ?_⟩
  · rw [hi]
    exact ⟨congrArg Index.entities, fun hs ↦ by rw [hs]⟩
  · have hindex : executor.indexFor batch = fresh.indexFor batch := by
      have hone : HashesApart [batch] := by simp [HashesApart]
      rw [hi, hs, hmode, (hf.getOrBuild_eq hone).1, servedBy]
    obtain ⟨hfound, hdiag, -⟩ := execute_eq hk.faithful batch
    obtain ⟨hfound', hdiag', -⟩ := execute_eq hf.faithful batch
    rw [hfound, hdiag, hfound', hdiag', hindex, hk.rules_eq, hf.rules_eq, hk.config_eq,
      hf.config_eq]
    exact ⟨rfl, rfl⟩
  · exact servedBy_eq (fun b hb ↦ (hc b hb).1) fun b hb ↦ (hc b hb).2

/-! ### Two batches with the same bytes -/

/-- The call that is looked for. -/
def execCall : Entity := .call { id := "x", call := "exec" }

/-- A call with flags whose positions spell the beginning of a read, and the call that is looked
for. -/
def flaggedBatch : List Entity := [
  .call {
    id := "a", call := "f"
    isConst := ((ConstFlags.empty.insert 338 false).insert 687931392 false).insert
      8243113905852121088 false },
  execCall]

/-- The first call without flags, and a read whose name spells the second call. -/
def spelledBatch : List Entity := [
  .call { id := "a", call := "f" },
  .read {
    id := ""
    read := "filler\x00" ++ String.ofList (execCall.encode.map fun byte ↦ .ofNat byte.toNat) }]

/-- A rule that looks for the call. -/
def execRules : RuleSet :=
  (Compilation.ofAtoms (.ofPreset .balanced)
    [{ id := "exec", kind := .sink, matchRules := [{ call := some "exec" }] }]).rules

/-- An executor that looks for the call. -/
def execExecutor : Executor := new execRules (.ofPreset .balanced)

/-- A batch without the call that is looked for is run over the index of another batch, and the
call in that other batch is reported. -/
theorem execute_after_flaggedBatch :
    encodeBatch flaggedBatch = encodeBatch spelledBatch ∧
      (execExecutor.after [flaggedBatch]).indexFor spelledBatch ≠
        Index.build (indexed spelledBatch) (execExecutor.after [flaggedBatch]).mode ∧
      (execute spelledBatch (execExecutor.after [flaggedBatch])).1.found.map (·.entity) =
        [execCall] ∧
      (execute spelledBatch execExecutor).1.found = [] := by
  have hb : encodeBatch (indexed flaggedBatch) = encodeBatch (indexed spelledBatch) := by
    decide +kernel
  have hh : HashesApart [spelledBatch, flaggedBatch] := by
    simp [HashesApart, hb]
  have hi := (@execute_after_history execRules (.ofPreset .balanced) (by decide) _ _ hh).2.1
  refine ⟨by decide +kernel, fun h ↦ ?_, by decide +kernel, by decide +kernel⟩
  have hs := hi.mp h
  rw [servedBy, if_pos hb, servedBy] at hs
  exact absurd hs (by decide +kernel)

end Executor

end TaintRules
