import Mathlib.Data.List.Forall2
import TaintRules.Proofs.IndexReuse
import TaintRules.Proofs.RunCounts

/-!
# The ways to run an executor agree

Rules are run over a batch, over batches that have nothing to do with each other, or over records.
Each way leaves out what cannot be indexed in its own manner, and all of them report of the rest
what an executor that keeps no index reports, with one complaint about each item left out before
what the rules complain about.
-/

namespace TaintRules

/-- The complaints about what a check refuses: one for each of the refused items, in order. -/
def Complaints {α β : Type} (check : α → Except MalformedEntity β) (items : List α)
    (complaints : List Diagnostic) : Prop :=
  List.Forall₂
    (fun item complaint ↦ ∃ error, check item = .error error ∧ complaint = .malformed error)
    (items.filter fun item ↦ !(check item).isOk) complaints

/-- What to complain about leaves no choice. -/
theorem Complaints.eq {α β : Type} {check : α → Except MalformedEntity β} {items : List α}
    {complaints others : List Diagnostic} (h : Complaints check items complaints)
    (ho : Complaints check items others) : complaints = others := by
  unfold Complaints at h ho
  generalize (items.filter fun item ↦ !(check item).isOk) = refused at h ho
  induction h generalizing others with
  | nil =>
    cases ho
    rfl
  | cons hitem _ ih =>
    cases ho with
    | cons hother hrest =>
      obtain ⟨error, he, rfl⟩ := hitem
      obtain ⟨other, ho, rfl⟩ := hother
      rw [he] at ho
      cases ho
      rw [ih hrest]

/-- Collecting a complaint of each error gives the complaints. -/
theorem complaints_filterMap {α β : Type} {check : α → Except MalformedEntity β}
    {collect : α → Option Diagnostic}
    (hok : ∀ item value, check item = .ok value → collect item = none)
    (herror : ∀ item error, check item = .error error → collect item = some (.malformed error))
    (items : List α) : Complaints check items (items.filterMap collect) := by
  induction items with
  | nil => exact .nil
  | cons item rest ih =>
    unfold Complaints at ih ⊢
    cases h : check item with
    | ok value => simpa [h, hok item value h, Except.isOk, Except.toBool] using ih
    | error error =>
      simp only [h, herror item error h, Except.isOk, Except.toBool, List.filter_cons,
        List.filterMap_cons, Bool.not_false, if_true]
      exact .cons ⟨error, h, rfl⟩ ih

namespace Executor

theorem complaints_screen (batch : List Entity) :
    Complaints Entity.validate batch (screen batch) :=
  complaints_filterMap (fun _ _ h ↦ by rw [h]) (fun _ _ h ↦ by rw [h]) batch

theorem complaints_screenRecords (records : List EntityRecord) :
    Complaints EntityRecord.toEntity records (screenRecords records) :=
  complaints_filterMap (fun _ _ h ↦ by rw [h]) (fun _ _ h ↦ by rw [h]) records

end Executor

/-! ### Entities that can be indexed -/

namespace Entity

/-- The entities that can be indexed are those that pass their validation. -/
theorem isValid_iff {e : Entity} : e.isValid = true ↔ e.validate = .ok () := by
  unfold isValid validate
  cases Text.isBlank e.member <;> simp

theorem isValid_eq_isOk (e : Entity) : e.isValid = e.validate.isOk := by
  unfold isValid validate
  cases Text.isBlank e.member <;> rfl

end Entity

theorem Text.isBlank_of_nonBlank {value : Option String} {text : String}
    (h : nonBlank value = some text) : isBlank text = false := by
  have htext := (Option.filter_eq_some_iff.mp h).2
  simpa using htext

/-- The entity that a record describes has a name. -/
theorem EntityRecord.isValid_of_toEntity {record : EntityRecord} {e : Entity}
    (h : record.toEntity = .ok e) : e.isValid = true := by
  unfold toEntity at h
  split at h
  · cases h
  · split at h
    · cases h
    · next hcall _ _ =>
      cases h
      rw [Entity.isValid, Entity.member, Text.isBlank_of_nonBlank hcall, Bool.not_false]
    · next hread _ =>
      cases h
      rw [Entity.isValid, Entity.member, Text.isBlank_of_nonBlank hread, Bool.not_false]
    · cases h

/-- So do all entities that records describe. -/
theorem EntityRecord.isValid_of_mem {records : List EntityRecord} {e : Entity}
    (h : e ∈ records.filterMap (·.toEntity.toOption)) : e.isValid = true := by
  obtain ⟨record, -, hr⟩ := List.mem_filterMap.mp h
  cases he : record.toEntity with
  | error error =>
    rw [he] at hr
    cases hr
  | ok value =>
    rw [he] at hr
    cases hr
    exact isValid_of_toEntity he

namespace Executor

/-- Of entities that all can be indexed none is left out. -/
theorem indexed_of_valid {batch : List Entity} (h : ∀ e ∈ batch, e.isValid = true) :
    indexed batch = batch :=
  List.filter_eq_self.mpr h

/-- Nobody complains about entities that all can be indexed. -/
theorem screen_of_valid {batch : List Entity} (h : ∀ e ∈ batch, e.isValid = true) :
    screen batch = [] := by
  refine List.filterMap_eq_nil_iff.mpr fun e he ↦ ?_
  rw [Entity.isValid_iff.mp (h e he)]

/-! ### Runs over what can be indexed -/

/-- What the rules of an executor report of entities that can be indexed. -/
def report (executor : Executor) (batch : List Entity) : MatchSet :=
  executor.rules.run (m := Id) .plain executor.config.toConfig executor.config.clock
    (Index.build batch executor.mode)

/-- Only the rules and the configuration of an executor matter. -/
theorem report_congr {executor other : Executor} (hr : executor.rules = other.rules)
    (hc : executor.config = other.config) : executor.report = other.report := by
  funext batch
  unfold report mode
  rw [hr, hc]

/-- All that the rules complain about carries the name of a rule. -/
theorem ruleId?_of_mem_report {executor : Executor} {batch : List Entity}
    {diagnostic : Diagnostic} (h : diagnostic ∈ (executor.report batch).diagnostics) :
    diagnostic.ruleId?.isSome = true := by
  obtain ⟨run, hr, hd⟩ := List.mem_flatMap.mp h
  rw [ruleId?_of_mem_runRules hr hd, Option.isSome_some]

/-- Runs the rules over entities with an index that is not kept, and puts complaints in front. -/
def runAfter (complaints : List Diagnostic) (batch : List Entity) : StateM Executor MatchSet := do
  let set ← executeIndex (Index.build batch (← get).mode)
  return set.precede complaints

theorem executeOnce_eq_runAfter (batch : List Entity) :
    executeOnce batch = runAfter (screen batch) (indexed batch) := rfl

theorem executeRecords_eq_runAfter (records : List EntityRecord) :
    executeRecords records =
      runAfter (screenRecords records) (records.filterMap (·.toEntity.toOption)) := rfl

private theorem bind_apply {σ α β : Type} (x : StateM σ α) (f : α → StateM σ β) (s : σ) :
    (x >>= f) s = f (x s).1 (x s).2 := rfl

/-- Such a run reports what the rules report, and changes nothing but the matcher, which stays
faithful. -/
theorem runAfter_eq {executor : Executor} (hm : executor.matcher.Faithful)
    (complaints : List Diagnostic) (batch : List Entity) :
    ∃ matcher : Matcher, matcher.Faithful ∧
      runAfter complaints batch executor =
        ((executor.report batch).precede complaints, { executor with matcher }) := by
  have hrun := executeIndex_eq hm (Index.build batch executor.mode)
  obtain ⟨matcher, hf, hs⟩ := executeIndex_state hm (Index.build batch executor.mode)
  -- the run over the index has to stay folded: it would be evaluated to compare the results
  have happly : runAfter complaints batch executor =
      (executeIndex (Index.build batch executor.mode) >>= fun set ↦
        pure (set.precede complaints)) executor := rfl
  rw [bind_apply, hrun, hs] at happly
  exact ⟨matcher, hf, happly⟩

/-- An executor that keeps no index reports what the rules report, after its complaints. -/
theorem execute_eq_report {executor : Executor} (hm : executor.matcher.Faithful)
    (he : executor.cache.slot = none) (batch : List Entity) :
    (execute batch executor).1 = (executor.report (indexed batch)).precede (screen batch) := by
  have hbuild : (IndexCache.getOrBuild (indexed batch) executor.mode executor.cache).1 =
      (Index.build (indexed batch) executor.mode, false) := by
    unfold IndexCache.getOrBuild
    rw [he]
    rfl
  let asked : Executor := { executor with
    cache := (IndexCache.getOrBuild (indexed batch) executor.mode executor.cache).2 }
  have happly : execute batch executor =
      (executeIndex (executor.indexFor batch) >>= fun set ↦
        pure (MatchSet.precede (screen batch) { set with stats := { set.stats with
          cacheHit :=
            (IndexCache.getOrBuild (indexed batch) executor.mode executor.cache).1.2 } }))
        asked := rfl
  rw [happly, bind_apply, indexFor, hbuild, @executeIndex_eq asked hm]
  -- a run leaves the word about the cache as it was
  have hhit : (executor.report (indexed batch)).stats.cacheHit = false :=
    congrArg (·.stats.cacheHit) (RuleSet.run_eq _ _ _ _)
  change MatchSet.precede (screen batch) { executor.report (indexed batch) with
    stats := { (executor.report (indexed batch)).stats with cacheHit := false } } = _
  rw [← hhit]

/-- Of entities that all can be indexed it reports just that. -/
theorem execute_of_valid {executor : Executor} (hm : executor.matcher.Faithful)
    (he : executor.cache.slot = none) {batch : List Entity}
    (h : ∀ e ∈ batch, e.isValid = true) : (execute batch executor).1 = executor.report batch := by
  rw [execute_eq_report hm he, indexed_of_valid h, screen_of_valid h]
  rfl

/-- Batches one after the other: what one of them leaves in the matcher changes no other. -/
theorem executeBatches_eq_report {executor : Executor} (hm : executor.matcher.Faithful)
    (batches : List (List Entity)) :
    (executeBatches batches executor).1 =
      batches.map fun batch ↦ (executor.report (indexed batch)).precede (screen batch) := by
  induction batches generalizing executor with
  | nil => rfl
  | cons batch rest ih =>
    obtain ⟨matcher, hf, hs⟩ := runAfter_eq hm (screen batch) (indexed batch)
    have hrest := @ih { executor with matcher } hf
    unfold executeBatches at hrest ⊢
    rw [List.mapM_cons, List.map_cons, bind_apply, bind_apply, executeOnce_eq_runAfter, hs, hrest]
    rfl

/-- Let `result` be what an executor that keeps no index gives for a batch. Of a batch it is the
result of the entities that pass their validation, with a complaint about each of the others before
what the rules complain about. Batches have their results one by one, whatever the executor keeps.
Records have the result of the entities that they describe, with a complaint about each record that
describes none; all entities that records describe pass their validation. -/
theorem entry_points_agree {executor fresh : Executor} (hm : executor.matcher.Reached)
    (hf : fresh.matcher.Reached) (hr : executor.rules = fresh.rules)
    (hc : executor.config = fresh.config) (he : fresh.cache.slot = none) :
    let result (batch : List Entity) : MatchSet := (execute batch fresh).1
    (∀ batch : List Entity,
      let passed := result (batch.filter (·.validate.isOk))
      (∀ diagnostic ∈ passed.diagnostics, diagnostic.ruleId?.isSome = true) ∧
      ∃ complaints, Complaints Entity.validate batch complaints ∧
        result batch = { passed with diagnostics := complaints ++ passed.diagnostics }) ∧
    (∀ batches, (executeBatches batches executor).1 = batches.map result) ∧
    (∀ records : List EntityRecord,
      let described := result (records.filterMap (·.toEntity.toOption))
      (∀ diagnostic ∈ described.diagnostics, diagnostic.ruleId?.isSome = true) ∧
      ∃ complaints, Complaints EntityRecord.toEntity records complaints ∧
        (executeRecords records executor).1 =
          { described with diagnostics := complaints ++ described.diagnostics }) ∧
    ∀ (record : EntityRecord) (e : Entity), record.toEntity = .ok e → e.validate = .ok () := by
  intro result
  refine ⟨fun batch ↦ ?_, fun batches ↦ ?_, fun records ↦ ?_, fun record e h ↦ ?_⟩
  · have hpassed : result (batch.filter (·.validate.isOk)) = fresh.report (indexed batch) := by
      simp only [← Entity.isValid_eq_isOk]
      exact execute_of_valid hf.faithful he fun e hmem ↦ (List.mem_filter.mp hmem).2
    intro passed
    rw [show passed = _ from hpassed]
    exact ⟨fun _ ↦ ruleId?_of_mem_report, screen batch, complaints_screen batch,
      execute_eq_report hf.faithful he batch⟩
  · rw [executeBatches_eq_report hm.faithful, report_congr hr hc]
    exact List.map_congr_left fun batch _ ↦ (execute_eq_report hf.faithful he batch).symm
  · have hdescribed : result (records.filterMap (·.toEntity.toOption)) =
        fresh.report (records.filterMap (·.toEntity.toOption)) :=
      execute_of_valid hf.faithful he fun e hmem ↦ EntityRecord.isValid_of_mem hmem
    obtain ⟨matcher, -, hrun⟩ := runAfter_eq hm.faithful (screenRecords records)
      (records.filterMap (·.toEntity.toOption))
    intro described
    rw [show described = _ from hdescribed, executeRecords_eq_runAfter, hrun, report_congr hr hc]
    exact ⟨fun _ ↦ ruleId?_of_mem_report, screenRecords records, complaints_screenRecords records,
      rfl⟩
  · exact Entity.isValid_iff.mp (EntityRecord.isValid_of_toEntity h)

/-! ### Items that are left out -/

/-- A call without a name, and the call that is looked for. -/
def spoiledBatch : List Entity := [.call { id := "b", call := " " }, execCall]

/-- Records of both calls, and one of an unknown kind between them. -/
def spoiledRecords : List EntityRecord := [
  { id := "b", kind := "call", call := some " " },
  { id := "c", kind := "jump", call := some "exec" },
  { id := "x", kind := " Call", call := some "exec" }]

/-- An executor that keeps the index of a batch whose bytes are those of another one. -/
def keepingExecutor : Executor :=
  { execExecutor with cache := { execExecutor.cache with
      slot := some (.ofBatch flaggedBatch execExecutor.mode) } }

/-- The call is found among the others, with complaints about these, and nothing is found through
the index that is kept. -/
theorem entry_points_agree_spoiled :
    let outline (set : MatchSet) : List String × List Diagnostic :=
      (set.found.map (·.entity.id), set.diagnostics)
    let nameless : Diagnostic := .malformed (.missingMember "b" .call "call")
    let unknown : Diagnostic := .malformed (.unknownKind "c" "jump")
    outline (execute spoiledBatch execExecutor).1 = (["x"], [nameless]) ∧
      (executeBatches [spelledBatch, spoiledBatch] keepingExecutor).1.map outline =
        [([], []), (["x"], [nameless])] ∧
      outline (executeRecords spoiledRecords keepingExecutor).1 =
        (["x"], [nameless, unknown]) := by
  intro outline nameless unknown
  obtain ⟨hone, hall, hrecords, -⟩ :=
    @entry_points_agree keepingExecutor execExecutor (.new _) (.new _) rfl rfl rfl
  refine ⟨?_, ?_, ?_⟩
  · obtain ⟨complaints, hc, hset⟩ := (hone spoiledBatch).2
    rw [hc.eq (complaints_screen _)] at hset
    exact (congrArg outline hset).trans (by decide +kernel)
  · rw [hall]
    decide +kernel
  · obtain ⟨complaints, hc, hset⟩ := (hrecords spoiledRecords).2
    rw [hc.eq (complaints_screenRecords _)] at hset
    exact (congrArg outline hset).trans (by decide +kernel)

end Executor

end TaintRules
