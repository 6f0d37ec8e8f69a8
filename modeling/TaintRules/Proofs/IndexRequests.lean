import TaintRules.Index.Cache

/-!
# When an index is handed out again

A cache keeps the index of the last batch that it was asked for, until it is invalidated. So a
request is answered by the kept index exactly if the last request since then was for a batch with
the same fingerprint and in the same case mode; with a window of zero no request is. Every request
is counted, and the index that is handed out is one for the fingerprint and the mode that were
asked for.
-/

namespace TaintRules

/-! ### One request -/

namespace CachedIndex

/-- The index of a batch, kept under the fingerprint of the batch. -/
def ofBatch (batch : List Entity) (mode : CaseMode) : CachedIndex where
  fingerprint := .ofBatch batch
  mode := mode
  index := Index.build batch mode

/-- What a kept index is recognised by. -/
def label (cached : CachedIndex) : Fingerprint × CaseMode := (cached.fingerprint, cached.mode)

/-- The index is one for what it is recognised by. -/
def IsLabelled (cached : CachedIndex) : Prop :=
  cached.label = (cached.index.fingerprint, cached.index.mode)

/-- A kept index serves for what it is recognised by. -/
theorem serves_iff_label {cached : CachedIndex} {fingerprint : Fingerprint} {mode : CaseMode} :
    cached.serves fingerprint mode = true ↔ cached.label = (fingerprint, mode) := by
  rw [serves, Bool.and_eq_true, beq_iff_eq, beq_iff_eq, label, Prod.mk.injEq]

end CachedIndex

namespace IndexCache

/-- What a request does: it hands out the kept index if there is one that serves; otherwise it
builds an index, and keeps it unless the window is zero. -/
theorem getOrBuild_cases (cache : IndexCache) (batch : List Entity) (mode : CaseMode) :
    (∃ cached, cache.slot = some cached ∧ cache.window ≠ 0 ∧
        cached.label = (.ofBatch batch, mode) ∧
        getOrBuild batch mode cache =
          ((cached.index, true), { cache with hits := cache.hits + 1 })) ∨
      ((cache.window ≠ 0 → cache.slot.map (·.label) ≠ some (.ofBatch batch, mode)) ∧
        getOrBuild batch mode cache = ((Index.build batch mode, false), { cache with
          slot := if cache.window = 0 then cache.slot else some (.ofBatch batch mode)
          misses := cache.misses + 1 })) := by
  unfold getOrBuild
  dsimp only
  split
  · next cached h =>
    obtain ⟨hs, hv⟩ := Option.filter_eq_some_iff.mp h
    rw [Bool.and_eq_true, bne_iff_ne, CachedIndex.serves_iff_label] at hv
    exact .inl ⟨cached, hs, hv.1, hv.2, rfl⟩
  · next h =>
    refine .inr ⟨fun hw hl ↦ ?_, rfl⟩
    obtain ⟨cached, hs, hv⟩ := Option.map_eq_some_iff.mp hl
    refine Option.filter_eq_none_iff.mp h cached hs ?_
    rw [Bool.and_eq_true, bne_iff_ne, CachedIndex.serves_iff_label]
    exact ⟨hw, hv⟩

/-- If the kept index is one for what it is recognised by, the index that is handed out is one for
what was asked for. -/
theorem label_getOrBuild {cache : IndexCache} (h : ∀ cached ∈ cache.slot, cached.IsLabelled)
    (batch : List Entity) (mode : CaseMode) :
    (getOrBuild batch mode cache).1.1.fingerprint = .ofBatch batch ∧
      (getOrBuild batch mode cache).1.1.mode = mode := by
  obtain ⟨cached, hs, -, hl, he⟩ | ⟨-, he⟩ := getOrBuild_cases cache batch mode
  · rw [he]
    exact Prod.mk.inj ((h cached hs).symm.trans hl)
  · rw [he]
    exact ⟨rfl, rfl⟩

/-- A request is a hit exactly if the kept index serves and the window is not zero. -/
theorem hit_getOrBuild_iff (cache : IndexCache) (batch : List Entity) (mode : CaseMode) :
    (getOrBuild batch mode cache).1.2 = true ↔
      cache.window ≠ 0 ∧ cache.slot.map (·.label) = some (.ofBatch batch, mode) := by
  obtain ⟨cached, hs, hw, hl, he⟩ | ⟨hn, he⟩ := getOrBuild_cases cache batch mode
  · rw [he, hs, Option.map_some, hl]
    exact iff_of_true rfl ⟨hw, rfl⟩
  · rw [he]
    exact iff_of_false Bool.false_ne_true fun h ↦ hn h.1 h.2

/-- A request is counted once, as a hit or as a miss. -/
theorem counts_getOrBuild (cache : IndexCache) (batch : List Entity) (mode : CaseMode) :
    (getOrBuild batch mode cache).2.hits =
        cache.hits + (if (getOrBuild batch mode cache).1.2 then 1 else 0) ∧
      (getOrBuild batch mode cache).2.hits + (getOrBuild batch mode cache).2.misses =
        cache.hits + cache.misses + 1 := by
  obtain ⟨cached, -, -, -, he⟩ | ⟨-, he⟩ := getOrBuild_cases cache batch mode
  · rw [he]
    exact ⟨rfl, Nat.add_right_comm _ _ _⟩
  · rw [he]
    exact ⟨rfl, rfl⟩

/-! ### Uses -/

/-- One use of a cache. -/
inductive Use where
  | request (batch : List Entity) (mode : CaseMode)
  | invalidate

namespace Use

/-- Whether the use asks for an index. -/
def isRequest : Use → Bool
  | .request .. => true
  | .invalidate => false

/-- The batches and modes asked for since the cache was invalidated, by uses of which the last
comes first. -/
def asked : List Use → List (List Entity × CaseMode)
  | [] => []
  | .invalidate :: _ => []
  | .request batch mode :: earlier => (batch, mode) :: asked earlier

end Use

/-- The cache after uses, the last of which comes first. -/
def after (cache : IndexCache) : List Use → IndexCache
  | [] => cache
  | .request batch mode :: earlier => (getOrBuild batch mode (cache.after earlier)).2
  | .invalidate :: earlier => (cache.after earlier).invalidate

/-- The answers to the requests among uses, the last of which comes first. -/
def answers (cache : IndexCache) : List Use → List (Index × Bool)
  | [] => []
  | .request batch mode :: earlier =>
    (getOrBuild batch mode (cache.after earlier)).1 :: cache.answers earlier
  | .invalidate :: earlier => cache.answers earlier

/-- What is true of a cache after uses, the last of which comes first: it keeps an index for what
was asked for last since it was invalidated, and none if its window is zero. -/
structure Keeps (window : Nat) (history : List Use) (cache : IndexCache) : Prop where
  window_eq : cache.window = window
  labelled : ∀ cached ∈ cache.slot, cached.IsLabelled
  slot_eq : cache.slot.map (·.label) =
    if window = 0 then none
    else (Use.asked history).head?.map fun (batch, mode) ↦ (Fingerprint.ofBatch batch, mode)

/-- After one more request the cache keeps an index for what was asked for. -/
theorem Keeps.request {window : Nat} {history : List Use} {cache : IndexCache}
    (h : cache.Keeps window history) (batch : List Entity) (mode : CaseMode) :
    (getOrBuild batch mode cache).2.Keeps window (.request batch mode :: history) := by
  obtain ⟨cached, hs, hw, hl, he⟩ | ⟨-, he⟩ := getOrBuild_cases cache batch mode
  · rw [h.window_eq] at hw
    rw [he]
    refine ⟨h.window_eq, h.labelled, ?_⟩
    rw [if_neg hw, hs, Option.map_some, hl]
    rfl
  · rw [he]
    refine ⟨h.window_eq, ?_, ?_⟩
    · dsimp only
      split
      · exact h.labelled
      · rintro cached ⟨⟩
        rfl
    · dsimp only
      rw [h.window_eq]
      split
      · next hw => rw [h.slot_eq, if_pos hw]
      · rfl

/-- An invalidated cache keeps nothing. -/
theorem Keeps.invalidate {window : Nat} {history : List Use} {cache : IndexCache}
    (h : cache.Keeps window history) : cache.invalidate.Keeps window (.invalidate :: history) :=
  ⟨h.window_eq, nofun, (ite_self none).symm⟩

/-- Whatever a cache was used for, it keeps an index for what was asked for last. -/
theorem keeps_after (window : Nat) (history : List Use) :
    (after { window } history).Keeps window history := by
  induction history with
  | nil => exact ⟨rfl, nofun, (ite_self none).symm⟩
  | cons last earlier ih =>
    cases last with
    | request batch mode => exact ih.request batch mode
    | invalidate => exact ih.invalidate

/-- The counters grow by the hits among the answers, and by one for each request. -/
theorem counts_after (cache : IndexCache) (history : List Use) :
    (cache.after history).hits = cache.hits + (cache.answers history).countP (·.2) ∧
      (cache.after history).hits + (cache.after history).misses =
        cache.hits + cache.misses + history.countP (·.isRequest) := by
  induction history with
  | nil => exact ⟨rfl, rfl⟩
  | cons last earlier ih =>
    obtain ⟨hhits, hcount⟩ := ih
    cases last with
    | invalidate =>
      rw [List.countP_cons_of_neg Bool.false_ne_true]
      exact ⟨hhits, hcount⟩
    | request batch mode =>
      obtain ⟨shits, scount⟩ := counts_getOrBuild (cache.after earlier) batch mode
      rw [after, answers, List.countP_cons, List.countP_cons_of_pos rfl]
      omega

/-- After any requests and invalidations, a request is answered by the kept index exactly if the
window is not zero, there was a request since the last invalidation, and the last such request was
for a batch with the same fingerprint in the same mode. The index handed out has the fingerprint of
the batch and the mode of the request. The hits and the misses are together as many as the requests
so far, and the hits as many as the answers that said so. -/
theorem hits_after_uses (window : Nat) (history : List Use) :
    let fresh : IndexCache := { window }
    let cache := fresh.after history
    (∀ batch mode,
      let answer := (getOrBuild batch mode cache).1
      (answer.2 = true ↔ window ≠ 0 ∧ ∃ kept, (Use.asked history).head? = some (kept, mode) ∧
          Fingerprint.ofBatch kept = Fingerprint.ofBatch batch) ∧
        answer.1.fingerprint = Fingerprint.ofBatch batch ∧ answer.1.mode = mode) ∧
      cache.hits + cache.misses = history.countP (·.isRequest) ∧
      cache.hits = (fresh.answers history).countP (·.2) := by
  intro fresh cache
  have hk : cache.Keeps window history := keeps_after window history
  obtain ⟨hhits, hcount⟩ := counts_after fresh history
  refine ⟨fun batch mode ↦ ⟨?_, label_getOrBuild hk.labelled batch mode⟩, ?_, ?_⟩
  · rw [hit_getOrBuild_iff, hk.window_eq, hk.slot_eq]
    refine and_congr_right fun hw ↦ ?_
    rw [if_neg hw, Option.map_eq_some_iff]
    constructor
    · rintro ⟨⟨kept, other⟩, hh, hl⟩
      obtain ⟨hf, rfl⟩ := Prod.mk.inj hl
      exact ⟨kept, hh, hf⟩
    · rintro ⟨kept, hh, hf⟩
      exact ⟨(kept, mode), hh, Prod.ext hf rfl⟩
  · rw [hcount]
    exact Nat.zero_add _
  · rw [hhits]
    exact Nat.zero_add _

-- the other mode takes the one place over, and no index outlives an invalidation
example :
    let cache := after { window := 1 } [.request [] .sensitive, .invalidate,
      .request [] .sensitive, .request [] .insensitive, .request [] .sensitive,
      .request [] .sensitive]
    (cache.hits, cache.misses) = (1, 4) := by decide +kernel

end IndexCache

end TaintRules
