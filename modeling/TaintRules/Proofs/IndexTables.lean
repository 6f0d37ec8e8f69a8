import Mathlib.Data.List.Nodup
import TaintRules.Index.Basic

/-!
# What the tables of an index hold

Every table is filled in one way: each entity is noted under its keys at its position. So a table
is asked about the batch itself: the positions under a key are those of the entities that have the
key, in ascending order, and no key has two entries.
-/

namespace TaintRules

/-! ### One table -/

namespace Postings

variable {κ α : Type}

/-- No key has two entries. -/
def Distinct (postings : Postings κ) : Prop := (postings.entries.map (·.1)).Nodup

/-- A table without keys has no key twice. -/
theorem distinct_empty : (empty : Postings κ).Distinct := List.nodup_nil

variable [DecidableEq κ]

/-- The table has every item of a list at its position under its keys, and nothing else. -/
structure Holds (postings : Postings κ) (keysOf : α → List κ) (items : List α) : Prop where
  distinct : postings.Distinct
  query_eq (key : κ) : postings.query key = items.findIdxs (key ∈ keysOf ·)

/-- Notes a position under several keys. -/
def insertKeys (postings : Postings κ) (keys : List κ) (position : Nat) : Postings κ :=
  keys.foldl (fun table key ↦ table.insert key position) postings

/-- Notes items at consecutive positions, each under its keys. -/
def insertItems (keysOf : α → List κ) (postings : Postings κ) (position : Nat) :
    List α → Postings κ
  | [] => postings
  | item :: rest =>
    insertItems keysOf (postings.insertKeys (keysOf item) position) (position + 1) rest

/-- A table without keys has no position under any. -/
@[simp] theorem query_empty (key : κ) : (empty : Postings κ).query key = [] := rfl

/-- A position that is noted comes last under its key, and other keys keep theirs. -/
theorem query_insert (postings : Postings κ) (noted key : κ) (position : Nat) :
    (postings.insert noted position).query key =
      postings.query key ++ if noted = key then [position] else [] := by
  obtain ⟨entries, count⟩ := postings
  simp only [insert, query]
  induction entries with
  | nil =>
    simp only [insertEntry, List.lookup_cons, List.lookup_nil, Option.getD_none, List.nil_append]
    by_cases h : noted = key
    · simp [h]
    · simp [h, beq_false_of_ne (Ne.symm h)]
  | cons entry rest ih =>
    obtain ⟨other, positions⟩ := entry
    simp only [insertEntry]
    split
    · next ho =>
      subst ho
      by_cases h : other = key
      · simp [h]
      · simp [List.lookup_cons, h, beq_false_of_ne (Ne.symm h)]
    · next ho =>
      by_cases h : key = other
      · subst h
        simp [Ne.symm ho]
      · simpa only [List.lookup_cons, beq_false_of_ne h] using ih

private theorem map_fst_insertEntry (noted : κ) (position : Nat) (entries : List (κ × List Nat)) :
    (insertEntry noted position entries).map (·.1) =
      if noted ∈ entries.map (·.1) then entries.map (·.1) else entries.map (·.1) ++ [noted] := by
  induction entries with
  | nil => simp [insertEntry]
  | cons entry rest ih =>
    obtain ⟨other, positions⟩ := entry
    simp only [insertEntry]
    split
    · next ho => simp [ho]
    · next ho =>
      simp only [List.map_cons, List.mem_cons, ih, Ne.symm ho, false_or]
      split <;> simp

/-- Noting a position adds no second entry of a key. -/
theorem Distinct.insert {postings : Postings κ} (h : postings.Distinct) (noted : κ)
    (position : Nat) : (postings.insert noted position).Distinct := by
  unfold Distinct Postings.insert
  rw [map_fst_insertEntry]
  split
  · exact h
  · next hm =>
    refine List.nodup_append.mpr ⟨h, List.nodup_singleton _, fun key hk other ho he ↦ hm ?_⟩
    rwa [← List.mem_singleton.mp ho, ← he]

/-- The entry of a key has its positions. -/
theorem Distinct.query_eq {postings : Postings κ} (h : postings.Distinct) {key : κ}
    {positions : List Nat} (he : (key, positions) ∈ postings.entries) :
    postings.query key = positions := by
  obtain ⟨front, back, hs⟩ := List.append_of_mem he
  have hl : postings.entries.lookup key = some positions := by
    refine List.lookup_eq_some_iff.mpr ⟨front, back, hs, fun entry hf ↦ ?_⟩
    simp only [Distinct, hs, List.map_append, List.map_cons, List.nodup_append,
      List.mem_cons] at h
    exact bne_iff_ne.mpr (h.2.2 entry.1 (List.mem_map_of_mem hf) key (.inl rfl)).symm
  rw [query, hl, Option.getD_some]

/-- A position under a key is in an entry of the key. -/
theorem mem_entries_of_mem_query {postings : Postings κ} {key : κ} {position : Nat}
    (h : position ∈ postings.query key) :
    ∃ positions, (key, positions) ∈ postings.entries ∧ position ∈ positions := by
  unfold query at h
  cases hl : postings.entries.lookup key with
  | none => simp [hl] at h
  | some positions =>
    obtain ⟨front, back, hs, _⟩ := List.lookup_eq_some_iff.mp hl
    rw [hl, Option.getD_some] at h
    exact ⟨positions, by rw [hs]; simp, h⟩

/-- A position that is noted under distinct keys comes last under each of them. -/
theorem query_insertKeys (postings : Postings κ) {keys : List κ} (hk : keys.Nodup)
    (position : Nat) (key : κ) :
    (postings.insertKeys keys position).query key =
      postings.query key ++ if key ∈ keys then [position] else [] := by
  induction keys generalizing postings with
  | nil => simp [insertKeys]
  | cons first rest ih =>
    obtain ⟨hf, hr⟩ := List.nodup_cons.mp hk
    rw [insertKeys, List.foldl_cons, ← insertKeys, ih _ hr, query_insert, List.append_assoc]
    by_cases h : first = key
    · subst h
      simp [hf]
    · simp [h, Ne.symm h]

/-- Noting a position under several keys adds no second entry of a key. -/
theorem Distinct.insertKeys {postings : Postings κ} (h : postings.Distinct) (keys : List κ)
    (position : Nat) : (postings.insertKeys keys position).Distinct := by
  induction keys generalizing postings with
  | nil => exact h
  | cons first rest ih => exact ih (h.insert first position)

/-- After items are noted at consecutive positions, the positions under a key are the old ones and
then those of the items that have the key. -/
theorem query_insertItems {keysOf : α → List κ} (hk : ∀ item, (keysOf item).Nodup)
    (postings : Postings κ) (start : Nat) (items : List α) (key : κ) :
    (insertItems keysOf postings start items).query key =
      postings.query key ++ items.findIdxs (key ∈ keysOf ·) start := by
  induction items generalizing postings start with
  | nil => simp [insertItems]
  | cons item rest ih =>
    rw [insertItems, ih, query_insertKeys _ (hk item), List.findIdxs_cons, List.append_assoc]
    by_cases h : key ∈ keysOf item
    · simp [h]
    · simp [h]

/-- Noting items adds no second entry of a key. -/
theorem Distinct.insertItems {postings : Postings κ} (h : postings.Distinct)
    (keysOf : α → List κ) (start : Nat) (items : List α) :
    (insertItems keysOf postings start items).Distinct := by
  induction items generalizing postings start with
  | nil => exact h
  | cons item rest ih => exact ih (h.insertKeys (keysOf item) start) (start + 1)

/-- A table in which items are noted from the start holds them. -/
theorem holds_insertItems {keysOf : α → List κ} (hk : ∀ item, (keysOf item).Nodup)
    (items : List α) : (empty.insertItems keysOf 0 items).Holds keysOf items where
  distinct := distinct_empty.insertItems keysOf 0 items
  query_eq key := query_insertItems hk empty 0 items key

end Postings

/-! ### The three tables -/

/-- The qualified name is one of the names of a call, whether or not it differs from the simple
one. -/
theorem CallSite.any_names (mode : CaseMode) (site : CallSite) (test : String → Bool) :
    (site.names mode).any test =
      (test (mode.fold site.call) || site.qualifiedCall.any fun name ↦ test (mode.fold name)) := by
  simp only [names, List.any_cons]
  cases site.qualifiedCall with
  | none => simp
  | some name =>
    simp only [Option.map_some, Option.filter_some, Option.any_some]
    split
    · simp
    · next h =>
      rw [Bool.not_eq_true, bne_eq_false_iff_eq] at h
      simp [h]

namespace Entity

/-- The type and the name of a typed call. -/
def typedCallKeys (mode : CaseMode) : Entity → List TypedKey
  | .call site => (site.baseType.map (TypedKey.fold mode · site.call)).toList
  | .read _ => []

/-- The names of a call. -/
def callKeys (mode : CaseMode) : Entity → List String
  | .call site => site.names mode
  | .read _ => []

/-- The type and the name of a typed read. -/
def typedReadKeys (mode : CaseMode) : Entity → List TypedKey
  | .call _ => []
  | .read access => (access.baseType.map (TypedKey.fold mode · access.read)).toList

private theorem nodup_toList (key : Option TypedKey) : key.toList.Nodup := by
  cases key with
  | none => exact List.nodup_nil
  | some key => exact List.nodup_singleton key

/-- A typed call has one key. -/
theorem nodup_typedCallKeys (mode : CaseMode) (e : Entity) : (e.typedCallKeys mode).Nodup := by
  cases e with
  | call site => exact nodup_toList _
  | read access => exact List.nodup_nil

/-- A typed read has one key. -/
theorem nodup_typedReadKeys (mode : CaseMode) (e : Entity) : (e.typedReadKeys mode).Nodup := by
  cases e with
  | call site => exact List.nodup_nil
  | read access => exact nodup_toList _

/-- The names of a call differ. -/
theorem nodup_callKeys (mode : CaseMode) (e : Entity) : (e.callKeys mode).Nodup := by
  cases e with
  | read access => exact List.nodup_nil
  | call site =>
    simp only [callKeys, CallSite.names]
    cases hq : (site.qualifiedCall.map mode.fold).filter (· != mode.fold site.call) with
    | none => exact List.nodup_singleton _
    | some name =>
      have hne := (Option.filter_eq_some_iff.mp hq).2
      simpa using Ne.symm (bne_iff_ne.mp hne)

end Entity

namespace Tables

private theorem insert_eq (mode : CaseMode) (tables : Tables) (position : Nat) (e : Entity) :
    (tables.insert mode position e).typeCall =
        tables.typeCall.insertKeys (e.typedCallKeys mode) position ∧
      (tables.insert mode position e).call =
        tables.call.insertKeys (e.callKeys mode) position ∧
      (tables.insert mode position e).typeRead =
        tables.typeRead.insertKeys (e.typedReadKeys mode) position := by
  cases e with
  | call site =>
    simp only [insert, Entity.typedCallKeys, Entity.typedReadKeys]
    cases site.baseType <;> exact ⟨rfl, rfl, rfl⟩
  | read access =>
    simp only [insert, Entity.typedCallKeys, Entity.typedReadKeys]
    cases access.baseType <;> exact ⟨rfl, rfl, rfl⟩

/-- Noting entities at consecutive positions notes them in every table under their keys. -/
theorem insertAll_eq (mode : CaseMode) (tables : Tables) (start : Nat) (batch : List Entity) :
    (tables.insertAll mode start batch).typeCall =
        tables.typeCall.insertItems (Entity.typedCallKeys mode) start batch ∧
      (tables.insertAll mode start batch).call =
        tables.call.insertItems (Entity.callKeys mode) start batch ∧
      (tables.insertAll mode start batch).typeRead =
        tables.typeRead.insertItems (Entity.typedReadKeys mode) start batch := by
  induction batch generalizing tables start with
  | nil => exact ⟨rfl, rfl, rfl⟩
  | cons e rest ih =>
    obtain ⟨ht, hc, hr⟩ := insert_eq mode tables start e
    simp only [insertAll, Postings.insertItems, ← ht, ← hc, ← hr]
    exact ih _ _

end Tables

namespace Index

/-- The first table of an index holds the typed calls of the batch. -/
theorem holds_typeCall (batch : List Entity) (mode : CaseMode) :
    (build batch mode).tables.typeCall.Holds (Entity.typedCallKeys mode) batch := by
  rw [build, buildWith, (Tables.insertAll_eq mode {} 0 batch).1]
  exact Postings.holds_insertItems (Entity.nodup_typedCallKeys mode) batch

/-- The second table of an index holds the calls of the batch. -/
theorem holds_call (batch : List Entity) (mode : CaseMode) :
    (build batch mode).tables.call.Holds (Entity.callKeys mode) batch := by
  rw [build, buildWith, (Tables.insertAll_eq mode {} 0 batch).2.1]
  exact Postings.holds_insertItems (Entity.nodup_callKeys mode) batch

/-- The third table of an index holds the typed reads of the batch. -/
theorem holds_typeRead (batch : List Entity) (mode : CaseMode) :
    (build batch mode).tables.typeRead.Holds (Entity.typedReadKeys mode) batch := by
  rw [build, buildWith, (Tables.insertAll_eq mode {} 0 batch).2.2]
  exact Postings.holds_insertItems (Entity.nodup_typedReadKeys mode) batch

end Index

end TaintRules
