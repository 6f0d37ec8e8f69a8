import Mathlib.Algebra.BigOperators.Group.Finset.Basic
import TaintRules.Proofs.IndexTables
import TaintRules.Total

/-!
# The index lists its batch

Each table of an index lists, under every key, the positions of the entities that have the key:
all of them, no others, and in ascending order. The counts of a table are those of the keys that
occur and of the positions that it lists. So an entity is found by every spelling of its own names
that the case mode takes for the same.
-/

namespace TaintRules

/-! ### What a table lists -/

namespace Postings

variable {κ α : Type}

/-- What holds of a table whose positions were noted one by one: every key that has an entry has a
position, and the count is that of the positions. -/
structure Noted (postings : Postings κ) : Prop where
  filled : ∀ entry ∈ postings.entries, entry.2 ≠ []
  counted : postings.entryCount = total (postings.entries.map fun entry ↦ entry.2.length)

theorem noted_empty : (empty : Postings κ).Noted where
  filled := nofun
  counted := rfl

variable [DecidableEq κ]

/-- The table lists, under every key, the positions that have it, in ascending order. Its counts
are those of the keys that occur and of the positions that are listed. -/
structure Lists (postings : Postings κ) (has : Nat → κ → Prop) : Prop where
  ascending (key : κ) : (postings.query key).Pairwise (· < ·)
  mem_query_iff (key : κ) (position : Nat) : position ∈ postings.query key ↔ has position key
  counts : ∃ keys : Finset κ, (∀ key, key ∈ keys ↔ ∃ position, has position key) ∧
    postings.size = keys.card ∧ postings.entryCount = ∑ key ∈ keys, (postings.query key).length

/-- Whatever holds of a table without keys, and still holds when a position is noted, holds when
items are noted. -/
theorem insertItems_induction {holds : Postings κ → Prop}
    (hi : ∀ postings key position, holds postings → holds (postings.insert key position))
    {keysOf : α → List κ} {postings : Postings κ} (h : holds postings) (start : Nat)
    (items : List α) : holds (postings.insertItems keysOf start items) := by
  have keys (keys : List κ) (position : Nat) {postings : Postings κ} (h : holds postings) :
      holds (postings.insertKeys keys position) := by
    induction keys generalizing postings with
    | nil => exact h
    | cons key rest ih => exact ih (hi postings key position h)
  induction items generalizing postings start with
  | nil => exact h
  | cons item rest ih => exact ih (keys (keysOf item) start h) (start + 1)

private theorem ne_nil_of_mem_insertEntry {entries : List (κ × List Nat)}
    (h : ∀ entry ∈ entries, entry.2 ≠ []) (key : κ) (position : Nat) :
    ∀ entry ∈ insertEntry key position entries, entry.2 ≠ [] := by
  induction entries with
  | nil => simp [insertEntry]
  | cons entry rest ih =>
    obtain ⟨other, positions⟩ := entry
    obtain ⟨hp, hr⟩ := List.forall_mem_cons.mp h
    rw [insertEntry]
    split
    · exact List.forall_mem_cons.mpr ⟨by simp, hr⟩
    · exact List.forall_mem_cons.mpr ⟨hp, ih hr⟩

private theorem total_insertEntry (key : κ) (position : Nat) (entries : List (κ × List Nat)) :
    total ((insertEntry key position entries).map fun entry ↦ entry.2.length) =
      total (entries.map fun entry ↦ entry.2.length) + 1 := by
  induction entries with
  | nil => rfl
  | cons entry rest ih =>
    obtain ⟨other, positions⟩ := entry
    rw [insertEntry]
    split
    · simp only [List.map_cons, total_cons, List.length_append, List.length_singleton]
      omega
    · simp only [List.map_cons, total_cons, ih]
      omega

/-- Noting a position leaves no key without one, and counts it. -/
theorem Noted.insert {postings : Postings κ} (h : postings.Noted) (key : κ) (position : Nat) :
    (postings.insert key position).Noted where
  filled := ne_nil_of_mem_insertEntry h.filled key position
  counted := by rw [Postings.insert, total_insertEntry, h.counted]

/-- A key has an entry exactly if it has a position. -/
theorem Noted.mem_keys_iff {postings : Postings κ} (h : postings.Noted)
    (hd : postings.Distinct) (key : κ) :
    key ∈ postings.entries.map (·.1) ↔ ∃ position, position ∈ postings.query key := by
  constructor
  · intro hk
    obtain ⟨⟨other, positions⟩, he, rfl⟩ := List.mem_map.mp hk
    rw [hd.query_eq he]
    exact List.exists_mem_of_ne_nil positions (h.filled _ he)
  · rintro ⟨position, hp⟩
    obtain ⟨positions, he, -⟩ := mem_entries_of_mem_query hp
    exact List.mem_map.mpr ⟨(key, positions), he, rfl⟩

/-- The count of a table without a second entry of a key is that of what it lists under its keys. -/
theorem Noted.entryCount_eq {postings : Postings κ} (h : postings.Noted)
    (hd : postings.Distinct) :
    postings.entryCount =
      ∑ key ∈ (postings.entries.map (·.1)).toFinset, (postings.query key).length := by
  have hq : postings.entries.map (fun entry ↦ entry.2.length) =
      (postings.entries.map (·.1)).map fun key ↦ (postings.query key).length := by
    rw [List.map_map]
    refine List.map_congr_left fun entry he ↦ ?_
    exact congrArg List.length (hd.query_eq he).symm
  rw [h.counted, List.sum_toFinset _ hd, ← hq]
  rfl

/-- A table that holds items lists the positions of those that have a key. -/
theorem Holds.lists {postings : Postings κ} {keysOf : α → List κ} {items : List α}
    (h : postings.Holds keysOf items) (hn : postings.Noted) {has : Nat → κ → Prop}
    (hk : ∀ position key,
      has position key ↔ ∃ item, items[position]? = some item ∧ key ∈ keysOf item) :
    postings.Lists has := by
  have hm (key : κ) (position : Nat) : position ∈ postings.query key ↔ has position key := by
    rw [h.query_eq, List.mem_findIdxs_iff_exists_getElem_pos, hk]
    simp only [List.getElem?_eq_some_iff, decide_eq_true_eq]
    constructor
    · rintro ⟨hl, hkey⟩
      exact ⟨items[position], ⟨hl, rfl⟩, hkey⟩
    · rintro ⟨item, ⟨hl, rfl⟩, hkey⟩
      exact ⟨hl, hkey⟩
  refine ⟨fun key ↦ ?_, hm, (postings.entries.map (·.1)).toFinset, fun key ↦ ?_, ?_, ?_⟩
  · rw [h.query_eq]
    exact List.pairwise_findIdxs
  · rw [List.mem_toFinset, hn.mem_keys_iff h.distinct]
    simp only [hm]
  · rw [List.toFinset_card_of_nodup h.distinct, List.length_map]
    rfl
  · exact hn.entryCount_eq h.distinct

/-- Noting items counts each of them once for each of its keys. -/
theorem entryCount_insertItems (keysOf : α → List κ) (postings : Postings κ) (start : Nat)
    (items : List α) :
    (postings.insertItems keysOf start items).entryCount =
      postings.entryCount + total (items.map fun item ↦ (keysOf item).length) := by
  have keys (keys : List κ) (postings : Postings κ) (position : Nat) :
      (postings.insertKeys keys position).entryCount = postings.entryCount + keys.length := by
    induction keys generalizing postings with
    | nil => rfl
    | cons key rest ih =>
      rw [insertKeys, List.foldl_cons, ← insertKeys, ih, entryCount_insert, List.length_cons]
      omega
  induction items generalizing postings start with
  | nil => rfl
  | cons item rest ih =>
    rw [insertItems, ih, keys, List.map_cons, total_cons]
    omega

end Postings

/-! ### The three tables -/

namespace Entity

/-- Whether the entity is of a kind and has a type. -/
def isTyped (kind : EntityKind) (e : Entity) : Bool := e.kind = kind && e.baseType.isSome

/-- Whether the entity is of a kind and has no type. -/
def isUntyped (kind : EntityKind) (e : Entity) : Bool := e.kind = kind && e.baseType.isNone

/-- Whether the qualified name of the entity differs from its simple one, as the mode compares
them. -/
def hasOtherName (mode : CaseMode) (e : Entity) : Bool :=
  e.qualifiedCall.any fun name ↦ mode.fold name ≠ mode.fold e.member

/-- A typed call has one key. -/
theorem length_typedCallKeys (mode : CaseMode) (e : Entity) :
    (e.typedCallKeys mode).length = if e.isTyped .call then 1 else 0 := by
  cases e with
  | read access => rfl
  | call site => cases h : site.baseType <;> simp [typedCallKeys, isTyped, kind, baseType, h]

/-- A typed read has one key. -/
theorem length_typedReadKeys (mode : CaseMode) (e : Entity) :
    (e.typedReadKeys mode).length = if e.isTyped .read then 1 else 0 := by
  cases e with
  | call site => rfl
  | read access => cases h : access.baseType <;> simp [typedReadKeys, isTyped, kind, baseType, h]

/-- A call has its simple name, and its qualified one if this is another. -/
theorem length_callKeys (mode : CaseMode) (e : Entity) :
    (e.callKeys mode).length =
      (if decide (e.kind = .call) then 1 else 0) + if e.hasOtherName mode then 1 else 0 := by
  cases e with
  | read access => rfl
  | call site =>
    cases h : site.qualifiedCall with
    | none => simp [callKeys, CallSite.names, kind, hasOtherName, qualifiedCall, h]
    | some name =>
      by_cases hn : mode.fold name = mode.fold site.call <;>
        simp [callKeys, CallSite.names, kind, hasOtherName, qualifiedCall, member, h, hn]

end Entity

namespace Tables

/-- Noting entities counts those that have no type. -/
theorem untyped_insertAll (mode : CaseMode) (tables : Tables) (start : Nat)
    (batch : List Entity) :
    (tables.insertAll mode start batch).untypedCalls =
        tables.untypedCalls + batch.countP (·.isUntyped .call) ∧
      (tables.insertAll mode start batch).untypedReads =
        tables.untypedReads + batch.countP (·.isUntyped .read) := by
  have step (position : Nat) (tables : Tables) (e : Entity) :
      (tables.insert mode position e).untypedCalls =
          tables.untypedCalls + (if e.isUntyped .call then 1 else 0) ∧
        (tables.insert mode position e).untypedReads =
          tables.untypedReads + if e.isUntyped .read then 1 else 0 := by
    cases e with
    | call site =>
      cases h : site.baseType <;>
        simp [insert, Entity.isUntyped, Entity.kind, Entity.baseType, h]
    | read access =>
      cases h : access.baseType <;>
        simp [insert, Entity.isUntyped, Entity.kind, Entity.baseType, h]
  induction batch generalizing tables start with
  | nil => exact ⟨rfl, rfl⟩
  | cons e rest ih =>
    obtain ⟨hc, hr⟩ := step start tables e
    obtain ⟨ihc, ihr⟩ := ih (tables.insert mode start e) (start + 1)
    rw [insertAll, ihc, ihr, hc, hr, List.countP_cons, List.countP_cons]
    omega

end Tables

namespace Index

/-- At a position of a batch is a call of a type and a name. -/
def HasTypedCall (batch : List Entity) (mode : CaseMode) (position : Nat) (key : TypedKey) :
    Prop :=
  ∃ site type, batch[position]? = some (.call site) ∧ site.baseType = some type ∧
    mode.fold type = key.baseType ∧ mode.fold site.call = key.member

/-- At a position of a batch is a call that has a name as its simple or as its qualified one. -/
def HasCall (batch : List Entity) (mode : CaseMode) (position : Nat) (name : String) : Prop :=
  ∃ site, batch[position]? = some (.call site) ∧
    (mode.fold site.call = name ∨
      ∃ qualified, site.qualifiedCall = some qualified ∧ mode.fold qualified = name)

/-- At a position of a batch is a read of a type and a name. -/
def HasTypedRead (batch : List Entity) (mode : CaseMode) (position : Nat) (key : TypedKey) :
    Prop :=
  ∃ access type, batch[position]? = some (.read access) ∧ access.baseType = some type ∧
    mode.fold type = key.baseType ∧ mode.fold access.read = key.member

private theorem noted_insertItems {κ : Type} [DecidableEq κ] (keysOf : Entity → List κ)
    (batch : List Entity) : (Postings.empty.insertItems keysOf 0 batch).Noted :=
  Postings.insertItems_induction (fun _ key position h ↦ h.insert key position)
    Postings.noted_empty 0 batch

private theorem mem_typedKeys_iff (mode : CaseMode) (baseType : Option String) (member : String)
    (key : TypedKey) :
    key ∈ (baseType.map (TypedKey.fold mode · member)).toList ↔
      ∃ type, baseType = some type ∧ mode.fold type = key.baseType ∧
        mode.fold member = key.member := by
  obtain ⟨type, name⟩ := key
  simp [TypedKey.fold]

/-- The first table lists the typed calls. -/
theorem lists_typeCall (batch : List Entity) (mode : CaseMode) :
    (build batch mode).tables.typeCall.Lists (HasTypedCall batch mode) := by
  refine (holds_typeCall batch mode).lists ?_ fun position key ↦ ?_
  · rw [build, buildWith, (Tables.insertAll_eq mode {} 0 batch).1]
    exact noted_insertItems _ batch
  · constructor
    · rintro ⟨site, type, hs, hk⟩
      exact ⟨.call site, hs, (mem_typedKeys_iff mode _ _ key).mpr ⟨type, hk⟩⟩
    · rintro ⟨e, he, hk⟩
      cases e with
      | read access => cases hk
      | call site =>
        obtain ⟨type, hk⟩ := (mem_typedKeys_iff mode _ _ key).mp hk
        exact ⟨site, type, he, hk⟩

/-- The second table lists the calls, under both of their names. -/
theorem lists_call (batch : List Entity) (mode : CaseMode) :
    (build batch mode).tables.call.Lists (HasCall batch mode) := by
  have hn (site : CallSite) (name : String) : name ∈ site.names mode ↔
      mode.fold site.call = name ∨
        ∃ qualified, site.qualifiedCall = some qualified ∧ mode.fold qualified = name := by
    have ha := site.any_names mode (· == name)
    rw [Bool.eq_iff_iff, List.any_eq_true] at ha
    simpa [Option.any_eq_true] using ha
  refine (holds_call batch mode).lists ?_ fun position name ↦ ?_
  · rw [build, buildWith, (Tables.insertAll_eq mode {} 0 batch).2.1]
    exact noted_insertItems _ batch
  · constructor
    · rintro ⟨site, hs, hk⟩
      exact ⟨.call site, hs, (hn site name).mpr hk⟩
    · rintro ⟨e, he, hk⟩
      cases e with
      | read access => cases hk
      | call site => exact ⟨site, he, (hn site name).mp hk⟩

/-- The third table lists the typed reads. -/
theorem lists_typeRead (batch : List Entity) (mode : CaseMode) :
    (build batch mode).tables.typeRead.Lists (HasTypedRead batch mode) := by
  refine (holds_typeRead batch mode).lists ?_ fun position key ↦ ?_
  · rw [build, buildWith, (Tables.insertAll_eq mode {} 0 batch).2.2]
    exact noted_insertItems _ batch
  · constructor
    · rintro ⟨access, type, hs, hk⟩
      exact ⟨.read access, hs, (mem_typedKeys_iff mode _ _ key).mpr ⟨type, hk⟩⟩
    · rintro ⟨e, he, hk⟩
      cases e with
      | call site => cases hk
      | read access =>
        obtain ⟨type, hk⟩ := (mem_typedKeys_iff mode _ _ key).mp hk
        exact ⟨access, type, he, hk⟩

/-- A table counts an entity once for each of its keys. -/
theorem entryCount_tables (batch : List Entity) (mode : CaseMode) :
    let tables := (build batch mode).tables
    tables.typeCall.entryCount = batch.countP (·.isTyped .call) ∧
      tables.call.entryCount =
        batch.countP (·.kind = .call) + batch.countP (·.hasOtherName mode) ∧
      tables.typeRead.entryCount = batch.countP (·.isTyped .read) := by
  intro tables
  obtain ⟨hc, hn, hr⟩ := Tables.insertAll_eq mode {} 0 batch
  have he {κ : Type} : (Postings.empty : Postings κ).entryCount = 0 := rfl
  refine ⟨?_, ?_, ?_⟩
  · rw [show tables.typeCall = _ from hc, Postings.entryCount_insertItems, he, Nat.zero_add]
    simp only [Entity.length_typedCallKeys, total_map_ite]
  · rw [show tables.call = _ from hn, Postings.entryCount_insertItems, he, Nat.zero_add]
    simp only [Entity.length_callKeys, total_map_add, total_map_ite]
  · rw [show tables.typeRead = _ from hr, Postings.entryCount_insertItems, he, Nat.zero_add]
    simp only [Entity.length_typedReadKeys, total_map_ite]

/-- The index of a batch lists, under every key of its three tables, exactly the positions of the
entities that have the key, in ascending order, and counts keys and positions rightly. Entities
without a type are counted instead. Asking for any spelling of a type and a name finds exactly the
entities whose own names are the same in the case mode. -/
theorem build_lists_batch (batch : List Entity) (mode : CaseMode) :
    let index := build batch mode
    let tables := index.tables
    (tables.typeCall.Lists (HasTypedCall batch mode) ∧
        tables.call.Lists (HasCall batch mode) ∧
        tables.typeRead.Lists (HasTypedRead batch mode)) ∧
      (tables.typeCall.entryCount = batch.countP (·.isTyped .call) ∧
        tables.call.entryCount =
          batch.countP (·.kind = .call) + batch.countP (·.hasOtherName mode) ∧
        tables.typeRead.entryCount = batch.countP (·.isTyped .read)) ∧
      (tables.untypedCalls = batch.countP (·.isUntyped .call) ∧
        tables.untypedReads = batch.countP (·.isUntyped .read)) ∧
      ∀ position type name,
        (position ∈ index.lookupTypeCall mode type name ↔
            HasTypedCall batch mode position (.fold mode type name)) ∧
          (position ∈ index.lookupCall mode name ↔
            HasCall batch mode position (mode.fold name)) ∧
          (position ∈ index.lookupTypeRead mode type name ↔
            HasTypedRead batch mode position (.fold mode type name)) := by
  intro index tables
  have calls := lists_typeCall batch mode
  have names := lists_call batch mode
  have reads := lists_typeRead batch mode
  obtain ⟨hc, hr⟩ := Tables.untyped_insertAll mode {} 0 batch
  refine ⟨⟨calls, names, reads⟩, entryCount_tables batch mode, ⟨?_, ?_⟩, ?_⟩
  · exact hc.trans (Nat.zero_add _)
  · exact hr.trans (Nat.zero_add _)
  · intro position type name
    exact ⟨calls.mem_query_iff _ position, names.mem_query_iff _ position,
      reads.mem_query_iff _ position⟩

end Index

end TaintRules
