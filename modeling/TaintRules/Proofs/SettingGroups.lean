import Mathlib.Data.List.Nodup
import TaintRules.Config.Sections

/-!
# Reading groups of settings

Reading a group goes through the entries of a mapping one by one, but what comes out does not depend
on their order: each setting is the value under its name, and what it was before if there is none.
Laying entries over a group works on the mapping instead, where a key behind a tag is another key.
So a tagged key of a setting that is written out is not laid over it but added to it, and then the
setting is there twice.
-/

namespace TaintRules.Yaml

/-! ### Keys and their names -/

namespace Value

/-- The name that a key writes, behind its tags. -/
def name? (key : Value) : Option String :=
  match key.untag with
  | .text name => some name
  | _ => none

/-- The key is a text without a tag. -/
def IsPlain (key : Value) : Prop := ∃ name, key = .text name

@[simp] theorem name?_text (name : String) : (Value.text name).name? = some name := rfl

/-- A key writes a name exactly if this text is left without its tags. -/
theorem name?_eq_some_iff {key : Value} {name : String} :
    key.name? = some name ↔ key.untag = .text name := by
  unfold name?
  split
  · next h => simp [h]
  · next h =>
    simp only [reduceCtorEq, false_iff]
    intro he
    exact h name he

/-- Keys that are the same write the same name. -/
theorem name?_eq_of_same (a b : Value) (h : a.same b = true) : a.name? = b.name? := by
  match a, h with
  | .tagged s a, h =>
    cases b with
    | tagged t b =>
      rw [same, Bool.and_eq_true] at h
      exact name?_eq_of_same a b h.2
    | _ => simp [same] at h
  | .text a, h =>
    cases b with
    | text b =>
      have hab : a = b := by simpa [same] using h
      rw [hab]
    | _ => simp [same] at h
  | .null, h | .bool _, h | .int _, h | .float _, h | .sequence _, h | .mapping _, h =>
    cases b with
    | text b => simp [same] at h
    | tagged t b => simp [same] at h
    | _ => rfl

/-- A text is the same as itself and as no other key. -/
theorem same_text_iff {key : Value} {name : String} :
    (Value.text name).same key = true ↔ key = .text name := by
  cases key with
  | text other =>
    rw [same, beq_iff_eq, text.injEq]
    exact eq_comm
  | _ => simp [same]

end Value

/-- The names that the keys of some entries write. -/
def names (entries : List (Value × Value)) : List String := entries.filterMap (·.1.name?)

/-- The value of the first key that writes a name. -/
def valueOf? (name : String) (entries : List (Value × Value)) : Option Value :=
  (entries.find? (·.1.name? == some name)).map (·.2)

section Entries

variable {name other : String} {key value : Value} {entries : List (Value × Value)}

theorem names_cons (h : key.name? = some name) :
    names ((key, value) :: entries) = name :: names entries := by
  simp [names, h]

@[simp] theorem valueOf?_nil : valueOf? name [] = none := rfl

theorem valueOf?_cons_self (h : key.name? = some name) :
    valueOf? name ((key, value) :: entries) = some value := by
  simp [valueOf?, h]

theorem valueOf?_cons_of_ne (h : key.name? ≠ some name) :
    valueOf? name ((key, value) :: entries) = valueOf? name entries := by
  simp [valueOf?, h]

/-- A name that no key writes has no value. -/
theorem valueOf?_eq_none_iff : valueOf? name entries = none ↔ name ∉ names entries := by
  simp [valueOf?, names]

/-- The value of a name stands in one of the entries. -/
theorem exists_of_valueOf? (h : valueOf? name entries = some value) :
    ∃ key, (key, value) ∈ entries ∧ key.name? = some name := by
  obtain ⟨⟨key, v⟩, hf, rfl⟩ := Option.map_eq_some_iff.mp h
  exact ⟨key, List.mem_of_find?_eq_some hf, by simpa using List.find?_some hf⟩

end Entries

/-! ### Reading entries -/

namespace Section

variable {σ β : Type} {group : Section σ}

/-- The entry names a setting of the group and has a value that can be read. -/
def Fits (group : Section σ) (entry : Value × Value) : Prop :=
  ∃ x ∈ group.settings, entry.1.name? = some x.name ∧ ∃ s t, x.read entry.2 s = .ok t

/-- Reading an entry whose key names a setting. -/
theorem readEntries_of_find? {x : Setting σ} {name : String}
    (hf : group.settings.find? (·.name == name) = some x) {key : Value}
    (hk : key.name? = some name) (value : Value) (seen : List String) (s : σ)
    (rest : List (Value × Value)) :
    group.readEntries seen s ((key, value) :: rest) =
      if name ∈ seen then .error (.duplicateField name)
      else x.read value s >>= fun t ↦ group.readEntries (name :: seen) t rest := by
  rw [readEntries, Value.name?_eq_some_iff.mp hk]
  simp only [hf, List.contains_iff_mem]
  split <;> rfl

/-- What reading one more entry takes. -/
theorem exists_of_readEntries_cons {seen : List String} {s t : σ} {key value : Value}
    {rest : List (Value × Value)} (h : group.readEntries seen s ((key, value) :: rest) = .ok t) :
    ∃ x ∈ group.settings, key.name? = some x.name ∧ x.name ∉ seen ∧
      ∃ u, x.read value s = .ok u ∧ group.readEntries (x.name :: seen) u rest = .ok t := by
  rw [readEntries] at h
  split at h
  · next name hk =>
    split at h
    · next x hx =>
      have hn : x.name = name := by simpa using List.find?_some hx
      split at h
      · cases h
      · next hs =>
        cases hr : x.read value s with
        | error e =>
          rw [hr] at h
          cases h
        | ok u =>
          rw [hr] at h
          refine ⟨x, List.mem_of_find?_eq_some hx, ?_, ?_, u, hr, ?_⟩
          · rw [Value.name?_eq_some_iff, hk, hn]
          · rw [hn]
            simpa using hs
          · rw [hn]
            exact h
    · cases h
  · cases h

/-- Entries that are read fit, and name no setting twice nor one that was read before. -/
theorem fits_of_readEntries {seen : List String} {s t : σ} {entries : List (Value × Value)}
    (h : group.readEntries seen s entries = .ok t) :
    (∀ entry ∈ entries, group.Fits entry) ∧ (names entries).Nodup ∧
      ∀ name ∈ names entries, name ∉ seen := by
  induction entries generalizing seen s with
  | nil => simp [names]
  | cons entry rest ih =>
    obtain ⟨key, value⟩ := entry
    obtain ⟨x, hx, hk, hs, u, hr, ht⟩ := exists_of_readEntries_cons h
    obtain ⟨hf, hn, hd⟩ := ih ht
    rw [names_cons hk]
    refine ⟨?_, ?_, ?_⟩
    · rintro _ (_ | ⟨_, hm⟩)
      · exact ⟨x, hx, hk, s, u, hr⟩
      · exact hf _ hm
    · exact List.nodup_cons.mpr ⟨fun hm ↦ hd _ hm List.mem_cons_self, hn⟩
    · rintro name (_ | ⟨_, hm⟩)
      · exact hs
      · exact fun hc ↦ hd name hm (List.mem_cons_of_mem _ hc)

/-- Something that only the setting of one name changes is, after reading, as the value of this name
makes it, and as before if there is none. -/
theorem observe_readEntries {observe : σ → β} {name : String}
    (hk : ∀ y ∈ group.settings, y.name ≠ name →
      ∀ value s t, y.read value s = .ok t → observe t = observe s)
    {seen : List String} {s t : σ} {entries : List (Value × Value)}
    (h : group.readEntries seen s entries = .ok t) :
    (valueOf? name entries = none → observe t = observe s) ∧
      ∀ value, valueOf? name entries = some value →
        ∃ x ∈ group.settings, x.name = name ∧
          ∃ u v, x.read value u = .ok v ∧ observe t = observe v := by
  induction entries generalizing seen s with
  | nil =>
    rw [readEntries, Except.ok.injEq] at h
    simp [h]
  | cons entry rest ih =>
    obtain ⟨key, value⟩ := entry
    obtain ⟨x, hx, hn, -, u, hr, ht⟩ := exists_of_readEntries_cons h
    obtain ⟨ihn, ihs⟩ := ih ht
    by_cases he : x.name = name
    · -- the rest cannot name the setting again
      have hrest : valueOf? name rest = none := by
        rw [valueOf?_eq_none_iff]
        intro hm
        exact (fits_of_readEntries ht).2.2 name hm (he ▸ List.mem_cons_self)
      rw [he] at hn
      rw [valueOf?_cons_self hn]
      refine ⟨by simp, ?_⟩
      rintro _ ⟨⟩
      exact ⟨x, hx, he, s, u, hr, ihn hrest⟩
    · have hne : key.name? ≠ some name := by
        rw [hn]
        exact fun hc ↦ he (Option.some.inj hc)
      rw [valueOf?_cons_of_ne hne, ← hk x hx he value s u hr]
      exact ⟨ihn, ihs⟩

end Section

/-! ### Groups whose settings are independent -/

/-- The setting is what the value under its name makes it, or what it is in `base`. -/
def Setting.LaidOver {σ : Type} (x : Setting σ) (base : σ) (given : List (Value × Value)) (s : σ) :
    Prop :=
  (valueOf? x.name given = none → x.write s = x.write base) ∧
    ∀ value, valueOf? x.name given = some value →
      ∃ u v, x.read value u = .ok v ∧ x.write s = x.write v

/-- Each setting is what the value under its name makes it, or what it is in `base`. -/
def Section.LaidOver {σ : Type} (group : Section σ) (base : σ)
    (given : List (Value × Value)) (s : σ) : Prop :=
  ∀ x ∈ group.settings, x.LaidOver base given s

/-- Whether a value can be read, and what the setting then is, does not depend on the group it is
read into; what is written is read as itself; and reading leaves the settings of other names. -/
structure Setting.Lawful {σ : Type} (x : Setting σ) (settings : List (Setting σ)) : Prop where
  read_into {value : Value} {s t : σ} (h : x.read value s = .ok t) (u : σ) :
    ∃ v, x.read value u = .ok v ∧ x.write v = x.write t
  read_write {value : Value} {s : σ} (h : x.write s = some value) (u : σ) :
    ∃ v, x.read value u = .ok v ∧ x.write v = x.write s
  apart : ∀ y ∈ settings, x.name ≠ y.name →
    ∀ value s t, x.read value s = .ok t → y.write t = y.write s

/-- The settings of a group have different names, are independent of each other, and make up the
group. A setting that may be left out is so by default. -/
structure Section.Lawful {σ : Type} (group : Section σ) : Prop where
  settings : ∀ x ∈ group.settings, x.Lawful group.settings
  nodup : (group.settings.map (·.name)).Nodup
  ext : ∀ s t, (∀ x ∈ group.settings, x.write s = x.write t) → s = t
  omitted : ∀ x ∈ group.settings, ∀ s, x.write s = none → x.write group.defaults = none

/-- What a setting writes is read back into any group. -/
theorem Setting.Lawful.write_of_read {σ : Type} {x : Setting σ} {settings : List (Setting σ)}
    (h : x.Lawful settings) {value : Value} {s u v : σ} (hw : x.write s = some value)
    (hr : x.read value u = .ok v) : x.write v = x.write s := by
  obtain ⟨w, hr', he⟩ := h.read_write hw u
  rw [hr, Except.ok.injEq] at hr'
  rw [hr', he]

namespace Section.Lawful

variable {σ : Type} {group : Section σ}

theorem eq_of_name (h : group.Lawful) {x y : Setting σ} (hx : x ∈ group.settings)
    (hy : y ∈ group.settings) (hn : x.name = y.name) : x = y :=
  List.inj_on_of_nodup_map h.nodup hx hy hn

/-- Reading an entry whose key is the name of a setting. -/
theorem readEntries_cons (h : group.Lawful) {x : Setting σ} (hx : x ∈ group.settings)
    {key value : Value} (hk : key.name? = some x.name) (seen : List String) (s : σ)
    (rest : List (Value × Value)) :
    group.readEntries seen s ((key, value) :: rest) =
      if x.name ∈ seen then .error (.duplicateField x.name)
      else x.read value s >>= fun t ↦ group.readEntries (x.name :: seen) t rest := by
  refine readEntries_of_find? ?_ hk value seen s rest
  cases hy : group.settings.find? (·.name == x.name) with
  | none => simpa using List.find?_eq_none.mp hy x hx
  | some y =>
    have hn : y.name = x.name := by simpa using List.find?_some hy
    rw [h.eq_of_name (List.mem_of_find?_eq_some hy) hx hn]

/-- Entries that fit are read if they name no setting twice. -/
theorem exists_readEntries (h : group.Lawful) {entries : List (Value × Value)}
    (hf : ∀ entry ∈ entries, group.Fits entry) (hn : (names entries).Nodup) (seen : List String)
    (hd : ∀ name ∈ names entries, name ∉ seen) (s : σ) :
    ∃ t, group.readEntries seen s entries = .ok t := by
  induction entries generalizing seen s with
  | nil => exact ⟨s, rfl⟩
  | cons entry rest ih =>
    obtain ⟨key, value⟩ := entry
    obtain ⟨⟨x, hx, hk, u, v, hr⟩, hf⟩ := List.forall_mem_cons.mp hf
    rw [names_cons hk, List.nodup_cons] at hn
    rw [names_cons hk, List.forall_mem_cons] at hd
    obtain ⟨t, ht, -⟩ := (h.settings x hx).read_into hr s
    rw [h.readEntries_cons hx hk, if_neg hd.1, ht]
    refine ih hf hn.2 (x.name :: seen) (fun name hm ↦ ?_) t
    intro hc
    rcases List.mem_cons.mp hc with rfl | hc
    · exact hn.1 hm
    · exact hd.2 name hm hc

/-- Entries that fit and name a setting twice, or one that was read before, are refused for it. -/
theorem duplicateField_readEntries (h : group.Lawful) {entries : List (Value × Value)}
    (hf : ∀ entry ∈ entries, group.Fits entry) {seen : List String}
    (hd : (names entries).Nodup → ∃ name ∈ names entries, name ∈ seen) (s : σ) :
    ∃ name, group.readEntries seen s entries = .error (.duplicateField name) := by
  induction entries generalizing seen s with
  | nil => simp [names] at hd
  | cons entry rest ih =>
    obtain ⟨key, value⟩ := entry
    obtain ⟨⟨x, hx, hk, u, v, hr⟩, hf⟩ := List.forall_mem_cons.mp hf
    rw [h.readEntries_cons hx hk]
    by_cases hs : x.name ∈ seen
    · exact ⟨x.name, if_pos hs⟩
    · obtain ⟨t, ht, -⟩ := (h.settings x hx).read_into hr s
      rw [if_neg hs, ht]
      refine ih hf (fun hn ↦ ?_) t
      by_cases hm : x.name ∈ names rest
      · exact ⟨x.name, hm, List.mem_cons_self⟩
      · rw [names_cons hk] at hd
        obtain ⟨name, hmem, hc⟩ := hd (List.nodup_cons.mpr ⟨hm, hn⟩)
        rcases List.mem_cons.mp hmem with rfl | hmem
        · exact absurd hc hs
        · exact ⟨name, hmem, List.mem_cons_of_mem _ hc⟩

/-- The entries that are read are laid over what was there before. -/
theorem laidOver_readEntries (h : group.Lawful) {seen : List String} {s t : σ}
    {entries : List (Value × Value)} (ht : group.readEntries seen s entries = .ok t) :
    group.LaidOver s entries t := by
  intro x hx
  have ho := group.observe_readEntries (fun y hy ↦ (h.settings y hy).apart x hx) ht
  refine ⟨ho.1, ?_⟩
  intro value hv
  obtain ⟨y, hy, hn, u, v, hr, hw⟩ := ho.2 value hv
  obtain rfl := h.eq_of_name hy hx hn
  exact ⟨u, v, hr, hw⟩

/-! ### The entries that write a group -/

theorem plain_of_mem_entries {s : σ} {entry : Value × Value} (h : entry ∈ group.entries s) :
    ∃ x ∈ group.settings, entry.1 = .text x.name ∧ x.write s = some entry.2 := by
  obtain ⟨x, hx, hw⟩ := List.mem_filterMap.mp h
  obtain ⟨value, hv, rfl⟩ := Option.map_eq_some_iff.mp hw
  exact ⟨x, hx, rfl, hv⟩

theorem mem_entries {s : σ} {x : Setting σ} (hx : x ∈ group.settings) {value : Value}
    (hw : x.write s = some value) : (.text x.name, value) ∈ group.entries s :=
  List.mem_filterMap.mpr ⟨x, hx, by rw [hw]; rfl⟩

/-- What is written fits. -/
theorem fits_entries (h : group.Lawful) (s : σ) : ∀ entry ∈ group.entries s, group.Fits entry := by
  intro entry hm
  obtain ⟨x, hx, hk, hw⟩ := plain_of_mem_entries hm
  obtain ⟨v, hr, -⟩ := (h.settings x hx).read_write hw s
  exact ⟨x, hx, by rw [hk]; rfl, s, v, hr⟩

theorem mem_names_entries {s : σ} {name : String} :
    name ∈ names (group.entries s) ↔ ∃ x ∈ group.settings, x.name = name ∧ x.write s ≠ none := by
  constructor
  · intro hm
    obtain ⟨entry, he, hn⟩ := List.mem_filterMap.mp hm
    obtain ⟨x, hx, hk, hw⟩ := plain_of_mem_entries he
    rw [hk] at hn
    exact ⟨x, hx, Option.some.inj hn, by simp [hw]⟩
  · rintro ⟨x, hx, rfl, hw⟩
    obtain ⟨value, hv⟩ := Option.ne_none_iff_exists'.mp hw
    exact List.mem_filterMap.mpr ⟨_, mem_entries hx hv, rfl⟩

/-- No setting is written twice. -/
theorem nodup_names_entries (h : group.Lawful) (s : σ) : (names (group.entries s)).Nodup := by
  have hs : (names (group.entries s)).Sublist (group.settings.map (·.name)) := by
    unfold names entries
    induction group.settings with
    | nil => exact List.Sublist.slnil
    | cons x rest ih =>
      cases hw : x.write s with
      | none => simpa [hw] using ih.cons x.name
      | some value => simpa [hw] using ih
  exact h.nodup.sublist hs

/-- The value under the name of a setting is the one that it writes. -/
theorem valueOf?_entries (h : group.Lawful) (s : σ) {x : Setting σ} (hx : x ∈ group.settings) :
    valueOf? x.name (group.entries s) = x.write s := by
  cases hv : valueOf? x.name (group.entries s) with
  | none =>
    rw [valueOf?_eq_none_iff, mem_names_entries] at hv
    by_contra hw
    exact hv ⟨x, hx, rfl, fun he ↦ hw he.symm⟩
  | some value =>
    obtain ⟨key, hm, hk⟩ := exists_of_valueOf? hv
    obtain ⟨y, hy, he, hw⟩ := plain_of_mem_entries hm
    dsimp only at he hw
    rw [he, Value.name?_text, Option.some.injEq] at hk
    rw [← h.eq_of_name hy hx hk, hw]

/-- The entries of a whole group, laid over one that leaves out no more, make this group. -/
theorem eq_of_laidOver_entries (h : group.Lawful) {base s t : σ}
    (hb : ∀ x ∈ group.settings, x.write s = none → x.write base = none)
    (hl : group.LaidOver base (group.entries s) t) : t = s := by
  apply h.ext
  intro x hx
  obtain ⟨hnone, hsome⟩ := hl x hx
  rw [h.valueOf?_entries s hx] at hnone hsome
  cases hw : x.write s with
  | none => rw [hnone hw, hb x hx hw]
  | some value =>
    obtain ⟨u, v, hr, he⟩ := hsome value hw
    rw [he, (h.settings x hx).write_of_read hw hr, hw]

/-- A group is read as it was written. -/
theorem read_entries (h : group.Lawful) (s : σ) :
    group.read (.mapping (group.entries s)) = .ok s := by
  obtain ⟨t, ht⟩ := h.exists_readEntries (h.fits_entries s) (h.nodup_names_entries s) []
    (by simp) group.defaults
  have hst : t = s :=
    h.eq_of_laidOver_entries (fun x hx ↦ h.omitted x hx s) (h.laidOver_readEntries ht)
  rw [hst] at ht
  exact ht

end Section.Lawful

/-! ### Laying entries over a group -/

namespace Section

variable {name other : String} {key value : Value} {entries given : List (Value × Value)}

/-- Whether one of the entries has the same key. -/
def meets (entries : List (Value × Value)) (key : Value) : Bool := entries.any (·.1.same key)

/-- The entries with those that are given laid over them, one after the other. -/
def merged (entries given : List (Value × Value)) : List (Value × Value) :=
  given.foldl (fun entries (key, value) ↦ setKey key value entries) entries

/-- Setting a key that is there adds no name. -/
theorem names_setKey (hk : key.name? = some name) :
    names (setKey key value entries) =
      if meets entries key then names entries else names entries ++ [name] := by
  induction entries with
  | nil => simp [setKey, meets, names, hk]
  | cons entry rest ih =>
    obtain ⟨first, old⟩ := entry
    rw [setKey]
    by_cases hs : first.same key = true
    · simp [hs, meets, names, List.filterMap_cons]
    · have hm : meets ((first, old) :: rest) key = meets rest key := by simp [meets, hs]
      rw [if_neg hs, hm]
      cases hf : first.name? with
      | none => simpa [names, hf] using ih
      | some n =>
        rw [names_cons hf, ih, names_cons hf]
        split <;> rfl

/-- Setting a key does not change which keys of other names are there. -/
theorem meets_setKey {key' : Value} (hk : key.name? ≠ key'.name?) :
    meets (setKey key value entries) key' = meets entries key' := by
  induction entries with
  | nil =>
    have hs : key.same key' = false :=
      Bool.eq_false_iff.mpr fun h ↦ hk (Value.name?_eq_of_same _ _ h)
    simp [setKey, meets, hs]
  | cons entry rest ih =>
    obtain ⟨first, old⟩ := entry
    rw [setKey]
    split
    · rfl
    · exact congrArg (first.same key' || ·) ih

/-- Setting a key leaves the values of other names. -/
theorem valueOf?_setKey_of_ne (hk : key.name? ≠ some name) :
    valueOf? name (setKey key value entries) = valueOf? name entries := by
  induction entries with
  | nil => rw [setKey, valueOf?_cons_of_ne hk]
  | cons entry rest ih =>
    obtain ⟨first, old⟩ := entry
    rw [setKey]
    split
    · next hs =>
      have hf : first.name? ≠ some name := by rwa [Value.name?_eq_of_same _ _ hs]
      rw [valueOf?_cons_of_ne hf, valueOf?_cons_of_ne hf]
    · by_cases hf : first.name? = some name
      · rw [valueOf?_cons_self hf, valueOf?_cons_self hf]
      · rw [valueOf?_cons_of_ne hf, valueOf?_cons_of_ne hf, ih]

/-- Setting a key gives its name the value, unless another key writes this name. -/
theorem valueOf?_setKey_self (hk : key.name? = some name) (hn : (names entries).Nodup)
    (hm : meets entries key = true ∨ name ∉ names entries) :
    valueOf? name (setKey key value entries) = some value := by
  induction entries with
  | nil => rw [setKey, valueOf?_cons_self hk]
  | cons entry rest ih =>
    obtain ⟨first, old⟩ := entry
    rw [setKey]
    split
    · next hs => rw [valueOf?_cons_self (by rw [Value.name?_eq_of_same _ _ hs, hk])]
    · next hs =>
      have hmeets : meets ((first, old) :: rest) key = meets rest key := by simp [meets, hs]
      rw [hmeets] at hm
      cases hf : first.name? with
      | none =>
        rw [valueOf?_cons_of_ne (by simp [hf])]
        have hc : names ((first, old) :: rest) = names rest := by simp [names, hf]
        rw [hc] at hn hm
        exact ih hn hm
      | some n =>
        rw [names_cons hf, List.nodup_cons] at hn
        rw [names_cons hf, List.mem_cons, not_or] at hm
        -- were the first key to write the name, the key that is met would write it again
        have hne : n ≠ name := by
          rintro rfl
          rcases hm with hm | hm
          · obtain ⟨entry, he, hs⟩ := List.any_eq_true.mp hm
            refine hn.1 (List.mem_filterMap.mpr ⟨entry, he, ?_⟩)
            rw [Value.name?_eq_of_same _ _ hs, hk]
          · exact hm.1 rfl
        rw [valueOf?_cons_of_ne (by simp [hf, hne])]
        exact ih hn.2 (hm.imp_right And.right)

/-- Each of the given names is added unless its key is there. -/
theorem names_merged (entries : List (Value × Value))
    (hg : ∀ entry ∈ given, entry.1.name? ≠ none) (hn : (names given).Nodup) :
    names (merged entries given) =
      names entries ++ names (given.filter fun entry ↦ !meets entries entry.1) := by
  induction given generalizing entries with
  | nil => simp [merged, names]
  | cons entry rest ih =>
    obtain ⟨key, value⟩ := entry
    obtain ⟨hk, hg⟩ := List.forall_mem_cons.mp hg
    obtain ⟨name, hk⟩ := Option.ne_none_iff_exists'.mp hk
    rw [names_cons hk, List.nodup_cons] at hn
    have hrest : rest.filter (fun entry ↦ !meets (setKey key value entries) entry.1) =
        rest.filter fun entry ↦ !meets entries entry.1 := by
      apply List.filter_congr
      intro entry he
      rw [meets_setKey]
      intro hc
      rw [hk] at hc
      exact hn.1 (List.mem_filterMap.mpr ⟨entry, he, hc.symm⟩)
    have hi := ih (setKey key value entries) hg hn.2
    rw [hrest, names_setKey hk] at hi
    rw [merged, List.foldl_cons]
    refine hi.trans ?_
    by_cases hm : meets entries key = true
    · simp [hm]
    · rw [if_neg hm, List.filter_cons_of_pos (by simp [hm]), names_cons hk, List.append_assoc,
        List.singleton_append]

/-- A name has the value that is given, or else the one that it had. -/
theorem valueOf?_merged (hg : ∀ entry ∈ given, entry.1.name? ≠ none) (hn : (names given).Nodup)
    (hd : (names (merged entries given)).Nodup) :
    valueOf? name (merged entries given) =
      (valueOf? name given).or (valueOf? name entries) := by
  induction given generalizing entries with
  | nil => rfl
  | cons entry rest ih =>
    obtain ⟨key, value⟩ := entry
    have hm := names_merged entries hg hn
    obtain ⟨hk, hg⟩ := List.forall_mem_cons.mp hg
    obtain ⟨first, hk⟩ := Option.ne_none_iff_exists'.mp hk
    rw [names_cons hk, List.nodup_cons] at hn
    have hi := @ih (setKey key value entries) hg hn.2 hd
    rw [merged, List.foldl_cons]
    refine hi.trans ?_
    by_cases he : first = name
    · subst he
      rw [valueOf?_eq_none_iff.mpr hn.1, Option.none_or, valueOf?_cons_self hk, Option.some_or]
      rw [hm] at hd
      obtain ⟨hentries, -, hapart⟩ := List.nodup_append.mp hd
      apply valueOf?_setKey_self hk hentries
      by_cases hmeets : meets entries key = true
      · exact .inl hmeets
      · right
        intro hc
        refine hapart first hc first ?_ rfl
        rw [List.filter_cons_of_pos (by simp [hmeets]), names_cons hk]
        exact List.mem_cons_self
    · have hne : key.name? ≠ some name := by simp [hk, he]
      rw [valueOf?_setKey_of_ne hne, valueOf?_cons_of_ne hne]

variable {σ : Type} {group : Section σ}

private theorem fits_setKey (hf : group.Fits (key, value))
    (he : ∀ entry ∈ entries, group.Fits entry) :
    ∀ entry ∈ setKey key value entries, group.Fits entry := by
  induction entries with
  | nil => simpa [setKey] using hf
  | cons entry rest ih =>
    obtain ⟨first, old⟩ := entry
    obtain ⟨hfirst, hrest⟩ := List.forall_mem_cons.mp he
    rw [setKey]
    split
    · next hs =>
      refine List.forall_mem_cons.mpr ⟨?_, hrest⟩
      obtain ⟨x, hx, hk, hr⟩ := hf
      exact ⟨x, hx, (Value.name?_eq_of_same _ _ hs).trans hk, hr⟩
    · exact List.forall_mem_cons.mpr ⟨hfirst, ih hrest⟩

/-- Entries that fit, laid over entries that fit, fit. -/
theorem fits_merged (hg : ∀ entry ∈ given, group.Fits entry)
    (he : ∀ entry ∈ entries, group.Fits entry) :
    ∀ entry ∈ merged entries given, group.Fits entry := by
  induction given generalizing entries with
  | nil => exact he
  | cons entry rest ih =>
    obtain ⟨hf, hg⟩ := List.forall_mem_cons.mp hg
    exact ih hg (fits_setKey hf he)

/-- A key behind a tag names a setting that `base` writes. -/
def Clashes (group : Section σ) (base : σ) (given : List (Value × Value)) : Prop :=
  ∃ entry ∈ given, ¬ entry.1.IsPlain ∧
    ∃ x ∈ group.settings, entry.1.name? = some x.name ∧ x.write base ≠ none

namespace Lawful

variable {base : σ}

/-- The entries of a group have a key exactly if it is the plain name of a setting that is
written. -/
theorem meets_entries {key : Value} :
    meets (group.entries base) key = true ↔
      ∃ x ∈ group.settings, key = .text x.name ∧ x.write base ≠ none := by
  constructor
  · intro h
    obtain ⟨entry, hm, hs⟩ := List.any_eq_true.mp h
    obtain ⟨x, hx, hk, hw⟩ := plain_of_mem_entries hm
    rw [hk, Value.same_text_iff] at hs
    exact ⟨x, hx, hs, by simp [hw]⟩
  · rintro ⟨x, hx, rfl, hw⟩
    obtain ⟨value, hv⟩ := Option.ne_none_iff_exists'.mp hw
    exact List.any_eq_true.mpr ⟨_, mem_entries hx hv, Value.same_text_iff.mpr rfl⟩

private theorem named_of_fits (hf : ∀ entry ∈ given, group.Fits entry) :
    ∀ entry ∈ given, entry.1.name? ≠ none := by
  intro entry hm hc
  obtain ⟨x, -, hk, -⟩ := hf entry hm
  simp [hc] at hk

/-- Entries that fit and differ in their names name a setting twice, once they are laid over a
group, exactly if a key behind a tag names a setting that is written. -/
theorem nodup_names_merged_iff (h : group.Lawful) (base : σ)
    (hf : ∀ entry ∈ given, group.Fits entry) (hn : (names given).Nodup) :
    (names (merged (group.entries base) given)).Nodup ↔ ¬ group.Clashes base given := by
  have hfilter : (names (given.filter fun entry ↦ !meets (group.entries base) entry.1)).Nodup :=
    hn.sublist (List.filter_sublist.filterMap _)
  rw [names_merged _ (named_of_fits hf) hn, List.nodup_append]
  constructor
  · rintro ⟨-, -, hapart⟩ ⟨entry, hm, hp, x, hx, hk, hw⟩
    refine hapart x.name (mem_names_entries.mpr ⟨x, hx, rfl, hw⟩) x.name ?_ rfl
    refine List.mem_filterMap.mpr ⟨entry, List.mem_filter.mpr ⟨hm, ?_⟩, hk⟩
    rw [Bool.not_eq_true', Bool.eq_false_iff]
    intro hc
    obtain ⟨y, -, hy, -⟩ := meets_entries.mp hc
    exact hp ⟨y.name, hy⟩
  · intro hc
    refine ⟨h.nodup_names_entries base, hfilter, ?_⟩
    rintro name hname _ hadded rfl
    obtain ⟨x, hx, rfl, hw⟩ := mem_names_entries.mp hname
    obtain ⟨entry, hm, hk⟩ := List.mem_filterMap.mp hadded
    obtain ⟨hm, hnot⟩ := List.mem_filter.mp hm
    refine hc ⟨entry, hm, ?_, x, hx, hk, hw⟩
    rintro ⟨plain, hp⟩
    rw [hp, Value.name?_text, Option.some.injEq] at hk
    rw [hp, hk, meets_entries.mpr ⟨x, hx, rfl, hw⟩] at hnot
    cases hnot

/-- Laying entries over a group changes the settings that they name and no others, unless a key
behind a tag names a setting that is written: then this is refused. -/
theorem overlay_mapping (h : group.Lawful) (base : σ)
    (hf : ∀ entry ∈ given, group.Fits entry) (hn : (names given).Nodup) :
    (¬ group.Clashes base given →
      ∃ s, group.overlay base (some (.mapping given)) = .ok s ∧ group.LaidOver base given s) ∧
      (group.Clashes base given →
        ∃ name, group.overlay base (some (.mapping given)) = .error (.duplicateField name)) := by
  have hm : ∀ entry ∈ merged (group.entries base) given, group.Fits entry :=
    fits_merged hf (h.fits_entries base)
  have hiff := h.nodup_names_merged_iff base hf hn
  constructor
  · intro hc
    have hd := hiff.mpr hc
    obtain ⟨s, hs⟩ := h.exists_readEntries hm hd [] (by simp) group.defaults
    refine ⟨s, hs, ?_⟩
    intro x hx
    obtain ⟨hnone, hsome⟩ := h.laidOver_readEntries hs x hx
    rw [valueOf?_merged (named_of_fits hf) hn hd, h.valueOf?_entries base hx] at hnone hsome
    constructor
    · intro hv
      rw [hv, Option.none_or] at hnone hsome
      cases hw : x.write base with
      | none => rw [hnone hw, h.omitted x hx base hw]
      | some value =>
        obtain ⟨u, v, hr, he⟩ := hsome value hw
        rw [he, (h.settings x hx).write_of_read hw hr, hw]
    · intro value hv
      rw [hv, Option.some_or] at hsome
      exact hsome value rfl
  · intro hc
    exact h.duplicateField_readEntries hm (fun hd ↦ absurd hc (hiff.mp hd)) group.defaults

/-- A whole group laid over one that leaves out no more replaces it. -/
theorem overlay_entries (h : group.Lawful) {s : σ}
    (hb : ∀ x ∈ group.settings, x.write s = none → x.write base = none) :
    group.overlay base (some (.mapping (group.entries s))) = .ok s := by
  have hplain : ¬ group.Clashes base (group.entries s) := by
    rintro ⟨entry, hm, hp, -⟩
    obtain ⟨x, -, hk, -⟩ := plain_of_mem_entries hm
    exact hp ⟨x.name, hk⟩
  obtain ⟨t, ht, hl⟩ :=
    (h.overlay_mapping base (h.fits_entries s) (h.nodup_names_entries s)).1 hplain
  have hst : t = s := h.eq_of_laidOver_entries hb hl
  rw [ht, hst]

/-- Nothing laid over a group leaves it as it is. -/
theorem overlay_none (h : group.Lawful) : group.overlay base none = .ok base := h.read_entries base

end Lawful

end Section

end TaintRules.Yaml
