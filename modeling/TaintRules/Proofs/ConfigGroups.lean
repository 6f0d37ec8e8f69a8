import Mathlib.Tactic.FinCases
import TaintRules.Proofs.SettingGroups

/-!
# The groups of a configuration

Each setting of the three groups holds one value: it reads it into one place of the group and writes
it from there. So the settings of a group are independent of each other, and laying entries over a
group makes each setting the value that is given for it.
-/

namespace TaintRules.Yaml

variable {σ α : Type}

/-- The setting holds a value at a place of the group, which is read by `item` and written by
`out`. -/
structure Setting.Holds (x : Setting σ) (item : Reader α) (out : α → Option Value)
    (get : σ → α) (set : α → σ → σ) : Prop where
  read_eq : ∀ value s, x.read value s = (item value).map (set · s)
  write_eq : ∀ s, x.write s = out (get s)
  get_set : ∀ a s, get (set a s) = a
  item_out : ∀ a value, out a = some value → item value = .ok a
  out_inj : ∀ a b, out a = out b → a = b

namespace Setting.Holds

variable {x : Setting σ} {item : Reader α} {out : α → Option Value} {get : σ → α}
  {set : α → σ → σ}

/-- What is read is put into its place. -/
theorem exists_of_read (h : x.Holds item out get set) {value : Value} {s t : σ}
    (hr : x.read value s = .ok t) : ∃ a, item value = .ok a ∧ set a s = t := by
  rw [h.read_eq] at hr
  cases hi : item value with
  | error e =>
    rw [hi] at hr
    cases hr
  | ok a =>
    rw [hi] at hr
    exact ⟨a, rfl, Except.ok.inj hr⟩

theorem write_set (h : x.Holds item out get set) (a : α) (s : σ) : x.write (set a s) = out a := by
  rw [h.write_eq, h.get_set]

theorem get_congr (h : x.Holds item out get set) {s t : σ} (hw : x.write s = x.write t) :
    get s = get t := by
  rw [h.write_eq, h.write_eq] at hw
  exact h.out_inj _ _ hw

/-- A setting is independent of those that do not look at its place. -/
theorem lawful (h : x.Holds item out get set) {settings : List (Setting σ)}
    (hy : ∀ y ∈ settings, x.name ≠ y.name → ∀ a s, y.write (set a s) = y.write s) :
    x.Lawful settings where
  read_into {value s t} hr u := by
    obtain ⟨a, hi, rfl⟩ := h.exists_of_read hr
    refine ⟨set a u, ?_, ?_⟩
    · rw [h.read_eq, hi]
      rfl
    · rw [h.write_set, h.write_set]
  read_write {value s} hw u := by
    rw [h.write_eq] at hw
    refine ⟨set (get s) u, ?_, ?_⟩
    · rw [h.read_eq, h.item_out _ _ hw]
      rfl
    · rw [h.write_set, h.write_eq]
  apart y hm hn value s t hr := by
    obtain ⟨a, -, rfl⟩ := h.exists_of_read hr
    exact hy y hm hn a s

/-- The place of a setting holds the value that is given for it, or else the one that it held. -/
theorem get_of_laidOver (h : x.Holds item out get set) {base s : σ}
    {given : List (Value × Value)} (hl : x.LaidOver base given s) :
    match valueOf? x.name given with
    | some value => item value = .ok (get s)
    | none => get s = get base := by
  obtain ⟨hnone, hsome⟩ := hl
  cases hv : valueOf? x.name given with
  | none => exact h.get_congr (hnone hv)
  | some value =>
    obtain ⟨u, v, hr, hw⟩ := hsome value hv
    obtain ⟨a, hi, rfl⟩ := h.exists_of_read hr
    rw [h.get_congr hw, h.get_set]
    exact hi

end Setting.Holds

/-! ### The kinds of settings -/

section Kinds

variable {name expected : String}

@[simp] theorem name_floatSetting (get : σ → Float) (set : Float → σ → σ) :
    (floatSetting name get set).name = name := rfl

@[simp] theorem write_floatSetting (get : σ → Float) (set : Float → σ → σ) (s : σ) :
    (floatSetting name get set).write s = some (.float (get s)) := rfl

@[simp] theorem name_boolSetting (get : σ → Bool) (set : Bool → σ → σ) :
    (boolSetting name get set).name = name := rfl

@[simp] theorem write_boolSetting (get : σ → Bool) (set : Bool → σ → σ) (s : σ) :
    (boolSetting name get set).write s = some (.bool (get s)) := rfl

@[simp] theorem name_wordSetting (get : σ → UInt64) (set : UInt64 → σ → σ) :
    (wordSetting name expected get set).name = name := rfl

@[simp] theorem write_wordSetting (get : σ → UInt64) (set : UInt64 → σ → σ) (s : σ) :
    (wordSetting name expected get set).write s = some (.int (get s).toNat) := rfl

@[simp] theorem name_optionalWordSetting (get : σ → Option UInt64)
    (set : Option UInt64 → σ → σ) :
    (optionalWordSetting name expected get set).name = name := rfl

@[simp] theorem write_optionalWordSetting (get : σ → Option UInt64)
    (set : Option UInt64 → σ → σ) (s : σ) :
    (optionalWordSetting name expected get set).write s =
      (get s).map fun n ↦ .int n.toNat := rfl

theorem holds_floatSetting {get : σ → Float} {set : Float → σ → σ}
    (h : ∀ a s, get (set a s) = a) :
    (floatSetting name get set).Holds readFloat (fun x ↦ some (.float x)) get set where
  read_eq _ _ := rfl
  write_eq _ := rfl
  get_set := h
  item_out := by
    rintro a _ ⟨⟩
    rfl
  out_inj := by
    rintro a _ ⟨⟩
    rfl

theorem holds_boolSetting {get : σ → Bool} {set : Bool → σ → σ} (h : ∀ a s, get (set a s) = a) :
    (boolSetting name get set).Holds readBool (fun x ↦ some (.bool x)) get set where
  read_eq _ _ := rfl
  write_eq _ := rfl
  get_set := h
  item_out := by
    rintro a _ ⟨⟩
    rfl
  out_inj := by
    rintro a _ ⟨⟩
    rfl

/-- A word is read as it is written. -/
theorem readWord_toNat (n : UInt64) : readWord expected (.int n.toNat) = .ok n := by
  have hn : (0 : Int) ≤ (n.toNat : Int) ∧ (n.toNat : Int) < (UInt64.size : Int) := by
    have := n.toNat_lt
    constructor
    · omega
    · exact Int.ofNat_lt.mpr this
  simp only [readWord, readBelow, Value.untag, hn, and_self, if_true, Int.toNat_natCast]
  exact congrArg Except.ok UInt64.ofNat_toNat

private theorem int_toNat_inj {a b : UInt64} (h : Value.int a.toNat = Value.int b.toNat) :
    a = b :=
  UInt64.toNat_inj.mp (Int.ofNat.inj (Value.int.inj h))

theorem holds_wordSetting {get : σ → UInt64} {set : UInt64 → σ → σ}
    (h : ∀ a s, get (set a s) = a) :
    (wordSetting name expected get set).Holds (readWord expected)
      (fun n ↦ some (.int n.toNat)) get set where
  read_eq _ _ := rfl
  write_eq _ := rfl
  get_set := h
  item_out := by
    rintro a _ ⟨⟩
    exact readWord_toNat a
  out_inj a b hab := int_toNat_inj (Option.some.inj hab)

theorem holds_optionalWordSetting {get : σ → Option UInt64} {set : Option UInt64 → σ → σ}
    (h : ∀ a s, get (set a s) = a) :
    (optionalWordSetting name expected get set).Holds (readOptional (readWord expected))
      (fun n ↦ n.map fun n ↦ .int n.toNat) get set where
  read_eq _ _ := rfl
  write_eq _ := rfl
  get_set := h
  item_out := by
    intro a value hv
    obtain ⟨n, rfl, rfl⟩ := Option.map_eq_some_iff.mp hv
    rw [readOptional, readWord_toNat]
    · rfl
    · simp
  out_inj a b hab := Option.map_injective (fun _ _ ↦ int_toNat_inj) hab

end Kinds

/-! ### The three groups -/

theorem lawful_tierSection : tierSection.Lawful where
  settings x hx := by
    fin_cases hx <;> exact (holds_floatSetting fun _ _ ↦ rfl).lawful (by simp [tierSection])
  nodup := by decide
  ext s t h := by
    simp only [tierSection, List.forall_mem_cons, write_floatSetting, Option.some.injEq,
      Value.float.injEq] at h
    cases s
    cases t
    simp_all
  omitted x hx s hw := by
    fin_cases hx <;> cases hw

theorem lawful_confidenceSection : confidenceSection.Lawful where
  settings x hx := by
    fin_cases hx <;> exact (holds_floatSetting fun _ _ ↦ rfl).lawful (by simp [confidenceSection])
  nodup := by decide
  ext s t h := by
    simp only [confidenceSection, List.forall_mem_cons, write_floatSetting, Option.some.injEq,
      Value.float.injEq] at h
    cases s
    cases t
    simp_all
  omitted x hx s hw := by
    fin_cases hx <;> cases hw

/-- Only the bound on matches may be left out. -/
theorem write_runtimeSection_eq_none {x : Setting RuntimeSettings}
    (hx : x ∈ runtimeSection.settings) {s t : RuntimeSettings} (hs : x.write s = none)
    (ht : t.maxMatchesPerEntity = none) : x.write t = none := by
  simp only [runtimeSection, List.mem_cons, List.not_mem_nil, or_false] at hx
  obtain rfl | rfl | rfl | rfl | rfl | rfl | rfl := hx
  any_goals cases hs
  rw [write_optionalWordSetting, ht, Option.map_none]

theorem lawful_runtimeSection : runtimeSection.Lawful where
  settings x hx := by
    fin_cases hx
    · exact (holds_wordSetting fun _ _ ↦ rfl).lawful (by simp [runtimeSection])
    · exact (holds_wordSetting fun _ _ ↦ rfl).lawful (by simp [runtimeSection])
    · exact (holds_wordSetting fun _ _ ↦ rfl).lawful (by simp [runtimeSection])
    · exact (holds_wordSetting fun _ _ ↦ rfl).lawful (by simp [runtimeSection])
    · exact (holds_boolSetting fun _ _ ↦ rfl).lawful (by simp [runtimeSection])
    · exact (holds_optionalWordSetting fun _ _ ↦ rfl).lawful (by simp [runtimeSection])
    · exact (holds_boolSetting fun _ _ ↦ rfl).lawful (by simp [runtimeSection])
  nodup := by decide
  ext s t h := by
    simp only [runtimeSection, List.forall_mem_cons] at h
    obtain ⟨hc, ht, hp, hi, hs, hm, hb, -⟩ := h
    have hc := (holds_wordSetting fun _ _ ↦ rfl).get_congr hc
    have ht := (holds_wordSetting fun _ _ ↦ rfl).get_congr ht
    have hp := (holds_wordSetting fun _ _ ↦ rfl).get_congr hp
    have hi := (holds_wordSetting fun _ _ ↦ rfl).get_congr hi
    have hs := (holds_boolSetting fun _ _ ↦ rfl).get_congr hs
    have hm := (holds_optionalWordSetting fun _ _ ↦ rfl).get_congr hm
    have hb := (holds_boolSetting fun _ _ ↦ rfl).get_congr hb
    cases s
    cases t
    simp_all
  omitted _ hx _ hs := write_runtimeSection_eq_none hx hs rfl

end TaintRules.Yaml
