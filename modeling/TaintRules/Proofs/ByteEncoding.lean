import TaintRules.Entity.Fingerprint

/-!
# Encodings whose end shows

An encoding is self-delimiting when it shows where it ends: of two values that are followed by
something, equal bytes mean equal values and the same thing after them. Numbers of eight bytes,
texts with their length, fields that may be missing and counted lists are encoded so, as long as
their sizes fit into eight bytes.
-/

namespace TaintRules

namespace Bytes

variable {α : Type}

/-- Equal bytes mean equal values, whatever follows them. -/
def SelfDelimiting (admitted : α → Prop) (encode : α → List UInt8) : Prop :=
  ∀ ⦃a b : α⦄, admitted a → admitted b →
    ∀ ⦃r s : List UInt8⦄, encode a ++ r = encode b ++ s → a = b ∧ r = s

/-- The number can be written in eight bytes. -/
def IsWord (n : Nat) : Prop := n < UInt64.size

instance (n : Nat) : Decidable (IsWord n) := inferInstanceAs (Decidable (n < UInt64.size))

/-- The length of the text can be written in eight bytes. -/
def IsSized (s : String) : Prop := IsWord (utf8 s).length

instance (s : String) : Decidable (IsSized s) := inferInstanceAs (Decidable (IsWord _))

/-! ### Numbers -/

/-- A number takes as many bytes as are asked for. -/
theorem length_littleEndian (count n : Nat) : (littleEndian count n).length = count := by
  induction count generalizing n with
  | zero => rfl
  | succ count ih => rw [littleEndian, List.length_cons, ih]

/-- The bytes of a number determine it, if they are enough. -/
theorem littleEndian_inj {count m n : Nat} (hm : m < Nat.pow 256 count)
    (hn : n < Nat.pow 256 count) (h : littleEndian count m = littleEndian count n) : m = n := by
  induction count generalizing m n with
  | zero =>
    change m < 1 at hm
    change n < 1 at hn
    omega
  | succ count ih =>
    change m < Nat.pow 256 count * 256 at hm
    change n < Nat.pow 256 count * 256 at hn
    obtain ⟨hl, hr⟩ := List.cons.inj h
    have hlow : m % 256 = n % 256 := by
      have hb := congrArg UInt8.toNat hl
      rwa [UInt8.toNat_ofNat', UInt8.toNat_ofNat'] at hb
    have hhigh : m / 256 = n / 256 := by
      apply ih _ _ hr
      · omega
      · omega
    omega

/-- A number of eight bytes shows where it ends. -/
theorem selfDelimiting_word64 : SelfDelimiting IsWord word64 := by
  intro m n hm hn r s h
  obtain ⟨hw, hr⟩ := List.append_inj h (by rw [word64, word64, length_littleEndian,
    length_littleEndian])
  exact ⟨@littleEndian_inj 8 m n hm hn hw, hr⟩

/-! ### Texts and lists -/

/-- The bytes of a text determine it. -/
theorem utf8_inj {s t : String} (h : utf8 s = utf8 t) : s = t := by
  have hb : s.toByteArray.data = t.toByteArray.data := Array.toList_inj.mp h
  exact String.toByteArray_inj.mp (ByteArray.ext hb)

/-- A text with its length shows where it ends. -/
theorem selfDelimiting_sized : SelfDelimiting IsSized sized := by
  intro s t hs ht r q h
  rw [sized, sized, List.append_assoc, List.append_assoc] at h
  obtain ⟨hl, h⟩ := selfDelimiting_word64 hs ht h
  obtain ⟨hu, hr⟩ := List.append_inj h hl
  exact ⟨utf8_inj hu, hr⟩

/-- Equally many values of a self-delimiting encoding show where they end. -/
theorem SelfDelimiting.flatMap {admitted : α → Prop} {encode : α → List UInt8}
    (he : SelfDelimiting admitted encode) {l m : List α} (hn : l.length = m.length)
    (hl : ∀ a ∈ l, admitted a) (hm : ∀ a ∈ m, admitted a) {r s : List UInt8}
    (h : l.flatMap encode ++ r = m.flatMap encode ++ s) : l = m ∧ r = s := by
  induction l generalizing m with
  | nil =>
    cases List.length_eq_zero_iff.mp hn.symm
    exact ⟨rfl, h⟩
  | cons a l ih =>
    cases m with
    | nil => cases hn
    | cons b m =>
      rw [List.flatMap_cons, List.flatMap_cons, List.append_assoc, List.append_assoc] at h
      obtain ⟨rfl, ht⟩ := he (hl a List.mem_cons_self) (hm b List.mem_cons_self) h
      obtain ⟨rfl, hr⟩ := ih (Nat.succ.inj hn) (fun c hc ↦ hl c (List.mem_cons_of_mem _ hc))
        (fun c hc ↦ hm c (List.mem_cons_of_mem _ hc)) ht
      exact ⟨rfl, hr⟩

end Bytes

open Bytes

/-- A field that may be missing shows where it ends. -/
theorem selfDelimiting_encodeField :
    SelfDelimiting (fun field ↦ ∀ s ∈ field, IsSized s) encodeField := by
  intro a b ha hb r s h
  cases a with
  | none =>
    cases b with
    | none => exact ⟨rfl, (List.cons.inj h).2⟩
    | some t => exact absurd (List.cons.inj h).1 (by decide)
  | some t =>
    cases b with
    | none => exact absurd (List.cons.inj h).1 (by decide)
    | some u =>
      obtain ⟨rfl, hr⟩ := selfDelimiting_sized (ha t rfl) (hb u rfl) (List.cons.inj h).2
      exact ⟨rfl, hr⟩

end TaintRules
