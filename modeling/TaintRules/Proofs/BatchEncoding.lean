import TaintRules.Proofs.ByteEncoding

/-!
# When equal bytes mean equal batches

The bytes of a batch count its entities and the arguments of each call, but not its flags: these
end where the next entity begins. So a flag can be taken for the next entity, or an entity for
further flags, if the position of the flag is written with the bytes that an entity begins with.
Batches without such positions are determined by their bytes; a pair of batches with them is not.
-/

namespace TaintRules

open Bytes

/-! ### Flags -/

namespace ConstFlags

/-- The bytes of one flag. -/
def encodeEntry (entry : UInt64 × Bool) : List UInt8 :=
  word64 entry.1.toNat ++ [if entry.2 then 1 else 0]

/-- The position is written with the bytes that an entity begins with. -/
def BeginsEntity (position : UInt64) : Prop :=
  position.toNat % 65536 = 323 ∨ position.toNat % 65536 = 338

instance (position : UInt64) : Decidable (BeginsEntity position) :=
  inferInstanceAs (Decidable (_ ∨ _))

/-- A flag shows where it ends. -/
theorem selfDelimiting_encodeEntry : SelfDelimiting (fun _ ↦ True) encodeEntry := by
  rintro ⟨p, f⟩ ⟨q, g⟩ - - r s h
  simp only [encodeEntry, List.append_assoc] at h
  obtain ⟨hp, h⟩ := selfDelimiting_word64 (UInt64.toNat_lt p) (UInt64.toNat_lt q) h
  obtain ⟨hf, hr⟩ := List.cons.inj h
  have hfg : f = g := by
    cases f <;> cases g <;> simp_all
  exact ⟨by rw [UInt64.toNat_inj.mp hp, hfg], hr⟩

/-- Flags show where they end if what follows them does not begin like one of them. -/
theorem cancel {l m : List (UInt64 × Bool)} {r s : List UInt8}
    (hm : ∀ entry ∈ m, ¬ encodeEntry entry <+: r) (hl : ∀ entry ∈ l, ¬ encodeEntry entry <+: s)
    (h : l.flatMap encodeEntry ++ r = m.flatMap encodeEntry ++ s) : l = m ∧ r = s := by
  induction l generalizing m with
  | nil =>
    cases m with
    | nil => exact ⟨rfl, h⟩
    | cons entry m =>
      rw [List.flatMap_nil, List.nil_append, List.flatMap_cons, List.append_assoc] at h
      exact absurd ⟨_, h.symm⟩ (hm entry List.mem_cons_self)
  | cons entry l ih =>
    rw [List.flatMap_cons, List.append_assoc] at h
    cases m with
    | nil =>
      rw [List.flatMap_nil, List.nil_append] at h
      exact absurd ⟨_, h⟩ (hl entry List.mem_cons_self)
    | cons other m =>
      rw [List.flatMap_cons, List.append_assoc] at h
      obtain ⟨rfl, ht⟩ := selfDelimiting_encodeEntry trivial trivial h
      obtain ⟨rfl, hr⟩ := ih (fun e he ↦ hm e (List.mem_cons_of_mem _ he))
        (fun e he ↦ hl e (List.mem_cons_of_mem _ he)) ht
      exact ⟨rfl, hr⟩

end ConstFlags

/-! ### Entities -/

namespace Entity

/-- The lengths of the texts and the number of arguments can be written in eight bytes. -/
def IsSized : Entity → Prop
  | .call site =>
    Bytes.IsSized site.id ∧ (∀ s ∈ site.baseType, Bytes.IsSized s) ∧ Bytes.IsSized site.call ∧
      (∀ s ∈ site.qualifiedCall, Bytes.IsSized s) ∧ IsWord site.args.length ∧
      ∀ arg ∈ site.args, Bytes.IsSized arg
  | .read access =>
    Bytes.IsSized access.id ∧ (∀ s ∈ access.baseType, Bytes.IsSized s) ∧
      Bytes.IsSized access.read

instance : (e : Entity) → Decidable e.IsSized
  | .call _ => inferInstanceAs (Decidable (_ ∧ _ ∧ _ ∧ _ ∧ _ ∧ _))
  | .read _ => inferInstanceAs (Decidable (_ ∧ _ ∧ _))

/-- No flag of the entity has a position that begins like an entity. -/
def IsClear : Entity → Prop
  | .call site => ∀ entry ∈ site.isConst.entries, ¬ ConstFlags.BeginsEntity entry.1
  | .read _ => True

private theorem field_cancel {s t : String} (hs : Bytes.IsSized s) (ht : Bytes.IsSized t)
    {r q : List UInt8} (h : encodeField (some s) ++ r = encodeField (some t) ++ q) :
    s = t ∧ r = q := by
  obtain ⟨he, hr⟩ := selfDelimiting_encodeField (by simpa using hs) (by simpa using ht) h
  exact ⟨Option.some.inj he, hr⟩

/-- A read shows where it ends. -/
theorem read_cancel {x y : PropertyRead} (hx : (Entity.read x).IsSized)
    (hy : (Entity.read y).IsSized) {r s : List UInt8}
    (h : (Entity.read x).encode ++ r = (Entity.read y).encode ++ s) : x = y ∧ r = s := by
  obtain ⟨hxi, hxt, hxr⟩ := hx
  obtain ⟨hyi, hyt, hyr⟩ := hy
  simp only [encode, List.cons_append, List.append_assoc, List.cons.injEq, true_and] at h
  obtain ⟨hi, h⟩ := field_cancel hxi hyi h
  obtain ⟨ht, h⟩ := selfDelimiting_encodeField hxt hyt h
  obtain ⟨hr, h⟩ := field_cancel hxr hyr h
  cases x
  cases y
  simp_all

/-- A call shows where its flags begin. -/
theorem call_cancel {x y : CallSite} (hx : (Entity.call x).IsSized) (hy : (Entity.call y).IsSized)
    {r s : List UInt8} (h : (Entity.call x).encode ++ r = (Entity.call y).encode ++ s) :
    { x with isConst := y.isConst } = y ∧ x.isConst.encode ++ r = y.isConst.encode ++ s := by
  obtain ⟨hxi, hxt, hxc, hxq, hxn, hxa⟩ := hx
  obtain ⟨hyi, hyt, hyc, hyq, hyn, hya⟩ := hy
  simp only [encode, List.cons_append, List.append_assoc, List.cons.injEq, true_and] at h
  obtain ⟨hi, h⟩ := field_cancel hxi hyi h
  obtain ⟨ht, h⟩ := selfDelimiting_encodeField hxt hyt h
  obtain ⟨hc, h⟩ := field_cancel hxc hyc h
  obtain ⟨hq, h⟩ := selfDelimiting_encodeField hxq hyq h
  obtain ⟨hn, h⟩ := selfDelimiting_word64 hxn hyn h
  obtain ⟨ha, h⟩ := SelfDelimiting.flatMap
    (fun s t hs ht _ _ ↦ field_cancel hs ht) hn hxa hya h
  refine ⟨?_, h⟩
  cases x
  cases y
  simp_all

private theorem call_eq_of_entries {x y : CallSite} (h : { x with isConst := y.isConst } = y)
    (hl : x.isConst.entries = y.isConst.entries) : x = y := by
  have hc : x.isConst = y.isConst := by
    cases hx : x.isConst
    cases hy : y.isConst
    simp_all
  rwa [← hc] at h

/-- An entity begins with the mark of its kind and that of its identifier. -/
theorem encode_eq_cons (e : Entity) :
    ∃ rest, e.encode = 67 :: 1 :: rest ∨ e.encode = 82 :: 1 :: rest := by
  cases e with
  | call site => exact ⟨_, .inl rfl⟩
  | read access => exact ⟨_, .inr rfl⟩

/-- A flag begins like no entity unless its position does. -/
theorem not_prefix_of_not_beginsEntity {entry : UInt64 × Bool}
    (h : ¬ ConstFlags.BeginsEntity entry.1) (batch : List Entity) :
    ¬ ConstFlags.encodeEntry entry <+: batch.flatMap encode := by
  rintro ⟨rest, hr⟩
  cases batch with
  | nil => cases hr
  | cons e batch =>
    have hb (mark : UInt8) (tail : List UInt8) (he : e.encode = mark :: 1 :: tail) :
        entry.1.toNat % 256 = mark.toNat ∧ entry.1.toNat / 256 % 256 = 1 := by
      rw [List.flatMap_cons, he] at hr
      obtain ⟨h0, hr⟩ := List.cons.inj hr
      obtain ⟨h1, -⟩ := List.cons.inj hr
      rw [← h0]
      refine ⟨(UInt8.toNat_ofNat' ..).symm, ?_⟩
      have := congrArg UInt8.toNat h1
      rwa [UInt8.toNat_ofNat'] at this
    unfold ConstFlags.BeginsEntity at h
    obtain ⟨tail, he | he⟩ := encode_eq_cons e
    · have h67 := hb 67 tail he
      change _ = 67 ∧ _ at h67
      omega
    · have h82 := hb 82 tail he
      change _ = 82 ∧ _ at h82
      omega

/-- An entity of which no flag begins like an entity shows where it ends, if entities follow. -/
theorem cancel {x y : Entity} (hx : x.IsSized) (hy : y.IsSized) (hxc : x.IsClear)
    (hyc : y.IsClear) {a b : List Entity}
    (h : x.encode ++ a.flatMap encode = y.encode ++ b.flatMap encode) :
    x = y ∧ a.flatMap encode = b.flatMap encode := by
  cases x with
  | read x =>
    cases y with
    | read y =>
      obtain ⟨rfl, hr⟩ := read_cancel hx hy h
      exact ⟨rfl, hr⟩
    | call y => exact absurd (List.cons.inj h).1 (by decide)
  | call x =>
    cases y with
    | read y => exact absurd (List.cons.inj h).1 (by decide)
    | call y =>
      obtain ⟨he, hf⟩ := call_cancel hx hy h
      -- no flag of either call can be taken for the entity that follows the other
      obtain ⟨hl, hr⟩ := ConstFlags.cancel
        (fun entry hm ↦ not_prefix_of_not_beginsEntity (hyc entry hm) a)
        (fun entry hm ↦ not_prefix_of_not_beginsEntity (hxc entry hm) b) hf
      exact ⟨congrArg Entity.call (call_eq_of_entries he hl), hr⟩

/-! ### One entity alone -/

/-- The bytes of an entity determine it: its kind, its fields, present or missing, its arguments in
order and its flags. Nothing follows the flags of an entity alone, so that they end with the bytes,
whatever their positions are. -/
theorem eq_of_encode_eq {x y : Entity} (hx : x.IsSized) (hy : y.IsSized)
    (h : x.encode = y.encode) : x = y := by
  rw [← List.append_nil x.encode, ← List.append_nil y.encode] at h
  cases x with
  | read x =>
    cases y with
    | read y => rw [(read_cancel hx hy h).1]
    | call y => exact absurd (List.cons.inj h).1 (by decide)
  | call x =>
    cases y with
    | read y => exact absurd (List.cons.inj h).1 (by decide)
    | call y =>
      obtain ⟨he, hf⟩ := call_cancel hx hy h
      have hn (entry : UInt64 × Bool) : ¬ ConstFlags.encodeEntry entry <+: [] := by
        rw [List.prefix_nil]
        exact List.cons_ne_nil _ _
      obtain ⟨hl, -⟩ := ConstFlags.cancel (fun entry _ ↦ hn entry) (fun entry _ ↦ hn entry) hf
      rw [call_eq_of_entries he hl]

/-- A call with an argument that spells the beginning of an entity and an argument that is empty. -/
def spelledCall (flags : ConstFlags) : Entity :=
  .call { id := "", call := "f", args := ["C\x01", ""], isConst := flags }

/-- Two flags, one of them at a position that begins like an entity, noted in either order. -/
theorem eq_of_encode_eq_noted :
    let early := spelledCall ((ConstFlags.empty.insert 0 true).insert 323 false)
    let late := spelledCall ((ConstFlags.empty.insert 323 false).insert 0 true)
    early.IsSized ∧ late.IsSized ∧ early.encode = late.encode ∧ early = late := by
  intro early late
  have hearly : early.IsSized := by decide +kernel
  have hlate : late.IsSized := by decide +kernel
  have he : early.encode = late.encode := by decide +kernel
  exact ⟨hearly, hlate, he, eq_of_encode_eq hearly hlate he⟩

end Entity

/-! ### Batches -/

/-- The sizes in a batch can be written in eight bytes. -/
structure BatchSized (batch : List Entity) : Prop where
  length : IsWord batch.length
  entities : ∀ e ∈ batch, e.IsSized

private theorem flatMap_encode_inj {a b : List Entity} (hn : a.length = b.length)
    (hsa : ∀ e ∈ a, e.IsSized) (hsb : ∀ e ∈ b, e.IsSized) (hca : ∀ e ∈ a, e.IsClear)
    (hcb : ∀ e ∈ b, e.IsClear) (h : a.flatMap Entity.encode = b.flatMap Entity.encode) :
    a = b := by
  induction a generalizing b with
  | nil => exact (List.length_eq_zero_iff.mp hn.symm).symm
  | cons x a ih =>
    cases b with
    | nil => cases hn
    | cons y b =>
      obtain ⟨hx, hsa'⟩ := List.forall_mem_cons.mp hsa
      obtain ⟨hy, hsb'⟩ := List.forall_mem_cons.mp hsb
      obtain ⟨hxc, hca'⟩ := List.forall_mem_cons.mp hca
      obtain ⟨hyc, hcb'⟩ := List.forall_mem_cons.mp hcb
      rw [List.flatMap_cons, List.flatMap_cons] at h
      obtain ⟨rfl, hr⟩ := Entity.cancel hx hy hxc hyc h
      rw [ih (Nat.succ.inj hn) hsa' hsb' hca' hcb' hr]

/-- Batches of which no flag begins like an entity are equal if their bytes are. -/
theorem encodeBatch_inj {a b : List Entity} (hsa : BatchSized a) (hsb : BatchSized b)
    (hca : ∀ e ∈ a, e.IsClear) (hcb : ∀ e ∈ b, e.IsClear)
    (h : encodeBatch a = encodeBatch b) : a = b := by
  obtain ⟨hn, hr⟩ := selfDelimiting_word64 hsa.length hsb.length h
  exact flatMap_encode_inj hn hsa.entities hsb.entities hca hcb hr

end TaintRules
