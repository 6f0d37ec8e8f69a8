/-!
# What is known about the constness of arguments

For some positions of a call it is known whether the argument is a compile-time constant. The
positions are kept in ascending order, each once, so that equal knowledge is equal data.
-/

namespace TaintRules

/-- Which arguments are known to be constants, or known not to be, by position. -/
structure ConstFlags where
  entries : List (UInt64 × Bool)
  ascending : entries.Pairwise (fun a b ↦ a.1 < b.1)
  deriving DecidableEq, Repr

namespace ConstFlags

/-- Nothing is known. -/
def empty : ConstFlags := ⟨[], .nil⟩

instance : Inhabited ConstFlags := ⟨empty⟩

/-- Notes a flag in an ascending list, in place of an older one. -/
def insertEntry (position : UInt64) (flag : Bool) : List (UInt64 × Bool) → List (UInt64 × Bool)
  | [] => [(position, flag)]
  | (other, old) :: rest =>
    if position < other then (position, flag) :: (other, old) :: rest
    else if position = other then (position, flag) :: rest
    else (other, old) :: insertEntry position flag rest

/-- The positions after noting a flag are the old ones and the new one. -/
theorem fst_of_mem_insertEntry {position : UInt64} {flag : Bool} {l : List (UInt64 × Bool)}
    {e : UInt64 × Bool} (h : e ∈ insertEntry position flag l) :
    e.1 = position ∨ e ∈ l := by
  induction l with
  | nil => simp_all [insertEntry]
  | cons head rest ih =>
    obtain ⟨other, old⟩ := head
    rw [insertEntry] at h
    split at h
    · rcases List.mem_cons.1 h with rfl | h
      · exact .inl rfl
      · exact .inr h
    · split at h
      · rcases List.mem_cons.1 h with rfl | h
        · exact .inl rfl
        · exact .inr (List.mem_cons_of_mem _ h)
      · rcases List.mem_cons.1 h with rfl | h
        · exact .inr List.mem_cons_self
        · rcases ih h with h | h
          · exact .inl h
          · exact .inr (List.mem_cons_of_mem _ h)

/-- Noting a flag keeps the positions in ascending order. -/
theorem pairwise_insertEntry (position : UInt64) (flag : Bool) {l : List (UInt64 × Bool)}
    (h : l.Pairwise (fun a b ↦ a.1 < b.1)) :
    (insertEntry position flag l).Pairwise (fun a b ↦ a.1 < b.1) := by
  induction l with
  | nil => simp [insertEntry]
  | cons head rest ih =>
    obtain ⟨other, old⟩ := head
    obtain ⟨above, tail⟩ := List.pairwise_cons.1 h
    rw [insertEntry]
    split
    · rename_i below
      refine List.pairwise_cons.2 ⟨fun e he ↦ ?_, h⟩
      rcases List.mem_cons.1 he with rfl | he
      · exact below
      · exact UInt64.lt_trans below (above e he)
    · split
      · rename_i same
        subst same
        exact List.pairwise_cons.2 ⟨above, tail⟩
      · rename_i notBelow different
        refine List.pairwise_cons.2 ⟨fun e he ↦ ?_, ih tail⟩
        rcases fst_of_mem_insertEntry he with hp | he
        · rw [hp]
          exact UInt64.lt_of_le_of_ne (UInt64.not_lt.1 notBelow) fun h ↦ different h.symm
        · exact above e he

/-- Notes whether the argument at a position is a constant. -/
def insert (flags : ConstFlags) (position : UInt64) (flag : Bool) : ConstFlags :=
  ⟨insertEntry position flag flags.entries, pairwise_insertEntry position flag flags.ascending⟩

/-- What is known of the argument at a position. -/
def get? (flags : ConstFlags) (position : UInt64) : Option Bool := flags.entries.lookup position

end ConstFlags

end TaintRules
