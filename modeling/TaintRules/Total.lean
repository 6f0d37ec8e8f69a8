/-!
# Totals

Costs and counts of several things are added up.
-/

namespace TaintRules

/-- The sum of some counts. -/
def total (counts : List Nat) : Nat := counts.foldr (· + ·) 0

/-- Nothing adds up to zero. -/
@[simp] theorem total_nil : total [] = 0 := rfl

/-- The first count is added to the sum of the others. -/
@[simp] theorem total_cons (n : Nat) (counts : List Nat) :
    total (n :: counts) = n + total counts := rfl

/-- The counts of two lists are added up apart. -/
@[simp] theorem total_append (counts others : List Nat) :
    total (counts ++ others) = total counts + total others := by
  induction counts with
  | nil => simp
  | cons n rest ih =>
    simp only [List.cons_append, total_cons, ih]
    omega

/-- Of counts that do not add up to zero, one is not zero. -/
theorem exists_ne_zero_of_total {counts : List Nat} (h : total counts ≠ 0) :
    ∃ n ∈ counts, n ≠ 0 := by
  induction counts with
  | nil => exact absurd rfl h
  | cons n rest ih =>
    by_cases hn : n = 0
    · rw [total_cons, hn, Nat.zero_add] at h
      obtain ⟨m, hm, hne⟩ := ih h
      exact ⟨m, List.mem_cons_of_mem _ hm, hne⟩
    · exact ⟨n, List.mem_cons_self, hn⟩

/-- The counts of several lists are added up list by list. -/
theorem total_flatMap {α : Type} (counts : α → List Nat) (items : List α) :
    total (items.flatMap counts) = total (items.map fun item ↦ total (counts item)) := by
  induction items with
  | nil => rfl
  | cons item rest ih => rw [List.flatMap_cons, total_append, ih, List.map_cons, total_cons]

/-- Two counts of each thing are added up apart. -/
theorem total_map_add {α : Type} (f g : α → Nat) (items : List α) :
    total (items.map fun item ↦ f item + g item) = total (items.map f) + total (items.map g) := by
  induction items with
  | nil => rfl
  | cons item rest ih =>
    simp only [List.map_cons, total_cons, ih]
    omega

/-- Things that count once or not at all add up to the number of those that count. -/
theorem total_map_ite {α : Type} (test : α → Bool) (items : List α) :
    total (items.map fun item ↦ if test item then 1 else 0) = items.countP test := by
  induction items with
  | nil => rfl
  | cons item rest ih =>
    rw [List.map_cons, total_cons, ih, List.countP_cons, Nat.add_comm]

end TaintRules
