import Mathlib.Data.List.Nodup
import TaintRules.Rule.Basic

/-!
# The order of rules

Rules are compared by score, by wildcards, by literal characters and by name, one after the other,
so the order is total and transitive, and rules that are equal in it have one name. A set of rules
with different names is therefore determined by its rules, whatever the order in which they come.
Scores are compared by their bits: those with a sign count downward, below all others, and no two
scores share a place, be they zeros of either sign or no numbers at all.
-/

open Std

namespace TaintRules

/-- Scores in one place have the same bits. -/
theorem Score.rank_inj {a b : Score} : a.rank = b.rank ↔ a.bits = b.bits := by
  constructor
  · intro h
    have ha := a.bits.toNat_lt
    have hb := b.bits.toNat_lt
    apply UInt64.toNat_inj.mp
    simp only [rank, Nat.pow_eq] at h
    split at h <;> split at h <;> omega
  · intro h
    rw [rank, rank, h]

namespace CompiledRule

private instance : TransCmp fun a b : CompiledRule ↦
    compareOn (·.specificity.score.rank) b a := TransCmp.opposite

private instance : TransCmp fun a b : CompiledRule ↦
    compareOn (·.specificity.literals) b a := TransCmp.opposite

/-- The order is total, oriented and transitive. -/
instance : TransCmp order :=
  inferInstanceAs (TransCmp (compareLex
    (fun a b : CompiledRule ↦ compareOn (·.specificity.score.rank) b a)
    (compareLex (compareOn (·.specificity.wildcards))
      (compareLex (fun a b ↦ compareOn (·.specificity.literals) b a) (compareOn (·.ruleId))))))

/-- Of any two rules one does not come after the other. -/
theorem isLE_order_or (a b : CompiledRule) : ((a.order b).isLE || (b.order a).isLE) = true := by
  rw [@OrientedCmp.eq_swap _ order _ b a]
  cases a.order b <;> rfl

/-- Rules are equal in the order if they agree in all that is compared. -/
theorem order_eq_iff {a b : CompiledRule} :
    a.order b = .eq ↔
      a.specificity.score.bits = b.specificity.score.bits ∧
        a.specificity.wildcards = b.specificity.wildcards ∧
        a.specificity.literals = b.specificity.literals ∧ a.ruleId = b.ruleId := by
  unfold order
  simp only [Ordering.then_eq_eq, LawfulEqOrd.compare_eq_iff_eq, Score.rank_inj]
  rw [eq_comm, @eq_comm _ b.specificity.literals]

end CompiledRule

namespace RuleSet

variable {rules other : List CompiledRule}

theorem perm_ofRules (rules : List CompiledRule) : (ofRules rules).rules.Perm rules :=
  List.mergeSort_perm _ _

theorem pairwise_ofRules (rules : List CompiledRule) :
    (ofRules rules).rules.Pairwise fun a b ↦ (a.order b).isLE := by
  apply List.pairwise_mergeSort
  · exact fun a b c hab hbc ↦ TransCmp.isLE_trans hab hbc
  · exact CompiledRule.isLE_order_or

/-- Rules in order, no two of which have one name, are the set of any arrangement of them. -/
theorem eq_ofRules {sorted : List CompiledRule} (hp : sorted.Perm rules)
    (hs : sorted.Pairwise fun a b ↦ (a.order b).isLE) (hn : (rules.map (·.ruleId)).Nodup) :
    ⟨sorted⟩ = ofRules rules := by
  apply congrArg RuleSet.mk
  apply List.Perm.eq_of_pairwise _ hs (pairwise_ofRules rules)
    (hp.trans (perm_ofRules rules).symm)
  intro a b ha hb hab hba
  have hname : a.ruleId = b.ruleId :=
    (CompiledRule.order_eq_iff.mp (OrientedCmp.isLE_antisymm hab hba)).2.2.2
  exact List.inj_on_of_nodup_map hn (hp.mem_iff.mp ha) ((perm_ofRules rules).mem_iff.mp hb) hname

/-- Rules with different names stand in strict order in their set. -/
theorem pairwise_lt_ofRules (hn : (rules.map (·.ruleId)).Nodup) :
    (ofRules rules).rules.Pairwise fun a b ↦ a.order b = .lt := by
  have hd : (ofRules rules).rules.Pairwise fun a b ↦ a.ruleId ≠ b.ruleId :=
    List.pairwise_map.mp (((perm_ofRules rules).map _).nodup_iff.mpr hn)
  apply ((pairwise_ofRules rules).and hd).imp
  rintro a b ⟨hle, hne⟩
  cases ho : a.order b with
  | lt => rfl
  | eq => exact absurd (CompiledRule.order_eq_iff.mp ho).2.2.2 hne
  | gt =>
    rw [ho] at hle
    cases hle

/-- A set of rules with different names does not depend on how they are arranged. -/
theorem ofRules_of_perm (hp : rules.Perm other) (hn : (other.map (·.ruleId)).Nodup) :
    ofRules rules = ofRules other :=
  eq_ofRules ((perm_ofRules rules).trans hp) (pairwise_ofRules rules) hn

/-- The rules of a set that pass a test are the set of those that pass it. -/
theorem filter_ofRules (hn : (rules.map (·.ruleId)).Nodup) (test : CompiledRule → Bool) :
    ⟨(ofRules rules).rules.filter test⟩ = ofRules (rules.filter test) := by
  apply eq_ofRules ((perm_ofRules rules).filter test) ((pairwise_ofRules rules).filter test)
  exact hn.sublist (List.filter_sublist.map _)

/-- The order of rules compares any two of them, the other way round with the opposite result; it
is transitive, and equal in it are the rules with the same score bit by bit, the same numbers of
wildcards and literal characters and the same name. A set of rules is an arrangement of the given
ones in which none comes before a smaller one; if their names differ, they are in strict order and
every arrangement of them gives the same set. -/
theorem ofRules_canonical :
    (∀ a b : CompiledRule, a.order b = (b.order a).swap ∧
        ((a.order b).isLE ∨ (b.order a).isLE) ∧
        (a.order b = .eq ↔
          a.specificity.score.bits = b.specificity.score.bits ∧
            a.specificity.wildcards = b.specificity.wildcards ∧
            a.specificity.literals = b.specificity.literals ∧ a.ruleId = b.ruleId)) ∧
      (∀ a b c : CompiledRule,
        ((a.order b).isLE → (b.order c).isLE → (a.order c).isLE) ∧
          (a.order b = .lt → b.order c = .lt → a.order c = .lt)) ∧
      (∀ rules : List CompiledRule, (ofRules rules).rules.Perm rules ∧
        (ofRules rules).rules.Pairwise fun a b ↦ (a.order b).isLE) ∧
      (∀ rules other : List CompiledRule, rules.Perm other → (rules.map (·.ruleId)).Nodup →
        ofRules rules = ofRules other ∧
          (ofRules rules).rules.Pairwise fun a b ↦ a.order b = .lt) := by
  refine ⟨?_, ?_, fun rules ↦ ⟨perm_ofRules rules, pairwise_ofRules rules⟩, ?_⟩
  · intro a b
    exact ⟨OrientedCmp.eq_swap, Bool.or_eq_true_iff.mp (CompiledRule.isLE_order_or a b),
      CompiledRule.order_eq_iff⟩
  · intro a b c
    exact ⟨TransCmp.isLE_trans, TransCmp.lt_trans⟩
  · intro rules other hp hn
    have ho : (other.map (·.ruleId)).Nodup := (hp.map _).nodup_iff.mp hn
    exact ⟨ofRules_of_perm hp ho, pairwise_lt_ofRules hn⟩

end RuleSet

end TaintRules
