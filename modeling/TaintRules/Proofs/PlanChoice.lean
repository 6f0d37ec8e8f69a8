import TaintRules.Proofs.Candidates

/-!
# Which plan is chosen

Calls with a type can be asked for by type and name or by name alone. The costs decide for the
name exactly if it is exact and the type is not: asking for a full key is cheapest, asking for an
exact name and checking the type is cheaper than any scan, and of two scans the one that decides
the type on the way is cheaper.
-/

namespace TaintRules

/-- Whether calls are asked for by their name alone: there is no type, or the name is exact and
the type is not. -/
def RulePatterns.leadsByName (patterns : RulePatterns) : Bool :=
  patterns.baseType.all fun type ↦ !type.isExact && patterns.member.isExact

/-- The table that the cheapest plan asks. -/
def RulePatterns.table (patterns : RulePatterns) : IndexTarget :=
  match patterns.target with
  | .read => .typeRead
  | .call => if patterns.leadsByName then .call else .typeCall

namespace GeneratorPlan

variable {patterns : RulePatterns} {plan : GeneratorPlan}

private theorem isSome_foldl_longerAnchor (best : Option (KeyField × String))
    (anchors : List (KeyField × String)) :
    (anchors.foldl longerAnchor best).isSome = (best.isSome || !anchors.isEmpty) := by
  induction anchors generalizing best with
  | nil => simp
  | cons next anchors ih =>
    have hn : (longerAnchor best next).isSome = true := by
      rcases longerAnchor_eq best next with h | h
      · cases best with
        | none => rfl
        | some b => rw [h]; rfl
      · rw [h]; rfl
    rw [List.foldl_cons, ih, hn]
    simp

private theorem isSome_anchor?_of_tail {c : KeyField × Pattern}
    {components : List (KeyField × Pattern)} (h : (anchor? components).isSome = true) :
    (anchor? (c :: components)).isSome = true := by
  simp only [anchor?, isSome_foldl_longerAnchor, Option.isSome_none, Bool.false_or,
    Bool.not_eq_true', List.isEmpty_eq_false_iff] at h ⊢
  rw [List.filterMap_cons]
  split
  · exact h
  · exact List.cons_ne_nil _ _

/-- What a scan costs before any key is decided; a literal makes it cheaper. -/
private def scanBase (components : List (KeyField × Pattern)) : Nat :=
  if (anchor? components).isSome then 8 else 10

private theorem le_scanBase (components : List (KeyField × Pattern)) : 8 ≤ scanBase components := by
  unfold scanBase
  split <;> omega

private theorem scanBase_cons_le (c : KeyField × Pattern) (components : List (KeyField × Pattern)) :
    scanBase (c :: components) ≤ scanBase components := by
  unfold scanBase
  cases h : (anchor? components).isSome with
  | true => rw [isSome_anchor?_of_tail h]
  | false => split <;> simp

private theorem lookupCost_scanLookup (target : IndexTarget) (evaluation : Nat)
    (components : List (KeyField × Pattern)) :
    lookupCost target evaluation (scanLookup components) = scanBase components + evaluation := by
  unfold scanLookup scanBase
  cases anchor? components <;> rfl

private theorem cost_typeCall (type member : Pattern) :
    (make .typeCall [(.baseType, type), (.member, member)] true none).cost =
      if type.isExact && member.isExact then 1
      else scanBase [(.baseType, type), (.member, member)]
        + (type.shape.evalCost + member.shape.evalCost) := by
  simp only [make, lookupFor, Option.map_none, Option.getD_none, Nat.add_zero]
  cases h : type.isExact && member.isExact with
  | true =>
    rw [Bool.and_eq_true] at h
    simp [h, lookupCost]
  | false => simp [h, lookupCost_scanLookup]

private theorem cost_call (type member : Pattern) :
    (make .call [(.member, member)] false (some type)).cost =
      (if member.isExact then 2 else scanBase [(.member, member)] + member.shape.evalCost)
        + (1 + type.shape.evalCost) := by
  simp only [make, lookupFor, Option.map_some, Option.getD_some]
  cases h : member.isExact with
  | true => simp [h, lookupCost]
  | false => simp [h, lookupCost_scanLookup]

/-- Of the two plans for calls with a type, the one by name is cheaper if the name is exact and
the type is not. -/
theorem target_cheaper (type member : Pattern) :
    (cheaper (make .typeCall [(.baseType, type), (.member, member)] true none)
        (make .call [(.member, member)] false (some type))).target =
      if !type.isExact && member.isExact then .call else .typeCall := by
  have hx (p : Pattern) (hp : p.isExact = true) : p.shape.evalCost = 1 := by
    rw [beq_iff_eq.mp hp]
    rfl
  have hb := le_scanBase [(.baseType, type), (.member, member)]
  have hl := scanBase_cons_le (.baseType, type) [(.member, member)]
  rw [cheaper, cost_call, cost_typeCall, apply_ite target]
  change (if _ then IndexTarget.call else IndexTarget.typeCall) = _
  cases hm : member.isExact with
  | false =>
    simp only [Bool.and_false, Bool.false_eq_true, if_false]
    rw [if_neg (by omega)]
  | true =>
    cases ht : type.isExact with
    | true =>
      rw [hx type ht]
      rfl
    | false =>
      simp only [Bool.and_true, Bool.false_eq_true, if_false, if_true, Bool.not_false]
      rw [if_pos (by omega)]

/-- The plan that is chosen is one of those that the patterns admit, and asks the table that is
cheapest for them. -/
theorem mem_options_of_choose {ruleId : String} (h : choose ruleId patterns = .ok plan) :
    plan ∈ options patterns ∧ plan.target = patterns.table := by
  unfold choose at h
  split at h
  · cases h
  · unfold options RulePatterns.table RulePatterns.leadsByName at *
    cases ht : patterns.target with
    | read =>
      cases hb : patterns.baseType with
      | none | some type =>
        simp only [ht, hb, List.foldl_nil, Except.ok.injEq] at h ⊢
        subst h
        exact ⟨List.mem_cons_self, rfl⟩
    | call =>
      cases hb : patterns.baseType with
      | none =>
        simp only [ht, hb, List.foldl_nil, Except.ok.injEq] at h ⊢
        subst h
        exact ⟨List.mem_cons_self, rfl⟩
      | some type =>
        simp only [ht, hb, List.foldl_cons, List.foldl_nil, Except.ok.injEq] at h ⊢
        subst h
        refine ⟨?_, target_cheaper type patterns.member⟩
        unfold cheaper
        split <;> simp

end GeneratorPlan

end TaintRules
