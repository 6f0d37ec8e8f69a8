import TaintRules.Proofs.CompiledRules

/-!
# Names of rules

The name of a match rule tells its atom and its place in it, although the name of an atom may itself
hold the separator and digits. Whatever compiling a match rule gives carries this name, be it a rule
or an error.
-/

namespace TaintRules

/-! ### Names tell places apart -/

private theorem eq_of_append_cons {α : Type} {x y a b : List α} {separator : α}
    (hx : separator ∉ x) (hy : separator ∉ y) (h : x ++ separator :: a = y ++ separator :: b) :
    x = y ∧ a = b := by
  induction x generalizing y with
  | nil =>
    cases y with
    | nil => exact ⟨rfl, (List.cons.inj h).2⟩
    | cons first y => exact absurd ((List.cons.inj h).1 ▸ List.mem_cons_self) hy
  | cons first x ih =>
    cases y with
    | nil => exact absurd ((List.cons.inj h).1 ▸ List.mem_cons_self) hx
    | cons other y =>
      obtain ⟨rfl, ht⟩ := List.cons.inj h
      obtain ⟨rfl, rfl⟩ := ih (List.not_mem_of_not_mem_cons hx) (List.not_mem_of_not_mem_cons hy) ht
      exact ⟨rfl, rfl⟩

private theorem separator_not_mem_toDigits (n : Nat) : '#' ∉ Nat.toDigits 10 n := by
  intro h
  have hd := Nat.isDigit_of_mem_toDigits (by decide) (by decide) h
  exact absurd hd (by decide)

/-- Two match rules have one name only if they have the same place in atoms of one name: what
follows the last separator is the place. -/
theorem Atom.ruleId_eq_iff {a b : Atom} {i j : Nat} :
    a.ruleId i = b.ruleId j ↔ a.id = b.id ∧ i = j := by
  constructor
  · intro h
    have hl := congrArg (fun name ↦ name.toList.reverse) h
    simp only [ruleId, String.toList_append, Nat.toString_eq_repr, Nat.toList_repr,
      List.reverse_append] at hl
    have hd (n : Nat) : '#' ∉ (Nat.toDigits 10 n).reverse := by
      rw [List.mem_reverse]
      exact separator_not_mem_toDigits n
    obtain ⟨hplace, hid⟩ := eq_of_append_cons (hd i) (hd j) hl
    have hread := congrArg (Nat.ofDigitChars 10 · 0) (List.reverse_inj.mp hplace)
    rw [Nat.ofDigitChars_ten_toDigits, Nat.ofDigitChars_ten_toDigits] at hread
    exact ⟨String.toList_inj.mp (List.reverse_inj.mp hid), hread⟩
  · rintro ⟨hid, rfl⟩
    rw [ruleId, ruleId, hid]

/-! ### Errors carry the name of their rule -/

/-- Whether an error says what is wrong with the match rule of a name. -/
def CompileError.Faults (name : String) : CompileError → Prop
  | .missingTarget ruleId | .conflictingTarget ruleId | .malformedPattern ruleId _ _
  | .confidenceOutOfRange ruleId _ _ _ | .noGenerator ruleId _ | .badConstraint ruleId _ _ =>
    ruleId = name
  | .emptyId _ | .emptyAtom _ | .duplicateId _ => False

/-- A computation fails with no errors but those that satisfy a condition. -/
def FailsWith {ε α : Type} (condition : ε → Prop) (x : Except ε α) : Prop :=
  ∀ error, x = .error error → condition error

namespace FailsWith

variable {ε ε' α β : Type} {condition : ε → Prop}

theorem ok (value : α) : FailsWith condition (.ok value) := by
  intro error h
  cases h

theorem error {e : ε} (h : condition e) : FailsWith condition (.error e : Except ε α) := by
  rintro _ ⟨⟩
  exact h

theorem bind {x : Except ε α} {f : α → Except ε β} (hx : FailsWith condition x)
    (hf : ∀ value, FailsWith condition (f value)) : FailsWith condition (x >>= f) := by
  cases x with
  | error e => exact .error (hx e rfl)
  | ok value => exact hf value

theorem mapError {x : Except ε' α} {f : ε' → ε} (h : ∀ e, condition (f e)) :
    FailsWith condition (x.mapError f) := by
  cases x with
  | error e => exact .error (h e)
  | ok value => exact .ok value

theorem foldlM {f : β → α → Except ε β} (h : ∀ state item, FailsWith condition (f state item))
    (state : β) (items : List α) : FailsWith condition (items.foldlM f state) := by
  induction items generalizing state with
  | nil => exact .ok state
  | cons item rest ih => exact (h state item).bind fun _ ↦ ih _

end FailsWith

section Errors

variable {name : String}

theorem failsWith_parseField (field raw : String) :
    FailsWith (CompileError.Faults name) (parseField name field raw) :=
  .mapError fun _ ↦ rfl

theorem MatchRule.failsWith_patterns (rule : MatchRule) :
    FailsWith (CompileError.Faults name) (rule.patterns name) := by
  unfold MatchRule.patterns
  dsimp only
  have make (target : EntityKind) (member : String) : FailsWith (CompileError.Faults name) (do
      let baseType ← rule.baseType.mapM (parseField name "base_type")
      return { target, baseType, member := ← parseField name target.name member } :
        Except CompileError RulePatterns) := by
    apply FailsWith.bind
    · cases rule.baseType with
      | none => exact .ok none
      | some raw =>
        rw [Option.mapM_some, map_eq_pure_bind]
        exact (failsWith_parseField "base_type" raw).bind fun _ ↦ .ok _
    · exact fun _ ↦ (failsWith_parseField _ member).bind fun _ ↦ .ok _
  split
  · exact .error rfl
  · exact make _ _
  · exact make _ _
  · exact .error rfl

theorem GeneratorPlan.failsWith_choose (patterns : RulePatterns) :
    FailsWith (CompileError.Faults name) (choose name patterns) := by
  unfold choose
  split
  · exact .error rfl
  · split
    · exact .ok _
    · exact .error rfl

theorem PredicatePlan.failsWith_addConstraint (steps : List Predicate)
    (constraint : ArgConstraint) :
    FailsWith (CompileError.Faults name) (addConstraint name steps constraint) := by
  unfold addConstraint
  dsimp only
  apply FailsWith.bind
  · exact .mapError fun _ ↦ rfl
  intro step
  split
  · exact .error rfl
  · exact .ok _

theorem PredicatePlan.failsWith_make (patterns : RulePatterns) (generator : GeneratorPlan)
    (args : List ArgConstraint) :
    FailsWith (CompileError.Faults name) (make name patterns generator args) := by
  unfold make
  split
  · exact .error rfl
  · exact (FailsWith.foldlM failsWith_addConstraint _ _).bind fun _ ↦ .ok _

theorem Confidence.failsWith_of (tiers : TierSettings) (settings : ConfidenceSettings)
    (tier : Tier) (type : PatternType) :
    FailsWith (CompileError.Faults name) (Confidence.of name tiers settings tier type) := by
  unfold Confidence.of
  dsimp only
  split
  · exact .error rfl
  · exact .ok _

end Errors

namespace Atom

/-- An error of a match rule says what is wrong with this rule. -/
theorem failsWith_compileRule (config : ValidConfig) (atom : Atom) (index : Nat) :
    FailsWith (CompileError.Faults (atom.ruleId index)) (atom.compileRule config index) := by
  unfold compileRule
  dsimp only
  split
  · refine (MatchRule.failsWith_patterns _).bind fun patterns ↦ ?_
    refine (GeneratorPlan.failsWith_choose patterns).bind fun generator ↦ ?_
    refine (PredicatePlan.failsWith_make patterns generator _).bind fun predicates ↦ ?_
    exact (Confidence.failsWith_of _ _ _ _).bind fun _ ↦ .ok _
  · exact .error rfl

end Atom

end TaintRules
