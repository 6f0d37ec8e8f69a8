import TaintRules.Proofs.CatalogOutcomes
import TaintRules.Proofs.RuleOrder

/-!
# The arrangement of a catalog does not matter

If the atoms of a catalog have different names, no match rule has the name of another, and what
becomes of an atom does not depend on the others. So a catalog gives the same rules in whatever
order its atoms come, and the rules of an atom are those that it gives alone.
-/

namespace TaintRules

/-! ### Outcomes without positions -/

/-- The error without the position of the atom it is about. -/
def CompileError.withoutPosition : CompileError → CompileError
  | .emptyId _ => .emptyId 0
  | error => error

namespace RuleOutcome

/-- The outcome without the position of an atom. -/
def withoutPosition : RuleOutcome → RuleOutcome
  | .failed error => .failed error.withoutPosition
  | outcome => outcome

@[simp] theorem rule?_withoutPosition (outcome : RuleOutcome) :
    outcome.withoutPosition.rule? = outcome.rule? := by
  cases outcome <;> rfl

@[simp] theorem error?_withoutPosition (outcome : RuleOutcome) :
    outcome.withoutPosition.error? = outcome.error?.map (·.withoutPosition) := by
  cases outcome <;> rfl

/-- The rules do not depend on positions. -/
theorem filterMap_rule?_withoutPosition (outcomes : List RuleOutcome) :
    (outcomes.map (·.withoutPosition)).filterMap (·.rule?) = outcomes.filterMap (·.rule?) := by
  simp [List.filterMap_map]

/-- The errors of outcomes without positions are their errors without positions. -/
theorem filterMap_error?_withoutPosition (outcomes : List RuleOutcome) :
    (outcomes.map (·.withoutPosition)).filterMap (·.error?) =
      (outcomes.filterMap (·.error?)).map (·.withoutPosition) := by
  simp [List.filterMap_map, List.map_filterMap]

end RuleOutcome

namespace Compilation

variable {config : ValidConfig} {atoms : List Atom}

/-- What becomes of an atom in a catalog of its own. -/
def outcomesAlone (config : ValidConfig) (atom : Atom) : List RuleOutcome :=
  (atom.compileAt config 0).map fun result ↦ (outcomeOf [] result).withoutPosition

/-- The rules of an atom in a catalog of its own. -/
def rulesOf (config : ValidConfig) (atom : Atom) : List CompiledRule :=
  (outcomesAlone config atom).filterMap (·.rule?)

/-- The rules of an atom carry its name. -/
theorem atomId_of_mem_rulesOf {atom : Atom} {rule : CompiledRule}
    (h : rule ∈ rulesOf config atom) : rule.atomId = atom.id := by
  obtain ⟨outcome, ho, hr⟩ := List.mem_filterMap.mp h
  obtain ⟨result, hm, rfl⟩ := List.mem_map.mp ho
  cases result with
  | error error => cases hr
  | ok other =>
    cases hr
    obtain ⟨index, hi⟩ := Atom.exists_of_mem_compileAt hm
    exact (Atom.names_of_compileRule hi).2

/-! ### Atoms with different names -/

/-- If no two atoms have one name, no match rule of the name of another compiles before it. -/
theorem not_compiledBefore (hd : (atoms.map (·.id)).Nodup) {position : Nat} {atom : Atom}
    (ha : atoms[position]? = some atom) (index : Nat) :
    ¬CompiledBefore config atoms position index (atom.ruleId index) := by
  rintro ⟨p, i, hl, other, ho, -, rule, hr, hn⟩
  rw [(Atom.names_of_compileRule hr).1, Atom.ruleId_eq_iff] at hn
  obtain ⟨hid, rfl⟩ := hn
  have hlen : p < (atoms.map (·.id)).length := by
    rw [List.length_map]
    exact (List.getElem?_eq_some_iff.mp ho).1
  have hp : p = position := by
    apply (List.getElem?_inj hlen hd).mp
    rw [List.getElem?_map, List.getElem?_map, ha, ho, Option.map_some, Option.map_some, hid]
  omega

/-- If no two atoms have one name, the position is all that an atom takes from the catalog. -/
theorem outcomesAt_of_nodup (hd : (atoms.map (·.id)).Nodup) {position : Nat} {atom : Atom}
    (ha : atoms[position]? = some atom) :
    (outcomesAt config atoms position atom).map (·.withoutPosition) =
      outcomesAlone config atom := by
  unfold outcomesAt outcomesAlone Atom.compileAt
  split
  · rfl
  · split
    · rfl
    · rw [List.map_map, List.map_map]
      apply List.map_congr_left
      intro index _
      cases hr : atom.compileRule config index with
      | error error => simp [hr, outcomeOf]
      | ok rule =>
        have hn := @not_compiledBefore config _ hd _ _ ha index
        rw [← (Atom.names_of_compileRule hr).1] at hn
        simp [hr, outcomeOf, hn]

/-- If no two atoms have one name, what becomes of a catalog is what becomes of its atoms. -/
theorem outcomes_of_nodup (hd : (atoms.map (·.id)).Nodup) :
    (outcomes config atoms).map (·.withoutPosition) = atoms.flatMap (outcomesAlone config) := by
  have hall : ∀ entry ∈ atoms.zipIdx,
      (outcomesAt config atoms entry.2 entry.1).map (·.withoutPosition) =
        outcomesAlone config entry.1 :=
    fun entry he ↦ outcomesAt_of_nodup hd (List.mem_zipIdx_iff_getElem?.mp he)
  rw [outcomes, List.map_flatMap, List.flatMap_congr hall, ← List.flatMap_map,
    List.zipIdx_map_fst]

/-- The rules that a catalog keeps have different names. -/
theorem nodup_kept (config : ValidConfig) (atoms : List Atom) :
    (((outcomes config atoms).filterMap (·.rule?)).map (·.ruleId)).Nodup := by
  have hn := nodup_ids config atoms
  rw [rules_ofAtoms] at hn
  exact ((RuleSet.perm_ofRules _).map _).nodup_iff.mp hn

/-- If no two atoms have one name, a catalog keeps the rules of its atoms. -/
theorem kept_of_nodup (hd : (atoms.map (·.id)).Nodup) :
    (outcomes config atoms).filterMap (·.rule?) = atoms.flatMap (rulesOf config) := by
  rw [← RuleOutcome.filterMap_rule?_withoutPosition, outcomes_of_nodup hd, List.filterMap_flatMap]
  rfl

private theorem filter_rulesOf (config : ValidConfig) (atom : Atom) (name : String) :
    (rulesOf config atom).filter (·.atomId == name) =
      if atom.id = name then rulesOf config atom else [] := by
  split
  · next h =>
    rw [List.filter_eq_self]
    intro rule hr
    rw [atomId_of_mem_rulesOf hr, h, beq_self_eq_true]
  · next h =>
    rw [List.filter_eq_nil_iff]
    intro rule hr
    rw [atomId_of_mem_rulesOf hr, beq_iff_eq]
    exact h

/-- If no two atoms have one name, the rules that carry the name of an atom are its rules. -/
theorem filter_kept_of_nodup (hd : (atoms.map (·.id)).Nodup) {atom : Atom} (ha : atom ∈ atoms) :
    ((outcomes config atoms).filterMap (·.rule?)).filter (·.atomId == atom.id) =
      rulesOf config atom := by
  rw [kept_of_nodup hd, List.filter_flatMap]
  simp only [filter_rulesOf]
  obtain ⟨front, rest, rfl⟩ := List.append_of_mem ha
  rw [List.map_append, List.map_cons, List.nodup_middle, List.nodup_cons, ← List.map_append] at hd
  have hothers : ∀ other ∈ front ++ rest,
      (if other.id = atom.id then rulesOf config other else []) = [] := by
    intro other ho
    exact if_neg fun he ↦ hd.1 (List.mem_map.mpr ⟨other, ho, he⟩)
  rw [List.flatMap_append, List.flatMap_cons, if_pos rfl,
    List.flatMap_eq_nil_iff.mpr fun other ho ↦ hothers other (List.mem_append_left _ ho),
    List.flatMap_eq_nil_iff.mpr fun other ho ↦ hothers other (List.mem_append_right _ ho),
    List.nil_append, List.append_nil]

/-- A catalog of atoms with different names gives the same rules in the same order, however its
atoms are arranged, and the same errors up to the positions of atoms without a name. The rules of
each atom are those that it gives alone, whatever other atoms there are. -/
theorem ofAtoms_arranged {config : ValidConfig} {atoms other : List Atom}
    (hd : (atoms.map (·.id)).Nodup) (hp : other.Perm atoms) :
    (ofAtoms config other).rules = (ofAtoms config atoms).rules ∧
      ((ofAtoms config other).errors.map (·.withoutPosition)).Perm
        ((ofAtoms config atoms).errors.map (·.withoutPosition)) ∧
      ∀ atom ∈ atoms,
        (ofAtoms config atoms).rules.forAtom atom.id = (ofAtoms config [atom]).rules := by
  have ho : (other.map (·.id)).Nodup := (hp.map _).nodup_iff.mpr hd
  have hsame : ((outcomes config other).map (·.withoutPosition)).Perm
      ((outcomes config atoms).map (·.withoutPosition)) := by
    rw [outcomes_of_nodup ho, outcomes_of_nodup hd]
    exact hp.flatMap_right _
  refine ⟨?_, ?_, ?_⟩
  · rw [rules_ofAtoms, rules_ofAtoms]
    apply RuleSet.ofRules_of_perm _ (nodup_kept config atoms)
    have hr := hsame.filterMap (·.rule?)
    rwa [RuleOutcome.filterMap_rule?_withoutPosition,
      RuleOutcome.filterMap_rule?_withoutPosition] at hr
  · rw [errors_ofAtoms, errors_ofAtoms, ← RuleOutcome.filterMap_error?_withoutPosition,
      ← RuleOutcome.filterMap_error?_withoutPosition]
    exact hsame.filterMap _
  · intro atom ha
    have hone : ([atom].map (·.id)).Nodup := List.nodup_singleton _
    rw [rules_ofAtoms, rules_ofAtoms, kept_of_nodup hone, List.flatMap_singleton,
      ← filter_kept_of_nodup hd ha]
    exact RuleSet.filter_ofRules (nodup_kept config atoms) _

/-- A catalog of four atoms, two of which have errors. -/
def mixedAtoms : List Atom := [
  { id := "exec", kind := .sink
    matchRules := [{ call := some "os.exec" }, { call := some "ex*" }] },
  { id := " ", kind := .sink, matchRules := [{ call := some "eval" }] },
  { id := "spawn", kind := .sink, matchRules := [{ call := some "s*" }] },
  { id := "none", kind := .source }]

/-- Turning the catalog around turns its errors around, and leaves its rules as they are. -/
theorem ofAtoms_arranged_reversed :
    (mixedAtoms.map (·.id)).Nodup ∧
      let output := ofAtoms (.ofPreset .thorough) mixedAtoms.reverse
      output.rules.ids = ["exec#0", "exec#1", "spawn#0"] ∧
        output.errors.map (·.message) =
          ["rule 'none': atom has no match rules", "atom at position 2 has an empty id"] ∧
        (output.errors.map (·.withoutPosition)).Perm
          ((ofAtoms (.ofPreset .thorough) mixedAtoms).errors.map (·.withoutPosition)) := by
  have hd : (mixedAtoms.map (·.id)).Nodup := by decide
  obtain ⟨hrules, herrors, -⟩ :=
    @ofAtoms_arranged (.ofPreset .thorough) _ _ hd (List.reverse_perm mixedAtoms)
  refine ⟨hd, ?_, by decide +kernel, herrors⟩
  -- the atoms were declared in the order in which their rules run
  rw [hrules, rules_ofAtoms_of_pairwise (by decide +kernel)]
  decide +kernel

end Compilation

end TaintRules
