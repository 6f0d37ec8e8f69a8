import TaintRules.Proofs.RuleNames

/-!
# What becomes of each match rule of a catalog

Compiling a catalog makes one thing of each match rule: a rule of the catalog, an error, or the
report that a rule of its name had compiled before. An atom without a name or without match rules
has one error. Nothing is lost and nothing is added, and errors keep the order of the atoms.
-/

namespace TaintRules

/-- What compiling a catalog makes of a match rule, or of an atom that has none. -/
inductive RuleOutcome where
  /-- The rule belongs to the catalog. -/
  | kept (rule : CompiledRule)
  | failed (error : CompileError)
  /-- The match rule compiled, but one of its name had compiled before. -/
  | repeated (ruleId : String)

namespace RuleOutcome

/-- The rule, if it belongs to the catalog. -/
def rule? : RuleOutcome → Option CompiledRule
  | .kept rule => some rule
  | .failed _ | .repeated _ => none

/-- The error that is reported. -/
def error? : RuleOutcome → Option CompileError
  | .kept _ => none
  | .failed error => some error
  | .repeated ruleId => some (.duplicateId ruleId)

@[simp] theorem rule?_kept (rule : CompiledRule) : (kept rule).rule? = some rule := rfl

@[simp] theorem rule?_failed (error : CompileError) : (failed error).rule? = none := rfl

@[simp] theorem rule?_repeated (ruleId : String) : (repeated ruleId).rule? = none := rfl

@[simp] theorem error?_kept (rule : CompiledRule) : (kept rule).error? = none := rfl

@[simp] theorem error?_failed (error : CompileError) : (failed error).error? = some error := rfl

@[simp] theorem error?_repeated (ruleId : String) :
    (repeated ruleId).error? = some (.duplicateId ruleId) := rfl

/-- Every outcome is a rule or an error, and none is both. -/
theorem length_filterMap_add (outcomes : List RuleOutcome) :
    (outcomes.filterMap (·.rule?)).length + (outcomes.filterMap (·.error?)).length =
      outcomes.length := by
  induction outcomes with
  | nil => rfl
  | cons outcome rest ih =>
    cases outcome <;> simp [List.filterMap_cons] <;> omega

end RuleOutcome

namespace Compilation

/-! ### Places in a catalog -/

/-- A match rule of the given name compiled at a place before match rule `index` of the atom at
`position`. -/
def CompiledBefore (config : ValidConfig) (atoms : List Atom) (position index : Nat)
    (name : String) : Prop :=
  ∃ p i, (p < position ∨ p = position ∧ i < index) ∧
    ∃ atom, atoms[p]? = some atom ∧ Text.isBlank atom.id = false ∧
      ∃ rule, atom.compileRule config i = .ok rule ∧ rule.ruleId = name

/-- The names of the first match rules of an atom that compile. -/
def compiledNames (config : ValidConfig) (atom : Atom) (count : Nat) : List String :=
  if Text.isBlank atom.id then []
  else (List.range count).filterMap fun index ↦
    (atom.compileRule config index).toOption.map (·.ruleId)

/-- The names of the match rules that compile before a place. -/
def namesBefore (config : ValidConfig) (atoms : List Atom) (position index : Nat) : List String :=
  ((atoms.take position).flatMap fun atom ↦ compiledNames config atom atom.matchRules.length)
    ++ atoms[position]?.elim [] (compiledNames config · index)

variable {config : ValidConfig}

private theorem toOption_map_eq_some_iff {ε α β : Type} {x : Except ε α} {f : α → β} {b : β} :
    x.toOption.map f = some b ↔ ∃ a, x = .ok a ∧ f a = b := by
  cases x with
  | error e => simp [Except.toOption]
  | ok a => simp [Except.toOption]

theorem mem_compiledNames {atom : Atom} {count : Nat} {name : String} :
    name ∈ compiledNames config atom count ↔
      Text.isBlank atom.id = false ∧ ∃ i < count, ∃ rule,
        atom.compileRule config i = .ok rule ∧ rule.ruleId = name := by
  unfold compiledNames
  split
  · next h => simp [h]
  · next h =>
    rw [List.mem_filterMap]
    simp only [toOption_map_eq_some_iff, List.mem_range]
    exact ⟨fun hn ↦ ⟨Bool.eq_false_iff.mpr h, hn⟩, fun hn ↦ hn.2⟩

private theorem lt_length_of_compileRule {atom : Atom} {index : Nat} {rule : CompiledRule}
    (h : atom.compileRule config index = .ok rule) : index < atom.matchRules.length := by
  apply Nat.lt_of_not_le
  intro hl
  unfold Atom.compileRule at h
  rw [List.getElem?_eq_none hl] at h
  cases h

/-- The names that compile before a place, found by going through the places before it. -/
theorem mem_namesBefore {atoms : List Atom} {position index : Nat} {name : String} :
    name ∈ namesBefore config atoms position index ↔
      CompiledBefore config atoms position index name := by
  unfold namesBefore
  rw [List.mem_append, List.mem_flatMap]
  constructor
  · rintro (⟨atom, ha, hn⟩ | hn)
    · obtain ⟨p, hp⟩ := List.mem_iff_getElem?.mp ha
      rw [List.getElem?_take] at hp
      obtain ⟨hb, i, -, hr⟩ := mem_compiledNames.mp hn
      split at hp
      · next hl => exact ⟨p, i, .inl hl, atom, hp, hb, hr⟩
      · cases hp
    · cases ha : atoms[position]? with
      | none =>
        rw [ha] at hn
        cases hn
      | some atom =>
        rw [ha] at hn
        obtain ⟨hb, i, hi, hr⟩ := mem_compiledNames.mp hn
        exact ⟨position, i, .inr ⟨rfl, hi⟩, atom, ha, hb, hr⟩
  · rintro ⟨p, i, hl, atom, ha, hb, rule, hr, hn⟩
    rcases hl with hl | ⟨rfl, hi⟩
    · left
      refine ⟨atom, ?_, mem_compiledNames.mpr ⟨hb, i, lt_length_of_compileRule hr, rule, hr, hn⟩⟩
      apply List.mem_of_getElem? (i := p)
      rw [List.getElem?_take, if_pos hl, ha]
    · right
      rw [ha]
      exact mem_compiledNames.mpr ⟨hb, i, hi, rule, hr, hn⟩

instance (atoms : List Atom) (position index : Nat) (name : String) :
    Decidable (CompiledBefore config atoms position index name) :=
  decidable_of_iff _ mem_namesBefore

/-- What becomes of the atom at a position: one error for an atom without a name or without match
rules, and else one outcome for each match rule. -/
def outcomesAt (config : ValidConfig) (atoms : List Atom) (position : Nat) (atom : Atom) :
    List RuleOutcome :=
  if Text.isBlank atom.id then [.failed (.emptyId position)]
  else if atom.matchRules.isEmpty then [.failed (.emptyAtom atom.id)]
  else (List.range atom.matchRules.length).map fun index ↦
    match atom.compileRule config index with
    | .error error => .failed error
    | .ok rule =>
      if CompiledBefore config atoms position index rule.ruleId then .repeated rule.ruleId
      else .kept rule

/-- What becomes of a catalog, atom by atom. -/
def outcomes (config : ValidConfig) (atoms : List Atom) : List RuleOutcome :=
  atoms.zipIdx.flatMap fun (atom, position) ↦ outcomesAt config atoms position atom

/-! ### Results with the names seen so far -/

/-- The names of the results that are rules. -/
def ruleNames (results : List (Except CompileError CompiledRule)) : List String :=
  results.filterMap fun result ↦ result.toOption.map (·.ruleId)

/-- What becomes of a result when some names were seen before. -/
def outcomeOf (seen : List String) : Except CompileError CompiledRule → RuleOutcome
  | .error error => .failed error
  | .ok rule => if rule.ruleId ∈ seen then .repeated rule.ruleId else .kept rule

/-- What becomes of results one after the other. -/
def outcomesFrom : List String → List (Except CompileError CompiledRule) → List RuleOutcome
  | _, [] => []
  | seen, result :: rest =>
    outcomeOf seen result :: outcomesFrom (seen ++ ruleNames [result]) rest

/-- Splitting results is reading off their outcomes; of the names seen before only membership
counts. -/
theorem collect_eq {seen other : List String} (hs : ∀ name, name ∈ seen ↔ name ∈ other)
    (results : List (Except CompileError CompiledRule)) :
    collect seen results =
      ((outcomesFrom other results).filterMap (·.rule?),
        (outcomesFrom other results).filterMap (·.error?)) := by
  induction results generalizing seen other with
  | nil => rfl
  | cons result rest ih =>
    cases result with
    | error error =>
      have hnames : other ++ ruleNames [.error error] = other := List.append_nil other
      simp only [collect, ih hs, outcomesFrom, outcomeOf, hnames, List.filterMap_cons,
        RuleOutcome.rule?_failed, RuleOutcome.error?_failed]
    | ok rule =>
      have hnames (name : String) : name ∈ other ++ ruleNames [.ok rule] ↔
          name = rule.ruleId ∨ name ∈ other := by
        rw [List.mem_append, or_comm, ← List.mem_singleton]
        rfl
      by_cases hm : rule.ruleId ∈ other
      · have hother : ∀ name, name ∈ seen ↔ name ∈ other ++ ruleNames [.ok rule] := by
          intro name
          rw [hs, hnames]
          constructor
          · exact .inr
          · rintro (rfl | h)
            · exact hm
            · exact h
        have hc : seen.contains rule.ruleId = true := by simpa [hs] using hm
        simp only [collect, hc, if_true, ih hother, outcomesFrom, outcomeOf, if_pos hm,
          List.filterMap_cons, RuleOutcome.rule?_repeated, RuleOutcome.error?_repeated]
      · have hother : ∀ name, name ∈ rule.ruleId :: seen ↔
            name ∈ other ++ ruleNames [.ok rule] := by
          intro name
          rw [List.mem_cons, hs, hnames]
        have hc : seen.contains rule.ruleId = false := by simpa [hs] using hm
        simp only [collect, hc, ih hother, outcomesFrom, outcomeOf, if_neg hm,
          List.filterMap_cons, RuleOutcome.rule?_kept, RuleOutcome.error?_kept, Bool.false_eq_true,
          if_false]

theorem outcomesFrom_append (seen : List String)
    (front rest : List (Except CompileError CompiledRule)) :
    outcomesFrom seen (front ++ rest) =
      outcomesFrom seen front ++ outcomesFrom (seen ++ ruleNames front) rest := by
  induction front generalizing seen with
  | nil => simp [outcomesFrom, ruleNames]
  | cons result front ih =>
    have hnames : ruleNames (result :: front) = ruleNames [result] ++ ruleNames front :=
      List.filterMap_append (l := [result])
    rw [List.cons_append, outcomesFrom, ih, hnames, outcomesFrom, List.cons_append,
      List.append_assoc]

theorem outcomesFrom_map_range (seen : List String)
    (result : Nat → Except CompileError CompiledRule) (count : Nat) :
    outcomesFrom seen ((List.range count).map result) =
      (List.range count).map fun i ↦
        outcomeOf (seen ++ ruleNames ((List.range i).map result)) (result i) := by
  induction count with
  | zero => rfl
  | succ count ih =>
    rw [List.range_succ, List.map_append, outcomesFrom_append, ih, List.map_append]
    rfl

/-! ### The results of a catalog -/

private theorem ruleNames_compileAt (position : Nat) (atom : Atom) :
    ruleNames (atom.compileAt config position) =
      compiledNames config atom atom.matchRules.length := by
  unfold Atom.compileAt compiledNames
  split
  · rfl
  · split
    · next h => simp [List.isEmpty_iff.mp h, ruleNames, Except.toOption]
    · exact List.filterMap_map

private theorem ruleNames_results (position : Nat) (atoms : List Atom) :
    ruleNames (results config position atoms) =
      atoms.flatMap fun atom ↦ compiledNames config atom atom.matchRules.length := by
  induction atoms generalizing position with
  | nil => rfl
  | cons atom rest ih =>
    rw [results, ruleNames, List.filterMap_append, List.flatMap_cons, ← ih (position + 1),
      ← ruleNames_compileAt position]
    rfl

/-- The names seen before a match rule are those that compiled before its place. -/
private theorem mem_seen_iff {front rest : List Atom} {atom : Atom} {index : Nat} {name : String}
    (hb : Text.isBlank atom.id = false) :
    name ∈ ruleNames (results config 0 front)
        ++ ruleNames ((List.range index).map (atom.compileRule config)) ↔
      CompiledBefore config (front ++ atom :: rest) front.length index name := by
  have hown : ruleNames ((List.range index).map (atom.compileRule config)) =
      compiledNames config atom index := by
    rw [compiledNames, hb]
    exact List.filterMap_map
  rw [← mem_namesBefore, namesBefore, ruleNames_results, hown]
  simp

/-- After the atoms before it, what becomes of an atom is what its place says. -/
theorem outcomesFrom_compileAt (front rest : List Atom) (atom : Atom) :
    outcomesFrom (ruleNames (results config 0 front)) (atom.compileAt config front.length) =
      outcomesAt config (front ++ atom :: rest) front.length atom := by
  unfold Atom.compileAt outcomesAt
  split
  · rfl
  · next hb =>
    split
    · rfl
    · rw [outcomesFrom_map_range]
      congr 1
      funext index
      cases atom.compileRule config index with
      | error error => rfl
      | ok rule =>
        simp only [outcomeOf, @mem_seen_iff _ _ rest _ _ _ (Bool.eq_false_iff.mpr hb)]

/-- Going through the rest of a catalog after its first atoms gives the outcomes of the rest. -/
theorem outcomesFrom_results (front rest : List Atom) :
    outcomesFrom (ruleNames (results config 0 front)) (results config front.length rest) =
      (rest.zipIdx front.length).flatMap fun (atom, position) ↦
        outcomesAt config (front ++ rest) position atom := by
  induction rest generalizing front with
  | nil => rfl
  | cons atom rest ih =>
    have hnames : ruleNames (results config 0 front)
        ++ ruleNames (atom.compileAt config front.length) =
          ruleNames (results config 0 (front ++ [atom])) := by
      simp only [ruleNames_results, ruleNames_compileAt, List.flatMap_append,
        List.flatMap_singleton]
    have hrest := ih (front ++ [atom])
    rw [List.length_append, List.length_singleton, List.append_assoc, List.singleton_append]
      at hrest
    rw [results, outcomesFrom_append, hnames, hrest, outcomesFrom_compileAt front rest atom,
      List.zipIdx_cons, List.flatMap_cons]

/-- The rules and the errors of a catalog are those of the outcomes, the errors in order. -/
theorem collect_results (config : ValidConfig) (atoms : List Atom) :
    collect [] (results config 0 atoms) =
      ((outcomes config atoms).filterMap (·.rule?),
        (outcomes config atoms).filterMap (·.error?)) := by
  have h := @outcomesFrom_results config [] atoms
  rw [List.nil_append, List.length_nil] at h
  rw [collect_eq (fun _ ↦ Iff.rfl), outcomes, ← h]
  rfl

theorem rules_ofAtoms (config : ValidConfig) (atoms : List Atom) :
    (ofAtoms config atoms).rules = .ofRules ((outcomes config atoms).filterMap (·.rule?)) :=
  congrArg RuleSet.ofRules (congrArg Prod.fst (collect_results config atoms))

theorem errors_ofAtoms (config : ValidConfig) (atoms : List Atom) :
    (ofAtoms config atoms).errors = (outcomes config atoms).filterMap (·.error?) :=
  congrArg Prod.snd (collect_results config atoms)

/-- How many rules and errors an atom is worth: one for each match rule, and one if it has no name
or no match rules. -/
def share (atom : Atom) : Nat :=
  if Text.isBlank atom.id then 1 else max 1 atom.matchRules.length

theorem length_outcomesAt (atoms : List Atom) (position : Nat) (atom : Atom) :
    (outcomesAt config atoms position atom).length = share atom := by
  unfold outcomesAt share
  split
  · rfl
  · split
    · next h => simp [List.isEmpty_iff.mp h]
    · next h =>
      have hl : 0 < atom.matchRules.length := by simpa [List.length_pos_iff] using h
      rw [List.length_map, List.length_range]
      omega

theorem length_outcomes (config : ValidConfig) (atoms : List Atom) :
    (outcomes config atoms).length = total (atoms.map share) := by
  have go (position : Nat) (rest : List Atom) :
      ((rest.zipIdx position).flatMap fun (atom, position) ↦
        outcomesAt config atoms position atom).length = total (rest.map share) := by
    induction rest generalizing position with
    | nil => rfl
    | cons atom rest ih =>
      rw [List.zipIdx_cons, List.flatMap_cons, List.length_append, ih, length_outcomesAt,
        List.map_cons, total_cons]
  exact go 0 atoms

/-- Compiling a catalog makes one outcome of each match rule, and one of each atom without a name or
without match rules. The rules of the catalog are those that were kept, and its errors, in the order
of the atoms, are those of the others; so rules and errors together are as many as the atoms are
worth. No two rules share a name, only match rules at one place of atoms with one name do, and
whatever compiling a match rule gives carries its name. -/
theorem ofAtoms_accounts_for_each_rule (config : ValidConfig) (atoms : List Atom) :
    let output := ofAtoms config atoms
    output.rules.rules.Perm ((outcomes config atoms).filterMap (·.rule?)) ∧
      output.errors = (outcomes config atoms).filterMap (·.error?) ∧
      output.rules.size + output.errors.length = total (atoms.map share) ∧
      output.rules.ids.Nodup ∧
      (∀ (a b : Atom) (i j : Nat), a.ruleId i = b.ruleId j ↔ a.id = b.id ∧ i = j) ∧
      ∀ (atom : Atom) (index : Nat),
        match atom.compileRule config index with
        | .ok rule => rule.ruleId = atom.ruleId index
        | .error error => error.Faults (atom.ruleId index) := by
  intro output
  have hrules : output.rules.rules.Perm ((outcomes config atoms).filterMap (·.rule?)) := by
    rw [rules_ofAtoms config atoms]
    exact List.mergeSort_perm _ _
  have herrors : output.errors = (outcomes config atoms).filterMap (·.error?) :=
    errors_ofAtoms config atoms
  refine ⟨hrules, herrors, ?_, nodup_ids config atoms, fun a b i j ↦ Atom.ruleId_eq_iff, ?_⟩
  · rw [RuleSet.size, hrules.length_eq, herrors, RuleOutcome.length_filterMap_add, length_outcomes]
  · intro atom index
    split
    · next h => exact (Atom.names_of_compileRule h).1
    · next h => exact Atom.failsWith_compileRule config atom index _ h

/-- A catalog in which a name comes twice, once for a match rule that does not compile. -/
def repeatingAtoms : List Atom := [
  { id := "exec", kind := .sink, matchRules := [{ call := some "exec" }, { call := some "**" }] },
  { id := " ", kind := .sink, matchRules := [{ call := some "eval" }] },
  { id := "exec", kind := .sink, matchRules := [{ call := some "run" }, { call := some "spawn" }] },
  { id := "exec#0", kind := .sink, matchRules := [{ call := some "system" }] },
  { id := "none", kind := .sink }]

-- the second match rule of the third atom is kept, since that of the first did not compile
example : (outcomes (.ofPreset .thorough) repeatingAtoms).map
    (fun outcome ↦ (outcome.rule?.map (·.ruleId), outcome.error?.map (·.message))) = [
      (some "exec#0", none),
      (none,
        some "rule 'exec#1': malformed call pattern: pattern '**' contains adjacent wildcards"),
      (none, some "atom at position 1 has an empty id"),
      (none, some "rule 'exec#0': duplicate rule id"),
      (some "exec#1", none),
      (some "exec#0#0", none),
      (none, some "rule 'none': atom has no match rules")] := by
  decide +kernel

end Compilation

end TaintRules
