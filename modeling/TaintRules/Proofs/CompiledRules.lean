import TaintRules.Proofs.ReadPatterns
import TaintRules.Rule.Compile

/-!
# Where compiled rules come from

Every rule of a compiled catalog comes from a match rule of one of its atoms: it has the patterns
of the match rule, the plan that is chosen for them, and the checks that the constraints ask for.
-/

namespace TaintRules

/-- What a compiled rule takes over from the match rule that declares it. -/
structure CompiledRule.Declared (rule : CompiledRule) (declared : MatchRule) : Prop where
  patterns_eq : declared.patterns rule.ruleId = .ok rule.patterns
  generator_eq : GeneratorPlan.choose rule.ruleId rule.patterns = .ok rule.generator
  predicates_eq :
    PredicatePlan.make rule.ruleId rule.patterns rule.generator declared.args = .ok rule.predicates

/-- What the rule is recognised by. -/
def CompiledRule.identity (rule : CompiledRule) : RuleIdentity where
  ruleId := rule.ruleId
  tier := rule.tier
  patternType := rule.patternType
  patterns := rule.patterns
  steps := rule.predicates.steps

private theorem exists_of_bind {ε α β : Type} {x : Except ε α} {f : α → Except ε β} {b : β}
    (h : (x >>= f) = .ok b) : ∃ a, x = .ok a ∧ f a = .ok b := by
  cases x with
  | error e => cases h
  | ok a => exact ⟨a, rfl, h⟩

private theorem parse_of_parseField {ruleId field raw : String} {p : Pattern}
    (h : parseField ruleId field raw = .ok p) : Pattern.parse raw = .ok p := by
  unfold parseField at h
  cases hp : Pattern.parse raw with
  | error e =>
    rw [hp] at h
    cases h
  | ok q =>
    rw [hp] at h
    cases h
    rfl

/-- Each pattern of a match rule is what reading some text gives. -/
theorem MatchRule.exists_parse_of_patterns {declared : MatchRule} {ruleId : String}
    {patterns : RulePatterns} (h : declared.patterns ruleId = .ok patterns) :
    ∀ p ∈ patterns.all, ∃ raw, Pattern.parse raw = .ok p := by
  unfold MatchRule.patterns at h
  dsimp only at h
  have make {target : EntityKind} {member : String} (hm : (do
      let baseType ← declared.baseType.mapM (parseField ruleId "base_type")
      return { target, baseType, member := ← parseField ruleId target.name member }) =
      (.ok patterns : Except CompileError RulePatterns)) :
      ∀ p ∈ patterns.all, ∃ raw, Pattern.parse raw = .ok p := by
    obtain ⟨baseType, hb, hm⟩ := exists_of_bind hm
    obtain ⟨parsed, hp, hm⟩ := exists_of_bind hm
    cases hm
    intro p hm
    rcases List.mem_append.mp hm with ht | ht
    · cases hd : declared.baseType with
      | none =>
        rw [hd] at hb
        cases hb
        cases ht
      | some raw =>
        rw [hd, Option.mapM_some, map_eq_pure_bind] at hb
        obtain ⟨type, hr, he⟩ := exists_of_bind hb
        cases he
        rw [List.mem_singleton.mp ht]
        exact ⟨raw, parse_of_parseField hr⟩
    · rw [List.mem_singleton.mp ht]
      exact ⟨member, parse_of_parseField hp⟩
  split at h
  · cases h
  · exact make h
  · exact make h
  · cases h

/-- The patterns of a match rule were read. -/
theorem MatchRule.areRead_of_patterns {declared : MatchRule} {ruleId : String}
    {patterns : RulePatterns} (h : declared.patterns ruleId = .ok patterns) :
    patterns.AreRead := by
  intro p hp
  obtain ⟨raw, hr⟩ := exists_parse_of_patterns h p hp
  exact Pattern.isRead_of_parse hr

namespace Atom

/-- What a match rule at a place of an atom gives when it compiles: a rule that takes over what it
declares, in the tier of its patterns, recognised by the hash of its identity. -/
theorem exists_of_compileRule {config : ValidConfig} {atom : Atom} {index : Nat}
    {rule : CompiledRule} (h : atom.compileRule config index = .ok rule) :
    ∃ declared, atom.matchRules[index]? = some declared ∧ rule.Declared declared ∧
      (rule.tier, rule.patternType) = rule.patterns.classify declared.strategy ∧
      rule.compiledId = rule.identity.toHex ∧ rule.ruleId = atom.ruleId index ∧
      rule.atomId = atom.id := by
  unfold compileRule at h
  split at h
  · next declared hd =>
    obtain ⟨patterns, hp, h⟩ := exists_of_bind h
    obtain ⟨generator, hg, h⟩ := exists_of_bind h
    obtain ⟨predicates, hs, h⟩ := exists_of_bind h
    obtain ⟨confidence, _, h⟩ := exists_of_bind h
    obtain rfl := Except.ok.inj h
    exact ⟨declared, hd, ⟨hp, hg, hs⟩, rfl, rfl, rfl, rfl⟩
  · cases h

/-- A match rule that compiles gives the rule that it declares. -/
theorem declared_of_compileRule {config : ValidConfig} {atom : Atom} {index : Nat}
    {rule : CompiledRule} (h : atom.compileRule config index = .ok rule) :
    ∃ declared ∈ atom.matchRules, rule.Declared declared := by
  obtain ⟨declared, hd, hr, -⟩ := exists_of_compileRule h
  exact ⟨declared, List.mem_of_getElem? hd, hr⟩

/-- A match rule that compiles gives a rule of its name, which belongs to its atom. -/
theorem names_of_compileRule {config : ValidConfig} {atom : Atom} {index : Nat}
    {rule : CompiledRule} (h : atom.compileRule config index = .ok rule) :
    rule.ruleId = atom.ruleId index ∧ rule.atomId = atom.id := by
  obtain ⟨-, -, -, -, -, hn⟩ := exists_of_compileRule h
  exact hn

/-- A rule among the results of an atom is one that a match rule of the atom gives. -/
theorem exists_of_mem_compileAt {config : ValidConfig} {position : Nat} {atom : Atom}
    {rule : CompiledRule} (h : .ok rule ∈ atom.compileAt config position) :
    ∃ index, atom.compileRule config index = .ok rule := by
  unfold compileAt at h
  split at h
  · simp at h
  · split at h
    · simp at h
    · obtain ⟨index, _, hr⟩ := List.mem_map.mp h
      exact ⟨index, hr⟩

end Atom

namespace Compilation

private theorem mem_of_mem_results {config : ValidConfig} {position : Nat} {atoms : List Atom}
    {rule : CompiledRule} (h : .ok rule ∈ results config position atoms) :
    ∃ atom ∈ atoms, ∃ index, atom.compileRule config index = .ok rule := by
  induction atoms generalizing position with
  | nil => cases h
  | cons atom rest ih =>
    rw [results, List.mem_append] at h
    rcases h with h | h
    · exact ⟨atom, List.mem_cons_self, Atom.exists_of_mem_compileAt h⟩
    · obtain ⟨other, ho, hr⟩ := ih h
      exact ⟨other, List.mem_cons_of_mem _ ho, hr⟩

private theorem mem_of_mem_collect {seen : List String}
    {results : List (Except CompileError CompiledRule)} {rule : CompiledRule}
    (h : rule ∈ (collect seen results).1) : .ok rule ∈ results := by
  induction results generalizing seen with
  | nil => cases h
  | cons result rest ih =>
    cases result with
    | error e => exact List.mem_cons_of_mem _ (ih h)
    | ok first =>
      simp only [collect] at h
      split at h
      · exact List.mem_cons_of_mem _ (ih h)
      · rcases List.mem_cons.mp h with rfl | h
        · exact List.mem_cons_self
        · exact List.mem_cons_of_mem _ (ih h)

/-- Every rule of a compiled catalog is declared by a match rule of one of its atoms. -/
theorem declared_of_mem {config : ValidConfig} {atoms : List Atom} {rule : CompiledRule}
    (h : rule ∈ (ofAtoms config atoms).rules.rules) :
    ∃ atom ∈ atoms, ∃ declared ∈ atom.matchRules, rule.Declared declared := by
  have hc : rule ∈ (collect [] (results config 0 atoms)).1 := List.mem_mergeSort.mp h
  obtain ⟨atom, ha, index, hr⟩ := mem_of_mem_results (mem_of_mem_collect hc)
  exact ⟨atom, ha, Atom.declared_of_compileRule hr⟩

private theorem nodup_collect (seen : List String)
    (results : List (Except CompileError CompiledRule)) :
    ((collect seen results).1.map (·.ruleId)).Nodup ∧
      ∀ rule ∈ (collect seen results).1, rule.ruleId ∉ seen := by
  induction results generalizing seen with
  | nil => simp [collect]
  | cons result rest ih =>
    cases result with
    | error e => exact ih seen
    | ok first =>
      simp only [collect]
      split
      · exact ih seen
      · next hs =>
        have hs : first.ruleId ∉ seen := by simpa using hs
        obtain ⟨hn, hf⟩ := ih (first.ruleId :: seen)
        constructor
        · apply List.nodup_cons.mpr
          refine ⟨?_, hn⟩
          intro hm
          obtain ⟨rule, hr, he⟩ := List.mem_map.mp hm
          exact hf rule hr (by simp [he])
        · intro rule hr
          rcases List.mem_cons.mp hr with rfl | hr
          · exact hs
          · exact fun hm ↦ hf rule hr (List.mem_cons_of_mem _ hm)

/-- No two rules of a compiled catalog have one name. -/
theorem nodup_ids (config : ValidConfig) (atoms : List Atom) :
    (ofAtoms config atoms).rules.ids.Nodup := by
  have hp : (ofAtoms config atoms).rules.rules.Perm (collect [] (results config 0 atoms)).1 :=
    List.mergeSort_perm _ _
  exact (hp.map _).nodup_iff.mpr (nodup_collect [] _).1

/-- Rules that are declared in the order in which they run stay as they are. -/
theorem rules_ofAtoms_of_pairwise {config : ValidConfig} {atoms : List Atom}
    (h : (collect [] (results config 0 atoms)).1.Pairwise fun a b ↦ (a.order b).isLE) :
    (ofAtoms config atoms).rules = ⟨(collect [] (results config 0 atoms)).1⟩ :=
  congrArg RuleSet.mk (List.mergeSort_of_pairwise h)

end Compilation

end TaintRules
