import TaintRules.Proofs.Candidates
import TaintRules.Proofs.CompiledRules
import TaintRules.Proofs.FoldedPatterns
import TaintRules.Proofs.PlanChoice

/-!
# What a literal takes from a scan

A scan may ask for a literal of a general pattern before it decides the pattern. Where case does not
matter, the literal is compared in small letters and the pattern up to variants of letters. So a key
that is accepted contains the literal up to variants, and the scan misses the keys that contain it
only in another variant: a sigma that ends the literal is final, and inside a name it is not.
-/

namespace TaintRules

/-! ### Literals up to variants -/

/-- A stretch of letters is found again if no other letter is renamed like one of it. -/
theorem infix_of_infix_map {f : Char → Char} {l t : List Char}
    (hf : ∀ a ∈ l, ∀ b ∈ t, f a = f b → a = b) (h : l.map f <:+: t.map f) : l <:+: t := by
  obtain ⟨front, back, he⟩ := h
  obtain ⟨start, last, rfl, hs, -⟩ := List.map_eq_append_iff.mp he.symm
  obtain ⟨first, middle, rfl, -, hm⟩ := List.map_eq_append_iff.mp hs
  have hl : l = middle := by
    apply List.ext_getElem
    · simpa using (congrArg List.length hm).symm
    · intro i hi hj
      refine hf _ (List.getElem_mem hi) _ (by simp) ?_
      have hg := congrArg (fun letters : List Char ↦ letters[i]?) hm
      simpa [hi, hj, eq_comm] using hg
  rw [hl]
  exact ⟨first, last, rfl⟩

/-- Where case does not matter, every literal part occurs, up to variants of its small letters, in
each text that is accepted. -/
theorem Pattern.IsRead.infix_letterKey_of_acceptsFolded {p : Pattern} (h : p.IsRead)
    {text part : String} (ha : p.acceptsFolded .insensitive text = true)
    (hp : part ∈ p.literals .sensitive) :
    (Text.lowercase part).toList.map Text.letterKey <:+: text.toList.map Text.letterKey := by
  have hg : Glob ((p.textFor .insensitive).toList.map Text.letterKey)
      (text.toList.map Text.letterKey) := by
    have hs := ((h.acceptsFolded_iff .insensitive text).mp ha).2
    cases hk : p.shapeFor .insensitive with
    | general =>
      rw [hk] at hs
      exact hs
    | exact | suffix | leading | contains =>
      rw [hk] at hs
      exact hs.map Text.letterKey_eq_wildcard_iff
  obtain ⟨segment, hs, rfl⟩ := List.mem_map.mp hp
  have hm : (Text.lowerChars segment).map Text.letterKey ∈
      segments ((p.textFor .insensitive).toList.map Text.letterKey) := by
    rw [segments_map Text.letterKey_eq_wildcard_iff, h.textFor_eq, CaseMode.fold_insensitive,
      Text.toList_lowercase, segments_lowerChars]
    exact List.mem_map_of_mem (List.mem_map_of_mem (List.mem_filter.mp hs).1)
  rw [← intercalate_segments ((p.textFor .insensitive).toList.map Text.letterKey)] at hg
  rw [Text.toList_lowercase, String.toList_ofList]
  exact infix_of_glob_intercalate (fun _ ↦ wildcard_not_mem_segments) hg _ hm

/-! ### Keys by their parts -/

/-- The keys under which a table has an entity, by their parts. A name is all there is of its
key. -/
def Entity.keyParts (mode : CaseMode) (target : IndexTarget) (e : Entity) :
    List (KeyField → String) :=
  match target with
  | .typeCall => (e.typedCallKeys mode).map TypedKey.part
  | .call => (e.callKeys mode).map fun name _ ↦ name
  | .typeRead => (e.typedReadKeys mode).map TypedKey.part

/-- Whether the patterns that a table is asked for accept the parts of a key. -/
def RulePatterns.acceptsParts (mode : CaseMode) (patterns : RulePatterns) (target : IndexTarget)
    (part : KeyField → String) : Bool :=
  (GeneratorPlan.components patterns target).all fun c ↦ c.2.acceptsFolded mode (part c.1)

namespace GeneratorPlan

variable {patterns : RulePatterns} {plan : GeneratorPlan}

/-- A scan takes the entities with a key of which the patterns accept the parts and which contains
the literal of the scan. -/
theorem takes_eq_any_keyParts
    (hf : plan.target ≠ .call → plan.filtersBaseType = patterns.baseType.isSome)
    (hl : plan.lookup ≠ .exact)
    (ha : plan.target = .call → ∀ mode, plan.lookup.anchorFor mode .baseType = none)
    (mode : CaseMode) (e : Entity) :
    plan.takes mode patterns e =
      (e.keyParts mode plan.target).any fun part ↦
        (containsAnchor (plan.lookup.anchorFor mode .baseType) (part .baseType)
          && containsAnchor (plan.lookup.anchorFor mode .member) (part .member))
          && patterns.acceptsParts mode plan.target part := by
  have typed (ht : plan.target ≠ .call) :
      plan.takesKey mode patterns = fun key ↦
        (containsAnchor (plan.lookup.anchorFor mode .baseType) (key.part .baseType)
          && containsAnchor (plan.lookup.anchorFor mode .member) (key.part .member))
          && patterns.acceptsParts mode plan.target key.part := by
    funext key
    rw [takesKey, if_neg hl, run_acceptsTypedKey (hf ht), acceptsKey_eq_all patterns ht,
      RulePatterns.acceptsParts]
    rfl
  have named (ht : plan.target = .call) :
      plan.takesName mode patterns = fun name ↦
        (containsAnchor (plan.lookup.anchorFor mode .baseType) name
          && containsAnchor (plan.lookup.anchorFor mode .member) name)
          && patterns.acceptsParts mode plan.target fun _ ↦ name := by
    funext name
    rw [takesName, if_neg hl, run_acceptsName, ha ht, ht]
    simp [containsAnchor, RulePatterns.acceptsParts, components]
  unfold takes Entity.keyParts
  cases ht : plan.target with
  | call =>
    rw [named ht, ht]
    dsimp only
    rw [List.any_map]
    rfl
  | typeCall | typeRead =>
    rw [typed (by simp [ht]), ht]
    dsimp only
    rw [List.any_map]
    rfl

/-- The literal of a scan that patterns admit occurs, up to variants of its small letters, in every
key that is accepted where case does not matter. -/
theorem infix_letterKey_of_acceptsParts (hr : patterns.AreRead) (hp : plan ∈ options patterns)
    {field : KeyField} {anchor : String} (hl : plan.lookup = .literalScan field anchor)
    {part : KeyField → String}
    (ha : patterns.acceptsParts .insensitive plan.target part = true) :
    (Text.lowercase anchor).toList.map Text.letterKey <:+:
      (part field).toList.map Text.letterKey := by
  rw [(eq_of_mem_options hp).1] at hl
  obtain ⟨p, hc, hm⟩ := exists_of_lookupFor hl
  exact (isRead_of_mem_components hr hc).infix_letterKey_of_acceptsFolded
    (List.all_eq_true.mp ha _ hc) hm

/-- A scan for a literal that patterns admit takes the entities with a key that is accepted and
contains the literal. -/
theorem takes_of_literalScan (hp : plan ∈ options patterns) {field : KeyField} {anchor : String}
    (hl : plan.lookup = .literalScan field anchor) (mode : CaseMode) :
    plan.takes mode patterns = fun e ↦
      (e.keyParts mode plan.target).any fun part ↦
        occursIn (mode.fold anchor).toList (part field).toList
          && patterns.acceptsParts mode plan.target part := by
  funext e
  rw [takes_eq_any_keyParts (eq_of_mem_options hp).2.1 (by rw [hl]; nofun)
    (anchorFor_baseType_of_call hp), hl]
  cases field <;> simp [Lookup.anchorFor, containsAnchor]

/-- Without the literal, the scan takes the entities with a key that is accepted. -/
theorem takes_of_keyScan (hp : plan ∈ options patterns) (mode : CaseMode) :
    takes mode patterns { plan with lookup := .keyScan } = fun e ↦
      (e.keyParts mode plan.target).any (patterns.acceptsParts mode plan.target) := by
  have ht := @takes_eq_any_keyParts patterns { plan with lookup := .keyScan }
    (eq_of_mem_options hp).2.1 (by simp) (fun _ _ ↦ rfl) mode
  funext e
  rw [ht]
  simp [Lookup.anchorFor, containsAnchor]

end GeneratorPlan

/-! ### Compiled rules -/

/-- Whatever the matcher was asked before, the candidates of a plan are the entities it takes. -/
theorem positions_candidates {matcher : Matcher} (hm : matcher.Reached)
    (patterns : RulePatterns) (plan : GeneratorPlan) (mode : CaseMode) (batch : List Entity) :
    (plan.candidates .cached (Index.build batch mode) patterns .endless matcher).1.positions =
      batch.findIdxs (plan.takes mode patterns) := by
  have hc :=
    (gives_candidates (Index.build batch mode) patterns .endless plan matcher hm.faithful).1
  rw [hc, GeneratorPlan.candidates_eq_takes]

/-- Where case does not matter, a scan for a literal finds the entities with an accepted key that
contains the literal in small letters, and the scan without the literal all entities with an
accepted key. An accepted key contains the literal up to variants of letters, so the two scans find
the same where no letter of an accepted key is another variant of a letter of the literal. -/
theorem literalScan_positions_eq {config : ValidConfig} {atom : Atom} {place : Nat}
    {rule : CompiledRule} (hr : atom.compileRule config place = .ok rule) {field : KeyField}
    {anchor : String} (hl : rule.generator.lookup = .literalScan field anchor)
    {matcher : Matcher} (hm : matcher.Reached) (batch : List Entity) :
    let index := Index.build batch .insensitive
    let narrowed := (rule.candidates .cached index .endless matcher).1.positions
    let scanned := (GeneratorPlan.candidates .cached index rule.patterns .endless
      { rule.generator with lookup := .keyScan } matcher).1.positions
    let literal := (Text.lowercase anchor).toList
    let keys := Entity.keyParts .insensitive rule.generator.target
    let accepts := rule.patterns.acceptsParts .insensitive rule.generator.target
    narrowed = batch.findIdxs (fun e ↦ (keys e).any fun part ↦
        occursIn literal (part field).toList && accepts part) ∧
      scanned = batch.findIdxs (fun e ↦ (keys e).any accepts) ∧
      (∀ part, accepts part = true →
        literal.map Text.letterKey <:+: (part field).toList.map Text.letterKey) ∧
      ((∀ e ∈ batch, ∀ part ∈ keys e, accepts part = true →
          ∀ a ∈ literal, ∀ b ∈ (part field).toList, Text.letterKey a = Text.letterKey b → a = b) →
        narrowed = scanned) := by
  intro index narrowed scanned literal keys accepts
  obtain ⟨declared, -, hd⟩ := Atom.declared_of_compileRule hr
  have hp := (GeneratorPlan.mem_options_of_choose hd.generator_eq).1
  have hn : narrowed = batch.findIdxs (fun e ↦ (keys e).any fun part ↦
      occursIn literal (part field).toList && accepts part) := by
    have hc := positions_candidates hm rule.patterns rule.generator .insensitive batch
    rw [GeneratorPlan.takes_of_literalScan hp hl, CaseMode.fold_insensitive] at hc
    exact hc
  have hs : scanned = batch.findIdxs (fun e ↦ (keys e).any accepts) := by
    have hc := positions_candidates hm rule.patterns { rule.generator with lookup := .keyScan }
      .insensitive batch
    rw [GeneratorPlan.takes_of_keyScan hp] at hc
    exact hc
  have hv (part : KeyField → String) (ha : accepts part = true) :
      literal.map Text.letterKey <:+: (part field).toList.map Text.letterKey :=
    GeneratorPlan.infix_letterKey_of_acceptsParts
      (MatchRule.areRead_of_patterns hd.patterns_eq) hp hl ha
  refine ⟨hn, hs, hv, fun hf ↦ ?_⟩
  rw [hn, hs, findIdxs_eq_findIdxs_iff]
  intro e he
  rw [Bool.eq_iff_iff, List.any_eq_true, List.any_eq_true]
  refine exists_congr fun part ↦ and_congr_right fun hk ↦ ?_
  rw [Bool.and_eq_true, occursIn_iff, and_iff_right_iff_imp]
  intro ha
  exact infix_of_infix_map (hf e he part hk ha) (hv part ha)

/-! ### A sigma inside a word -/

/-- A sink whose name has a literal that ends in a sigma. -/
def sigmaAtom : Atom where
  id := "sigma"
  kind := .sink
  matchRules := [{ call := some "a*ΑΣ*b" }]

/-- A call whose name contains the literal as it is written, with a letter behind the sigma. -/
def sigmaCall : Entity := .call { id := "call", call := "aΑΣΑb" }

/-- The literal is in the name, and yet the scan for it misses the call where case does not matter;
the scan without the literal finds the call. -/
theorem literalScan_misses_inner_sigma :
    ∃ rule, sigmaAtom.compileRule (.ofPreset .thorough) 0 = .ok rule ∧
      rule.generator.lookup = .literalScan .member "ΑΣ" ∧
      (rule.candidates .cached (Index.build [sigmaCall] .insensitive) .endless
        (.new 1)).1.positions = [] ∧
      (GeneratorPlan.candidates .cached (Index.build [sigmaCall] .insensitive) rule.patterns
        .endless { rule.generator with lookup := .keyScan } (.new 1)).1.positions = [0] ∧
      (rule.candidates .cached (Index.build [sigmaCall] .sensitive) .endless (.new 1)).1.positions =
        [0] := by
  have hc : ((sigmaAtom.compileRule (.ofPreset .thorough) 0).toOption.map fun rule ↦
      (rule.generator.target, rule.generator.lookup, rule.patterns)) =
        some (.call, .literalScan .member "ΑΣ", ⟨.call, none, .ofText "a*ΑΣ*b"⟩) := by
    decide +kernel
  have hs : ((sigmaAtom.compileRule (.ofPreset .thorough) 0).toOption.map fun rule ↦
      (rule.candidates .cached (Index.build [sigmaCall] .sensitive) .endless
        (.new 1)).1.positions) = some [0] := by
    decide +kernel
  cases hr : sigmaAtom.compileRule (.ofPreset .thorough) 0 with
  | error e =>
    rw [hr] at hc
    cases hc
  | ok rule =>
    rw [hr] at hc hs
    obtain ⟨ht, hl, hp⟩ := by
      simpa only [Except.toOption, Option.map_some, Option.some.injEq, Prod.mk.injEq] using hc
    obtain ⟨hn, hk, -, -⟩ := literalScan_positions_eq hr hl (.new 1) [sigmaCall]
    refine ⟨rule, rfl, hl, ?_, ?_, Option.some.inj hs⟩
    · rw [hn, ht, hp]
      decide +kernel
    · rw [hk, ht, hp]
      decide +kernel

end TaintRules
