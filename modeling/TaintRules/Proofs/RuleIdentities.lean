import TaintRules.Proofs.ByteEncoding
import TaintRules.Proofs.CompiledRules
import TaintRules.Proofs.JsonText
import TaintRules.Run.Check

/-!
# What the identity of a rule tells

The bytes that are hashed for a rule are texts with their lengths, and after them the checks in
compact form. From these bytes everything can be read back that decides what the rule matches. A
missing type counts as the empty text, which no pattern has.
-/

namespace TaintRules

/-! ### Hexadecimal digits -/

namespace Bytes

private theorem digitChar_inj : ∀ m, m < 16 → ∀ n, n < 16 →
    Nat.digitChar m = Nat.digitChar n → m = n := by
  decide

/-- The digits determine the bytes. -/
theorem hex_inj {a b : List UInt8} (h : hex a = hex b) : a = b := by
  have hl := String.ofList_injective h
  clear h
  induction a generalizing b with
  | nil =>
    cases b with
    | nil => rfl
    | cons y b => cases hl
  | cons x a ih =>
    cases b with
    | nil => cases hl
    | cons y b =>
      rw [List.flatMap_cons, List.flatMap_cons] at hl
      obtain ⟨hd, ht⟩ := List.append_inj hl rfl
      obtain ⟨hhigh, hd⟩ := List.cons.inj hd
      obtain ⟨hlow, -⟩ := List.cons.inj hd
      have hx := x.toNat_lt
      have hy := y.toNat_lt
      have h1 := digitChar_inj _ (by omega) _ (by omega) hhigh
      have h2 := digitChar_inj _ (by omega) _ (by omega) hlow
      have hxy : x = y := UInt8.toNat_inj.mp (by omega)
      rw [hxy, ih ht]

end Bytes

/-! ### The checks can be read back -/

open Json

/-- A shape is written without doubles. -/
theorem Shape.isExact_toJson (shape : Shape) : shape.toJson.IsExact := by
  cases shape <;> simp [Shape.toJson, Shape.literal?, Json.field?, IsExact, FieldsAreExact]

/-- A shape can be read back. -/
@[simp] theorem Shape.asRead_toJson_inj {a b : Shape} :
    a.toJson.asRead = b.toJson.asRead ↔ a = b := by
  -- the names are compared before anything else can rewrite the comparison
  cases a <;> cases b <;>
    simp only [Shape.toJson, Shape.name, Shape.literal?, Json.field?, Option.map_none,
      Option.map_some, Option.toList_none, Option.toList_some, List.append_nil, List.cons_append,
      List.nil_append, asRead, fieldsAsRead, setField, String.reduceEq, String.reduceLT,
      reduceIte] <;>
    simp

/-- A pattern is written without doubles. -/
theorem Pattern.isExact_toJson (p : Pattern) : p.toJson.IsExact := by
  simp [Pattern.toJson, IsExact, FieldsAreExact, Shape.isExact_toJson]

/-- A pattern can be read back. -/
@[simp] theorem Pattern.asRead_toJson_inj {a b : Pattern} :
    a.toJson.asRead = b.toJson.asRead ↔ a = b := by
  cases a
  cases b
  simp only [Pattern.toJson, asRead, fieldsAsRead, setField, String.reduceEq, String.reduceLT,
    reduceIte]
  simp [and_comm, and_left_comm, and_assoc]

/-- A check is written without doubles. -/
theorem Predicate.isExact_toJson (step : Predicate) : step.toJson.IsExact := by
  cases step <;>
    simp [Predicate.toJson, IsExact, FieldsAreExact, Pattern.isExact_toJson, isExact_word]

/-- A check can be read back. -/
theorem Predicate.asRead_toJson_inj {a b : Predicate} :
    a.toJson.asRead = b.toJson.asRead ↔ a = b := by
  cases a <;> cases b <;>
    simp only [Predicate.toJson, Predicate.name, asRead, fieldsAsRead, setField, String.reduceEq,
      String.reduceLT, reduceIte] <;>
    simp [and_comm]

/-! ### The bytes of a rule -/

theorem Tier.name_inj {a b : Tier} (h : a.name = b.name) : a = b := by
  cases a <;> cases b <;> simp_all [Tier.name]

theorem PatternType.name_inj {a b : PatternType} (h : a.name = b.name) : a = b := by
  cases a <;> cases b <;> simp_all [PatternType.name]

theorem EntityKind.name_inj {a b : EntityKind} (h : a.name = b.name) : a = b := by
  cases a <;> cases b <;> simp_all [EntityKind.name]

/-- The text of a pattern that was read determines it. -/
theorem Pattern.IsRead.eq_of_raw {a b : Pattern} (ha : a.IsRead) (hb : b.IsRead)
    (h : a.raw = b.raw) : a = b := by
  rw [ha.eq_ofText, hb.eq_ofText, h]

/-- A missing pattern is told apart from one that was read. -/
theorem Pattern.IsRead.eq_of_getD {a b : Option Pattern} (ha : ∀ p ∈ a, p.IsRead)
    (hb : ∀ p ∈ b, p.IsRead) (h : (a.map (·.raw)).getD "" = (b.map (·.raw)).getD "") : a = b := by
  cases a with
  | none =>
    cases b with
    | none => rfl
    | some q => exact absurd h.symm (hb q rfl).raw_ne
  | some p =>
    cases b with
    | none => exact absurd h (ha p rfl).raw_ne
    | some q => exact congrArg some ((ha p rfl).eq_of_raw (hb q rfl) h)

namespace RuleIdentity

variable {a b : RuleIdentity}

/-- The compact form of the checks determines them. -/
theorem steps_eq_of_stepsText (h : a.stepsText = b.stepsText) : a.steps = b.steps := by
  have exact (steps : List Predicate) : (Json.array (steps.map (·.toJson))).IsExact := by
    simp [IsExact, areExact_iff, Predicate.isExact_toJson]
  have hr := asRead_eq_of_write_eq (exact a.steps) (exact b.steps) h
  rw [asRead, asRead, itemsAsRead_eq_map, itemsAsRead_eq_map, List.map_map, List.map_map,
    array.injEq] at hr
  exact (List.map_inj_right fun _ _ ↦ Predicate.asRead_toJson_inj.mp).mp hr

/-- The bytes determine what a rule is recognised by, if lengths fit into eight bytes and the
patterns were read. -/
theorem encode_inj (ha : a.patterns.AreRead) (hb : b.patterns.AreRead)
    (hsa : ∀ part ∈ a.parts, Bytes.IsSized part) (hsb : ∀ part ∈ b.parts, Bytes.IsSized part)
    (h : a.encode = b.encode) : a = b := by
  have hlength : a.parts.length = b.parts.length := rfl
  obtain ⟨hparts, hbytes⟩ := Bytes.selfDelimiting_sized.flatMap hlength hsa hsb h
  have hsteps := steps_eq_of_stepsText (Bytes.utf8_inj hbytes)
  simp only [parts, List.cons.injEq, and_true] at hparts
  obtain ⟨hid, htier, htype, htarget, hbase, hmember⟩ := hparts
  have htier := Tier.name_inj htier
  have htype := PatternType.name_inj htype
  have htarget := EntityKind.name_inj htarget
  have hbase := Pattern.IsRead.eq_of_getD
    (fun p hp ↦ ha p (List.mem_append_left _ (Option.mem_toList.mpr hp)))
    (fun p hp ↦ hb p (List.mem_append_left _ (Option.mem_toList.mpr hp))) hbase
  have hmember := (ha _ (List.mem_append_right _ (List.mem_singleton_self _))).eq_of_raw
    (hb _ (List.mem_append_right _ (List.mem_singleton_self _))) hmember
  obtain ⟨ruleId, tier, patternType, ⟨target, baseType, member⟩, steps⟩ := a
  obtain ⟨ruleId', tier', patternType', ⟨target', baseType', member'⟩, steps'⟩ := b
  simp_all

end RuleIdentity

/-! ### Rules with one identity -/

namespace CompiledRule

variable {a b : CompiledRule}

/-- What two rules of one identity have in common. -/
theorem identity_eq_iff :
    a.identity = b.identity ↔
      a.ruleId = b.ruleId ∧ a.tier = b.tier ∧ a.patternType = b.patternType ∧
        a.patterns.target = b.patterns.target ∧ a.patterns.baseType = b.patterns.baseType ∧
        a.patterns.member = b.patterns.member ∧ a.predicates.steps = b.predicates.steps := by
  have hp : a.patterns = b.patterns ↔ a.patterns.target = b.patterns.target ∧
      a.patterns.baseType = b.patterns.baseType ∧ a.patterns.member = b.patterns.member := by
    cases a.patterns
    cases b.patterns
    simp
  simp only [identity, RuleIdentity.mk.injEq, hp, and_assoc]

/-- The plan for candidates is chosen by name and patterns alone. -/
theorem Declared.generator_unique {declared other : MatchRule} (ha : a.Declared declared)
    (hb : b.Declared other) (hid : a.ruleId = b.ruleId) (hp : a.patterns = b.patterns) :
    a.generator = b.generator := by
  have hg := ha.generator_eq
  rw [hid, hp, hb.generator_eq] at hg
  exact (Except.ok.inj hg).symm

/-- One match rule declares one identity under a name. -/
theorem Declared.identity_unique {declared : MatchRule} (ha : a.Declared declared)
    (hb : b.Declared declared) (hid : a.ruleId = b.ruleId)
    (hta : (a.tier, a.patternType) = a.patterns.classify declared.strategy)
    (htb : (b.tier, b.patternType) = b.patterns.classify declared.strategy) :
    a.identity = b.identity := by
  have hpatterns : a.patterns = b.patterns := by
    have hp := ha.patterns_eq
    rw [hid, hb.patterns_eq] at hp
    exact (Except.ok.inj hp).symm
  have hpredicates : a.predicates = b.predicates := by
    have hp := ha.predicates_eq
    rw [hid, hpatterns, ha.generator_unique hb hid hpatterns, hb.predicates_eq] at hp
    exact (Except.ok.inj hp).symm
  rw [hpatterns, ← htb, Prod.mk.injEq] at hta
  rw [identity, identity, hid, hta.1, hta.2, hpatterns, hpredicates]

variable {config other : ValidConfig} {atom second : Atom} {index place : Nat}

/-- The identity of a rule, and with it the hash, says all about what the rule matches and nothing
about how matches are scored. The bytes that are hashed are equal exactly if name, tier, type of
patterns, target, patterns and checks are. Unless the hash collides on them, rules with one hash
have the same candidates and check them alike. A match rule has one hash under all
configurations. -/
theorem compiledId_identifies (ha : atom.compileRule config index = .ok a)
    (hb : second.compileRule other place = .ok b)
    (hsa : ∀ part ∈ a.identity.parts, Bytes.IsSized part)
    (hsb : ∀ part ∈ b.identity.parts, Bytes.IsSized part) :
    a.compiledId = Bytes.hex (Blake3.hash a.identity.encode) ∧
    b.compiledId = Bytes.hex (Blake3.hash b.identity.encode) ∧
    (a.identity.encode = b.identity.encode ↔
      a.ruleId = b.ruleId ∧ a.tier = b.tier ∧ a.patternType = b.patternType ∧
        a.patterns.target = b.patterns.target ∧ a.patterns.baseType = b.patterns.baseType ∧
        a.patterns.member = b.patterns.member ∧ a.predicates.steps = b.predicates.steps) ∧
    ((Blake3.hash a.identity.encode = Blake3.hash b.identity.encode →
        a.identity.encode = b.identity.encode) →
      a.compiledId = b.compiledId →
        (∀ (m : Type → Type) [Monad m] (decide : Decider m) (index : Index) (timer : Timer),
          a.candidates decide index timer = b.candidates decide index timer) ∧
        ∀ (m : Type → Type) [Monad m] (decide : Decider m) (mode : CaseMode) (entity : Entity),
          a.predicates.evaluate decide mode entity = b.predicates.evaluate decide mode entity) ∧
    ∀ (changed : ValidConfig) (c : CompiledRule), atom.compileRule changed index = .ok c →
      c.compiledId = a.compiledId := by
  obtain ⟨da, hma, hda, hta, hia, hna, -⟩ := Atom.exists_of_compileRule ha
  obtain ⟨db, -, hdb, -, hib, -⟩ := Atom.exists_of_compileRule hb
  have hinj (h : a.identity.encode = b.identity.encode) : a.identity = b.identity :=
    RuleIdentity.encode_inj (MatchRule.areRead_of_patterns hda.patterns_eq)
      (MatchRule.areRead_of_patterns hdb.patterns_eq) hsa hsb h
  refine ⟨hia, hib, ?_, ?_, ?_⟩
  · rw [← identity_eq_iff]
    exact ⟨hinj, congrArg RuleIdentity.encode⟩
  · intro hapart hid
    rw [hia, hib] at hid
    have h := hinj (hapart (Bytes.hex_inj hid))
    have hp : a.patterns = b.patterns := congrArg RuleIdentity.patterns h
    have hs : a.predicates.steps = b.predicates.steps := congrArg RuleIdentity.steps h
    have hg := hda.generator_unique hdb (congrArg RuleIdentity.ruleId h) hp
    refine ⟨fun m _ decide index timer ↦ ?_, fun m _ decide mode entity ↦ ?_⟩
    · rw [candidates, candidates, hg, hp]
    · rw [PredicatePlan.evaluate, PredicatePlan.evaluate, hs]
  · intro changed c hc
    obtain ⟨dc, hmc, hdc, htc, hic, hnc, -⟩ := Atom.exists_of_compileRule hc
    obtain rfl : dc = da := Option.some.inj (hmc.symm.trans hma)
    rw [hic, hia, hdc.identity_unique hda (hnc.trans hna.symm) htc hta]

/-- Two match rules for one name, the second of which wants a type. -/
def shellAtom : Atom where
  id := "shell"
  kind := .sink
  matchRules := [{ call := some "system" }, { baseType := some "os", call := some "system" }]

/-- The two rules have different bytes, and the first one the same hash under another
configuration. -/
theorem compiledId_identifies_shell :
    ∃ a b c, shellAtom.compileRule (.ofPreset .balanced) 0 = .ok a ∧
      shellAtom.compileRule (.ofPreset .balanced) 1 = .ok b ∧
      shellAtom.compileRule (.ofPreset .thorough) 0 = .ok c ∧
      a.identity.encode ≠ b.identity.encode ∧ c.compiledId = a.compiledId := by
  have compiles (config : ValidConfig) (index : Nat)
      (h : (shellAtom.compileRule config index).toOption.any (fun rule ↦
        rule.identity.parts.all fun part ↦ (Bytes.utf8 part).length < UInt64.size) = true) :
      ∃ rule, shellAtom.compileRule config index = .ok rule ∧
        ∀ part ∈ rule.identity.parts, Bytes.IsSized part := by
    cases hr : shellAtom.compileRule config index with
    | error e =>
      rw [hr] at h
      cases h
    | ok rule =>
      rw [hr] at h
      simpa [Except.toOption, Bytes.IsSized, Bytes.IsWord] using h
  obtain ⟨a, ha, hsa⟩ := compiles (.ofPreset .balanced) 0 (by decide +kernel)
  obtain ⟨b, hb, hsb⟩ := compiles (.ofPreset .balanced) 1 (by decide +kernel)
  obtain ⟨c, hc, -⟩ := compiles (.ofPreset .thorough) 0 (by decide +kernel)
  obtain ⟨-, -, hencode, -, hconfig⟩ := compiledId_identifies ha hb hsa hsb
  refine ⟨a, b, c, ha, hb, hc, ?_, hconfig _ c hc⟩
  intro h
  have hid := (hencode.mp h).1
  rw [(Atom.names_of_compileRule ha).1, (Atom.names_of_compileRule hb).1] at hid
  exact absurd hid (by decide)

end CompiledRule

end TaintRules
