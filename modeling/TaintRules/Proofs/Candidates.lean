import Mathlib.Data.List.Sort
import TaintRules.Proofs.IndexTables
import TaintRules.Proofs.PlainRun
import TaintRules.Proofs.ReadPatterns

/-!
# Which candidates a plan finds

A plan finds an entity exactly if the patterns accept one of the keys under which the table of the
plan has it. It makes no difference whether the table is asked by a full key or scanned, nor, where
case matters, whether a literal narrows the scan; sorting puts what is found into the order of the
batch.
-/

namespace TaintRules

/-! ### Positions in order -/

private theorem eraseRepsBy_loop (a : Nat) (l acc : List Nat) :
    List.eraseRepsBy.loop (· == ·) a l acc = acc.reverse ++ (a :: l).eraseReps := by
  change _ = acc.reverse ++ List.eraseRepsBy.loop (· == ·) a l []
  induction l generalizing a acc with
  | nil => simp [List.eraseRepsBy.loop]
  | cons b l ih =>
    simp only [List.eraseRepsBy.loop]
    split
    · exact ih a acc
    · rw [ih b (a :: acc), ih b [a]]
      simp

private theorem eraseReps_cons_cons (a b : Nat) (l : List Nat) :
    (a :: b :: l).eraseReps = if a = b then (b :: l).eraseReps else a :: (b :: l).eraseReps := by
  change List.eraseRepsBy.loop (· == ·) a (b :: l) [] = _
  simp only [List.eraseRepsBy.loop]
  split
  · next h =>
    rw [beq_iff_eq] at h
    rw [h, if_pos rfl]
    rfl
  · next h =>
    rw [if_neg (ne_of_beq_false h), eraseRepsBy_loop]
    rfl

theorem mem_eraseReps {i : Nat} {l : List Nat} : i ∈ l.eraseReps ↔ i ∈ l := by
  induction l with
  | nil => exact Iff.rfl
  | cons a l ih =>
    cases l with
    | nil => exact Iff.rfl
    | cons b l =>
      rw [eraseReps_cons_cons]
      split
      · next h =>
        rw [ih, h]
        simp
      · rw [List.mem_cons, ih, ← List.mem_cons]

private theorem pairwise_eraseReps {l : List Nat} (h : l.Pairwise (· ≤ ·)) :
    l.eraseReps.Pairwise (· < ·) := by
  induction l with
  | nil => exact .nil
  | cons a l ih =>
    cases l with
    | nil => exact List.pairwise_singleton _ _
    | cons b l =>
      obtain ⟨ha, hl⟩ := List.pairwise_cons.mp h
      rw [eraseReps_cons_cons]
      split
      · exact ih hl
      · next hne =>
        refine List.pairwise_cons.mpr ⟨fun i hi ↦ ?_, ih hl⟩
        have hab : a < b := Nat.lt_of_le_of_ne (ha b List.mem_cons_self) hne
        rcases List.mem_cons.mp (mem_eraseReps.mp hi) with rfl | hi
        · exact hab
        · exact Nat.lt_of_lt_of_le hab ((List.pairwise_cons.mp hl).1 i hi)

/-- Positions that were found in any order are, sorted and each once, those of the batch. -/
theorem eraseReps_mergeSort {α : Type} {items : List α} {test : α → Bool} {positions : List Nat}
    (h : ∀ i, i ∈ positions ↔ i ∈ items.findIdxs test) :
    (positions.mergeSort (· ≤ ·)).eraseReps = items.findIdxs test := by
  have hs : (positions.mergeSort (· ≤ ·)).Pairwise (· ≤ ·) :=
    List.pairwise_mergeSort' (· ≤ ·) positions
  refine (pairwise_eraseReps hs).eq_of_mem_iff List.pairwise_findIdxs fun i ↦ ?_
  rw [mem_eraseReps, List.mem_mergeSort, h]

/-- Two tests find the same positions exactly if they agree on all items. -/
theorem findIdxs_eq_findIdxs_iff {α : Type} {items : List α} {test other : α → Bool} :
    items.findIdxs test = items.findIdxs other ↔ ∀ item ∈ items, test item = other item := by
  constructor
  · intro h item hm
    obtain ⟨i, hi, rfl⟩ := List.getElem_of_mem hm
    rw [Bool.eq_iff_iff, ← List.mem_findIdxs_iff_pos_getElem hi, h,
      List.mem_findIdxs_iff_pos_getElem hi]
  · intro h
    refine List.pairwise_findIdxs.eq_of_mem_iff List.pairwise_findIdxs fun i ↦ ?_
    simp only [List.mem_findIdxs_iff_exists_getElem_pos]
    refine exists_congr fun hi ↦ ?_
    rw [h _ (List.getElem_mem hi)]

/-! ### Scans -/

section Scan

variable {κ α : Type} [DecidableEq κ]

omit [DecidableEq κ] in
/-- A key is tested after a reading in time. -/
theorem scanKeys_cons {timer next : Timer} (h : timer.read = some next) (test : κ → Id Bool)
    (entry : κ × List Nat) (rest : List (κ × List Nat)) :
    Id.run (scanKeys test timer (entry :: rest)) =
      let found := Id.run (scanKeys test next rest)
      if Id.run (test entry.1) then { found with positions := entry.2 ++ found.positions }
      else found := by
  rw [scanKeys, h]
  rfl

omit [DecidableEq κ] in
private theorem scanKeys_endless (test : κ → Id Bool) (entries : List (κ × List Nat)) :
    Id.run (scanKeys test .endless entries) =
      ⟨entries.flatMap fun entry ↦ if Id.run (test entry.1) then entry.2 else [],
        false, .endless⟩ := by
  induction entries with
  | nil => rfl
  | cons entry rest ih =>
    rw [scanKeys_cons rfl, ih, List.flatMap_cons]
    split <;> rfl

/-- Scanning a table finds the items that have a key which passes the test. -/
theorem Postings.Holds.mem_scan {postings : Postings κ} {keysOf : α → List κ}
    {items : List α} (h : postings.Holds keysOf items) (test : κ → Bool) (i : Nat) :
    i ∈ (postings.entries.flatMap fun entry ↦ if test entry.1 then entry.2 else []) ↔
      i ∈ items.findIdxs fun item ↦ (keysOf item).any test := by
  simp only [List.mem_flatMap, List.mem_ite_nil_right, List.mem_findIdxs_iff_exists_getElem_pos,
    List.any_eq_true]
  constructor
  · rintro ⟨⟨key, positions⟩, he, ht, hi⟩
    rw [← h.distinct.query_eq he, h.query_eq, List.mem_findIdxs_iff_exists_getElem_pos] at hi
    obtain ⟨hl, hk⟩ := hi
    exact ⟨hl, key, of_decide_eq_true hk, ht⟩
  · rintro ⟨hl, key, hk, ht⟩
    have hq : i ∈ postings.query key := by
      rw [h.query_eq, List.mem_findIdxs_iff_exists_getElem_pos]
      exact ⟨hl, decide_eq_true hk⟩
    obtain ⟨positions, he, hi⟩ := Postings.mem_entries_of_mem_query hq
    exact ⟨(key, positions), he, ht, hi⟩

/-- What is found in time is at the positions of the items that pass a test. -/
structure Finds (found : Id Candidates) (items : List α) (test : α → Bool) : Prop where
  timedOut_eq : found.run.timedOut = false
  timer_eq : found.run.timer = .endless
  mem_iff : ∀ i, i ∈ found.run.positions ↔ i ∈ items.findIdxs test

/-- Scanning a table in time finds the items that have a key which passes the test. -/
theorem Postings.Holds.finds_scan {postings : Postings κ} {keysOf : α → List κ} {items : List α}
    (h : postings.Holds keysOf items) (test : κ → Bool) :
    Finds (postings.scan (m := Id) .endless test) items fun item ↦ (keysOf item).any test := by
  unfold Postings.scan
  constructor
  · rw [scanKeys_endless]
  · rw [scanKeys_endless]
  · rw [scanKeys_endless]
    exact h.mem_scan test

/-- Asking a table for the one key that passes a test finds the items that have such a key. -/
theorem Postings.Holds.finds_query {postings : Postings κ} {keysOf : α → List κ} {items : List α}
    (h : postings.Holds keysOf items) {test : κ → Bool} {key : κ}
    (ht : ∀ other, test other = true ↔ other = key) :
    Finds (pure ⟨postings.query key, false, .endless⟩) items fun item ↦ (keysOf item).any test := by
  have he (item : α) : decide (key ∈ keysOf item) = (keysOf item).any test := by
    rw [Bool.eq_iff_iff, List.any_eq_true, decide_eq_true_iff]
    simp only [ht, exists_eq_right]
  refine ⟨rfl, rfl, fun i ↦ ?_⟩
  rw [Id.run_pure, h.query_eq]
  simp only [he]

end Scan

/-! ### Anchors -/

namespace Lookup

/-- The lookup wants no literal in any part of the key. -/
def HasNoAnchor (lookup : Lookup) : Prop := ∀ field anchor, lookup ≠ .literalScan field anchor

/-- A lookup without a literal narrows nothing. -/
theorem HasNoAnchor.containsAnchor {lookup : Lookup} (h : lookup.HasNoAnchor) (mode : CaseMode)
    (field : KeyField) (text : String) :
    containsAnchor (lookup.anchorFor mode field) text = true := by
  cases lookup with
  | literalScan field anchor => exact absurd rfl (h field anchor)
  | exact | keyScan => rfl

end Lookup

private theorem mem_of_foldl {α : Type} {choose : Option α → α → Option α}
    (hc : ∀ best next, choose best next = best ∨ choose best next = some next) {items : List α}
    {best : Option α} {item : α} (h : items.foldl choose best = some item) :
    item ∈ items ∨ best = some item := by
  induction items generalizing best with
  | nil => exact .inr h
  | cons next items ih =>
    rcases ih h with hm | hb
    · exact .inl (List.mem_cons_of_mem _ hm)
    · rcases hc best next with he | he
      · exact .inr (he ▸ hb)
      · rw [he] at hb
        exact .inl (by simp [Option.some.inj hb])

namespace Pattern

private theorem longer_eq (best : Option String) (next : String) :
    longer best next = best ∨ longer best next = some next := by
  unfold longer
  split
  · split
    · exact .inl rfl
    · exact .inr rfl
  · exact .inr rfl

/-- The longest literal is one of the literals. -/
theorem mem_literals_of_longestLiteral? {p : Pattern} {mode : CaseMode} {part : String}
    (h : p.longestLiteral? mode = some part) : part ∈ p.literals mode := by
  rcases mem_of_foldl longer_eq h with hm | hb
  · exact hm
  · cases hb

end Pattern

namespace GeneratorPlan

/-- Of two anchors one is kept. -/
theorem longerAnchor_eq (best : Option (KeyField × String)) (next : KeyField × String) :
    longerAnchor best next = best ∨ longerAnchor best next = some next := by
  unfold longerAnchor
  split
  · split
    · exact .inl rfl
    · exact .inr rfl
  · exact .inr rfl

/-- An anchor is a literal of one of the general patterns, with the part of the key that this
pattern is for. -/
theorem exists_of_anchor? {components : List (KeyField × Pattern)} {field : KeyField}
    {anchor : String} (h : anchor? components = some (field, anchor)) :
    ∃ p, (field, p) ∈ components ∧ p.shape = .general ∧ anchor ∈ p.literals .sensitive := by
  rcases mem_of_foldl longerAnchor_eq h with hm | hb
  · obtain ⟨⟨other, p⟩, hc, hp⟩ := List.mem_filterMap.mp hm
    dsimp only at hp
    split at hp
    · next hs =>
      obtain ⟨part, hl, he⟩ := Option.map_eq_some_iff.mp hp
      cases he
      exact ⟨p, hc, hs, Pattern.mem_literals_of_longestLiteral? hl⟩
    · cases hp
  · cases hb

/-- The literal of a lookup comes from one of the patterns that it is for. -/
theorem exists_of_lookupFor {target : IndexTarget} {components : List (KeyField × Pattern)}
    {field : KeyField} {anchor : String}
    (h : lookupFor target components = .literalScan field anchor) :
    ∃ p, (field, p) ∈ components ∧ anchor ∈ p.literals .sensitive := by
  have hs : scanLookup components = .literalScan field anchor := by
    unfold lookupFor at h
    split at h
    · exact h
    · split at h
      · cases h
      · exact h
  unfold scanLookup at hs
  split at hs
  · next other literal ha =>
    cases hs
    obtain ⟨p, hc, _, hl⟩ := exists_of_anchor? ha
    exact ⟨p, hc, hl⟩
  · cases hs

/-- A literal narrows nothing where case matters: it occurs in every part that its pattern
accepts. -/
theorem containsAnchor_of_accepts {mode : CaseMode} {target : IndexTarget}
    {components : List (KeyField × Pattern)} (hr : ∀ c ∈ components, c.2.IsRead)
    (hm : mode = .sensitive ∨ (lookupFor target components).HasNoAnchor)
    (part : KeyField → String)
    (ha : ∀ c ∈ components, c.2.acceptsFolded mode (part c.1) = true) (field : KeyField) :
    containsAnchor ((lookupFor target components).anchorFor mode field) (part field) = true := by
  rcases hm with rfl | hn
  · cases hl : lookupFor target components with
    | exact | keyScan => rfl
    | literalScan other anchor =>
      rw [Lookup.anchorFor]
      split
      · next he =>
        subst he
        obtain ⟨p, hc, hp⟩ := exists_of_lookupFor hl
        exact (hr _ hc).occursIn_of_acceptsFolded (ha _ hc) hp
      · rfl
  · exact hn.containsAnchor mode field (part field)

end GeneratorPlan

/-! ### Plans -/

/-- The part of a key. -/
def TypedKey.part (key : TypedKey) : KeyField → String
  | .baseType => key.baseType
  | .member => key.member

/-- Whether the patterns accept a type and a name that are already folded. -/
def RulePatterns.acceptsKey (mode : CaseMode) (patterns : RulePatterns) (key : TypedKey) : Bool :=
  patterns.baseType.all (·.acceptsFolded mode key.baseType)
    && patterns.member.acceptsFolded mode key.member

namespace GeneratorPlan

/-- Whether the patterns accept a key under which the table of the plan has an entity. -/
def reaches (mode : CaseMode) (patterns : RulePatterns) (plan : GeneratorPlan) (e : Entity) :
    Bool :=
  match plan.target with
  | .typeCall => (e.typedCallKeys mode).any (patterns.acceptsKey mode)
  | .call => (e.callKeys mode).any (patterns.member.acceptsFolded mode)
  | .typeRead => (e.typedReadKeys mode).any (patterns.acceptsKey mode)

/-- Whether the lookup of a plan takes a type and a name that are already folded. -/
def takesKey (mode : CaseMode) (patterns : RulePatterns) (plan : GeneratorPlan)
    (key : TypedKey) : Bool :=
  if plan.lookup = .exact then
    key = .fold mode ((patterns.baseType.map (·.raw)).getD "") patterns.member.raw
  else Id.run (acceptsTypedKey .plain mode patterns plan key)

/-- Whether the lookup of a plan takes a name that is already folded. -/
def takesName (mode : CaseMode) (patterns : RulePatterns) (plan : GeneratorPlan)
    (name : String) : Bool :=
  if plan.lookup = .exact then name = mode.fold patterns.member.raw
  else Id.run (acceptsName .plain mode patterns plan.lookup name)

/-- Whether the lookup of a plan takes a key under which its table has an entity. -/
def takes (mode : CaseMode) (patterns : RulePatterns) (plan : GeneratorPlan) (e : Entity) : Bool :=
  match plan.target with
  | .typeCall => (e.typedCallKeys mode).any (plan.takesKey mode patterns)
  | .call => (e.callKeys mode).any (plan.takesName mode patterns)
  | .typeRead => (e.typedReadKeys mode).any (plan.takesKey mode patterns)

/-- The patterns that a table is asked for, with the parts of its keys. -/
def components (patterns : RulePatterns) : IndexTarget → List (KeyField × Pattern)
  | .call => [(.member, patterns.member)]
  | .typeCall | .typeRead =>
    patterns.baseType.toList.map (.baseType, ·) ++ [(.member, patterns.member)]

variable {patterns : RulePatterns} {plan : GeneratorPlan}

/-- Any plan finds the entities that it takes, whatever patterns it was made for. -/
theorem finds_find (patterns : RulePatterns) (plan : GeneratorPlan) (mode : CaseMode)
    (batch : List Entity) :
    Finds (plan.find .plain (Index.build batch mode) patterns .endless) batch
      (plan.takes mode patterns) := by
  have calls := Index.holds_call batch mode
  have typedCalls := Index.holds_typeCall batch mode
  have typedReads := Index.holds_typeRead batch mode
  have exactKey (hl : plan.lookup = .exact) (key : TypedKey) :
      plan.takesKey mode patterns key = true ↔
        key = .fold mode ((patterns.baseType.map (·.raw)).getD "") patterns.member.raw := by
    rw [takesKey, if_pos hl, decide_eq_true_iff]
  have exactName (hl : plan.lookup = .exact) (name : String) :
      plan.takesName mode patterns name = true ↔ name = mode.fold patterns.member.raw := by
    rw [takesName, if_pos hl, decide_eq_true_iff]
  have scannedKey (hl : plan.lookup ≠ .exact) :
      plan.takesKey mode patterns = acceptsTypedKey .plain mode patterns plan := by
    funext key
    rw [takesKey, if_neg hl]
    rfl
  have scannedName (hl : plan.lookup ≠ .exact) :
      plan.takesName mode patterns = acceptsName .plain mode patterns plan.lookup := by
    funext name
    rw [takesName, if_neg hl]
    rfl
  unfold takes find
  dsimp only
  split
  · next ht hl =>
    rw [ht]
    exact calls.finds_query (exactName hl)
  · next ht hl =>
    rw [ht]
    exact typedReads.finds_query (exactKey hl)
  · next ht hl =>
    rw [ht]
    exact typedCalls.finds_query (exactKey hl)
  · next ht hl =>
    rw [ht, scannedName hl]
    exact calls.finds_scan _
  · next ht hl =>
    rw [ht, scannedKey hl]
    exact typedReads.finds_scan _
  · next ht hl =>
    rw [ht, scannedKey hl]
    exact typedCalls.finds_scan _

/-- The candidates of a plan are what it finds, in order and each once. -/
theorem candidates_plain (index : Index) (patterns : RulePatterns) (timer : Timer)
    (plan : GeneratorPlan) :
    Id.run (plan.candidates .plain index patterns timer) =
      let found := Id.run (plan.find .plain index patterns timer)
      { found with positions := (found.positions.mergeSort (· ≤ ·)).eraseReps } := rfl

/-- The candidates of any plan are the entities that it takes, in the order of the batch and each
once. -/
theorem candidates_eq_takes (patterns : RulePatterns) (plan : GeneratorPlan) (mode : CaseMode)
    (batch : List Entity) :
    plan.candidates .plain (Index.build batch mode) patterns .endless =
      (⟨batch.findIdxs (plan.takes mode patterns), false, .endless⟩ : Candidates) := by
  have h := finds_find patterns plan mode batch
  refine (candidates_plain _ patterns .endless plan).trans ?_
  dsimp only
  rw [h.timedOut_eq, h.timer_eq, eraseReps_mergeSort h.mem_iff]

/-- A plan that patterns admit asks its table for all the patterns that the table has parts for,
and leaves no type to check if the table has types. -/
theorem eq_of_mem_options (h : plan ∈ options patterns) :
    plan.lookup = lookupFor plan.target (components patterns plan.target) ∧
      (plan.target ≠ .call → plan.filtersBaseType = patterns.baseType.isSome) ∧
      (plan.target = .call → plan.filtersBaseType = false) := by
  unfold options at h
  split at h
  · next type ht hb =>
    rcases List.mem_pair.mp h with rfl | rfl
    · exact ⟨by simp [make, components, hb], by simp [make, hb], nofun⟩
    · exact ⟨rfl, by simp [make], fun _ ↦ rfl⟩
  · next ht hb =>
    rw [List.mem_singleton.mp h]
    exact ⟨rfl, by simp [make], fun _ ↦ rfl⟩
  · next type ht hb =>
    rw [List.mem_singleton.mp h]
    exact ⟨by simp [make, components, hb], by simp [make, hb], nofun⟩
  · next ht hb =>
    rw [List.mem_singleton.mp h]
    exact ⟨by simp [make, components, hb], by simp [make, hb], nofun⟩

/-- The literal of a plan by name is wanted in the name. -/
theorem anchorFor_baseType_of_call (hp : plan ∈ options patterns)
    (ht : plan.target = .call) (mode : CaseMode) :
    plan.lookup.anchorFor mode .baseType = none := by
  have hl := (eq_of_mem_options hp).1
  rw [ht] at hl
  cases hs : plan.lookup with
  | exact | keyScan => rfl
  | literalScan field anchor =>
    obtain ⟨p, hc, -⟩ := exists_of_lookupFor (hl.symm.trans hs)
    obtain ⟨rfl, -⟩ := Prod.mk.inj (List.mem_singleton.mp hc)
    rfl

private theorem scanLookup_ne_exact (components : List (KeyField × Pattern)) :
    scanLookup components ≠ .exact := by
  unfold scanLookup
  split <;> nofun

/-- A table is asked by its full key only if the patterns are exact and make up the key. -/
theorem isExact_of_lookupFor {target : IndexTarget} {components : List (KeyField × Pattern)}
    (h : lookupFor target components = .exact) :
    (target = .call ∨ components.length ≠ 1) ∧ ∀ c ∈ components, c.2.isExact = true := by
  unfold lookupFor at h
  split at h
  · exact absurd h (scanLookup_ne_exact _)
  · next ht =>
    split at h
    · next hc => exact ⟨by tauto, List.all_eq_true.mp hc⟩
    · exact absurd h (scanLookup_ne_exact _)

/-- The patterns that a table is asked for were read if all patterns of the rule were. -/
theorem isRead_of_mem_components (hr : patterns.AreRead) {target : IndexTarget}
    {c : KeyField × Pattern} (h : c ∈ components patterns target) : c.2.IsRead := by
  apply hr
  unfold RulePatterns.all
  cases target with
  | call =>
    rw [components, List.mem_singleton] at h
    simp [h]
  | typeCall | typeRead =>
    rw [components, List.mem_append, List.mem_map, List.mem_singleton] at h
    rcases h with ⟨type, ht, rfl⟩ | rfl
    · exact List.mem_append_left _ ht
    · simp

/-- A key of a table by type is accepted if the patterns for all its parts accept them. -/
theorem acceptsKey_eq_all (patterns : RulePatterns) {target : IndexTarget} (ht : target ≠ .call)
    (mode : CaseMode) (key : TypedKey) :
    patterns.acceptsKey mode key =
      (components patterns target).all fun c ↦ c.2.acceptsFolded mode (key.part c.1) := by
  have hc : components patterns target =
      patterns.baseType.toList.map (.baseType, ·) ++ [(.member, patterns.member)] := by
    cases target with
    | call => exact absurd rfl ht
    | typeCall | typeRead => rfl
  rw [hc, RulePatterns.acceptsKey]
  cases patterns.baseType with
  | none => simp [TypedKey.part]
  | some type => simp [TypedKey.part]

/-- Scanning for a type and a name asks for the literal of the scan and for what the patterns
accept. -/
theorem run_acceptsTypedKey (hf : plan.filtersBaseType = patterns.baseType.isSome)
    (mode : CaseMode) (key : TypedKey) :
    Id.run (acceptsTypedKey .plain mode patterns plan key) =
      ((containsAnchor (plan.lookup.anchorFor mode .baseType) key.baseType
        && containsAnchor (plan.lookup.anchorFor mode .member) key.member)
        && patterns.acceptsKey mode key) := by
  unfold acceptsTypedKey RulePatterns.acceptsKey
  rw [hf]
  split
  · next h =>
    rw [h, Bool.true_and]
    cases patterns.baseType with
    | none => rfl
    | some type =>
      simp only [Option.isSome_some, Option.filter_some, if_true, Option.all_some]
      change (if type.acceptsFolded mode key.baseType then
        patterns.member.acceptsFolded mode key.member else false) = _
      cases type.acceptsFolded mode key.baseType <;> rfl
  · next h => rw [Bool.not_eq_true _ |>.mp h, Bool.false_and]; rfl

/-- Scanning for a name asks for the literal of the scan and for what the pattern accepts. -/
theorem run_acceptsName (mode : CaseMode) (patterns : RulePatterns) (lookup : Lookup)
    (name : String) :
    Id.run (acceptsName .plain mode patterns lookup name) =
      (containsAnchor (lookup.anchorFor mode .member) name
        && patterns.member.acceptsFolded mode name) := by
  unfold acceptsName
  split
  · next h => rw [h, Bool.true_and]; rfl
  · next h => rw [Bool.not_eq_true _ |>.mp h, Bool.false_and]; rfl

private theorem isRead_member (hr : patterns.AreRead) : patterns.member.IsRead :=
  hr _ (by simp [RulePatterns.all])

private theorem isExact_member (hp : plan ∈ options patterns) (hl : plan.lookup = .exact) :
    patterns.member.isExact = true := by
  obtain ⟨he, -, -⟩ := eq_of_mem_options hp
  refine (isExact_of_lookupFor (he.symm.trans hl)).2 (.member, patterns.member) ?_
  cases plan.target <;> simp [components]

/-- A table that is asked by its full key has the key that exact patterns accept alone. -/
theorem acceptsKey_iff_of_exact (hr : patterns.AreRead) (hp : plan ∈ options patterns)
    (ht : plan.target ≠ .call) (hl : plan.lookup = .exact) (mode : CaseMode) (key : TypedKey) :
    patterns.acceptsKey mode key = true ↔
      key = .fold mode ((patterns.baseType.map (·.raw)).getD "") patterns.member.raw := by
  obtain ⟨he, -, -⟩ := eq_of_mem_options hp
  obtain ⟨hn, hx⟩ := isExact_of_lookupFor (he.symm.trans hl)
  cases hb : patterns.baseType with
  | none =>
    have h1 : (components patterns plan.target).length = 1 := by
      cases plan.target <;> simp [components, hb]
    exact absurd h1 (hn.resolve_left ht)
  | some type =>
    have hte : type.isExact = true := by
      refine hx (.baseType, type) ?_
      cases h : plan.target with
      | call => exact absurd h ht
      | typeCall | typeRead => simp [components, hb]
    have htr : type.IsRead := hr _ (by simp [RulePatterns.all, hb])
    rw [RulePatterns.acceptsKey, hb, Option.all_some, Bool.and_eq_true,
      htr.acceptsFolded_of_isExact hte,
      (isRead_member hr).acceptsFolded_of_isExact (isExact_member hp hl)]
    obtain ⟨baseType, member⟩ := key
    simp [TypedKey.fold]

/-- A table that is asked by a name has the name that an exact pattern accepts alone. -/
theorem acceptsFolded_iff_of_exact (hr : patterns.AreRead) (hp : plan ∈ options patterns)
    (hl : plan.lookup = .exact) (mode : CaseMode) (name : String) :
    patterns.member.acceptsFolded mode name = true ↔ name = mode.fold patterns.member.raw :=
  (isRead_member hr).acceptsFolded_of_isExact (isExact_member hp hl) mode name

private theorem containsAnchor_of_exact {lookup : Lookup} (hl : lookup = .exact)
    (mode : CaseMode) (field : KeyField) (text : String) :
    containsAnchor (lookup.anchorFor mode field) text = true := by
  rw [hl]
  rfl

/-- A plan that patterns admit takes the types and names that they accept and that contain the
literal of its scan. -/
theorem takesKey_eq (hr : patterns.AreRead) (hp : plan ∈ options patterns)
    (ht : plan.target ≠ .call) (mode : CaseMode) (key : TypedKey) :
    plan.takesKey mode patterns key =
      ((containsAnchor (plan.lookup.anchorFor mode .baseType) key.baseType
        && containsAnchor (plan.lookup.anchorFor mode .member) key.member)
        && patterns.acceptsKey mode key) := by
  unfold takesKey
  split
  · next hl =>
    rw [containsAnchor_of_exact hl, containsAnchor_of_exact hl, Bool.and_self, Bool.true_and,
      Bool.eq_iff_iff, decide_eq_true_iff, acceptsKey_iff_of_exact hr hp ht hl]
  · exact run_acceptsTypedKey ((eq_of_mem_options hp).2.1 ht) mode key

/-- A plan by name that patterns admit takes the names that they accept and that contain the
literal of its scan. -/
theorem takesName_eq (hr : patterns.AreRead) (hp : plan ∈ options patterns) (mode : CaseMode)
    (name : String) :
    plan.takesName mode patterns name =
      (containsAnchor (plan.lookup.anchorFor mode .member) name
        && patterns.member.acceptsFolded mode name) := by
  unfold takesName
  split
  · next hl =>
    rw [containsAnchor_of_exact hl, Bool.true_and, Bool.eq_iff_iff, decide_eq_true_iff,
      acceptsFolded_iff_of_exact hr hp hl]
  · exact run_acceptsName mode patterns plan.lookup name

/-- What the patterns accept contains the literal of a plan that they admit, unless case does not
matter. -/
theorem containsAnchor_of_mem_options (hr : patterns.AreRead) (hp : plan ∈ options patterns)
    {mode : CaseMode} (hm : mode = .sensitive ∨ plan.lookup.HasNoAnchor) (part : KeyField → String)
    (ha : ∀ c ∈ components patterns plan.target, c.2.acceptsFolded mode (part c.1) = true)
    (field : KeyField) :
    containsAnchor (plan.lookup.anchorFor mode field) (part field) = true := by
  rw [(eq_of_mem_options hp).1] at hm ⊢
  exact containsAnchor_of_accepts (fun c h ↦ isRead_of_mem_components hr h) hm part ha field

/-- A plan that patterns admit takes the entities that it reaches, unless a literal narrows it
where case does not matter. -/
theorem takes_eq_reaches (hr : patterns.AreRead) (hp : plan ∈ options patterns) {mode : CaseMode}
    (hm : mode = .sensitive ∨ plan.lookup.HasNoAnchor) :
    plan.takes mode patterns = plan.reaches mode patterns := by
  -- testing for the literal first changes nothing
  have anchored := containsAnchor_of_mem_options hr hp hm
  have typed (ht : plan.target ≠ .call) :
      plan.takesKey mode patterns = patterns.acceptsKey mode := by
    funext key
    rw [takesKey_eq hr hp ht]
    cases hk : patterns.acceptsKey mode key with
    | false => rw [Bool.and_false]
    | true =>
      rw [acceptsKey_eq_all patterns ht, List.all_eq_true] at hk
      rw [Bool.and_true, Bool.and_eq_true]
      exact ⟨anchored key.part hk .baseType, anchored key.part hk .member⟩
  have named (ht : plan.target = .call) :
      plan.takesName mode patterns = patterns.member.acceptsFolded mode := by
    funext name
    rw [takesName_eq hr hp]
    cases hk : patterns.member.acceptsFolded mode name with
    | false => rw [Bool.and_false]
    | true =>
      rw [Bool.and_true]
      refine anchored (fun _ ↦ name) (fun c h ↦ ?_) .member
      rw [ht, components, List.mem_singleton] at h
      rw [h]
      exact hk
  funext e
  unfold takes reaches
  cases ht : plan.target with
  | call => simp only [named ht]
  | typeCall | typeRead => simp only [typed (by rw [ht]; nofun)]

end GeneratorPlan

end TaintRules
