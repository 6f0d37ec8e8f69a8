import TaintRules.Pattern.Matcher

/-!
# The matcher's cache changes no answer

A matcher is faithful when every automaton it keeps is the one its key builds. Every use of a
matcher preserves this, so whatever was asked before, the answer through the cache is the answer
of the plain functions.
-/

namespace TaintRules

namespace Matcher

/-- Every kept automaton is the one that its key builds. -/
def Faithful (m : Matcher) : Prop :=
  ∀ entry ∈ m.entries, Automaton.build? entry.1.mode entry.1.pattern = some entry.2

/-- A computation gives a value whatever faithful matcher it runs with, and leaves a faithful
one. -/
def Gives {α : Type} (x : StateM Matcher α) (value : α) : Prop :=
  ∀ m, m.Faithful → (x m).1 = value ∧ (x m).2.Faithful

/-- The matchers that arise from an empty one, whatever they are used for. -/
inductive Reached : Matcher → Prop where
  | new (capacity : Nat) : Reached (.new capacity)
  | clear {m : Matcher} (h : Reached m) : Reached m.clear
  | request {m : Matcher} (h : Reached m) (key : CacheKey) : Reached (request key m).2
  | acceptsFolded {m : Matcher} (h : Reached m) (p : Pattern) (mode : CaseMode) (text : String) :
      Reached (acceptsFolded p mode text m).2
  | accepts {m : Matcher} (h : Reached m) (p : Pattern) (mode : CaseMode) (text : String) :
      Reached (accepts p mode text m).2
  | wildcardMatch {m : Matcher} (h : Reached m) (mode : CaseMode) (pattern text : String) :
      Reached (wildcardMatch mode pattern text m).2

/-! ### Computations that give a value -/

namespace Gives

variable {α β : Type}

/-- A value that needs no matcher. -/
theorem pure (value : α) : Gives (Pure.pure value) value := fun _ hm ↦ ⟨rfl, hm⟩

/-- One computation after another gives what the plain ones give in turn. -/
theorem bind {x : StateM Matcher α} {f : α → StateM Matcher β} {value : Id α} {g : α → Id β}
    (hx : Gives x value) (hf : ∀ v, Gives (f v) (g v)) : Gives (x >>= f) (value >>= g) := by
  intro m hm
  obtain ⟨hv, hm'⟩ := hx m hm
  subst hv
  exact hf (x m).1 _ hm'

/-- A computation of which a function is taken. -/
theorem map {x : StateM Matcher α} {value : α} (f : α → β) (hx : Gives x value) :
    Gives (do return f (← x)) (f value) := bind hx fun v ↦ pure (f v)

end Gives

/-! ### Steps -/

/-- An empty matcher is faithful. -/
theorem faithful_new (capacity : Nat) : (new capacity).Faithful := by
  intro entry h
  cases h

private theorem faithful_store {m : Matcher} (hm : m.Faithful) {key : CacheKey}
    {automaton : Automaton} (hb : Automaton.build? key.mode key.pattern = some automaton) :
    (m.store key automaton).Faithful := by
  intro entry h
  rcases List.mem_cons.mp (List.mem_of_mem_take h) with rfl | h
  · exact hb
  · exact hm entry (List.mem_filter.mp h).1

private theorem build?_of_find? {m : Matcher} (hm : m.Faithful) {key : CacheKey}
    {automaton : Automaton} (h : m.find? key = some automaton) :
    Automaton.build? key.mode key.pattern = some automaton := by
  obtain ⟨front, back, he, _⟩ := List.lookup_eq_some_iff.mp h
  exact hm (key, automaton) (by rw [he]; simp)

/-- A request gives the automaton that the key builds. -/
theorem gives_request (key : CacheKey) :
    Gives (request key) (Automaton.build? key.mode key.pattern) := by
  intro m hm
  unfold request
  cases hf : m.find? key with
  | some automaton =>
    have hb := build?_of_find? hm hf
    exact ⟨hb.symm, faithful_store hm hb⟩
  | none =>
    cases hb : Automaton.build? key.mode key.pattern with
    | none => exact ⟨rfl, hm⟩
    | some automaton =>
      have hm' : Faithful { m with misses := m.misses + 1 } := hm
      exact ⟨rfl, faithful_store hm' hb⟩

/-- Evaluating a shape through the cache gives its plain answer. -/
theorem gives_evaluate (shape : Shape) (mode : CaseMode) (pattern text : String) :
    Gives (evaluate shape mode pattern text) (shape.accepts mode pattern text) := by
  unfold evaluate
  split
  · next h =>
    subst h
    have hr := (gives_request ⟨pattern, mode⟩).map
      fun automaton ↦ (automaton.map (·.accepts text)).getD false
    have he : Shape.general.accepts mode pattern text =
        ((Automaton.build? mode pattern).map (·.accepts text)).getD false := by
      unfold Shape.accepts Shape.acceptsWith
      cases Automaton.build? mode pattern <;> rfl
    rw [he]
    exact hr
  · next h =>
    have he : shape.accepts mode pattern text = shape.acceptsWith pattern text false := by
      cases shape with
      | general => exact absurd rfl h
      | exact | suffix | leading | contains => rfl
    rw [he]
    exact .pure _

/-- Evaluating a shape unless there is nothing to match gives its plain answer. -/
theorem gives_evaluate_unless (empty : Bool) (shape : Shape) (mode : CaseMode)
    (pattern text : String) :
    Gives (if empty then pure false else evaluate shape mode pattern text)
      (!empty && shape.accepts mode pattern text) := by
  cases empty with
  | true => exact .pure _
  | false => exact gives_evaluate shape mode pattern text

/-- Deciding a folded text through the cache gives the plain answer. -/
theorem gives_acceptsFolded (p : Pattern) (mode : CaseMode) (text : String) :
    Gives (acceptsFolded p mode text) (p.acceptsFolded mode text) :=
  gives_evaluate_unless text.isEmpty _ _ _ _

/-- Deciding a text through the cache gives the plain answer. -/
theorem gives_accepts (p : Pattern) (mode : CaseMode) (text : String) :
    Gives (accepts p mode text) (p.accepts mode text) :=
  gives_evaluate_unless text.isEmpty _ _ _ _

/-- Deciding a pattern that was not read before gives the plain answer. -/
theorem gives_wildcardMatch (mode : CaseMode) (pattern text : String) :
    Gives (wildcardMatch mode pattern text) (TaintRules.wildcardMatch mode pattern text) := by
  rw [TaintRules.wildcardMatch, ← Bool.not_or]
  exact gives_evaluate_unless (pattern.isEmpty || text.isEmpty) _ _ _ _

/-! ### Runs -/

/-- Whatever a matcher was used for, it is faithful. -/
theorem Reached.faithful {m : Matcher} (h : Reached m) : m.Faithful := by
  induction h with
  | new capacity => exact faithful_new capacity
  | clear _ _ => exact faithful_new _
  | request _ key ih => exact (gives_request key _ ih).2
  | acceptsFolded _ p mode text ih => exact (gives_acceptsFolded p mode text _ ih).2
  | accepts _ p mode text ih => exact (gives_accepts p mode text _ ih).2
  | wildcardMatch _ mode pattern text ih => exact (gives_wildcardMatch mode pattern text _ ih).2

end Matcher

end TaintRules
