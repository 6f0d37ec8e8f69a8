import Mathlib.Data.List.Nodup
import TaintRules.Proofs.MatcherCache

/-!
# What a matcher keeps

A matcher has room for a number of automata. Whatever it is used for, it keeps those of the keys
that were asked for last since it was cleared: as many as it has room for, the last one in front.
A key whose automaton is too large is never among them. Every request is counted, and a use that
needs no automaton leaves the matcher as it is.
-/

namespace TaintRules

/-! ### Values in the order of their first places -/

section FirstPlaces

variable {α : Type} [DecidableEq α]

private theorem nodup_eraseDups : (l : List α) → l.eraseDups.Nodup
  | [] => by simp
  | a :: l => by
    rw [List.eraseDups_cons, List.nodup_cons, List.mem_eraseDups]
    exact ⟨by simp, nodup_eraseDups _⟩
termination_by l => l.length
decreasing_by exact Nat.lt_succ_of_le (List.length_filter_le _ _)

private theorem eraseDups_filter_ne (k : α) : (l : List α) →
    (l.filter (· != k)).eraseDups = l.eraseDups.filter (· != k)
  | [] => rfl
  | a :: l => by
    have ih := eraseDups_filter_ne k (l.filter (· != a))
    have ha : (a :: l).eraseDups = a :: (l.filter (· != a)).eraseDups := List.eraseDups_cons
    rw [ha, List.filter_cons, List.filter_cons]
    by_cases hk : a = k
    · subst hk
      rw [← ih, List.filter_filter]
      simp
    · rw [if_pos (by simpa using hk), if_pos (by simpa using hk), ← ih, List.filter_filter]
      have hc : ((l.filter (· != k)).filter (· != a)) = l.filter fun b ↦ b != k && b != a := by
        rw [List.filter_filter]
        simp only [Bool.and_comm]
      rw [← hc]
      exact List.eraseDups_cons
termination_by l => l.length
decreasing_by exact Nat.lt_succ_of_le (List.length_filter_le _ _)

/-- One value is left out at most once, so that one value more makes up for it. -/
private theorem take_filter_ne_take (k : α) {l : List α} (hl : l.Nodup) (n : Nat) :
    ((l.take (n + 1)).filter (· != k)).take n = (l.filter (· != k)).take n := by
  induction l generalizing n with
  | nil => rfl
  | cons a l ih =>
    obtain ⟨hn, hl⟩ := List.nodup_cons.mp hl
    rw [List.take_succ_cons, List.filter_cons, List.filter_cons]
    by_cases hk : a = k
    · subst hk
      have hkeep {s : List α} (hs : a ∉ s) : s.filter (· != a) = s := by
        rw [List.filter_eq_self]
        intro b hb
        exact bne_iff_ne.mpr (ne_of_mem_of_not_mem hb hs)
      rw [if_neg (by simp), if_neg (by simp), hkeep hn, hkeep (mt List.mem_of_mem_take hn),
        List.take_take, Nat.min_self]
    · rw [if_pos (by simpa using hk), if_pos (by simpa using hk)]
      cases n with
      | zero => rfl
      | succ n => rw [List.take_succ_cons, List.take_succ_cons, ih hl]

end FirstPlaces

/-! ### Keys -/

/-- Whether the automaton for the key is not too large. -/
def CacheKey.isBuildable (key : CacheKey) : Bool :=
  (Automaton.build? key.mode key.pattern).isSome

/-- The different keys that can be built of those asked for, which come with the last one first:
the most recently used first. -/
def CacheKey.recent (asked : List CacheKey) : List CacheKey :=
  (asked.filter (·.isBuildable)).eraseDups

namespace CacheKey

theorem nodup_recent (asked : List CacheKey) : (recent asked).Nodup := nodup_eraseDups _

/-- A key that can be built comes first when it is asked for, and no longer where it was. -/
theorem recent_cons_of_isBuildable {key : CacheKey} (h : key.isBuildable = true)
    (asked : List CacheKey) :
    recent (key :: asked) = key :: (recent asked).filter (· != key) := by
  rw [recent, List.filter_cons_of_pos h, recent, ← eraseDups_filter_ne]
  exact List.eraseDups_cons

/-- A key that cannot be built changes nothing when it is asked for. -/
theorem recent_cons_of_not_isBuildable {key : CacheKey} (h : key.isBuildable = false)
    (asked : List CacheKey) : recent (key :: asked) = recent asked := by
  rw [recent, List.filter_cons_of_neg (by simp [h]), recent]

end CacheKey

namespace Matcher

/-- The keys of the automata that are kept, the most recently used first. -/
def keys (m : Matcher) : List CacheKey := m.entries.map (·.1)

/-- Storing an automaton puts its key in front and drops the last one if there is no room. -/
theorem keys_store (m : Matcher) (key : CacheKey) (automaton : Automaton) :
    (m.store key automaton).keys = (key :: m.keys.filter (· != key)).take m.capacity := by
  rw [keys, store, List.map_take, List.map_cons, keys, List.filter_map]
  rfl

/-- The kept keys are those under which an automaton is found. -/
theorem isSome_find?_iff {m : Matcher} {key : CacheKey} :
    (m.find? key).isSome = true ↔ key ∈ m.keys := by
  rw [find?, List.lookup_isSome_iff, keys, List.mem_map]
  simp only [beq_iff_eq, @eq_comm _ key]

/-- A key that is kept can be built. -/
theorem Faithful.isBuildable {m : Matcher} (hm : m.Faithful) {key : CacheKey} (h : key ∈ m.keys) :
    key.isBuildable = true := by
  obtain ⟨entry, he, rfl⟩ := List.mem_map.mp h
  rw [CacheKey.isBuildable, hm entry he]
  rfl

/-! ### Requests -/

/-- What a request does: it is a hit or a miss, and puts a key that can be built in front. -/
theorem request_cases {m : Matcher} (hm : m.Faithful) (key : CacheKey) :
    (key ∈ m.keys ∧ key.isBuildable = true ∧ ∃ automaton,
        (request key m).2 = { m.store key automaton with hits := m.hits + 1 }) ∨
      (key ∉ m.keys ∧ key.isBuildable = true ∧ ∃ automaton,
        (request key m).2 = { m.store key automaton with misses := m.misses + 1 }) ∨
      (key ∉ m.keys ∧ key.isBuildable = false ∧
        (request key m).2 = { m with misses := m.misses + 1 }) := by
  unfold request
  cases hf : m.find? key with
  | some automaton =>
    have hk : key ∈ m.keys := isSome_find?_iff.mp (by rw [hf]; rfl)
    exact .inl ⟨hk, hm.isBuildable hk, automaton, rfl⟩
  | none =>
    have hk : key ∉ m.keys := fun hk ↦ by
      rw [← isSome_find?_iff, hf] at hk
      cases hk
    cases hb : Automaton.build? key.mode key.pattern with
    | some automaton =>
      exact .inr (.inl ⟨hk, by rw [CacheKey.isBuildable, hb]; rfl, automaton, rfl⟩)
    | none => exact .inr (.inr ⟨hk, by rw [CacheKey.isBuildable, hb]; rfl, rfl⟩)

/-- A request is a hit if its key is kept, and a miss otherwise. -/
theorem counts_request {m : Matcher} (hm : m.Faithful) (key : CacheKey) :
    (request key m).2.hits = m.hits + (if key ∈ m.keys then 1 else 0) ∧
      (request key m).2.misses = m.misses + (if key ∈ m.keys then 0 else 1) := by
  obtain ⟨hk, -, _, he⟩ | ⟨hk, -, _, he⟩ | ⟨hk, -, he⟩ := request_cases hm key
  · rw [he, if_pos hk, if_pos hk]
    exact ⟨rfl, rfl⟩
  · rw [he, if_neg hk, if_neg hk]
    exact ⟨rfl, rfl⟩
  · rw [he, if_neg hk, if_neg hk]
    exact ⟨rfl, rfl⟩

/-- A request for a key that cannot be built changes nothing but the number of misses. -/
theorem request_of_not_isBuildable {m : Matcher} (hm : m.Faithful) {key : CacheKey}
    (hb : key.isBuildable = false) : (request key m).2 = { m with misses := m.misses + 1 } := by
  obtain ⟨-, h, -⟩ | ⟨-, h, -⟩ | ⟨-, -, he⟩ := request_cases hm key
  · rw [hb] at h
    cases h
  · rw [hb] at h
    cases h
  · exact he

/-- What is true of a matcher with some room that was asked for keys since it was cleared, the last
one first. -/
structure Keeps (m : Matcher) (room : Nat) (asked : List CacheKey) : Prop where
  faithful : m.Faithful
  capacity_eq : m.capacity = room
  keys_eq : m.keys = (CacheKey.recent asked).take room
  count_eq : m.hits + m.misses = asked.length

/-- An empty matcher was asked for nothing. -/
theorem keeps_new (capacity : Nat) : (new capacity).Keeps (max capacity 1) [] :=
  ⟨faithful_new capacity, rfl, List.take_nil.symm, rfl⟩

/-- Clearing a matcher leaves it with its room, asked for nothing. -/
theorem Keeps.clear {m : Matcher} {capacity : Nat} {asked : List CacheKey}
    (h : m.Keeps (max capacity 1) asked) : m.clear.Keeps (max capacity 1) [] := by
  have hn := keeps_new (max capacity 1)
  rw [Nat.max_assoc, Nat.max_self] at hn
  rw [Matcher.clear, h.capacity_eq]
  exact hn

/-- Storing the automaton of a key gives what is kept once the key was asked for. -/
theorem Keeps.keys_store {m : Matcher} {room : Nat} {asked : List CacheKey}
    (h : m.Keeps room asked) {key : CacheKey} (hb : key.isBuildable = true)
    (automaton : Automaton) :
    (m.store key automaton).keys = (CacheKey.recent (key :: asked)).take room := by
  rw [Matcher.keys_store, h.capacity_eq, h.keys_eq, CacheKey.recent_cons_of_isBuildable hb]
  cases room with
  | zero => rfl
  | succ n =>
    rw [List.take_succ_cons, List.take_succ_cons,
      take_filter_ne_take key (CacheKey.nodup_recent asked)]

/-- One more request is counted, and its key moves to the front if it can be built. -/
theorem Keeps.request {m : Matcher} {room : Nat} {asked : List CacheKey} (h : m.Keeps room asked)
    (key : CacheKey) : (request key m).2.Keeps room (key :: asked) := by
  have hf := (gives_request key m h.faithful).2
  have hn : (Matcher.request key m).2.hits + (Matcher.request key m).2.misses =
      (key :: asked).length := by
    rw [(counts_request h.faithful key).1, (counts_request h.faithful key).2, List.length_cons,
      ← h.count_eq]
    split <;> omega
  obtain ⟨-, hb, automaton, he⟩ | ⟨-, hb, automaton, he⟩ | ⟨-, hb, he⟩ :=
    request_cases h.faithful key
  · rw [he] at hf hn ⊢
    exact ⟨hf, h.capacity_eq, h.keys_store hb automaton, hn⟩
  · rw [he] at hf hn ⊢
    exact ⟨hf, h.capacity_eq, h.keys_store hb automaton, hn⟩
  · rw [he] at hf hn ⊢
    have hk := h.keys_eq
    rw [← CacheKey.recent_cons_of_not_isBuildable hb] at hk
    exact ⟨hf, h.capacity_eq, hk, hn⟩

/-! ### Uses -/

/-- One use of a matcher. -/
inductive Use where
  | wildcardMatch (mode : CaseMode) (pattern text : String)
  | accepts (p : Pattern) (mode : CaseMode) (text : String)
  | acceptsFolded (p : Pattern) (mode : CaseMode) (text : String)
  | request (key : CacheKey)
  | clear

/-- The key that a shape asks for: that of the pattern if it is general. -/
def keyOf? (shape : Shape) (mode : CaseMode) (pattern : String) : Option CacheKey :=
  if shape = .general then some ⟨pattern, mode⟩ else none

namespace Use

/-- What a use answers: an automaton, whether there is a match, or nothing. -/
def Answer : Use → Type
  | .wildcardMatch .. | .accepts .. | .acceptsFolded .. => Bool
  | .request _ => Option Automaton
  | .clear => Unit

/-- The use with its answer. -/
def perform : (use : Use) → StateM Matcher use.Answer
  | .wildcardMatch mode pattern text => Matcher.wildcardMatch mode pattern text
  | .accepts p mode text => Matcher.accepts p mode text
  | .acceptsFolded p mode text => Matcher.acceptsFolded p mode text
  | .request key => Matcher.request key
  | .clear => fun m ↦ ((), m.clear)

/-- The key that a use asks for: one that is asked for by itself, or that of a general pattern when
it is decided for a text that is not empty. -/
def key? : Use → Option CacheKey
  | .wildcardMatch mode pattern text =>
    if pattern.isEmpty || text.isEmpty then none
    else keyOf? (Shape.classify (mode.fold pattern)) mode (mode.fold pattern)
  | .accepts p mode text | .acceptsFolded p mode text =>
    if text.isEmpty then none else keyOf? (p.shapeFor mode) mode (p.textFor mode)
  | .request key => some key
  | .clear => none

/-- The keys asked for since the matcher was cleared, by uses of which the last comes first. -/
def asked : List Use → List CacheKey
  | [] => []
  | .clear :: _ => []
  | last :: earlier => last.key?.toList ++ asked earlier

end Use

/-- The matcher after uses, the last of which comes first. -/
def after (m : Matcher) : List Use → Matcher
  | [] => m
  | last :: earlier => (last.perform (m.after earlier)).2

/-- The matcher after it was asked for a key, if it was. -/
def afterRequest (m : Matcher) : Option CacheKey → Matcher
  | some key => (request key m).2
  | none => m

/-- Evaluating a shape, if at all, asks for no other key than that of the shape. -/
theorem state_evaluate_unless (empty : Bool) (shape : Shape) (mode : CaseMode)
    (pattern text : String) (m : Matcher) :
    ((if empty then pure false else evaluate shape mode pattern text : StateM Matcher Bool) m).2 =
      m.afterRequest (if empty then none else keyOf? shape mode pattern) := by
  cases empty with
  | true => rfl
  | false =>
    unfold evaluate keyOf?
    simp only [Bool.false_eq_true, if_false]
    split <;> rfl

namespace Use

/-- What a use answers does not depend on the matcher, as long as it is faithful. -/
theorem gives_perform (use : Use) : ∃ answer, Gives use.perform answer := by
  cases use with
  | wildcardMatch mode pattern text => exact ⟨_, gives_wildcardMatch mode pattern text⟩
  | accepts p mode text => exact ⟨_, gives_accepts p mode text⟩
  | acceptsFolded p mode text => exact ⟨_, gives_acceptsFolded p mode text⟩
  | request key => exact ⟨_, gives_request key⟩
  | clear => exact ⟨(), fun m _ ↦ ⟨rfl, faithful_new m.capacity⟩⟩

/-- A use changes a matcher by its request alone, unless it clears it. -/
theorem state_perform {use : Use} (h : use ≠ .clear) (m : Matcher) :
    (use.perform m).2 = m.afterRequest use.key? := by
  cases use with
  | wildcardMatch mode pattern text => exact state_evaluate_unless _ _ _ _ _ m
  | accepts p mode text => exact state_evaluate_unless _ _ _ _ _ m
  | acceptsFolded p mode text => exact state_evaluate_unless _ _ _ _ _ m
  | request key => rfl
  | clear => exact absurd rfl h

/-- One more use asks for its key, unless it clears the matcher. -/
theorem asked_cons {last : Use} (h : last ≠ .clear) (earlier : List Use) :
    asked (last :: earlier) = last.key?.toList ++ asked earlier := by
  cases last with
  | clear => exact absurd rfl h
  | wildcardMatch | accepts | acceptsFolded | request => rfl

end Use

/-! ### Histories -/

/-- Whatever a matcher was used for, it keeps what was asked for last since it was cleared. -/
theorem keeps_after (capacity : Nat) (history : List Use) :
    ((new capacity).after history).Keeps (max capacity 1) (Use.asked history) := by
  induction history with
  | nil => exact keeps_new capacity
  | cons last earlier ih =>
    by_cases hc : last = .clear
    · subst hc
      exact ih.clear
    · rw [after, Use.state_perform hc, Use.asked_cons hc]
      cases last.key? with
      | none => exact ih
      | some key => exact ih.request key

/-- A matcher that was used in any way keeps exactly the automata of the keys that were asked for
last since it was cleared, of those that can be built, as many as it has room for and the last one
in front, and has counted every request. Whatever it is used for next, it answers as an empty
matcher would; if no automaton is needed it stays as it is, and otherwise the request is a hit if
the key is among the kept ones and a miss if it is not, a key that cannot be built included. -/
theorem keys_after_uses (capacity : Nat) (history : List Use) :
    let m := (new capacity).after history
    let kept := (CacheKey.recent (Use.asked history)).take (max capacity 1)
    m.keys = kept ∧
      m.entries.length = min (max capacity 1) (CacheKey.recent (Use.asked history)).length ∧
      (∀ entry ∈ m.entries, Automaton.build? entry.1.mode entry.1.pattern = some entry.2) ∧
      m.hits + m.misses = (Use.asked history).length ∧
      ∀ next : Use,
        (∀ room, (next.perform m).1 = (next.perform (new room)).1) ∧
          (next ≠ .clear → next.key? = none → (next.perform m).2 = m) ∧
          ∀ key, next.key? = some key →
            (next.perform m).2.hits = m.hits + (if key ∈ kept then 1 else 0) ∧
              (next.perform m).2.misses = m.misses + (if key ∈ kept then 0 else 1) ∧
              (key.isBuildable = false →
                (next.perform m).2 = { m with misses := m.misses + 1 }) := by
  intro m kept
  have h : m.Keeps (max capacity 1) (Use.asked history) := keeps_after capacity history
  have hlength : m.entries.length =
      min (max capacity 1) (CacheKey.recent (Use.asked history)).length := by
    rw [← List.length_take, ← h.keys_eq, keys, List.length_map]
  refine ⟨h.keys_eq, hlength, h.faithful, h.count_eq, fun next ↦ ⟨fun room ↦ ?_, ?_, ?_⟩⟩
  · obtain ⟨answer, hg⟩ := next.gives_perform
    rw [(hg m h.faithful).1, (hg (new room) (faithful_new room)).1]
  · intro hc hk
    rw [Use.state_perform hc, hk]
    rfl
  · intro key hk
    have hc : next ≠ .clear := by
      rintro rfl
      cases hk
    rw [Use.state_perform hc, hk, ← show m.keys = kept from h.keys_eq, afterRequest]
    obtain ⟨hits, misses⟩ := counts_request h.faithful key
    exact ⟨hits, misses, request_of_not_isBuildable h.faithful⟩

-- the second use of `a*b` keeps it when `e*f` needs room, and `c*d` has to go
example :
    ((new 2).after [.request ⟨"e*f", .sensitive⟩, .wildcardMatch .sensitive "a*b" "ab",
      .request ⟨"c*d", .sensitive⟩, .request ⟨"a*b", .sensitive⟩]).keys =
      [⟨"e*f", .sensitive⟩, ⟨"a*b", .sensitive⟩] := by decide +kernel

end Matcher

end TaintRules
