import TaintRules.Pattern.Basic

/-!
# Matching, with a cache of automata

The same few general patterns are asked about a great many texts, so a matcher keeps the automata
it built, the most recently used in front, and drops the last one when it is full. The plain
functions `Shape.accepts` and `Pattern.accepts` say what the answer is; the matcher's own
functions go through the cache and count how often it helped.
-/

namespace TaintRules

/-- Whether a folded text has the shape, given what to answer for a general one. -/
def Shape.acceptsWith (shape : Shape) (pattern text : String) (general : Bool) : Bool :=
  match shape with
  | .exact => text == pattern
  | .suffix literal => literal.toList.isSuffixOf text.toList
  | .leading literal => literal.toList.isPrefixOf text.toList
  | .contains literal => occursIn literal.toList text.toList
  | .general => general

/-- Whether a folded text matches a folded pattern of the given shape. -/
def Shape.accepts (shape : Shape) (mode : CaseMode) (pattern text : String) : Bool :=
  shape.acceptsWith pattern text <|
    match Automaton.build? mode pattern with
    | some automaton => automaton.accepts text
    | none => false

/-- Whether the pattern matches a text that is already folded. No pattern matches the empty text. -/
def Pattern.acceptsFolded (p : Pattern) (mode : CaseMode) (text : String) : Bool :=
  !text.isEmpty && (p.shapeFor mode).accepts mode (p.textFor mode) text

/-- Whether the pattern matches a text. -/
def Pattern.accepts (p : Pattern) (mode : CaseMode) (text : String) : Bool :=
  !text.isEmpty && (p.shapeFor mode).accepts mode (p.textFor mode) (mode.fold text)

/-- Whether a text matches a pattern that was not read before. -/
def wildcardMatch (mode : CaseMode) (pattern text : String) : Bool :=
  !pattern.isEmpty && !text.isEmpty &&
    (Shape.classify (mode.fold pattern)).accepts mode (mode.fold pattern) (mode.fold text)

/-- What an automaton is kept under: the folded pattern and the case mode. -/
structure CacheKey where
  pattern : String
  mode : CaseMode
  deriving DecidableEq, Repr

/-- A bounded store of automata, the most recently used first, with its counters. -/
structure Matcher where
  capacity : Nat
  entries : List (CacheKey × Automaton)
  hits : Nat
  misses : Nat
  deriving DecidableEq, Repr

namespace Matcher

/-- An empty matcher; it has room for at least one automaton. -/
def new (capacity : Nat) : Matcher := ⟨max capacity 1, [], 0, 0⟩

/-- The matcher without its automata and counts. -/
def clear (m : Matcher) : Matcher := new m.capacity

/-- The automaton kept under a key. -/
def find? (m : Matcher) (key : CacheKey) : Option Automaton := m.entries.lookup key

/-- Puts an automaton in front, and drops whatever is then beyond the capacity. -/
def store (m : Matcher) (key : CacheKey) (automaton : Automaton) : Matcher :=
  { m with entries :=
      ((key, automaton) :: m.entries.filter fun entry ↦ entry.1 != key).take m.capacity }

/-- The automaton for a key, from the cache or newly built; `none` if it is too large. -/
def request (key : CacheKey) : StateM Matcher (Option Automaton) := fun m ↦
  match m.find? key with
  | some automaton => (some automaton, { m.store key automaton with hits := m.hits + 1 })
  | none =>
    let missed := { m with misses := m.misses + 1 }
    match Automaton.build? key.mode key.pattern with
    | some automaton => (some automaton, missed.store key automaton)
    | none => (none, missed)

/-- Whether a folded text matches a folded pattern of the given shape, through the cache. -/
def evaluate (shape : Shape) (mode : CaseMode) (pattern text : String) : StateM Matcher Bool := do
  if shape = .general then
    let automaton ← request ⟨pattern, mode⟩
    return (automaton.map (·.accepts text)).getD false
  else
    return shape.acceptsWith pattern text false

/-- Whether the pattern matches a text that is already folded, through the cache. -/
def acceptsFolded (p : Pattern) (mode : CaseMode) (text : String) : StateM Matcher Bool :=
  if text.isEmpty then pure false
  else evaluate (p.shapeFor mode) mode (p.textFor mode) text

/-- Whether the pattern matches a text, through the cache. -/
def accepts (p : Pattern) (mode : CaseMode) (text : String) : StateM Matcher Bool :=
  if text.isEmpty then pure false
  else evaluate (p.shapeFor mode) mode (p.textFor mode) (mode.fold text)

/-- Whether a text matches a pattern that was not read before, through the cache. -/
def wildcardMatch (mode : CaseMode) (pattern text : String) : StateM Matcher Bool :=
  if pattern.isEmpty || text.isEmpty then pure false
  else
    let folded := mode.fold pattern
    evaluate (Shape.classify folded) mode folded (mode.fold text)

/-- The share of requests that the cache answered. -/
def hitRate (m : Matcher) : Float :=
  if m.hits + m.misses = 0 then 0.0 else Float.ofNat m.hits / Float.ofNat (m.hits + m.misses)

/-- A one-line account of the counters. -/
def describe (m : Matcher) : String :=
  "WildcardMatcher \x7b stats: MatcherStats \x7b hits: " ++ toString m.hits
    ++ ", misses: " ++ toString m.misses ++ ", entries: " ++ toString m.entries.length
    ++ ", capacity: " ++ toString m.capacity ++ " \x7d \x7d"

end Matcher

end TaintRules
