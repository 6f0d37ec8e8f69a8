import TaintRules.Index.Basic
import TaintRules.Pattern.Matcher
import TaintRules.Rule.Basic

/-!
# Candidates

The entities of an index that a rule's plan for candidates finds, in the order of their positions
and each once. How a pattern is decided for a key is left open, so that a run may go through a
cache and a statement about runs need not. When the time of the rule is over is left open too: the
clock is read before each key of a scan, and a scan ends at the first reading that is late.
-/

namespace TaintRules

/-- A way to decide whether a pattern matches a text that is already folded. -/
abbrev Decider (m : Type → Type) := Pattern → CaseMode → String → m Bool

/-- Decides without a cache. -/
def Decider.plain : Decider Id := Pattern.acceptsFolded

/-- Decides through the cache of a matcher. -/
def Decider.cached : Decider (StateM Matcher) := Matcher.acceptsFolded

/-- The time of a rule, told by readings of the clock. -/
inductive Timer where
  /-- No reading is late. -/
  | endless
  /-- So many readings are in time, and all later ones are late. -/
  | readings (left : Nat)
  deriving DecidableEq, Repr

/-- Reads the clock: the time that is left after a reading in time. -/
def Timer.read : Timer → Option Timer
  | .endless => some .endless
  | .readings 0 => none
  | .readings (left + 1) => some (.readings left)

/-- The candidates of a rule. -/
structure Candidates where
  positions : List Nat
  /-- Whether the time of the rule was over before all keys were scanned. -/
  timedOut : Bool
  /-- The time that is left. -/
  timer : Timer
  deriving DecidableEq, Repr

/-- The literal that a scan wants in a part of the key, as the mode compares it. -/
def Lookup.anchorFor (mode : CaseMode) (field : KeyField) : Lookup → Option String
  | .literalScan other anchor => if other = field then some (mode.fold anchor) else none
  | .exact | .keyScan => none

/-- Whether a text contains the anchor, if there is one. -/
def containsAnchor (anchor : Option String) (text : String) : Bool :=
  anchor.all fun a ↦ occursIn a.toList text.toList

section Scan

variable {m : Type → Type} [Monad m] {κ : Type}

/-- The positions under the keys that pass a test, as far as the time allows. -/
def scanKeys (accepts : κ → m Bool) : Timer → List (κ × List Nat) → m Candidates
  | timer, [] => return { positions := [], timedOut := false, timer }
  | timer, (key, positions) :: rest =>
    match timer.read with
    | none => return { positions := [], timedOut := true, timer }
    | some timer => do
      let accepted ← accepts key
      let found ← scanKeys accepts timer rest
      return if accepted then { found with positions := positions ++ found.positions } else found

/-- Scans the keys of a table. -/
def Postings.scan (postings : Postings κ) (timer : Timer) (accepts : κ → m Bool) :
    m Candidates :=
  scanKeys accepts timer postings.entries

/-- Whether the name of a call passes a scan. -/
def acceptsName (decide : Decider m) (mode : CaseMode) (patterns : RulePatterns) (lookup : Lookup)
    (name : String) : m Bool := do
  if containsAnchor (lookup.anchorFor mode .member) name then decide patterns.member mode name
  else return false

/-- Whether a type and a name pass a scan; the type is decided only if the plan says so. -/
def acceptsTypedKey (decide : Decider m) (mode : CaseMode) (patterns : RulePatterns)
    (plan : GeneratorPlan) (key : TypedKey) : m Bool := do
  if containsAnchor (plan.lookup.anchorFor mode .baseType) key.baseType
      && containsAnchor (plan.lookup.anchorFor mode .member) key.member then
    match patterns.baseType.filter fun _ ↦ plan.filtersBaseType with
    | some type =>
      if ← decide type mode key.baseType then decide patterns.member mode key.member
      else return false
    | none => decide patterns.member mode key.member
  else return false

/-- The positions that a plan finds, in any order. Looking up a key takes no time. -/
def GeneratorPlan.find (decide : Decider m) (index : Index) (patterns : RulePatterns)
    (timer : Timer) (plan : GeneratorPlan) : m Candidates :=
  let mode := index.mode
  let baseType := (patterns.baseType.map (·.raw)).getD ""
  let member := patterns.member.raw
  let typed := acceptsTypedKey decide mode patterns plan
  let inTime (positions : List Nat) : Candidates := { positions, timedOut := false, timer }
  match plan.target, plan.lookup with
  | .call, .exact => return inTime (index.lookupCall mode member)
  | .typeRead, .exact => return inTime (index.lookupTypeRead mode baseType member)
  | .typeCall, .exact => return inTime (index.lookupTypeCall mode baseType member)
  | .call, lookup => index.tables.call.scan timer (acceptsName decide mode patterns lookup)
  | .typeRead, _ => index.tables.typeRead.scan timer typed
  | .typeCall, _ => index.tables.typeCall.scan timer typed

/-- The candidates that a plan finds for patterns. -/
def GeneratorPlan.candidates (decide : Decider m) (index : Index) (patterns : RulePatterns)
    (timer : Timer) (plan : GeneratorPlan) : m Candidates := do
  let found ← plan.find decide index patterns timer
  return { found with positions := (found.positions.mergeSort (· ≤ ·)).eraseReps }

/-- The candidates of a rule. -/
def CompiledRule.candidates (decide : Decider m) (index : Index) (timer : Timer)
    (rule : CompiledRule) : m Candidates :=
  rule.generator.candidates decide index rule.patterns timer

end Scan

end TaintRules
