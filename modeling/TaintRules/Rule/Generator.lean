import TaintRules.Rule.Error
import TaintRules.Rule.Patterns

/-!
# Plans for candidates

Before a rule is checked, an index gives the entities that may match it. A plan says which index is
asked and how: by its full key, or by a scan over its keys, which a literal of a general pattern
may narrow. Of the plans that a rule admits the cheapest is taken.
-/

namespace TaintRules

/-- The index that a plan asks. -/
inductive IndexTarget where
  | typeCall
  | call
  | typeRead
  deriving DecidableEq, Repr

/-- A part of a key. -/
inductive KeyField where
  | baseType
  | member
  deriving DecidableEq, Repr

/-- How an index is asked. -/
inductive Lookup where
  /-- By the full key. -/
  | exact
  /-- By a scan over all keys. -/
  | keyScan
  /-- By a scan over the keys in which a part contains a literal. -/
  | literalScan (field : KeyField) (anchor : String)
  deriving DecidableEq, Repr

/-- How candidates are found. -/
structure GeneratorPlan where
  target : IndexTarget
  lookup : Lookup
  /-- Whether the lookup already decides the pattern for the type. -/
  filtersBaseType : Bool
  cost : Nat
  estimate : Nat
  /-- The expected share of matchers that are found in their cache. -/
  hitRate : Float
  deriving Repr

/-- The name of the index. -/
def IndexTarget.name : IndexTarget → String
  | .typeCall => "type_call"
  | .call => "call"
  | .typeRead => "type_read"

/-- The name of the part. -/
def KeyField.name : KeyField → String
  | .baseType => "base_type"
  | .member => "member"

/-- The name of the lookup. -/
def Lookup.name : Lookup → String
  | .exact => "exact"
  | .keyScan => "key_scan"
  | .literalScan _ _ => "literal_scan"

namespace GeneratorPlan

/-- The longer of two anchors, the earlier one if they are equally long. -/
def longerAnchor (best : Option (KeyField × String)) (next : KeyField × String) :
    Option (KeyField × String) :=
  match best with
  | some b => if next.2.utf8ByteSize ≤ b.2.utf8ByteSize then some b else some next
  | none => some next

/-- The longest literal of the general patterns, with its part of the key. -/
def anchor? (components : List (KeyField × Pattern)) : Option (KeyField × String) :=
  (components.filterMap fun (field, pattern) ↦
    if pattern.shape = .general then (pattern.longestLiteral? .sensitive).map (field, ·)
    else none).foldl longerAnchor none

/-- A scan, narrowed by a literal of a general pattern if there is one. -/
def scanLookup (components : List (KeyField × Pattern)) : Lookup :=
  match anchor? components with
  | some (field, anchor) => .literalScan field anchor
  | none => .keyScan

/-- The lookup for a key with the given parts. An index by type and member that is asked for the
member only has to be scanned. -/
def lookupFor (target : IndexTarget) (components : List (KeyField × Pattern)) : Lookup :=
  if target ≠ .call ∧ components.length = 1 then scanLookup components
  else if components.all (·.2.isExact) then .exact
  else scanLookup components

/-- The cost of a lookup when deciding the patterns for one key costs `evaluation`. -/
def lookupCost (target : IndexTarget) (evaluation : Nat) : Lookup → Nat
  | .exact => if target = .call then 2 else 1
  | .literalScan _ _ => 8 + evaluation
  | .keyScan => 10 + evaluation

/-- The expected number of candidates of a lookup. -/
def lookupEstimate (target : IndexTarget) : Lookup → Nat
  | .exact => if target = .call then 64 else 16
  | .literalScan _ _ => 1024
  | .keyScan => 256

/-- The plan that asks an index for the given parts of its key; `residual` is a pattern for the
type that is left to check. -/
def make (target : IndexTarget) (components : List (KeyField × Pattern)) (filtersBaseType : Bool)
    (residual : Option Pattern) : GeneratorPlan :=
  let lookup := lookupFor target components
  let evaluation := total (components.map (·.2.shape.evalCost))
  let residualCost := (residual.map (1 + ·.shape.evalCost)).getD 0
  let scansGeneral := lookup ≠ .exact ∧ components.any (·.2.shape = .general)
  { target, lookup, filtersBaseType
    cost := lookupCost target evaluation lookup + residualCost
    estimate := lookupEstimate target lookup
    hitRate := if scansGeneral then 0.95 else 1.0 }

/-- The plans that patterns admit. -/
def options (patterns : RulePatterns) : List GeneratorPlan :=
  let member := (KeyField.member, patterns.member)
  match patterns.target, patterns.baseType with
  | .call, some type =>
    [make .typeCall [(.baseType, type), member] true none, make .call [member] false (some type)]
  | .call, none => [make .call [member] false none]
  | .read, some type => [make .typeRead [(.baseType, type), member] true none]
  | .read, none => [make .typeRead [member] false none]

/-- The cheaper of two plans, the first if they cost the same. -/
def cheaper (best next : GeneratorPlan) : GeneratorPlan :=
  if next.cost < best.cost then next else best

/-- The cheapest plan. Patterns without any literal character are refused, since they would match
every entity. -/
def choose (ruleId : String) (patterns : RulePatterns) : Except CompileError GeneratorPlan :=
  if patterns.literalLength = 0 then
    .error (.noGenerator ruleId "patterns contain no literal text and would match every entity")
  else
    match options patterns with
    | first :: rest => .ok (rest.foldl cheaper first)
    | [] => .error (.noGenerator ruleId ("no index covers " ++ patterns.target.name ++ " rules"))

end GeneratorPlan

end TaintRules
