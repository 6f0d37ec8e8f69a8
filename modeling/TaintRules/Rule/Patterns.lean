import TaintRules.Entity.Basic
import TaintRules.Pattern.Basic
import TaintRules.Rule.Atom
import TaintRules.Total

/-!
# The patterns of a rule and their tier

A rule has a pattern for the name of the member and may have one for the type of the receiver. The
tier says how precise the patterns are: the first for exact names, the second for one wildcard
shape, the third for everything else.
-/

namespace TaintRules

/-- What a rule matches: calls or reads, the type of the receiver, and the name of the member. -/
structure RulePatterns where
  target : EntityKind
  baseType : Option Pattern
  member : Pattern
  deriving DecidableEq, Repr

namespace RulePatterns

/-- The patterns, the one for the type first. -/
def all (patterns : RulePatterns) : List Pattern := patterns.baseType.toList ++ [patterns.member]

/-- The number of wildcards. -/
def wildcardCount (patterns : RulePatterns) : Nat := total (patterns.all.map (·.wildcardCount))

/-- The number of characters that are no wildcard. -/
def literalLength (patterns : RulePatterns) : Nat := total (patterns.all.map (·.literalLength))

end RulePatterns

/-- How precise a rule is. -/
inductive Tier where
  | tier1
  | tier2
  | tier3
  deriving DecidableEq, Repr

/-- What put a rule into its tier. -/
inductive PatternType where
  | exact
  | suffix
  | leading
  | contains
  | general
  | trigram
  | fallback
  deriving DecidableEq, Repr

/-- The tiers by name. -/
def Tier.table : List (String × Tier) := [("tier1", .tier1), ("tier2", .tier2), ("tier3", .tier3)]

/-- The name of the tier. -/
def Tier.name : Tier → String
  | .tier1 => "tier1"
  | .tier2 => "tier2"
  | .tier3 => "tier3"

/-- The name of the type. -/
def PatternType.name : PatternType → String
  | .exact => "exact"
  | .suffix => "suffix"
  | .leading => "prefix"
  | .contains => "contains"
  | .general => "general"
  | .trigram => "trigram"
  | .fallback => "fallback"

/-- The types by name. -/
def PatternType.table : List (String × PatternType) :=
  [.exact, .suffix, .leading, .contains, .general, .trigram, .fallback].map
    fun type ↦ (type.name, type)

/-- The tier of patterns with the given shapes, none of which is exact. -/
def Tier.ofShapes : List Shape → Tier × PatternType
  | [] => (.tier1, .exact)
  | [.suffix _] => (.tier2, .suffix)
  | [.leading _] => (.tier2, .leading)
  | [.contains _] => (.tier2, .contains)
  | _ => (.tier3, .general)

/-- The tier of a rule. A declared strategy puts it into the third one. -/
def RulePatterns.classify (patterns : RulePatterns) : Strategy → Tier × PatternType
  | .auto => Tier.ofShapes ((patterns.all.map (·.shape)).filter (· ≠ .exact))
  | .trigram => (.tier3, .trigram)
  | .fuzzy | .fallback => (.tier3, .fallback)

end TaintRules
