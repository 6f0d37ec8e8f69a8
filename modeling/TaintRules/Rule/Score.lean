import TaintRules.Config.Sections
import TaintRules.Rule.Error
import TaintRules.Rule.Patterns

/-!
# Scores

Specificity orders rules: it starts from the tier, falls with each wildcard and rises with each
literal character. Confidence says how sure a match is: it starts from the tier and is adjusted by
what put the rule there. Scores are ordered by their bits, so that every two of them compare.
-/

namespace TaintRules

/-- A double given by its bits. -/
structure Score where
  bits : UInt64
  deriving DecidableEq, Repr

namespace Score

/-- The score with the value of a double. -/
def ofFloat (x : Float) : Score := ⟨x.toBits⟩

/-- The double. -/
def toFloat (score : Score) : Float := Float.ofBits score.bits

/-- The place of the score among all scores: bits with a sign count downward from minus one. -/
def rank (score : Score) : Int :=
  if score.bits.toNat < Nat.pow 2 63 then score.bits.toNat
  else (Nat.pow 2 63 : Int) - 1 - score.bits.toNat

end Score

/-- How specific a rule is. -/
structure Specificity where
  score : Score
  wildcards : Nat
  literals : Nat
  deriving DecidableEq, Repr

/-- How sure a match of a rule is. -/
structure Confidence where
  base : Float
  adjustment : Float
  value : Float
  threshold : Float
  deriving Repr

/-- Whether matches are sure enough to be reported. -/
def Confidence.shouldReport (confidence : Confidence) : Bool :=
  confidence.threshold ≤ confidence.value

/-- The specificity that a tier starts from. -/
def TierSettings.specificity (tiers : TierSettings) : Tier → Float
  | .tier1 => tiers.tier1Specificity
  | .tier2 => tiers.tier2Specificity
  | .tier3 => tiers.tier3Specificity

/-- The confidence that a tier starts from. -/
def TierSettings.confidence (tiers : TierSettings) : Tier → Float
  | .tier1 => tiers.tier1Confidence
  | .tier2 => tiers.tier2Confidence
  | .tier3 => tiers.tier3Confidence

/-- What the type of a rule's patterns changes in its confidence. -/
def ConfidenceSettings.adjustment (settings : ConfidenceSettings) : Tier → PatternType → Float
  | .tier2, .suffix => settings.tier2SuffixBonus
  | .tier2, .leading => settings.tier2PrefixBonus
  | .tier2, .contains => settings.tier2ContainsBonus
  | .tier3, .trigram => -settings.tier3TrigramPenalty
  | .tier3, .fallback => -settings.tier3FallbackPenalty
  | _, _ => 0.0

/-- The specificity of a rule. -/
def Specificity.of (tiers : TierSettings) (tier : Tier) (patterns : RulePatterns) : Specificity :=
  let wildcards := patterns.wildcardCount
  let literals := patterns.literalLength
  { score := .ofFloat (tiers.specificity tier - tiers.wildcardPenalty * Float.ofNat wildcards
      + tiers.literalBonus * Float.ofNat literals)
    wildcards, literals }

/-- How far confidence may leave the range from zero to one before it is refused. -/
def Confidence.slack : Float := 1e-9

/-- The nearest number from zero to one. -/
def Confidence.clamp (x : Float) : Float := if x < 0.0 then 0.0 else if 1.0 < x then 1.0 else x

/-- The confidence of a rule. -/
def Confidence.of (ruleId : String) (tiers : TierSettings) (settings : ConfidenceSettings)
    (tier : Tier) (type : PatternType) : Except CompileError Confidence :=
  let base := tiers.confidence tier
  let adjustment := settings.adjustment tier type
  let value := base + adjustment
  if value.isNaN || value < -slack || 1.0 + slack < value then
    .error (.confidenceOutOfRange ruleId value base adjustment)
  else
    .ok { base, adjustment, value := clamp value, threshold := settings.minReportThreshold }

end TaintRules
