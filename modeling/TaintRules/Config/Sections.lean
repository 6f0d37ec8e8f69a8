import TaintRules.Config.Error
import TaintRules.Config.Preset
import TaintRules.Yaml.Section

/-!
# The three groups of settings

A configuration has a group for the scores of the tiers, one for confidence and reporting, and one
for the bounds of a run. Each group has its defaults under a preset, its checks, and its form in a
document.
-/

namespace TaintRules

/-- Base confidence and specificity of each tier, and what wildcards and literals change. -/
structure TierSettings where
  tier1Confidence : Float
  tier2Confidence : Float
  tier3Confidence : Float
  tier1Specificity : Float
  tier2Specificity : Float
  tier3Specificity : Float
  /-- Taken off for each wildcard. -/
  wildcardPenalty : Float
  /-- Added for each literal character. -/
  literalBonus : Float
  deriving BEq, DecidableEq, Repr

/-- Adjustments of confidence, the reporting threshold, and the factor for weaker evidence. -/
structure ConfidenceSettings where
  tier2SuffixBonus : Float
  tier2PrefixBonus : Float
  tier2ContainsBonus : Float
  tier3TrigramPenalty : Float
  tier3FallbackPenalty : Float
  minReportThreshold : Float
  guardMultiplier : Float
  deriving BEq, DecidableEq, Repr

/-- The bounds of a run. -/
structure RuntimeSettings where
  maxCandidatesPerRule : UInt64
  /-- The time that a rule may take; none is left when it is zero. -/
  maxExecutionTimeMs : UInt64
  patternCacheSize : UInt64
  /-- How long an index is kept; it is not kept when it is zero. -/
  indexCacheTtlMs : UInt64
  caseSensitive : Bool
  /-- How many matches of one entity are reported; all of them when there is no bound. -/
  maxMatchesPerEntity : Option UInt64
  parallelBatches : Bool
  deriving BEq, DecidableEq, Repr

/-- Refuses a value that is no number or lies outside the closed range. -/
def checkRange (field : String) (value low high : Float) (hint : String) :
    Except ConfigError Unit :=
  if value.isNaN || value < low || high < value then
    let text := Decimal.Format.message.text
    .error (.outOfRange field (text value) (text low) (text high) hint)
  else .ok ()

/-- Refuses a word outside the closed range. -/
def checkWord (field : String) (value low high : UInt64) (hint : String) :
    Except ConfigError Unit :=
  if value < low || high < value then
    let text (n : UInt64) := toString n.toNat
    .error (.outOfRange field (text value) (text low) (text high) hint)
  else .ok ()

namespace TierSettings

/-- The scores, which are the same under every preset. -/
def standard : TierSettings where
  tier1Confidence := 1.0
  tier2Confidence := 0.85
  tier3Confidence := 0.6
  tier1Specificity := 100.0
  tier2Specificity := 80.0
  tier3Specificity := 50.0
  wildcardPenalty := 10.0
  literalBonus := 0.5

/-- Checks the ranges, and that higher tiers do not score lower. -/
def validate (s : TierSettings) : Except ConfigError Unit := do
  let probability := "Base confidence is a probability"
  checkRange "tier1_confidence" s.tier1Confidence 0.0 1.0 probability
  checkRange "tier2_confidence" s.tier2Confidence 0.0 1.0 probability
  checkRange "tier3_confidence" s.tier3Confidence 0.0 1.0 probability
  if !(s.tier2Confidence ≤ s.tier1Confidence && s.tier3Confidence ≤ s.tier2Confidence) then
    let text := Decimal.Format.message.text
    throw (.ordering
      ("tier confidences " ++ text s.tier1Confidence ++ " / " ++ text s.tier2Confidence
        ++ " / " ++ text s.tier3Confidence ++ " are not monotonic")
      "keep tier1_confidence >= tier2_confidence >= tier3_confidence")
  let nonNegative := "Specificity base must be non-negative"
  checkRange "tier1_specificity" s.tier1Specificity 0.0 10000.0 nonNegative
  checkRange "tier2_specificity" s.tier2Specificity 0.0 10000.0 nonNegative
  checkRange "tier3_specificity" s.tier3Specificity 0.0 10000.0 nonNegative
  if !(s.tier2Specificity ≤ s.tier1Specificity && s.tier3Specificity ≤ s.tier2Specificity) then
    throw (.ordering "tier specificity bases are not monotonic"
      "keep tier1_specificity >= tier2_specificity >= tier3_specificity")
  checkRange "wildcard_penalty" s.wildcardPenalty 0.0 1000.0 "Penalty must be non-negative"
  checkRange "literal_bonus" s.literalBonus 0.0 100.0 "Bonus must be non-negative"

end TierSettings

namespace ConfidenceSettings

/-- The settings under a preset. -/
def ofPreset (preset : Preset) : ConfidenceSettings where
  tier2SuffixBonus := 0.05
  tier2PrefixBonus := 0.03
  tier2ContainsBonus := 0.0
  tier3TrigramPenalty := 0.1
  tier3FallbackPenalty := 0.2
  minReportThreshold := preset.reportThreshold
  guardMultiplier := 0.9

/-- Checks the ranges. -/
def validate (s : ConfidenceSettings) : Except ConfigError Unit := do
  let magnitude := "Adjustments are magnitudes in [0, 1]"
  checkRange "tier2_suffix_bonus" s.tier2SuffixBonus 0.0 1.0 magnitude
  checkRange "tier2_prefix_bonus" s.tier2PrefixBonus 0.0 1.0 magnitude
  checkRange "tier2_contains_bonus" s.tier2ContainsBonus 0.0 1.0 magnitude
  checkRange "tier3_trigram_penalty" s.tier3TrigramPenalty 0.0 1.0 magnitude
  checkRange "tier3_fallback_penalty" s.tier3FallbackPenalty 0.0 1.0 magnitude
  checkRange "min_report_threshold" s.minReportThreshold 0.0 1.0
    "Reporting threshold is a probability"
  if s.guardMultiplier.isNaN || s.guardMultiplier ≤ 0.0 || 1.0 < s.guardMultiplier then
    throw (.outOfRange "guard_multiplier" (Decimal.Format.message.text s.guardMultiplier)
      "0 (exclusive)" "1" "Guarded evidence can only lower confidence")

end ConfidenceSettings

namespace RuntimeSettings

/-- The bounds under a preset. -/
def ofPreset (preset : Preset) : RuntimeSettings where
  maxCandidatesPerRule := preset.maxCandidates
  maxExecutionTimeMs := preset.budgetMillis
  patternCacheSize := 1000
  indexCacheTtlMs := 60000
  caseSensitive := false
  maxMatchesPerEntity := none
  parallelBatches := true

/-- Checks the ranges. -/
def validate (s : RuntimeSettings) : Except ConfigError Unit := do
  checkWord "max_candidates_per_rule" s.maxCandidatesPerRule 1 10000000
    "Candidate bound must be positive"
  checkWord "max_execution_time_ms" s.maxExecutionTimeMs 0 3600000
    "Per-rule budget should be at most 1 hour"
  checkWord "pattern_cache_size" s.patternCacheSize 1 1000000
    "Pattern cache needs at least one slot"
  checkWord "index_cache_ttl_ms" s.indexCacheTtlMs 0 86400000
    "Index reuse window should be at most one day"
  if s.maxMatchesPerEntity = some 0 then
    throw (.invalid "max_matches_per_entity must be at least 1 (omit it to report all matches)")

end RuntimeSettings

namespace Yaml

/-- A setting that is a double. -/
def floatSetting (name : String) (get : σ → Float) (set : Float → σ → σ) : Setting σ :=
  ⟨name, fun value s ↦ (readFloat value).map (set · s), fun s ↦ some (.float (get s))⟩

/-- A setting that is a word. -/
def wordSetting (name expected : String) (get : σ → UInt64) (set : UInt64 → σ → σ) : Setting σ :=
  ⟨name, fun value s ↦ (readWord expected value).map (set · s),
    fun s ↦ some (.int (get s).toNat)⟩

/-- A setting that is a truth value. -/
def boolSetting (name : String) (get : σ → Bool) (set : Bool → σ → σ) : Setting σ :=
  ⟨name, fun value s ↦ (readBool value).map (set · s), fun s ↦ some (.bool (get s))⟩

/-- A setting that is a word or missing; it is not written when it is missing. -/
def optionalWordSetting (name expected : String) (get : σ → Option UInt64)
    (set : Option UInt64 → σ → σ) : Setting σ :=
  ⟨name, fun value s ↦ (readOptional (readWord expected) value).map (set · s),
    fun s ↦ (get s).map fun n ↦ .int n.toNat⟩

/-- The scores of the tiers in a document. -/
def tierSection : Section TierSettings where
  title := "struct TierConfig"
  defaults := .standard
  settings := [
    floatSetting "tier1_confidence" (·.tier1Confidence) fun v s ↦ { s with tier1Confidence := v },
    floatSetting "tier2_confidence" (·.tier2Confidence) fun v s ↦ { s with tier2Confidence := v },
    floatSetting "tier3_confidence" (·.tier3Confidence) fun v s ↦ { s with tier3Confidence := v },
    floatSetting "tier1_specificity" (·.tier1Specificity)
      fun v s ↦ { s with tier1Specificity := v },
    floatSetting "tier2_specificity" (·.tier2Specificity)
      fun v s ↦ { s with tier2Specificity := v },
    floatSetting "tier3_specificity" (·.tier3Specificity)
      fun v s ↦ { s with tier3Specificity := v },
    floatSetting "wildcard_penalty" (·.wildcardPenalty) fun v s ↦ { s with wildcardPenalty := v },
    floatSetting "literal_bonus" (·.literalBonus) fun v s ↦ { s with literalBonus := v }]

/-- Confidence and reporting in a document. -/
def confidenceSection : Section ConfidenceSettings where
  title := "struct ConfidenceConfig"
  defaults := .ofPreset .balanced
  settings := [
    floatSetting "tier2_suffix_bonus" (·.tier2SuffixBonus)
      fun v s ↦ { s with tier2SuffixBonus := v },
    floatSetting "tier2_prefix_bonus" (·.tier2PrefixBonus)
      fun v s ↦ { s with tier2PrefixBonus := v },
    floatSetting "tier2_contains_bonus" (·.tier2ContainsBonus)
      fun v s ↦ { s with tier2ContainsBonus := v },
    floatSetting "tier3_trigram_penalty" (·.tier3TrigramPenalty)
      fun v s ↦ { s with tier3TrigramPenalty := v },
    floatSetting "tier3_fallback_penalty" (·.tier3FallbackPenalty)
      fun v s ↦ { s with tier3FallbackPenalty := v },
    floatSetting "min_report_threshold" (·.minReportThreshold)
      fun v s ↦ { s with minReportThreshold := v },
    floatSetting "guard_multiplier" (·.guardMultiplier) fun v s ↦ { s with guardMultiplier := v }]

/-- The bounds of a run in a document. -/
def runtimeSection : Section RuntimeSettings where
  title := "struct RuntimeConfig"
  defaults := .ofPreset .balanced
  settings := [
    wordSetting "max_candidates_per_rule" "usize" (·.maxCandidatesPerRule)
      fun v s ↦ { s with maxCandidatesPerRule := v },
    wordSetting "max_execution_time_ms" "u64" (·.maxExecutionTimeMs)
      fun v s ↦ { s with maxExecutionTimeMs := v },
    wordSetting "pattern_cache_size" "usize" (·.patternCacheSize)
      fun v s ↦ { s with patternCacheSize := v },
    wordSetting "index_cache_ttl_ms" "u64" (·.indexCacheTtlMs)
      fun v s ↦ { s with indexCacheTtlMs := v },
    boolSetting "case_sensitive" (·.caseSensitive) fun v s ↦ { s with caseSensitive := v },
    optionalWordSetting "max_matches_per_entity" "usize" (·.maxMatchesPerEntity)
      fun v s ↦ { s with maxMatchesPerEntity := v },
    boolSetting "parallel_batches" (·.parallelBatches)
      fun v s ↦ { s with parallelBatches := v }]

end Yaml

end TaintRules
