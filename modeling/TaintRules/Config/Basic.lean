import TaintRules.Config.Preset
import TaintRules.Config.Sections

/-!
# Configurations

A configuration starts from a preset; its groups of settings may then be changed, by hand or from a
document. Only a configuration that passed its checks is used to compile and to run rules.
-/

namespace TaintRules

/-- The settings and where they came from, not checked yet. -/
structure Config where
  preset : Preset
  tiers : TierSettings
  confidence : ConfidenceSettings
  runtime : RuntimeSettings
  provenance : Provenance
  deriving DecidableEq, Repr

namespace Config

/-- The configuration of a preset. -/
def ofPreset (preset : Preset) : Config where
  preset := preset
  tiers := .standard
  confidence := .ofPreset preset
  runtime := .ofPreset preset
  provenance := { preset }

/-- Changes the scores of the tiers by hand. -/
def updateTiers (c : Config) (change : TierSettings → TierSettings) : Config :=
  { c with tiers := change c.tiers, provenance := c.provenance.track "tiers.*" .builder }

/-- Changes confidence and reporting by hand. -/
def updateConfidence (c : Config) (change : ConfidenceSettings → ConfidenceSettings) : Config :=
  { c with
    confidence := change c.confidence
    provenance := c.provenance.track "confidence.*" .builder }

/-- Changes the bounds of a run by hand. -/
def updateRuntime (c : Config) (change : RuntimeSettings → RuntimeSettings) : Config :=
  { c with runtime := change c.runtime, provenance := c.provenance.track "runtime.*" .builder }

/-- Checks the groups in order and reports the first fault. -/
def validate (c : Config) : Except ConfigError Unit := do
  c.tiers.validate
  c.confidence.validate
  c.runtime.validate

/-- Every preset passes the checks. -/
theorem validate_ofPreset (preset : Preset) : (ofPreset preset).validate = .ok () := by
  cases preset <;> rfl

/-- The configuration in one line. -/
def describe (c : Config) : String :=
  c.preset.name ++ " [candidates<=" ++ toString c.runtime.maxCandidatesPerRule.toNat
    ++ ", budget=" ++ toString c.runtime.maxExecutionTimeMs.toNat
    ++ "ms, report>=" ++ Decimal.Format.message.text c.confidence.minReportThreshold
    ++ ", case_sensitive=" ++ toString c.runtime.caseSensitive ++ "]"

/-- Whether two configurations have the same preset and settings. -/
def sameSettings (a b : Config) : Bool :=
  a.preset == b.preset && a.tiers == b.tiers && a.confidence == b.confidence
    && a.runtime == b.runtime

end Config

/-- A configuration that passed its checks. -/
structure ValidConfig extends Config where
  valid : toConfig.validate = .ok ()

namespace ValidConfig

/-- The configuration of a preset. -/
def ofPreset (preset : Preset) : ValidConfig := ⟨.ofPreset preset, Config.validate_ofPreset preset⟩

/-- The configuration, if it passes its checks. -/
def ofConfig (c : Config) : Except ConfigError ValidConfig :=
  match h : c.validate with
  | .ok () => .ok ⟨c, h⟩
  | .error e => .error e

end ValidConfig

end TaintRules
