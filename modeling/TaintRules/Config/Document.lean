import TaintRules.Config.Basic
import TaintRules.Yaml.Resolve
import TaintRules.Yaml.Value

/-!
# Configurations as documents

A configuration document names its version and preset and may override settings. A setting that it
gives replaces the one of the preset; all others stay as the preset has them. The document that is
exported gives every setting.
-/

namespace TaintRules

/-- The groups of settings in a document that are given at all. -/
structure Overrides where
  tiers : Option TierSettings := none
  confidence : Option ConfidenceSettings := none
  runtime : Option RuntimeSettings := none

/-- What a document says, with the settings that it does not give at their defaults. -/
structure ConfigDocument where
  version : Option Nat := none
  preset : Option String := none
  overrides : Option Overrides := none

namespace Yaml

/-- A group of settings that may be missing. -/
def groupSetting (name : String) (group : Section τ) (set : Option τ → σ → σ) : Setting σ :=
  ⟨name, fun value s ↦ (readOptional group.read value).map (set · s), fun _ ↦ none⟩

/-- The overrides of a document. -/
def overridesSection : Section Overrides where
  title := "struct ConfigOverrides"
  defaults := {}
  settings := [
    groupSetting "tiers" tierSection fun v s ↦ { s with tiers := v },
    groupSetting "confidence" confidenceSection fun v s ↦ { s with confidence := v },
    groupSetting "runtime" runtimeSection fun v s ↦ { s with runtime := v }]

/-- A configuration document. -/
def documentSection : Section ConfigDocument where
  title := "struct ConfigExportV1"
  defaults := {}
  settings := [
    ⟨"version", fun value s ↦
      (readBelow UInt32.size "u32" value).map fun v ↦ { s with version := some v }, fun _ ↦ none⟩,
    ⟨"preset", fun value s ↦
      (readText value).map fun v ↦ { s with preset := some v }, fun _ ↦ none⟩,
    groupSetting "overrides" overridesSection fun v s ↦ { s with overrides := v }]

end Yaml

namespace Config

/-- The version of the documents that are read and written. -/
def documentVersion : Nat := 1

/-- The settings of a document over those of its preset, not checked yet. `origin` is where the
document came from. -/
def merge (origin : String) (document : Yaml.Value) (preset : Preset) (overrides : Overrides) :
    Except SchemaError Config := do
  let given (name : String) : Option Yaml.Value := (document.get? "overrides").bind (·.get? name)
  let mut c := ofPreset preset
  if overrides.tiers.isSome then
    c := { c with
      tiers := ← Yaml.tierSection.overlay c.tiers (given "tiers")
      provenance := c.provenance.track "tiers.*" (.yaml origin) }
  if overrides.confidence.isSome then
    c := { c with
      confidence := ← Yaml.confidenceSection.overlay c.confidence (given "confidence")
      provenance := c.provenance.track "confidence.*" (.yaml origin) }
  if overrides.runtime.isSome then
    c := { c with
      runtime := ← Yaml.runtimeSection.overlay c.runtime (given "runtime")
      provenance := c.provenance.track "runtime.*" (.yaml origin) }
  return c

/-- Wraps the error of a document that has the wrong shape. -/
def shapeError (e : SchemaError) : ConfigError := .document (.shape e)

/-- The configuration of a document before its checks. -/
def ofDocument (origin : String) (document : Yaml.Value) : Except ConfigError Config := do
  let content ← (Yaml.documentSection.read document).mapError shapeError
  let some version := content.version
    | throw (shapeError (.missingField "version"))
  let some name := content.preset
    | throw (shapeError (.missingField "preset"))
  if version ≠ documentVersion then throw (.unsupportedVersion version)
  let some preset := Preset.parse? name
    | throw (.unknownPreset name)
  (merge origin document preset (content.overrides.getD {})).mapError shapeError

/-- The document that gives every setting of a configuration. -/
def toDocument (c : Config) : Yaml.Value :=
  .mapping [
    (.text "version", .int documentVersion),
    (.text "preset", .text c.preset.name),
    (.text "overrides", .mapping [
      (.text "tiers", .mapping (Yaml.tierSection.entries c.tiers)),
      (.text "confidence", .mapping (Yaml.confidenceSection.entries c.confidence)),
      (.text "runtime", .mapping (Yaml.runtimeSection.entries c.runtime))])]

end Config

namespace ValidConfig

/-- The configuration of a document. -/
def ofDocument (origin : String) (document : Yaml.Value) : Except ConfigError ValidConfig := do
  ofConfig (← Config.ofDocument origin document)

/-- The balanced preset passes its checks. -/
def standard : ValidConfig := ⟨Config.ofPreset .balanced, by rfl⟩

end ValidConfig

/-! ### Configurations as texts

A configuration may be loaded from a text or from a file, and is exported as a text. -/

/-- The document that exports a configuration, as a text. -/
def Config.toText (c : Config) : String := c.toDocument.write

namespace ValidConfig

/-- Where the settings of a document that is not in a file came from. -/
def inlineOrigin : String := "<inline>"

/-- The configuration that a text from `origin` writes. -/
def ofText (text : String) (origin : String := inlineOrigin) : Except ConfigError ValidConfig := do
  let document ← (Yaml.Value.ofText text).mapError .document
  ofDocument origin document

/-- The configuration that a file holds, given its content if it exists. -/
def ofFile (path : String) (content : Option ByteArray) : Except ConfigError ValidConfig := do
  let some bytes := content | throw (.file .notFound)
  let some text := String.fromUTF8? bytes | throw (.file .notText)
  ofText text path

end ValidConfig

/-- Whether the exported text of a configuration loads as the same settings. -/
def Config.reloads (c : Config) : Bool :=
  match ValidConfig.ofText c.toText with
  | .ok loaded => loaded.toConfig.sameSettings c
  | .error _ => false

end TaintRules
