import TaintRules.Schema.Error

/-!
# Configuration errors

A configuration is refused because a setting is out of range, because settings contradict each
other, because its document cannot be read or has the wrong shape, or because its file cannot be
read.
-/

namespace TaintRules

/-- Why a file could not be read. -/
inductive FileError where
  | notFound
  | notText
  deriving DecidableEq, Repr

/-- The wording of the error. -/
def FileError.message : FileError → String
  | .notFound => "No such file or directory (os error 2)"
  | .notText => "stream did not contain valid UTF-8"

/-- Why a YAML document could not be used. -/
inductive DocumentError where
  /-- The text is no YAML document, or uses a feature that is not allowed. -/
  | malformed
  | severalDocuments
  | tooManyAliases
  | shape (error : SchemaError)

/-- The wording of the error, where it has one. -/
def DocumentError.message? : DocumentError → Option String
  | .malformed => none
  | .severalDocuments =>
    some "deserializing from YAML containing more than one document is not supported"
  | .tooManyAliases => some "repetition limit exceeded"
  | .shape error => error.message? .yaml

/-- Why a configuration is refused. -/
inductive ConfigError where
  | outOfRange (field value low high hint : String)
  | ordering (issue fix : String)
  | unsupportedVersion (version : Nat)
  | unknownPreset (name : String)
  | file (error : FileError)
  | document (error : DocumentError)
  | invalid (reason : String)

/-- The wording of the error, where it has one. -/
def ConfigError.message? : ConfigError → Option String
  | .outOfRange field value low high hint =>
    some s!"Invalid range for field '{field}': {value} not in {low}..={high}. {hint}"
  | .ordering issue fix => some s!"Invalid ordering: {issue}. Fix: {fix}"
  | .unsupportedVersion version =>
    some s!"Unsupported configuration version {version}. Supported versions: 1"
  | .unknownPreset name =>
    some s!"Unknown preset '{name}'. Valid presets: fast, balanced, thorough, custom"
  | .file error => some ("IO error: " ++ error.message)
  | .document error => error.message?.map ("YAML parsing error: " ++ ·)
  | .invalid reason => some ("Validation error: " ++ reason)

end TaintRules
