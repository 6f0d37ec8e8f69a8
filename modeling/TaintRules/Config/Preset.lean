import TaintRules.Text.Characters

/-!
# Presets

A preset fixes the bounds of a run and the confidence from which matches are reported. Scoring is
the same under every preset.
-/

namespace TaintRules

/-- The named starting points of a configuration. -/
inductive Preset where
  | fast
  | balanced
  | thorough
  | custom
  deriving DecidableEq, Repr

namespace Preset

/-- The presets, in the order in which messages list them. -/
def all : List Preset := [.fast, .balanced, .thorough, .custom]

/-- The name of the preset. -/
def name : Preset → String
  | .fast => "fast"
  | .balanced => "balanced"
  | .thorough => "thorough"
  | .custom => "custom"

/-- How many candidates a rule may have. -/
def maxCandidates : Preset → UInt64
  | .fast => 1000
  | .balanced | .custom => 10000
  | .thorough => 100000

/-- How many milliseconds a rule may take. -/
def budgetMillis : Preset → UInt64
  | .fast => 100
  | .balanced | .custom => 1000
  | .thorough => 10000

/-- The confidence from which a match is reported. -/
def reportThreshold : Preset → Float
  | .fast => 0.8
  | .balanced | .custom => 0.7
  | .thorough => 0.5

/-- The preset with a name, in any case of ASCII letters and with blanks around it. -/
def parse? (s : String) : Option Preset :=
  all.find? fun preset ↦ preset.name == Text.asciiLower (Text.trim s)

end Preset

/-! ### Provenance of settings

For each group of settings that was changed, where its values came from. Groups are listed in
ascending order of their names; a group that was not changed comes from the preset. -/

/-- Where settings came from. -/
inductive ConfigSource where
  | preset (preset : Preset)
  | yaml (path : String)
  | builder
  deriving DecidableEq, Repr

/-- The source in words. -/
def ConfigSource.describe : ConfigSource → String
  | .preset p => "preset:" ++ p.name
  | .yaml path => "yaml:" ++ path
  | .builder => "builder"

/-- The preset, and the source of each group that was changed. -/
structure Provenance where
  preset : Preset
  sources : List (String × ConfigSource) := []
  deriving DecidableEq, Repr

namespace Provenance

/-- Notes a source in an ascending list, in place of an older one. -/
def insertSource (field : String) (source : ConfigSource) :
    List (String × ConfigSource) → List (String × ConfigSource)
  | [] => [(field, source)]
  | (other, old) :: rest =>
    if field = other then (field, source) :: rest
    else if field < other then (field, source) :: (other, old) :: rest
    else (other, old) :: insertSource field source rest

/-- Notes where the settings of a field came from. -/
def track (p : Provenance) (field : String) (source : ConfigSource) : Provenance :=
  { p with sources := insertSource field source p.sources }

/-- Where the settings of a field came from. -/
def sourceOf (p : Provenance) (field : String) : ConfigSource :=
  (p.sources.lookup field).getD (.preset p.preset)

/-- The preset and the sources, one a line. -/
def summary (p : Provenance) : String :=
  "\n".intercalate (("Base preset: " ++ p.preset.name)
    :: p.sources.map fun (field, source) ↦ "  " ++ field ++ " <- " ++ source.describe)

end Provenance

end TaintRules
