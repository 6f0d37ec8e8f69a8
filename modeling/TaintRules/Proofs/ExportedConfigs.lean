import TaintRules.Proofs.DocumentOverrides

/-!
# Exported configurations

The document that exports a configuration gives every setting, but for the bound on matches where
there is none. No preset has such a bound. So the settings that are laid over the preset again are
those that were exported, and they pass the checks that they passed before.
-/

namespace TaintRules

open Yaml

/-- A preset is found by its name. -/
@[simp] theorem Preset.parse?_name (preset : Preset) : Preset.parse? preset.name = some preset := by
  cases preset <;> decide

namespace Config

/-- The groups of the exported document. -/
def exportedGroups (c : Config) : List (Value × Value) := [
  (.text "tiers", .mapping (tierSection.entries c.tiers)),
  (.text "confidence", .mapping (confidenceSection.entries c.confidence)),
  (.text "runtime", .mapping (runtimeSection.entries c.runtime))]

/-- Reading an entry of a setting that was not read before. -/
private theorem readEntries_text {σ : Type} {group : Section σ} {x : Setting σ} {name : String}
    {value : Value} {seen : List String} {s t : σ} (rest : List (Value × Value))
    (hf : group.settings.find? (·.name == name) = some x) (hs : name ∉ seen)
    (hr : x.read value s = .ok t) :
    group.readEntries seen s ((.text name, value) :: rest) =
      group.readEntries (name :: seen) t rest := by
  rw [Section.readEntries_of_find? hf (Value.name?_text name), if_neg hs, hr]
  rfl

/-- A mapping that is read as a group is read for the name it stands under. -/
private theorem read_groupSetting {σ τ : Type} {group : Section τ} {set : Option τ → σ → σ}
    {entries : List (Value × Value)} {t : τ} (name : String)
    (h : group.read (.mapping entries) = .ok t) (s : σ) :
    (groupSetting name group set).read (.mapping entries) s = .ok (set (some t) s) := by
  change ((group.read (.mapping entries)).map some).map (set · s) = _
  rw [h]
  rfl

/-- The groups are read as they are. -/
theorem read_exportedGroups (c : Config) :
    overridesSection.read (.mapping c.exportedGroups) =
      .ok ⟨some c.tiers, some c.confidence, some c.runtime⟩ := by
  change overridesSection.readEntries [] {} _ = _
  have ht := lawful_tierSection.read_entries c.tiers
  have hc := lawful_confidenceSection.read_entries c.confidence
  have hr := lawful_runtimeSection.read_entries c.runtime
  rw [exportedGroups, readEntries_text _ rfl (by simp) (read_groupSetting _ ht _),
    readEntries_text _ rfl (by simp) (read_groupSetting _ hc _),
    readEntries_text _ rfl (by simp) (read_groupSetting _ hr _)]
  rfl

/-- What the exported document says. -/
theorem read_toDocument (c : Config) :
    documentSection.read c.toDocument =
      .ok ⟨some documentVersion, some c.preset.name,
        some ⟨some c.tiers, some c.confidence, some c.runtime⟩⟩ := by
  change documentSection.readEntries [] {} [
    (.text "version", .int documentVersion),
    (.text "preset", .text c.preset.name),
    (.text "overrides", .mapping c.exportedGroups)] = _
  rw [readEntries_text _ rfl (by simp) rfl, readEntries_text _ rfl (by simp) rfl,
    readEntries_text _ rfl (by simp) (read_groupSetting _ (read_exportedGroups c) _)]
  rfl

/-- The exported document is read as the configuration, from where it now comes. -/
theorem ofDocument_toDocument (c : Config) (origin : String) :
    ofDocument origin c.toDocument =
      .ok { c with provenance := .ofGroups c.preset origin true true true } := by
  rw [ofDocument_eq_merge (read_toDocument c) rfl rfl (Preset.parse?_name c.preset), merge_eq]
  have ht : tierSection.reread .standard (some c.tiers) (c.toDocument.plainGroup? "tiers") =
      .ok c.tiers := lawful_tierSection.overlay_entries (by simp [tierSection])
  have hc : confidenceSection.reread (.ofPreset c.preset) (some c.confidence)
      (c.toDocument.plainGroup? "confidence") = .ok c.confidence :=
    lawful_confidenceSection.overlay_entries (by simp [confidenceSection])
  have hr : runtimeSection.reread (.ofPreset c.preset) (some c.runtime)
      (c.toDocument.plainGroup? "runtime") = .ok c.runtime :=
    lawful_runtimeSection.overlay_entries fun _ hx hs ↦
      -- no preset bounds the matches
      write_runtimeSection_eq_none hx hs rfl
  dsimp only [Option.getD_some]
  rw [ht, hc, hr]
  rfl

end Config

/-- An exported configuration is loaded with the same preset and settings, and exported again as the
same document. -/
theorem ValidConfig.exported_reloads (c : ValidConfig) (origin : String) :
    ∃ loaded, ValidConfig.ofDocument origin c.toDocument = .ok loaded ∧
      loaded.preset = c.preset ∧ loaded.tiers = c.tiers ∧ loaded.confidence = c.confidence ∧
        loaded.runtime = c.runtime ∧ loaded.toDocument = c.toDocument := by
  refine ⟨⟨{ c.toConfig with provenance := .ofGroups c.preset origin true true true }, c.valid⟩,
    ?_, rfl, rfl, rfl, rfl, rfl⟩
  unfold ValidConfig.ofDocument
  rw [Config.ofDocument_toDocument]
  exact ofConfig_eq_ok_iff.mpr rfl

end TaintRules
