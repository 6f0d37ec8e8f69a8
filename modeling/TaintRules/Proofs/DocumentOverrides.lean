import TaintRules.Config.Document
import TaintRules.Proofs.ConfigGroups

/-!
# What a document overrides

A document that has the shape of a configuration is read twice: once as a whole, to see its shape,
and once for each group of settings, laid over the group of the preset. Where no key has a tag both
readings see the same: a setting that is given has the value that is given for it, and every other
one that of the preset. The second reading does not see a group whose key has a tag, and takes a
setting whose key has a tag for a further one, which is refused if the preset has the setting.
-/

namespace TaintRules

/-! ### Keys of a document -/

namespace Yaml

namespace Value

/-- The entries of a mapping, behind its tags. -/
def entries (value : Value) : List (Value × Value) :=
  match value.untag with
  | .mapping entries => entries
  | _ => []

/-- The value of the key that writes a name, whatever tags the key has. -/
def member? (value : Value) (name : String) : Option Value := valueOf? name value.entries

/-- No key of the mapping has a tag. -/
def HasPlainKeys (value : Value) : Prop := ∀ entry ∈ value.entries, entry.1.IsPlain

theorem entries_of_untag {value : Value} {entries : List (Value × Value)}
    (h : value.untag = .mapping entries) : value.entries = entries := by
  simp only [Value.entries, h]

/-- Whether a key is a plain text. -/
def isText (name : String) : Value → Bool
  | .text key => key == name
  | _ => false

/-- The value of a plain key is found among the entries. -/
theorem get?_eq (value : Value) (name : String) :
    value.get? name = (value.entries.find? fun entry ↦ entry.1.isText name).map (·.2) := by
  cases hu : value.untag with
  | mapping entries =>
    simp only [get?, Value.entries, hu]
    rfl
  | _ =>
    simp only [get?, Value.entries, hu]
    rfl

private theorem isText_of_isPlain {key : Value} (h : key.IsPlain) (name : String) :
    key.isText name = (key.name? == some name) := by
  obtain ⟨text, rfl⟩ := h
  simp [isText]

/-- Where no key has a tag every value is that of a plain key. -/
theorem HasPlainKeys.get?_eq_member? {value : Value} (h : value.HasPlainKeys) (name : String) :
    value.get? name = value.member? name := by
  rw [get?_eq, member?, valueOf?]
  congr 1
  unfold HasPlainKeys at h
  generalize value.entries = entries at h ⊢
  induction entries with
  | nil => rfl
  | cons entry rest ih =>
    obtain ⟨hp, hr⟩ := List.forall_mem_cons.mp h
    rw [List.find?_cons, List.find?_cons, isText_of_isPlain hp, ih hr]

end Value

/-- A name that is written once has the value that stands beside it. -/
theorem valueOf?_of_mem {key value : Value} {name : String} {entries : List (Value × Value)}
    (hn : (names entries).Nodup) (hm : (key, value) ∈ entries) (hk : key.name? = some name) :
    valueOf? name entries = some value := by
  induction entries with
  | nil => cases hm
  | cons entry rest ih =>
    obtain ⟨first, old⟩ := entry
    rcases List.mem_cons.mp hm with he | hm
    · cases he
      exact valueOf?_cons_self hk
    · have hrest : name ∈ names rest := List.mem_filterMap.mpr ⟨_, hm, hk⟩
      cases hf : first.name? with
      | none =>
        rw [valueOf?_cons_of_ne (by simp [hf])]
        exact ih (by simpa [names, hf] using hn) hm
      | some other =>
        rw [names_cons hf, List.nodup_cons] at hn
        rw [valueOf?_cons_of_ne]
        · exact ih hn.2 hm
        · rw [hf]
          rintro ⟨⟩
          exact hn.1 hrest

/-- If keys write different names, a plain key has the value of its name. -/
theorem Value.member?_of_get? {value found : Value} {name : String}
    (hn : (names value.entries).Nodup) (h : value.get? name = some found) :
    value.member? name = some found := by
  rw [get?_eq] at h
  obtain ⟨⟨key, v⟩, hf, rfl⟩ := Option.map_eq_some_iff.mp h
  refine valueOf?_of_mem hn (List.mem_of_find?_eq_some hf) ?_
  have hk : key.isText name = true := by simpa using List.find?_some hf
  cases key with
  | text text =>
    rw [Value.name?_text]
    exact congrArg some (by simpa [isText] using hk)
  | _ => cases hk

/-! ### What the first reading sees -/

section Shape

variable {σ τ : Type}

/-- A group that is read holds no name twice. -/
theorem Section.nodup_of_read {group : Section σ} {value : Value} {s : σ}
    (h : group.read value = .ok s) : (names value.entries).Nodup := by
  unfold Section.read at h
  split at h
  · next he =>
    rw [Value.entries_of_untag he]
    exact (fits_of_readEntries h).2.1
  · next he =>
    simp only [Value.entries, he]
    exact List.nodup_nil
  · cases h

/-- What was read for a group of settings that may be missing. -/
def ReadAs (group : Section τ) (given : Option Value) (read : Option τ) : Prop :=
  match given with
  | none => read = none
  | some value => readOptional group.read value = .ok read

/-- A group inside another one is read from the value of its name. -/
theorem Section.readAs_of_read {outer : Section σ} {inner : Section τ} {name : String}
    {observe : σ → Option τ} (set : Option τ → σ → σ)
    (hset : ∀ o s, observe (set o s) = o) (hdefault : observe outer.defaults = none)
    (hname : ∀ y ∈ outer.settings, y.name = name → y = groupSetting name inner set)
    (hother : ∀ y ∈ outer.settings, y.name ≠ name →
      ∀ value s t, y.read value s = .ok t → observe t = observe s)
    {value : Value} {s : σ} (h : outer.read value = .ok s) :
    ReadAs inner (value.member? name) (observe s) := by
  unfold Section.read at h
  unfold Value.member?
  split at h
  · next entries he =>
    rw [Value.entries_of_untag he]
    obtain ⟨hnone, hsome⟩ := outer.observe_readEntries hother h
    cases hv : valueOf? name entries with
    | none => exact (hnone hv).trans hdefault
    | some found =>
      obtain ⟨x, hx, hn, u, v, hr, ho⟩ := hsome found hv
      rw [hname x hx hn] at hr
      rw [ho]
      change readOptional inner.read found = .ok (observe v)
      cases hi : readOptional inner.read found with
      | error e =>
        simp only [groupSetting, hi] at hr
        cases hr
      | ok o =>
        simp only [groupSetting, hi] at hr
        cases hr
        exact congrArg Except.ok (hset o u).symm
  · next he =>
    simp only [Value.entries, he]
    cases h
    exact hdefault
  · cases h

end Shape

/-! ### What the second reading does with a group -/

/-- The entries of a mapping without a tag. -/
def openEntries : Option Value → List (Value × Value)
  | some (.mapping entries) => entries
  | _ => []

/-- A group of settings is missing or null, or a mapping without a tag. -/
def IsOpenGroup : Option Value → Prop
  | none | some .null | some (.mapping _) => True
  | _ => False

/-- The group of settings is there and not null. -/
def isGiven : Option Value → Bool
  | none | some .null => false
  | _ => true

section Second

variable {σ : Type} {group : Section σ} {given visible : Option Value} {read : Option σ}

private theorem readOptional_of_ne {τ : Type} (item : Reader τ) {value : Value}
    (h : value ≠ .null) : readOptional item value = (item value).map some := by
  cases value with
  | null => exact absurd rfl h
  | _ => rfl

private theorem isGiven_of_ne {value : Value} (h : value ≠ .null) :
    isGiven (some value) = true := by
  cases value with
  | null => exact absurd rfl h
  | _ => rfl

/-- Nothing was read for a group that is missing or null, and a group for any other. -/
theorem ReadAs.inv (hr : ReadAs group given read) :
    ((given = none ∨ given = some .null) ∧ read = none) ∨
      ∃ value s, given = some value ∧ value ≠ .null ∧ group.read value = .ok s ∧
        read = some s := by
  cases given with
  | none => exact .inl ⟨.inl rfl, hr⟩
  | some value =>
    change readOptional group.read value = .ok read at hr
    by_cases hn : value = .null
    · subst hn
      exact .inl ⟨.inr rfl, (Except.ok.inj hr).symm⟩
    · rw [readOptional_of_ne _ hn] at hr
      cases hv : group.read value with
      | error e =>
        rw [hv] at hr
        cases hr
      | ok s =>
        rw [hv] at hr
        exact .inr ⟨value, s, rfl, hn, hv, (Except.ok.inj hr).symm⟩

/-- A group is read exactly if it is there and not null. -/
theorem ReadAs.isSome_eq (hr : ReadAs group given read) : read.isSome = isGiven given := by
  obtain ⟨rfl | rfl, rfl⟩ | ⟨value, s, rfl, hn, -, rfl⟩ := hr.inv
  · rfl
  · rfl
  · rw [isGiven_of_ne hn]
    rfl

/-- The entries of a group that is read fit and differ in their names. -/
theorem ReadAs.fits (hr : ReadAs group given read) :
    (∀ entry ∈ openEntries given, group.Fits entry) ∧ (names (openEntries given)).Nodup := by
  obtain ⟨rfl | rfl, -⟩ | ⟨value, s, rfl, -, hv, -⟩ := hr.inv
  · simp [openEntries, names]
  · simp [openEntries, names]
  · cases value with
    | mapping entries =>
      obtain ⟨hf, hn, -⟩ := Section.fits_of_readEntries hv
      exact ⟨hf, hn⟩
    | _ => simp [openEntries, names]

/-- The second reading of a group that was read before, if it was there. -/
def Section.reread (group : Section σ) (base : σ) (read : Option σ) (visible : Option Value) :
    Except SchemaError σ :=
  if read.isSome then group.overlay base visible else .ok base

/-- The second reading lays the settings that are visible over `base`, and refuses a key behind a
tag that names a setting of `base`. -/
structure Section.Rereads (group : Section σ) (base : σ) (read : Option σ)
    (visible : Option Value) : Prop where
  laidOver : ¬ group.Clashes base (openEntries visible) →
    ∃ s, group.reread base read visible = .ok s ∧ group.LaidOver base (openEntries visible) s
  refused : group.Clashes base (openEntries visible) →
    ∃ name, group.reread base read visible = .error (.duplicateField name)

/-- Where no entry is visible the group stays as it is. -/
private theorem Section.Rereads.of_unchanged {base : σ}
    (hs : group.reread base read visible = .ok base) (he : openEntries visible = []) :
    group.Rereads base read visible where
  laidOver _ := by
    refine ⟨base, hs, ?_⟩
    simp [he, Section.LaidOver, Setting.LaidOver]
  refused hc := by
    simp [he, Section.Clashes] at hc

/-- The second reading of a group that was read before, of which all or nothing is visible. -/
theorem Section.Lawful.rereads (h : group.Lawful) (base : σ) (hr : ReadAs group given read)
    (hg : IsOpenGroup given) (hv : visible = given ∨ visible = none) :
    group.Rereads base read visible := by
  rcases hv with rfl | rfl
  · have hi := hr.isSome_eq
    match visible, hg with
    | none, _ | some .null, _ =>
      refine .of_unchanged ?_ rfl
      rw [Section.reread, hi]
      rfl
    | some (.mapping entries), _ =>
      have he : group.reread base read (some (.mapping entries)) =
          group.overlay base (some (.mapping entries)) := by
        rw [Section.reread, hi]
        rfl
      obtain ⟨hf, hn⟩ := hr.fits
      obtain ⟨hfree, hclash⟩ := h.overlay_mapping base hf hn
      exact ⟨he ▸ hfree, he ▸ hclash⟩
  · refine .of_unchanged ?_ rfl
    unfold Section.reread
    split
    · exact h.overlay_none
    · rfl

end Second

/-- A setting is the value that a group gives for its name, or else the one that it is without
it. -/
def Follows {α : Type} (group : Option Value) (name : String) (item : Reader α)
    (otherwise actual : α) : Prop :=
  match valueOf? name (openEntries group) with
  | some value => item value = .ok actual
  | none => actual = otherwise

end Yaml

open Yaml

/-! ### Each setting of a group -/

/-- The scores of the tiers follow a group, and `base` where it gives nothing. -/
structure TierSettings.Follows (s : TierSettings) (group : Option Value) (base : TierSettings) :
    Prop where
  tier1Confidence :
    Yaml.Follows group "tier1_confidence" readFloat base.tier1Confidence s.tier1Confidence
  tier2Confidence :
    Yaml.Follows group "tier2_confidence" readFloat base.tier2Confidence s.tier2Confidence
  tier3Confidence :
    Yaml.Follows group "tier3_confidence" readFloat base.tier3Confidence s.tier3Confidence
  tier1Specificity :
    Yaml.Follows group "tier1_specificity" readFloat base.tier1Specificity s.tier1Specificity
  tier2Specificity :
    Yaml.Follows group "tier2_specificity" readFloat base.tier2Specificity s.tier2Specificity
  tier3Specificity :
    Yaml.Follows group "tier3_specificity" readFloat base.tier3Specificity s.tier3Specificity
  wildcardPenalty :
    Yaml.Follows group "wildcard_penalty" readFloat base.wildcardPenalty s.wildcardPenalty
  literalBonus : Yaml.Follows group "literal_bonus" readFloat base.literalBonus s.literalBonus

/-- Confidence and reporting follow a group, and `base` where it gives nothing. -/
structure ConfidenceSettings.Follows (s : ConfidenceSettings) (group : Option Value)
    (base : ConfidenceSettings) : Prop where
  tier2SuffixBonus :
    Yaml.Follows group "tier2_suffix_bonus" readFloat base.tier2SuffixBonus s.tier2SuffixBonus
  tier2PrefixBonus :
    Yaml.Follows group "tier2_prefix_bonus" readFloat base.tier2PrefixBonus s.tier2PrefixBonus
  tier2ContainsBonus :
    Yaml.Follows group "tier2_contains_bonus" readFloat base.tier2ContainsBonus
      s.tier2ContainsBonus
  tier3TrigramPenalty :
    Yaml.Follows group "tier3_trigram_penalty" readFloat base.tier3TrigramPenalty
      s.tier3TrigramPenalty
  tier3FallbackPenalty :
    Yaml.Follows group "tier3_fallback_penalty" readFloat base.tier3FallbackPenalty
      s.tier3FallbackPenalty
  minReportThreshold :
    Yaml.Follows group "min_report_threshold" readFloat base.minReportThreshold
      s.minReportThreshold
  guardMultiplier :
    Yaml.Follows group "guard_multiplier" readFloat base.guardMultiplier s.guardMultiplier

/-- The bounds of a run follow a group, and `base` where it gives nothing. -/
structure RuntimeSettings.Follows (s : RuntimeSettings) (group : Option Value)
    (base : RuntimeSettings) : Prop where
  maxCandidatesPerRule :
    Yaml.Follows group "max_candidates_per_rule" (readWord "usize") base.maxCandidatesPerRule
      s.maxCandidatesPerRule
  maxExecutionTimeMs :
    Yaml.Follows group "max_execution_time_ms" (readWord "u64") base.maxExecutionTimeMs
      s.maxExecutionTimeMs
  patternCacheSize :
    Yaml.Follows group "pattern_cache_size" (readWord "usize") base.patternCacheSize
      s.patternCacheSize
  indexCacheTtlMs :
    Yaml.Follows group "index_cache_ttl_ms" (readWord "u64") base.indexCacheTtlMs
      s.indexCacheTtlMs
  caseSensitive :
    Yaml.Follows group "case_sensitive" readBool base.caseSensitive s.caseSensitive
  maxMatchesPerEntity :
    Yaml.Follows group "max_matches_per_entity" (readOptional (readWord "usize"))
      base.maxMatchesPerEntity s.maxMatchesPerEntity
  parallelBatches :
    Yaml.Follows group "parallel_batches" readBool base.parallelBatches s.parallelBatches

section Follows

variable {group : Option Value}

theorem TierSettings.follows_of_laidOver {base s : TierSettings}
    (h : tierSection.LaidOver base (openEntries group) s) : s.Follows group base := by
  simp only [Section.LaidOver, tierSection, List.forall_mem_cons] at h
  obtain ⟨hc₁, hc₂, hc₃, hs₁, hs₂, hs₃, hp, hb, -⟩ := h
  exact {
    tier1Confidence := (holds_floatSetting fun _ _ ↦ rfl).get_of_laidOver hc₁
    tier2Confidence := (holds_floatSetting fun _ _ ↦ rfl).get_of_laidOver hc₂
    tier3Confidence := (holds_floatSetting fun _ _ ↦ rfl).get_of_laidOver hc₃
    tier1Specificity := (holds_floatSetting fun _ _ ↦ rfl).get_of_laidOver hs₁
    tier2Specificity := (holds_floatSetting fun _ _ ↦ rfl).get_of_laidOver hs₂
    tier3Specificity := (holds_floatSetting fun _ _ ↦ rfl).get_of_laidOver hs₃
    wildcardPenalty := (holds_floatSetting fun _ _ ↦ rfl).get_of_laidOver hp
    literalBonus := (holds_floatSetting fun _ _ ↦ rfl).get_of_laidOver hb }

theorem ConfidenceSettings.follows_of_laidOver {base s : ConfidenceSettings}
    (h : confidenceSection.LaidOver base (openEntries group) s) : s.Follows group base := by
  simp only [Section.LaidOver, confidenceSection, List.forall_mem_cons] at h
  obtain ⟨hs, hp, hc, ht, hf, hr, hg, -⟩ := h
  exact {
    tier2SuffixBonus := (holds_floatSetting fun _ _ ↦ rfl).get_of_laidOver hs
    tier2PrefixBonus := (holds_floatSetting fun _ _ ↦ rfl).get_of_laidOver hp
    tier2ContainsBonus := (holds_floatSetting fun _ _ ↦ rfl).get_of_laidOver hc
    tier3TrigramPenalty := (holds_floatSetting fun _ _ ↦ rfl).get_of_laidOver ht
    tier3FallbackPenalty := (holds_floatSetting fun _ _ ↦ rfl).get_of_laidOver hf
    minReportThreshold := (holds_floatSetting fun _ _ ↦ rfl).get_of_laidOver hr
    guardMultiplier := (holds_floatSetting fun _ _ ↦ rfl).get_of_laidOver hg }

theorem RuntimeSettings.follows_of_laidOver {base s : RuntimeSettings}
    (h : runtimeSection.LaidOver base (openEntries group) s) : s.Follows group base := by
  simp only [Section.LaidOver, runtimeSection, List.forall_mem_cons] at h
  obtain ⟨hc, ht, hp, hi, hs, hm, hb, -⟩ := h
  exact {
    maxCandidatesPerRule := (holds_wordSetting fun _ _ ↦ rfl).get_of_laidOver hc
    maxExecutionTimeMs := (holds_wordSetting fun _ _ ↦ rfl).get_of_laidOver ht
    patternCacheSize := (holds_wordSetting fun _ _ ↦ rfl).get_of_laidOver hp
    indexCacheTtlMs := (holds_wordSetting fun _ _ ↦ rfl).get_of_laidOver hi
    caseSensitive := (holds_boolSetting fun _ _ ↦ rfl).get_of_laidOver hs
    maxMatchesPerEntity := (holds_optionalWordSetting fun _ _ ↦ rfl).get_of_laidOver hm
    parallelBatches := (holds_boolSetting fun _ _ ↦ rfl).get_of_laidOver hb }

end Follows

/-! ### The groups of a document -/

namespace Yaml.Value

/-- A group of settings, whatever tags the keys have that lead to it. -/
def group? (document : Value) (name : String) : Option Value :=
  (document.member? "overrides").bind (·.member? name)

/-- A group of settings that plain keys lead to. -/
def plainGroup? (document : Value) (name : String) : Option Value :=
  (document.get? "overrides").bind (·.get? name)

/-- The names of the groups. -/
def groupNames : List String := ["tiers", "confidence", "runtime"]

/-- The document has the shape of a configuration, of the version that is read, with the preset; and
its groups of settings are missing or null, or mappings without a tag. -/
structure IsConfigOf (document : Value) (preset : Preset) : Prop where
  shape : ∃ content name, documentSection.read document = .ok content ∧
    content.version = some Config.documentVersion ∧ content.preset = some name ∧
      Preset.parse? name = some preset
  groups : ∀ name ∈ groupNames, IsOpenGroup (document.group? name)

/-- No key has a tag, of the document, of its overrides or of their groups. -/
structure IsUntagged (document : Value) : Prop where
  keys : document.HasPlainKeys
  overrides : ∀ value, document.member? "overrides" = some value → value.HasPlainKeys
  groups : ∀ name value, document.group? name = some value → value.HasPlainKeys

/-- In a group that plain keys lead to, a key behind a tag names a setting that the preset has. -/
def Clashes (document : Value) (preset : Preset) : Prop :=
  tierSection.Clashes .standard (openEntries (document.plainGroup? "tiers")) ∨
    confidenceSection.Clashes (.ofPreset preset)
      (openEntries (document.plainGroup? "confidence")) ∨
    runtimeSection.Clashes (.ofPreset preset) (openEntries (document.plainGroup? "runtime"))

variable {document : Value} {content : ConfigDocument}

/-- Where no key has a tag, plain keys lead to every group. -/
theorem IsUntagged.plainGroup?_eq (h : document.IsUntagged) (name : String) :
    document.plainGroup? name = document.group? name := by
  unfold plainGroup? group?
  rw [h.keys.get?_eq_member?]
  cases ho : document.member? "overrides" with
  | none => rfl
  | some value => exact (h.overrides value ho).get?_eq_member? name

/-- Where no key has a tag, none clashes. -/
theorem IsUntagged.not_clashes (h : document.IsUntagged) (preset : Preset) :
    ¬ document.Clashes preset := by
  have plain (name : String) :
      ∀ entry ∈ openEntries (document.plainGroup? name), entry.1.IsPlain := by
    intro entry hm
    rw [h.plainGroup?_eq] at hm
    cases hg : document.group? name with
    | none => simp [hg, openEntries] at hm
    | some value =>
      rw [hg] at hm
      cases value with
      | mapping entries => exact h.groups name _ hg entry hm
      | _ => simp [openEntries] at hm
  rintro (⟨entry, hm, hp, -⟩ | ⟨entry, hm, hp, -⟩ | ⟨entry, hm, hp, -⟩)
  all_goals exact hp (plain _ entry hm)

private theorem observe_of_map {ε α σ β : Type} {observe : σ → β} {b : β} {x : Except ε α}
    {f : α → σ} {t : σ} (hf : ∀ a, observe (f a) = b) (h : x.map f = .ok t) : observe t = b := by
  cases x with
  | error e => cases h
  | ok a =>
    cases h
    exact hf a

theorem readAs_overrides (h : documentSection.read document = .ok content) :
    ReadAs overridesSection (document.member? "overrides") content.overrides := by
  refine Section.readAs_of_read (fun v s ↦ { s with overrides := v }) (fun _ _ ↦ rfl) rfl ?_ ?_ h
  · simp [documentSection, groupSetting]
  · simp only [documentSection, List.forall_mem_cons]
    refine ⟨fun _ _ _ _ ↦ ?_, fun _ _ _ _ ↦ ?_, ?_, by simp⟩
    · exact observe_of_map fun _ ↦ rfl
    · exact observe_of_map fun _ ↦ rfl
    · simp [groupSetting]

theorem readAs_tiers {overrides : Overrides}
    (h : overridesSection.read document = .ok overrides) :
    ReadAs tierSection (document.member? "tiers") overrides.tiers := by
  refine Section.readAs_of_read (fun v s ↦ { s with tiers := v }) (fun _ _ ↦ rfl) rfl ?_ ?_ h
  · simp [overridesSection, groupSetting]
  · simp only [overridesSection, List.forall_mem_cons]
    refine ⟨by simp [groupSetting], fun _ _ _ _ ↦ ?_, fun _ _ _ _ ↦ ?_, by simp⟩
    all_goals exact observe_of_map fun _ ↦ rfl

theorem readAs_confidence {overrides : Overrides}
    (h : overridesSection.read document = .ok overrides) :
    ReadAs confidenceSection (document.member? "confidence") overrides.confidence := by
  refine Section.readAs_of_read (fun v s ↦ { s with confidence := v }) (fun _ _ ↦ rfl) rfl ?_ ?_ h
  · simp [overridesSection, groupSetting]
  · simp only [overridesSection, List.forall_mem_cons]
    refine ⟨fun _ _ _ _ ↦ ?_, by simp [groupSetting], fun _ _ _ _ ↦ ?_, by simp⟩
    all_goals exact observe_of_map fun _ ↦ rfl

theorem readAs_runtime {overrides : Overrides}
    (h : overridesSection.read document = .ok overrides) :
    ReadAs runtimeSection (document.member? "runtime") overrides.runtime := by
  refine Section.readAs_of_read (fun v s ↦ { s with runtime := v }) (fun _ _ ↦ rfl) rfl ?_ ?_ h
  · simp [overridesSection, groupSetting]
  · simp only [overridesSection, List.forall_mem_cons]
    refine ⟨fun _ _ _ _ ↦ ?_, fun _ _ _ _ ↦ ?_, by simp [groupSetting], by simp⟩
    all_goals exact observe_of_map fun _ ↦ rfl

/-- A group was read from the value that its name leads to. -/
theorem readAs_group {τ : Type} {inner : Section τ} {name : String}
    {observe : Overrides → Option τ}
    (hin : ∀ {value overrides}, overridesSection.read value = .ok overrides →
      ReadAs inner (value.member? name) (observe overrides))
    (h : documentSection.read document = .ok content) :
    ReadAs inner (document.group? name) (content.overrides.bind observe) := by
  unfold group?
  obtain ⟨hm | hm, ho⟩ | ⟨value, overrides, hm, -, hv, ho⟩ := (readAs_overrides h).inv
  · rw [hm, ho]
    rfl
  · rw [hm, ho]
    rfl
  · rw [hm, ho]
    exact hin hv

/-- Plain keys lead to a group, or to nothing. -/
theorem plainGroup?_eq_or (h : documentSection.read document = .ok content) (name : String) :
    document.plainGroup? name = document.group? name ∨ document.plainGroup? name = none := by
  unfold plainGroup? group?
  cases hg : document.get? "overrides" with
  | none => exact .inr rfl
  | some value =>
    have hm := member?_of_get? (Section.nodup_of_read h) hg
    rw [hm, Option.bind_some, Option.bind_some]
    cases hn : value.get? name with
    | none => exact .inr rfl
    | some group =>
      left
      symm
      refine member?_of_get? ?_ hn
      obtain ⟨ho | ho, -⟩ | ⟨_, overrides, ho, -, hv, -⟩ := (readAs_overrides h).inv
      · simp [hm] at ho
      · rw [hm, Option.some.injEq] at ho
        rw [ho] at hn
        cases hn
      · rw [hm, Option.some.injEq] at ho
        rw [ho]
        exact Section.nodup_of_read hv

end Yaml.Value

/-! ### Where the settings came from -/

namespace Provenance

/-- A source that is noted is found under its field, and the others under theirs. -/
theorem lookup_insertSource (field other : String) (source : ConfigSource)
    (sources : List (String × ConfigSource)) :
    (insertSource field source sources).lookup other =
      if other = field then some source else sources.lookup other := by
  induction sources with
  | nil => grind [insertSource]
  | cons first rest ih => grind [insertSource]

@[simp] theorem sourceOf_track (p : Provenance) (field other : String) (source : ConfigSource) :
    (p.track field source).sourceOf other = if other = field then source else p.sourceOf other := by
  unfold sourceOf track
  rw [lookup_insertSource]
  split <;> rfl

/-- Notes a source if a group is given. -/
def trackIf (p : Provenance) (given : Bool) (field : String) (source : ConfigSource) :
    Provenance :=
  if given then p.track field source else p

@[simp] theorem sourceOf_trackIf (p : Provenance) (given : Bool) (field other : String)
    (source : ConfigSource) :
    (p.trackIf given field source).sourceOf other =
      if other = field ∧ given = true then source else p.sourceOf other := by
  cases given with
  | false => simp [trackIf]
  | true => simp [trackIf]

/-- The sources under a preset, given which groups came from a document. -/
def ofGroups (preset : Preset) (origin : String) (tiers confidence runtime : Bool) : Provenance :=
  let source := .yaml origin
  (({ preset } : Provenance).trackIf tiers "tiers.*" source
    |>.trackIf confidence "confidence.*" source).trackIf runtime "runtime.*" source

theorem sourceOf_ofGroups (preset : Preset) (origin : String) (given : String → Bool) :
    ∀ name ∈ Value.groupNames,
      (ofGroups preset origin (given "tiers") (given "confidence") (given "runtime")).sourceOf
        (name ++ ".*") = if given name then .yaml origin else .preset preset := by
  have hbase (field : String) : ({ preset } : Provenance).sourceOf field = .preset preset := rfl
  simp [Value.groupNames, ofGroups, hbase]

end Provenance

namespace Config

/-- What a document says, as the settings that come out of the second reading of each group. -/
theorem merge_eq (origin : String) (document : Value) (preset : Preset) (overrides : Overrides) :
    merge origin document preset overrides = (do
      let tiers ← tierSection.reread .standard overrides.tiers (document.plainGroup? "tiers")
      let confidence ← confidenceSection.reread (.ofPreset preset) overrides.confidence
        (document.plainGroup? "confidence")
      let runtime ← runtimeSection.reread (.ofPreset preset) overrides.runtime
        (document.plainGroup? "runtime")
      return {
        preset, tiers, confidence, runtime
        provenance := .ofGroups preset origin overrides.tiers.isSome overrides.confidence.isSome
          overrides.runtime.isSome }) := by
  unfold merge Section.reread Provenance.ofGroups Provenance.trackIf
  cases overrides.tiers.isSome <;> cases overrides.confidence.isSome <;>
    cases overrides.runtime.isSome <;> rfl

/-- Every setting is as the groups give it, and else as the preset has it. -/
structure Follows (c : Config) (groups : String → Option Value) (base : Preset) : Prop where
  preset : c.preset = base
  tiers : c.tiers.Follows (groups "tiers") .standard
  confidence : c.confidence.Follows (groups "confidence") (.ofPreset base)
  runtime : c.runtime.Follows (groups "runtime") (.ofPreset base)

variable {document : Value} {preset : Preset}

/-- A document of the right shape is read as far as its groups. -/
theorem ofDocument_eq_merge {content : ConfigDocument} {name : String}
    (hr : documentSection.read document = .ok content)
    (hv : content.version = some documentVersion) (hn : content.preset = some name)
    (hp : Preset.parse? name = some preset) (origin : String) :
    ofDocument origin document =
      (merge origin document preset (content.overrides.getD {})).mapError shapeError := by
  unfold ofDocument
  rw [hr]
  simp only [Except.mapError, bind, Except.bind, hv, hn, hp]
  rfl

/-- The first group with a clash is refused; without one each group is laid over that of the
preset. -/
theorem merge_of_rereads {overrides : Overrides} (origin : String)
    (ht : tierSection.Rereads .standard overrides.tiers (document.plainGroup? "tiers"))
    (hc : confidenceSection.Rereads (.ofPreset preset) overrides.confidence
      (document.plainGroup? "confidence"))
    (hu : runtimeSection.Rereads (.ofPreset preset) overrides.runtime
      (document.plainGroup? "runtime")) :
    (document.Clashes preset →
      ∃ name, merge origin document preset overrides = .error (.duplicateField name)) ∧
    (¬ document.Clashes preset →
      ∃ c, merge origin document preset overrides = .ok c ∧
        c.Follows document.plainGroup? preset ∧
        c.provenance = .ofGroups preset origin overrides.tiers.isSome overrides.confidence.isSome
          overrides.runtime.isSome) := by
  rw [merge_eq]
  constructor
  · intro hclash
    by_cases htc : tierSection.Clashes .standard (openEntries (document.plainGroup? "tiers"))
    · obtain ⟨name, ht⟩ := ht.refused htc
      rw [ht]
      exact ⟨name, rfl⟩
    · obtain ⟨tiers, ht, -⟩ := ht.laidOver htc
      rw [ht]
      by_cases hcc : confidenceSection.Clashes (.ofPreset preset)
          (openEntries (document.plainGroup? "confidence"))
      · obtain ⟨name, hc⟩ := hc.refused hcc
        rw [hc]
        exact ⟨name, rfl⟩
      · obtain ⟨confidence, hc, -⟩ := hc.laidOver hcc
        obtain ⟨name, hu⟩ := hu.refused ((hclash.resolve_left htc).resolve_left hcc)
        rw [hc, hu]
        exact ⟨name, rfl⟩
  · intro hclash
    rw [Value.Clashes, not_or, not_or] at hclash
    obtain ⟨tiers, ht, htiers⟩ := ht.laidOver hclash.1
    obtain ⟨confidence, hc, hconfidence⟩ := hc.laidOver hclash.2.1
    obtain ⟨runtime, hu, hruntime⟩ := hu.laidOver hclash.2.2
    rw [ht, hc, hu]
    exact ⟨_, rfl, ⟨rfl, TierSettings.follows_of_laidOver htiers,
      ConfidenceSettings.follows_of_laidOver hconfidence,
      RuntimeSettings.follows_of_laidOver hruntime⟩, rfl⟩

/-- A document of the right shape is refused if a key clashes, and else overrides the settings that
plain keys lead to. -/
theorem ofDocument_of_isConfigOf (h : document.IsConfigOf preset) (origin : String) :
    (document.Clashes preset →
      ∃ name, ofDocument origin document = .error (shapeError (.duplicateField name))) ∧
    (¬ document.Clashes preset →
      ∃ c, ofDocument origin document = .ok c ∧ c.Follows document.plainGroup? preset ∧
        ∀ name ∈ Value.groupNames, c.provenance.sourceOf (name ++ ".*") =
          if isGiven (document.group? name) then .yaml origin else .preset preset) := by
  obtain ⟨content, name, hr, hv, hn, hp⟩ := h.shape
  have group {τ : Type} (observe : Overrides → Option τ) (hnone : observe {} = none) :
      observe (content.overrides.getD {}) = content.overrides.bind observe := by
    cases content.overrides with
    | none => exact hnone
    | some overrides => rfl
  have ht := Value.readAs_group Value.readAs_tiers hr
  have hc := Value.readAs_group Value.readAs_confidence hr
  have hu := Value.readAs_group Value.readAs_runtime hr
  rw [← group _ rfl] at ht hc hu
  obtain ⟨hclash, hfree⟩ := merge_of_rereads origin
    (lawful_tierSection.rereads .standard ht (h.groups _ (by decide))
      (Value.plainGroup?_eq_or hr _))
    (lawful_confidenceSection.rereads (.ofPreset preset) hc (h.groups _ (by decide))
      (Value.plainGroup?_eq_or hr _))
    (lawful_runtimeSection.rereads (.ofPreset preset) hu (h.groups _ (by decide))
      (Value.plainGroup?_eq_or hr _))
  rw [ofDocument_eq_merge hr hv hn hp]
  constructor
  · intro h
    obtain ⟨name, he⟩ := hclash h
    exact ⟨name, by rw [he]; rfl⟩
  · intro h
    obtain ⟨c, he, hf, hs⟩ := hfree h
    refine ⟨c, by rw [he]; rfl, hf, ?_⟩
    rw [hs, ht.isSome_eq, hc.isSome_eq, hu.isSome_eq]
    exact Provenance.sourceOf_ofGroups preset origin fun name ↦ isGiven (document.group? name)

end Config

/-! ### Loading a document -/

namespace ValidConfig

theorem ofConfig_eq_ok_iff {c : Config} {loaded : ValidConfig} :
    ofConfig c = .ok loaded ↔ loaded.toConfig = c := by
  unfold ofConfig
  split
  · next hv =>
    rw [Except.ok.injEq]
    constructor
    · rintro rfl
      rfl
    · rintro rfl
      rfl
  · next e hv =>
    simp only [reduceCtorEq, false_iff]
    rintro rfl
    rw [loaded.valid] at hv
    cases hv

/-- A configuration is taken exactly if it passes its checks. -/
theorem exists_ofConfig_iff {c : Config} :
    (∃ loaded, ofConfig c = .ok loaded) ↔ c.validate = .ok () := by
  constructor
  · rintro ⟨loaded, h⟩
    rw [← ofConfig_eq_ok_iff.mp h]
    exact loaded.valid
  · intro h
    exact ⟨⟨c, h⟩, ofConfig_eq_ok_iff.mpr rfl⟩

end ValidConfig

namespace Config

/-- A document from `origin` is read as `c`: the groups that it gives come from there, and a text
that writes the document is loaded, as `c`, exactly if `c` passes its checks. -/
structure IsReadingOf (c : Config) (origin : String) (document : Value) (base : Preset) :
    Prop where
  read : ofDocument origin document = .ok c
  sources : ∀ name ∈ Value.groupNames, c.provenance.sourceOf (name ++ ".*") =
    if isGiven (document.group? name) then .yaml origin else .preset base
  loads : ∀ text, Value.ofText text = .ok document →
    ((∃ loaded, ValidConfig.ofText text origin = .ok loaded) ↔ c.validate = .ok ()) ∧
      ∀ loaded, ValidConfig.ofText text origin = .ok loaded → loaded.toConfig = c

variable {document : Value} {preset : Preset}

theorem isReadingOf_of_read {c : Config} {origin : String}
    (hr : ofDocument origin document = .ok c)
    (hs : ∀ name ∈ Value.groupNames, c.provenance.sourceOf (name ++ ".*") =
      if isGiven (document.group? name) then .yaml origin else .preset preset) :
    c.IsReadingOf origin document preset where
  read := hr
  sources := hs
  loads text ht := by
    have he : ValidConfig.ofText text origin = ValidConfig.ofConfig c := by
      unfold ValidConfig.ofText
      rw [ht]
      change ofDocument origin document >>= ValidConfig.ofConfig = _
      rw [hr]
      rfl
    rw [he]
    refine ⟨ValidConfig.exists_ofConfig_iff, ?_⟩
    intro loaded hl
    exact ValidConfig.ofConfig_eq_ok_iff.mp hl

/-- A document of the right shape in which no key has a tag overrides exactly the settings that it
gives. With tags, a group that no plain keys lead to is passed over, and a key that names a setting
of the preset is refused as a further one. -/
theorem ofDocument_overrides (h : document.IsConfigOf preset) (origin : String) :
    (document.IsUntagged →
      ∃ c : Config, c.IsReadingOf origin document preset ∧ c.Follows document.group? preset) ∧
    (¬ document.Clashes preset →
      ∃ c : Config, c.IsReadingOf origin document preset ∧ c.Follows document.plainGroup? preset) ∧
    (document.Clashes preset →
      ∃ name, ofDocument origin document = .error (shapeError (.duplicateField name))) := by
  obtain ⟨hclash, hfree⟩ := ofDocument_of_isConfigOf h origin
  have hreads (hc : ¬ document.Clashes preset) :
      ∃ c : Config, c.IsReadingOf origin document preset ∧
        c.Follows document.plainGroup? preset := by
    obtain ⟨c, hr, hf, hs⟩ := hfree hc
    exact ⟨c, isReadingOf_of_read hr hs, hf⟩
  refine ⟨?_, hreads, hclash⟩
  intro hu
  have hg : document.plainGroup? = document.group? := funext hu.plainGroup?_eq
  rw [← hg]
  exact hreads (hu.not_clashes preset)

/-- A document that makes runs of the fast preset mind case, under some key. -/
def caseSensitiveUnder (key : Value) : Value :=
  .mapping [
    (.text "version", .int 1),
    (.text "preset", .text "fast"),
    (.text "overrides", .mapping [(.text "runtime", .mapping [(key, .bool true)])])]

/-- With a plain key the setting replaces that of the preset; with a tag it is refused. -/
theorem ofDocument_overrides_caseSensitive :
    (∃ c : Config, ofDocument "<inline>" (caseSensitiveUnder (.text "case_sensitive")) = .ok c ∧
      c.runtime.caseSensitive = true ∧ c.runtime.maxCandidatesPerRule = 1000) ∧
    ∃ name, ofDocument "<inline>" (caseSensitiveUnder (.tagged "a" (.text "case_sensitive"))) =
      .error (shapeError (.duplicateField name)) := by
  constructor
  · have h : (caseSensitiveUnder (.text "case_sensitive")).IsConfigOf .fast := by
      refine ⟨⟨_, "fast", rfl, rfl, rfl, by decide⟩, ?_⟩
      simp only [Value.groupNames, List.forall_mem_cons]
      exact ⟨trivial, trivial, trivial, by simp⟩
    have hu : (caseSensitiveUnder (.text "case_sensitive")).IsUntagged := by
      refine ⟨?_, ?_, ?_⟩
      · simp [Value.HasPlainKeys, Value.entries, caseSensitiveUnder, Value.untag, Value.IsPlain]
      · rintro _ ⟨⟩
        simp [Value.HasPlainKeys, Value.entries, Value.untag, Value.IsPlain]
      · intro name value hv
        obtain ⟨key, hm, -⟩ := exists_of_valueOf? hv
        cases List.mem_singleton.mp hm
        simp [Value.HasPlainKeys, Value.entries, Value.untag, Value.IsPlain]
    obtain ⟨c, hr, hf⟩ := (ofDocument_overrides h "<inline>").1 hu
    exact ⟨c, hr.read, (Except.ok.inj hf.runtime.caseSensitive).symm,
      hf.runtime.maxCandidatesPerRule⟩
  · have h : (caseSensitiveUnder (.tagged "a" (.text "case_sensitive"))).IsConfigOf .fast := by
      refine ⟨⟨_, "fast", rfl, rfl, rfl, by decide⟩, ?_⟩
      simp only [Value.groupNames, List.forall_mem_cons]
      exact ⟨trivial, trivial, trivial, by simp⟩
    refine (ofDocument_overrides h "<inline>").2.2
      (.inr (.inr ⟨_, List.mem_singleton_self _, ?_, ?_⟩))
    · rintro ⟨name, ⟨⟩⟩
    · refine ⟨_, List.mem_of_getElem? (i := 4) rfl, rfl, ?_⟩
      simp

end Config

end TaintRules
