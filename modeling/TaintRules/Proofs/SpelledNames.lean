import TaintRules.Proofs.LiteralAnchors

/-!
# Names that a pattern accepts and misses

The text of a pattern, with a digit in place of each wildcard, is a name that the pattern accepts in
either case mode. A digit is no letter, as the wildcard is none, so that every literal takes in the
name the small form that it takes alone; hence the name also contains the literals of the pattern.
On the other hand, a pattern with a literal accepts at most one of two names of one digit each.
-/

namespace TaintRules

/-! ### A digit in place of each wildcard -/

namespace Text

/-- A digit if the character is a wildcard, and else the character. -/
def fillChar (c : Char) : Char := if c = wildcard then '0' else c

theorem fillChar_wildcard : fillChar wildcard = '0' := if_pos rfl

theorem fillChar_of_ne {c : Char} (h : c ≠ wildcard) : fillChar c = c := if_neg h

theorem fillChar_ne_wildcard (c : Char) : fillChar c ≠ wildcard := by
  unfold fillChar
  split
  · decide
  · assumption

/-- No letter is seen through a digit or a wildcard. -/
theorem startsWithCased_map_fillChar (cs : List Char) :
    startsWithCased (cs.map fillChar) = startsWithCased cs := by
  have hw : isCaseIgnorable wildcard = false ∧ isCased wildcard = false := by decide +kernel
  have hd : isCaseIgnorable '0' = false ∧ isCased '0' = false := by decide +kernel
  -- neither is skipped in the search for the next letter, and neither is one
  induction cs with
  | nil => rfl
  | cons c cs ih =>
    unfold startsWithCased at ih ⊢
    by_cases hc : c = wildcard
    · rw [hc, List.map_cons, fillChar_wildcard]
      simp [hw, hd]
    · rw [List.map_cons, fillChar_of_ne hc, List.dropWhile_cons, List.dropWhile_cons]
      by_cases hm : isCaseIgnorable c = true
      · rw [if_pos hm, if_pos hm]
        exact ih
      · rw [if_neg hm, if_neg hm]

/-- The small form of a character stays as it is among digits in place of wildcards. -/
theorem smallForm_map_fillChar (before : List Char) (c : Char) (after : List Char) :
    smallForm (before.map fillChar) (fillChar c) (after.map fillChar) =
      (smallForm before c after).map fillChar := by
  by_cases hc : c = wildcard
  · have hw : smallForm before wildcard after = [wildcard] := by
      rw [smallForm, if_neg (by decide), if_neg (by decide),
        (smallLetter_eq_wildcard_iff wildcard).mpr rfl]
    have hd : smallForm (before.map fillChar) '0' (after.map fillChar) = ['0'] := by
      rw [smallForm, if_neg (by decide), if_neg (by decide)]
      rfl
    rw [hc, fillChar_wildcard, hw, hd]
    rfl
  · have hs : smallForm (before.map fillChar) c (after.map fillChar) =
        smallForm before c after := by
      simp only [smallForm, smallSigma, startsWithCased_map_fillChar]
    have hm : (smallForm before c after).map fillChar = smallForm before c after := by
      refine (List.map_congr_left fun d hd ↦ fillChar_of_ne ?_).trans (List.map_id' _)
      rintro rfl
      exact hc ((wildcard_mem_smallForm before c after).mp hd)
    rw [fillChar_of_ne hc, hs, hm]

/-- Writing a text small and filling in digits can change places. -/
theorem lowerChars_map_fillChar (cs : List Char) :
    lowerChars (cs.map fillChar) = (lowerChars cs).map fillChar := by
  have all (before : List Char) :
      lowerOnto (before.map fillChar) [] (cs.map fillChar) =
        (lowerOnto before [] cs).map fillChar := by
    induction cs generalizing before with
    | nil => rfl
    | cons c cs ih =>
      rw [List.map_cons, lowerOnto_cons, lowerOnto_cons, List.map_append, smallForm_map_fillChar,
        ← ih (c :: before)]
      rfl
  exact all []

end Text

/-- The text has the form of its own with a digit in place of each wildcard. -/
theorem glob_map_fillChar (p : List Char) : Glob p (p.map Text.fillChar) := by
  induction p with
  | nil => exact .nil
  | cons c p ih =>
    by_cases hc : c = wildcard
    · rw [hc]
      exact .take (.skip ih)
    · rw [List.map_cons, Text.fillChar_of_ne hc]
      exact .letter hc ih

/-! ### Names that a pattern accepts -/

namespace Pattern

/-- The text of the pattern with a digit in place of each wildcard. -/
def spelled (p : Pattern) : String := String.ofList (p.raw.toList.map Text.fillChar)

theorem toList_spelled (p : Pattern) : p.spelled.toList = p.raw.toList.map Text.fillChar := by
  rw [spelled, String.toList_ofList]

theorem wildcard_not_mem_spelled (p : Pattern) : wildcard ∉ p.spelled.toList := by
  rw [toList_spelled]
  intro h
  obtain ⟨c, -, hc⟩ := List.mem_map.mp h
  exact Text.fillChar_ne_wildcard c hc

/-- A pattern that was read is not blank, nor is the name that spells it. -/
theorem isBlank_spelled {raw : String} {p : Pattern} (h : parse raw = .ok p) :
    Text.isBlank p.spelled = false := by
  rw [Bool.eq_false_iff]
  intro hb
  rw [Text.isBlank, toList_spelled, List.all_map, List.all_eq_true] at hb
  have hr : Text.trim p.raw = "" := by
    have hd : p.raw.toList.dropWhile Text.isBlankChar = [] := by
      rw [List.dropWhile_eq_nil_iff]
      intro c hc
      have hf := hb c hc
      by_cases hw : c = wildcard
      · rw [hw, Function.comp_apply, Text.fillChar_wildcard] at hf
        exact absurd hf (by decide)
      · rwa [Function.comp_apply, Text.fillChar_of_ne hw] at hf
    rw [Text.trim, Text.trimChars, hd]
    rfl
  have hp := parse_raw h
  simp only [parse, hr] at hp
  cases hp

namespace IsRead

variable {p : Pattern}

/-- In either mode, the name is compared as the text of the pattern with a digit in place of each
wildcard. -/
theorem toList_fold_spelled (h : p.IsRead) (mode : CaseMode) :
    (mode.fold p.spelled).toList = (p.textFor mode).toList.map Text.fillChar := by
  rw [h.textFor_eq]
  cases mode with
  | sensitive => exact p.toList_spelled
  | insensitive =>
    rw [CaseMode.fold_insensitive, CaseMode.fold_insensitive, Text.toList_lowercase,
      Text.toList_lowercase, toList_spelled, Text.lowerChars_map_fillChar]

/-- The name has the form of the pattern. -/
theorem glob_spelled (h : p.IsRead) (mode : CaseMode) :
    Glob (p.textFor mode).toList (mode.fold p.spelled).toList := by
  rw [h.toList_fold_spelled]
  exact glob_map_fillChar _

/-- A pattern accepts the name that spells it. -/
theorem accepts_spelled (h : p.IsRead) (mode : CaseMode) : p.accepts mode p.spelled = true := by
  rw [accepts_eq_acceptsFolded, h.acceptsFolded_iff]
  refine ⟨fun he ↦ h.raw_ne ?_, glob_letters _ (h.glob_spelled mode)⟩
  rwa [← String.isEmpty_iff, CaseMode.isEmpty_fold, String.isEmpty_iff, ← String.toList_eq_nil_iff,
    toList_spelled, List.map_eq_nil_iff, String.toList_eq_nil_iff] at he

/-- The literal parts of a pattern are, in either mode, segments of its text. -/
theorem fold_mem_segments (h : p.IsRead) {part : String} (hp : part ∈ p.literals .sensitive)
    (mode : CaseMode) : (mode.fold part).toList ∈ segments (p.textFor mode).toList := by
  obtain ⟨segment, hs, rfl⟩ := List.mem_map.mp hp
  have hm : segment ∈ segments p.raw.toList := (List.mem_filter.mp hs).1
  rw [h.textFor_eq]
  cases mode with
  | sensitive => rwa [CaseMode.fold, CaseMode.fold, String.toList_ofList]
  | insensitive =>
    rw [CaseMode.fold_insensitive, CaseMode.fold_insensitive, Text.toList_lowercase,
      Text.toList_lowercase, String.toList_ofList, segments_lowerChars]
    exact List.mem_map_of_mem hm

/-- The name contains every literal part of the pattern, as the mode compares them. -/
theorem occursIn_spelled (h : p.IsRead) {part : String} (hp : part ∈ p.literals .sensitive)
    (mode : CaseMode) : occursIn (mode.fold part).toList (mode.fold p.spelled).toList = true := by
  have hg := h.glob_spelled mode
  rw [← intercalate_segments (p.textFor mode).toList] at hg
  exact occursIn_iff.mpr (infix_of_glob_intercalate (fun _ ↦ wildcard_not_mem_segments) hg _
    (h.fold_mem_segments hp mode))

end IsRead

end Pattern

/-! ### Names that a pattern does not accept -/

/-- A character other than the wildcard is in one of the segments. -/
theorem exists_mem_segments {c : Char} (hc : c ≠ wildcard) {cs : List Char} (h : c ∈ cs) :
    ∃ part ∈ segments cs, c ∈ part := by
  induction cs with
  | nil => cases h
  | cons d cs ih =>
    by_cases hd : d = wildcard
    · subst hd
      obtain ⟨part, hp, hm⟩ := ih ((List.mem_cons.mp h).resolve_left hc)
      rw [segments_wildcard]
      exact ⟨part, List.mem_cons_of_mem _ hp, hm⟩
    · obtain ⟨first, rest, hs, he⟩ := segments_letter hd cs
      rw [he]
      rcases List.mem_cons.mp h with rfl | h
      · exact ⟨_, List.mem_cons_self, List.mem_cons_self⟩
      · obtain ⟨part, hp, hm⟩ := ih h
        rw [hs] at hp
        rcases List.mem_cons.mp hp with rfl | hp
        · exact ⟨_, List.mem_cons_self, List.mem_cons_of_mem _ hm⟩
        · exact ⟨part, List.mem_cons_of_mem _ hp, hm⟩

namespace Pattern

/-- A pattern with a literal character has a literal part. -/
theorem exists_mem_literals {p : Pattern} (h : p.literalLength ≠ 0) :
    ∃ part, part ∈ p.literals .sensitive := by
  obtain ⟨c, hc⟩ := List.exists_mem_of_length_pos (Nat.pos_of_ne_zero h)
  obtain ⟨hm, hw⟩ := List.mem_filter.mp hc
  obtain ⟨part, hp, hin⟩ := exists_mem_segments (bne_iff_ne.mp hw) hm
  have hne : (!part.isEmpty) = true := by
    cases part with
    | nil => cases hin
    | cons => rfl
  exact ⟨_, List.mem_map_of_mem (List.mem_filter.mpr ⟨hp, hne⟩)⟩

namespace IsRead

variable {p : Pattern}

/-- A letter of a literal part is, up to case and variant, in every text that is accepted. -/
theorem exists_letterKey_mem (h : p.IsRead) {part : String} (hp : part ∈ p.literals .sensitive)
    (mode : CaseMode) :
    ∃ key, ∀ text, p.accepts mode text = true →
      key ∈ (mode.fold text).toList.map Text.letterKey := by
  have hi (text : String) (ha : p.accepts mode text = true) :
      (mode.fold part).toList.map Text.letterKey <:+:
        (mode.fold text).toList.map Text.letterKey := by
    rw [accepts_eq_acceptsFolded] at ha
    cases mode with
    | sensitive => exact (occursIn_iff.mp (h.occursIn_of_acceptsFolded ha hp)).map _
    | insensitive =>
      rw [CaseMode.fold_insensitive part]
      exact h.infix_letterKey_of_acceptsFolded ha hp
  have hne : (mode.fold part).toList ≠ [] := by
    obtain ⟨segment, hs, rfl⟩ := List.mem_map.mp hp
    rw [ne_eq, String.toList_eq_nil_iff, ← String.isEmpty_iff, CaseMode.isEmpty_fold,
      String.isEmpty_iff, ← String.toList_eq_nil_iff, String.toList_ofList, ← List.isEmpty_iff]
    simpa using (List.mem_filter.mp hs).2
  obtain ⟨c, hc⟩ := List.exists_mem_of_ne_nil _ hne
  exact ⟨Text.letterKey c, fun text ha ↦ (hi text ha).mem (List.mem_map_of_mem hc)⟩

/-- A pattern with a literal character does not accept both of two digits. -/
theorem exists_not_accepts (h : p.IsRead) (hl : p.literalLength ≠ 0) (mode : CaseMode) :
    ∃ text ∈ ["0", "1"], p.accepts mode text = false := by
  obtain ⟨part, hp⟩ := exists_mem_literals hl
  obtain ⟨key, hk⟩ := h.exists_letterKey_mem hp mode
  -- one letter would be in both of the texts
  by_contra hn
  push Not at hn
  have h0 := hk "0" (Bool.not_eq_false _ |>.mp (hn "0" (by simp)))
  have h1 := hk "1" (Bool.not_eq_false _ |>.mp (hn "1" (by simp)))
  have f0 : (mode.fold "0").toList.map Text.letterKey = ['0'] := by cases mode <;> decide +kernel
  have f1 : (mode.fold "1").toList.map Text.letterKey = ['1'] := by cases mode <;> decide +kernel
  rw [f0, List.mem_singleton] at h0
  rw [f1, List.mem_singleton, h0] at h1
  exact absurd h1 (by decide)

end IsRead

end Pattern

end TaintRules
