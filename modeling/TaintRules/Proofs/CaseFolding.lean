import TaintRules.Pattern.Shape
import TaintRules.Text.Characters

/-!
# Case folding and wildcards

Folding a text keeps its wildcards apart from its letters: no letter is written small as a
wildcard, and a wildcard has no other form. So the wildcards of a folded pattern are those of the
pattern, and a text is empty exactly when its folded form is.
-/

namespace TaintRules

namespace Text

/-! ### Single letters -/

private theorem ofNat_ne_wildcard {n : Nat} (hn : 42 < n) : Char.ofNat n ≠ wildcard := by
  intro h
  by_cases hv : n.isValidChar
  · rw [Char.ofNat, dif_pos hv] at h
    have he : n = 42 := congrArg Char.toNat h
    omega
  · rw [Char.ofNat, dif_neg hv] at h
    exact absurd h (by decide)

/-- A letter with a counterpart among runs whose letters lie above the wildcard is none. -/
theorem counterpart_eq_wildcard_iff {runs : List CaseRun} (hr : ∀ run ∈ runs, 42 < run.target)
    (hw : counterpart runs wildcard = wildcard) (c : Char) :
    counterpart runs c = wildcard ↔ c = wildcard := by
  constructor
  · intro h
    unfold counterpart at h
    split at h
    · next n hn =>
      obtain ⟨run, hm, hc⟩ := List.exists_of_findSome?_eq_some hn
      have ht := hr run hm
      unfold CaseRun.counterpart? at hc
      split at hc
      · have he := Option.some.inj hc
        exact absurd h (ofNat_ne_wildcard (by omega))
      · cases hc
    · exact h
  · rintro rfl
    exact hw

private theorem toLower_eq_wildcard_iff (c : Char) : c.toLower = wildcard ↔ c = wildcard := by
  unfold Char.toLower
  split
  · next h =>
    have hl : 65 ≤ c.toNat := h.1
    have hu : c.toNat ≤ 90 := h.2
    constructor
    · intro he
      have hn := congrArg (fun d : Char ↦ d.val.toNat) he
      change (c.val + 32).toNat = 42 at hn
      rw [UInt32.toNat_add] at hn
      change (c.toNat + 32) % 2 ^ 32 = 42 at hn
      omega
    · rintro rfl
      change 65 ≤ 42 at hl
      omega
  · exact Iff.rfl

/-- No other character is written small as a wildcard. -/
theorem smallLetterIn_eq_wildcard_iff {runs : List CaseRun}
    (hr : ∀ run ∈ runs, 42 < run.target) (hw : counterpart runs wildcard = wildcard) (c : Char) :
    smallLetterIn runs c = wildcard ↔ c = wildcard := by
  unfold smallLetterIn
  split
  · exact toLower_eq_wildcard_iff c
  · exact counterpart_eq_wildcard_iff hr hw c

/-- A wildcard is the small form of itself alone. -/
theorem smallLetter_eq_wildcard_iff (c : Char) : smallLetter c = wildcard ↔ c = wildcard :=
  smallLetterIn_eq_wildcard_iff (by decide +kernel) (by decide +kernel) c

/-- A wildcard is a variant of itself alone. -/
theorem letterKey_eq_wildcard_iff (c : Char) : letterKey c = wildcard ↔ c = wildcard := by
  have hs : smallLetterIn capitalRuns c = wildcard ↔ c = wildcard :=
    smallLetterIn_eq_wildcard_iff (by decide +kernel) (by decide +kernel) c
  have hv (d : Char) : counterpart variantRuns d = wildcard ↔ d = wildcard :=
    counterpart_eq_wildcard_iff (by decide +kernel) (by decide +kernel) d
  simp only [letterKey]
  split
  · exact hs
  · exact (hv _).trans hs

/-! ### Texts -/

private theorem lowerOnto_eq_append (before done cs : List Char) :
    lowerOnto before done cs = done.reverse ++ lowerOnto before [] cs := by
  induction cs generalizing before done with
  | nil => simp [lowerOnto]
  | cons c cs ih =>
    rw [lowerOnto, ih, lowerOnto, ih _ (_ ++ [])]
    simp

/-- The small forms of a text are those of its first character, then those of the others. -/
theorem lowerOnto_cons (before : List Char) (c : Char) (cs : List Char) :
    lowerOnto before [] (c :: cs) = smallForm before c cs ++ lowerOnto (c :: before) [] cs := by
  rw [lowerOnto, lowerOnto_eq_append]
  simp

/-- The small form of a character has a wildcard exactly if the character is one. -/
theorem wildcard_mem_smallForm (before : List Char) (c : Char) (after : List Char) :
    wildcard ∈ smallForm before c after ↔ c = wildcard := by
  unfold smallForm
  split
  · next h =>
    subst h
    unfold smallSigma
    split <;> decide
  · split
    · next h =>
      subst h
      decide
    · rw [List.mem_singleton, eq_comm]
      exact smallLetter_eq_wildcard_iff c

/-- Folding a text neither adds the first wildcard nor removes the last. -/
theorem wildcard_mem_lowerChars (cs : List Char) : wildcard ∈ lowerChars cs ↔ wildcard ∈ cs := by
  have all (before : List Char) : wildcard ∈ lowerOnto before [] cs ↔ wildcard ∈ cs := by
    induction cs generalizing before with
    | nil => simp [lowerOnto]
    | cons c cs ih =>
      rw [lowerOnto_cons, List.mem_append, wildcard_mem_smallForm, ih, List.mem_cons,
        eq_comm (a := c)]
  exact all []

/-- Only the empty text is folded to the empty text. -/
theorem lowerChars_eq_nil_iff (cs : List Char) : lowerChars cs = [] ↔ cs = [] := by
  cases cs with
  | nil => simp [lowerChars, lowerOnto]
  | cons c cs =>
    have hne (before after : List Char) : smallForm before c after ≠ [] := by
      unfold smallForm
      split
      · simp
      · split <;> simp
    simp [lowerChars, lowerOnto_cons, hne]

/-- The characters of a folded text. -/
theorem toList_lowercase (s : String) : (lowercase s).toList = lowerChars s.toList := by
  rw [lowercase, String.toList_ofList]

private theorem smallForm_of_smallAscii {c : Char} (hl : c.toNat < 0x80) (hu : c.isUpper = false)
    (before after : List Char) : smallForm before c after = [c] := by
  have hs : c ≠ 'Σ' := by
    rintro rfl
    exact absurd hl (by decide)
  have hi : c ≠ 'İ' := by
    rintro rfl
    exact absurd hl (by decide)
  have hc : ¬(c.val ≥ 'A'.val ∧ c.val ≤ 'Z'.val) := of_decide_eq_false hu
  have ht : c.toLower = c := dif_neg hc
  rw [smallForm, if_neg hs, if_neg hi, smallLetter, smallLetterIn, if_pos hl, ht]

/-- ASCII text without capitals is its own form in small letters. -/
theorem lowercase_of_isSmallAscii {s : String} (h : isSmallAscii s = true) : lowercase s = s := by
  have all (before cs : List Char) (hcs : cs.all (fun c ↦ c.toNat < 0x80 && !c.isUpper) = true) :
      lowerOnto before [] cs = cs := by
    induction cs generalizing before with
    | nil => rfl
    | cons c cs ih =>
      rw [List.all_cons, Bool.and_eq_true, Bool.and_eq_true, decide_eq_true_eq,
        Bool.not_eq_true'] at hcs
      rw [lowerOnto_cons, smallForm_of_smallAscii hcs.1.1 hcs.1.2, ih _ hcs.2]
      rfl
  rw [← String.toList_inj, toList_lowercase]
  exact all [] s.toList h

end Text

namespace CaseMode

/-- Where case does not matter every text is compared in small letters, those included that are
passed on as they are. -/
theorem fold_insensitive (s : String) : insensitive.fold s = Text.lowercase s := by
  rw [fold]
  split
  · next h => exact (Text.lowercase_of_isSmallAscii h).symm
  · rfl

/-- Only the empty text is folded to the empty text, in either mode. -/
theorem isEmpty_fold (mode : CaseMode) (s : String) : (mode.fold s).isEmpty = s.isEmpty := by
  cases mode with
  | sensitive => rfl
  | insensitive =>
    rw [Bool.eq_iff_iff, String.isEmpty_iff, String.isEmpty_iff, ← String.toList_eq_nil_iff,
      ← String.toList_eq_nil_iff, fold_insensitive, Text.toList_lowercase,
      Text.lowerChars_eq_nil_iff]

/-- A folded text has wildcards exactly if the text has some. -/
theorem wildcard_mem_fold (mode : CaseMode) (s : String) :
    wildcard ∈ (mode.fold s).toList ↔ wildcard ∈ s.toList := by
  cases mode with
  | sensitive => exact Iff.rfl
  | insensitive => rw [fold_insensitive, Text.toList_lowercase, Text.wildcard_mem_lowerChars]

end CaseMode

end TaintRules
