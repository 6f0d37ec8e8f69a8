import TaintRules.Proofs.CaseFolding
import TaintRules.Proofs.Glob
import TaintRules.Proofs.MatcherCache

/-!
# What wildcard matching decides

Five ways of deciding a pattern, chosen by the number and the place of its wildcards, all decide
one relation: the text has the form of the pattern. Where case does not matter, the four cheap
ways compare small letters, and an automaton compares the letters that stand for all their forms
and variants. It finds everything that the comparison of small letters finds, and more.
-/

namespace TaintRules

/-! ### Renaming letters -/

/-- A text keeps the form of a pattern when the letters of both are renamed alike. -/
theorem Glob.map {f : Char → Char} (hf : ∀ c, f c = wildcard ↔ c = wildcard) {p t : List Char}
    (h : Glob p t) : Glob (p.map f) (t.map f) := by
  have hw : f wildcard = wildcard := (hf wildcard).mpr rfl
  induction h with
  | nil => exact .nil
  | letter hc _ ih => exact .letter (mt (hf _).mp hc) ih
  | skip _ ih =>
    rw [List.map_cons, hw]
    exact .skip ih
  | take _ ih =>
    rw [List.map_cons, hw] at ih ⊢
    exact .take ih

/-- Renaming decides nothing new if it tells the letters of the pattern from those of the text. -/
theorem glob_of_glob_map {f : Char → Char} (hf : ∀ c, f c = wildcard ↔ c = wildcard)
    {p t : List Char} (ha : ∀ a ∈ p, ∀ b ∈ t, f a = f b → a = b)
    (h : Glob (p.map f) (t.map f)) : Glob p t := by
  induction p generalizing t with
  | nil =>
    rw [List.map_nil, glob_nil_iff, List.map_eq_nil_iff] at h
    rw [h]
    exact .nil
  | cons c p ih =>
    have hp (s : List Char) (hs : ∀ b ∈ s, b ∈ t) : ∀ a ∈ p, ∀ b ∈ s, f a = f b → a = b :=
      fun a hap b hb ↦ ha a (List.mem_cons_of_mem _ hap) b (hs b hb)
    by_cases hc : c = wildcard
    · subst hc
      rw [List.map_cons, (hf wildcard).mpr rfl, glob_wildcard_iff] at h
      obtain ⟨_, hs, hg⟩ := h
      obtain ⟨s, hst, rfl⟩ := List.suffix_map_iff.mp hs
      exact glob_wildcard_iff.mpr ⟨s, hst, ih (hp s fun b hb ↦ hst.mem hb) hg⟩
    · rw [List.map_cons, glob_letter_iff (mt (hf c).mp hc)] at h
      obtain ⟨s, hs, hg⟩ := h
      obtain ⟨d, r, rfl, hd, rfl⟩ := List.map_eq_cons_iff.mp hs
      have hcd : c = d := ha c List.mem_cons_self d List.mem_cons_self hd.symm
      rw [← hcd]
      exact .letter hc (ih (hp r fun b hb ↦ List.mem_cons_of_mem _ hb) hg)

/-! ### Shapes -/

namespace Shape

/-- What the shape says of the pattern it was read from. -/
def Fits (cs : List Char) : Shape → Prop
  | .exact => wildcard ∉ cs
  | .suffix literal => cs = wildcard :: literal.toList ∧ wildcard ∉ literal.toList
  | .leading literal => cs = literal.toList ++ [wildcard] ∧ wildcard ∉ literal.toList
  | .contains literal =>
    cs = wildcard :: (literal.toList ++ [wildcard]) ∧ wildcard ∉ literal.toList
  | .general => True

private theorem eq_append_of_getLast? {cs : List Char} {c : Char} (h : cs.getLast? = some c) :
    cs = cs.dropLast ++ [c] := by
  obtain ⟨front, rfl⟩ := List.getLast?_eq_some_iff.mp h
  rw [List.dropLast_concat]

/-- Every pattern has the shape that is read from it. -/
theorem fits_ofChars (cs : List Char) : (ofChars cs).Fits cs := by
  unfold ofChars
  split
  · next h => exact List.count_eq_zero.mp h
  · next first rest h =>
    rw [List.count_cons] at h
    split
    · trivial
    · split
      · next hf =>
        subst hf
        simp only [beq_self_eq_true, ite_true, Nat.add_eq_right] at h
        simpa [Fits] using List.count_eq_zero.mp h
      · split
        · next hl =>
          have he := eq_append_of_getLast? hl
          refine ⟨by rw [String.toList_ofList]; exact he, ?_⟩
          rw [String.toList_ofList, ← List.count_eq_zero]
          rw [← List.count_cons, he, List.count_append] at h
          simpa using h
        · trivial
  · next first rest h =>
    split
    · next hw =>
      obtain ⟨rfl, hl, -⟩ := hw
      have he := eq_append_of_getLast? hl
      refine ⟨by rw [String.toList_ofList, ← he], ?_⟩
      rw [String.toList_ofList, ← List.count_eq_zero]
      rw [List.count_cons_self, he, List.count_append] at h
      simpa using h
    · trivial
  · trivial

/-- The exact shape is that of patterns without wildcards. -/
theorem ofChars_eq_exact_iff (cs : List Char) : ofChars cs = .exact ↔ wildcard ∉ cs := by
  constructor
  · intro h
    have hf := fits_ofChars cs
    rw [h] at hf
    exact hf
  · intro h
    unfold ofChars
    rw [List.count_eq_zero.mpr h]
    rfl

/-- The letters of a text as a shape compares them: an automaton has letters of its own. -/
def letters (mode : CaseMode) (cs : List Char) : Shape → List Char
  | .general => Automaton.letters mode cs
  | .exact | .suffix _ | .leading _ | .contains _ => cs

/-- Where case matters, every shape compares the characters themselves. -/
@[simp] theorem letters_sensitive (shape : Shape) (cs : List Char) :
    shape.letters .sensitive cs = cs := by
  cases shape <;> rfl

end Shape

/-! ### Answers -/

/-- An automaton accepts what has the form of its pattern, letter by letter as it compares them. -/
theorem Automaton.accepts_iff {mode : CaseMode} {pattern : String} {automaton : Automaton}
    (h : build? mode pattern = some automaton) (text : String) :
    automaton.accepts text = true ↔
      Glob (letters mode pattern.toList) (letters mode text.toList) := by
  unfold build? at h
  split at h
  · cases h
    have hs : (segments pattern.toList).map (letters mode) =
        segments (letters mode pattern.toList) := by
      cases mode with
      | sensitive => exact List.map_id' _
      | insensitive => exact (segments_map Text.letterKey_eq_wildcard_iff _).symm
    rw [accepts, hs, acceptsLetters_iff (segments_ne_nil _) fun _ ↦ wildcard_not_mem_segments,
      intercalate_segments]
  · cases h

namespace Shape

/-- A shape that was read from a pattern accepts what has the form of the pattern, letter by
letter as the shape compares them. -/
theorem accepts_classify_iff {mode : CaseMode} {pattern : String} {shape : Shape}
    (hs : classify pattern = shape)
    (hb : shape = .general → (Automaton.build? mode pattern).isSome) (text : String) :
    shape.accepts mode pattern text = true ↔
      Glob (shape.letters mode pattern.toList) (shape.letters mode text.toList) := by
  have hf := fits_ofChars pattern.toList
  rw [← classify, hs] at hf
  cases shape with
  | exact =>
    rw [letters, letters, glob_literal_iff hf, String.toList_inj]
    exact beq_iff_eq
  | suffix literal =>
    rw [letters, letters, hf.1, glob_suffix_iff hf.2]
    exact List.isSuffixOf_iff_suffix
  | leading literal =>
    rw [letters, letters, hf.1, glob_prefix_iff hf.2]
    exact List.isPrefixOf_iff_prefix
  | contains literal =>
    rw [letters, letters, hf.1, glob_infix_iff hf.2]
    exact occursIn_iff
  | general =>
    obtain ⟨automaton, ha⟩ := Option.isSome_iff_exists.mp (hb rfl)
    rw [letters, letters, ← Automaton.accepts_iff ha text, accepts, acceptsWith, ha]

end Shape

/-- It makes no difference whether a text is folded before it is handed over or afterwards. -/
theorem Pattern.accepts_eq_acceptsFolded (p : Pattern) (mode : CaseMode) (text : String) :
    p.accepts mode text = p.acceptsFolded mode (mode.fold text) := by
  rw [accepts, acceptsFolded, CaseMode.isEmpty_fold]

/-- A pattern matches a text exactly if neither is empty and the folded text has the form of the
folded pattern, letter by letter as its shape compares them. -/
theorem wildcardMatch_iff {mode : CaseMode} {pattern : String}
    (hb : Shape.classify (mode.fold pattern) = .general →
      (Automaton.build? mode (mode.fold pattern)).isSome) (text : String) :
    wildcardMatch mode pattern text = true ↔ pattern ≠ "" ∧ text ≠ "" ∧
      Glob ((Shape.classify (mode.fold pattern)).letters mode (mode.fold pattern).toList)
        ((Shape.classify (mode.fold pattern)).letters mode (mode.fold text).toList) := by
  rw [wildcardMatch, Bool.and_eq_true, Bool.and_eq_true, Bool.not_eq_true', Bool.not_eq_true',
    String.isEmpty_eq_false_iff, String.isEmpty_eq_false_iff,
    Shape.accepts_classify_iff rfl hb (mode.fold text), and_assoc]

/-- Where case matters, a pattern matches a text exactly if neither is empty and the whole text
has the form of the pattern, in whatever way its shape is decided and whatever the matcher was
asked before. -/
theorem wildcardMatch_sensitive_iff {m : Matcher} (hm : m.Reached) (pattern text : String)
    (hb : Shape.classify pattern = .general →
      (Automaton.build? .sensitive pattern).isSome = true) :
    (Matcher.wildcardMatch .sensitive pattern text m).1 = true ↔
      pattern ≠ "" ∧ text ≠ "" ∧ Glob pattern.toList text.toList := by
  rw [(Matcher.gives_wildcardMatch .sensitive pattern text m hm.faithful).1,
    @wildcardMatch_iff .sensitive _ hb text]
  simp only [CaseMode.fold, Shape.letters_sensitive]

/-- Two wildcards in a row take a line break between letters of two bytes each. -/
theorem wildcardMatch_sensitive_adjacent :
    (Automaton.build? .sensitive "é**ü").isSome = true ∧
      (Matcher.wildcardMatch .sensitive "é**ü" "é\nü" (.new 1)).1 = true ∧
      Glob "é**ü".toList "é\nü".toList := by
  have hb : (Automaton.build? .sensitive "é**ü").isSome = true := by decide +kernel
  have hm : (Matcher.wildcardMatch .sensitive "é**ü" "é\nü" (.new 1)).1 = true := by
    decide +kernel
  exact ⟨hb, hm, ((wildcardMatch_sensitive_iff (.new 1) _ _ fun _ ↦ hb).mp hm).2.2⟩

/-! ### Answers where case does not matter -/

/-- A text of the form of a pattern is of this form as any shape compares the letters. -/
theorem glob_letters (shape : Shape) {mode : CaseMode} {p t : List Char} (h : Glob p t) :
    Glob (shape.letters mode p) (shape.letters mode t) := by
  cases mode with
  | sensitive => rwa [Shape.letters_sensitive, Shape.letters_sensitive]
  | insensitive =>
    cases shape with
    | general => exact h.map Text.letterKey_eq_wildcard_iff
    | exact | suffix | leading | contains => exact h

private theorem glob_of_glob_letters {shape : Shape} {p t : List Char}
    (ha : shape = .general →
      ∀ a ∈ p, ∀ b ∈ t, Text.letterKey a = Text.letterKey b → a = b)
    (h : Glob (shape.letters .insensitive p) (shape.letters .insensitive t)) : Glob p t := by
  cases shape with
  | general => exact glob_of_glob_map Text.letterKey_eq_wildcard_iff (ha rfl) h
  | exact | suffix | leading | contains => exact h

/-- Where case does not matter, a cheap shape decides whether the text in small letters has the
form of the pattern in small letters. An automaton decides the same of the letters that stand for
all their forms and variants; it misses no text that has the form in small letters, and it finds
another one only where two small letters of the pattern and the text are variants of each other. -/
theorem wildcardMatch_insensitive_iff {m : Matcher} (hm : m.Reached) {pattern text : String}
    (hp : pattern ≠ "") (ht : text ≠ "")
    (hb : Shape.classify (Text.lowercase pattern) = .general →
      (Automaton.build? .insensitive (Text.lowercase pattern)).isSome = true) :
    let found := (Matcher.wildcardMatch .insensitive pattern text m).1 = true
    let p := (Text.lowercase pattern).toList
    let t := (Text.lowercase text).toList
    (found ↔
        if Shape.classify (Text.lowercase pattern) = .general then
          Glob (p.map Text.letterKey) (t.map Text.letterKey)
        else Glob p t) ∧
      (Glob p t → found) ∧
      ((Shape.classify (Text.lowercase pattern) = .general →
          ∀ a ∈ p, ∀ b ∈ t, Text.letterKey a = Text.letterKey b → a = b) →
        (found ↔ Glob p t)) := by
  intro found p t
  have hf : found ↔ Glob ((Shape.classify (Text.lowercase pattern)).letters .insensitive p)
      ((Shape.classify (Text.lowercase pattern)).letters .insensitive t) := by
    rw [← CaseMode.fold_insensitive] at hb
    have h := wildcardMatch_iff hb text
    rw [CaseMode.fold_insensitive, CaseMode.fold_insensitive,
      ← (Matcher.gives_wildcardMatch .insensitive pattern text m hm.faithful).1] at h
    simp only [hp, ht, ne_eq, not_false_eq_true, true_and] at h
    exact h
  refine ⟨?_, fun h ↦ hf.mpr (glob_letters _ h), fun ha ↦ ?_⟩
  · rw [hf]
    split
    · next h => rw [h]; rfl
    · next h =>
      cases hs : Shape.classify (Text.lowercase pattern) with
      | general => exact absurd hs h
      | exact | suffix | leading | contains => rfl
  · exact ⟨fun h ↦ glob_of_glob_letters ha (hf.mp h), fun h ↦ hf.mpr (glob_letters _ h)⟩

/-- An automaton takes a long `ſ` for an `s`, which is no match in small letters. -/
theorem wildcardMatch_insensitive_variant :
    (Matcher.wildcardMatch .insensitive "a*s" "aſ" (.new 1)).1 = true ∧
      ¬ Glob (Text.lowercase "a*s").toList (Text.lowercase "aſ").toList ∧
      Glob ((Text.lowercase "a*s").toList.map Text.letterKey)
        ((Text.lowercase "aſ").toList.map Text.letterKey) := by
  have hm : (Matcher.wildcardMatch .insensitive "a*s" "aſ" (.new 1)).1 = true := by
    decide +kernel
  have hs : Shape.classify (Text.lowercase "a*s") = .general := by decide +kernel
  have hg := ((wildcardMatch_insensitive_iff (.new 1) (by decide) (by decide)
    fun _ ↦ by decide +kernel).1).mp hm
  rw [if_pos hs] at hg
  refine ⟨hm, ?_, hg⟩
  have hp : (Text.lowercase "a*s").toList = ['a', '*', 's'] := by decide +kernel
  have ht : (Text.lowercase "aſ").toList = ['a', 'ſ'] := by decide +kernel
  rw [hp, ht, glob_letter_iff (by decide)]
  rintro ⟨s, hs, hg⟩
  cases hs
  have hl : ['s'] <:+ ['ſ'] := (glob_suffix_iff (by decide)).mp hg
  exact absurd hl (by decide)

end TaintRules
