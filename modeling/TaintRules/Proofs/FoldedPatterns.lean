import Mathlib.Data.List.DropRight
import TaintRules.Proofs.ReadPatterns

/-!
# Patterns in small letters

A wildcard is no letter, so it ends a word on either side, and the segments of a pattern in small
letters are its segments, each in small letters. Its shape is therefore the shape of the pattern,
with the literal in small letters. So it makes no difference whether a pattern is read once or
with every text, nor when the text is folded; and the text of a pattern that was read gives the
same pattern when it is read again.
-/

namespace TaintRules

/-! ### Small letters, segment by segment -/

namespace Text

/-- A wildcard is no letter, so that what follows it is not looked at. -/
theorem startsWithCased_append_wildcard (cs rest : List Char) :
    startsWithCased (cs ++ wildcard :: rest) = startsWithCased cs := by
  have hi : isCaseIgnorable wildcard = false := by decide +kernel
  have hc : isCased wildcard = false := by decide +kernel
  unfold startsWithCased
  induction cs with
  | nil => simp [hi, hc]
  | cons c cs ih =>
    rw [List.cons_append, List.dropWhile_cons, List.dropWhile_cons]
    by_cases hm : isCaseIgnorable c = true
    · rw [if_pos hm, if_pos hm]
      exact ih
    · rw [if_neg hm, if_neg hm]

/-- What stands before a wildcard does not change the small forms of what comes after. -/
theorem lowerOnto_append_wildcard (before far cs : List Char) :
    lowerOnto (before ++ wildcard :: far) [] cs = lowerOnto before [] cs := by
  induction cs generalizing before with
  | nil => rfl
  | cons c cs ih =>
    have hs : smallForm (before ++ wildcard :: far) c cs = smallForm before c cs := by
      simp only [smallForm, smallSigma, startsWithCased_append_wildcard]
    rw [lowerOnto_cons, lowerOnto_cons, hs, ← ih (c :: before), List.cons_append]

private theorem smallForm_wildcard (before after : List Char) :
    smallForm before wildcard after = [wildcard] := by
  have hs : smallLetter wildcard = wildcard := (smallLetter_eq_wildcard_iff wildcard).mpr rfl
  unfold smallForm
  rw [if_neg (by decide), if_neg (by decide), hs]

end Text

/-- Literal characters in front of a pattern go into its first segment. -/
theorem segments_append {l : List Char} (hl : wildcard ∉ l) {cs part : List Char}
    {rest : List (List Char)} (hs : segments cs = part :: rest) :
    segments (l ++ cs) = (l ++ part) :: rest := by
  induction l with
  | nil => exact hs
  | cons c l ih =>
    have hc : c ≠ wildcard := fun h ↦ hl (by simp [h])
    have hr : wildcard ∉ l := fun h ↦ hl (List.mem_cons_of_mem _ h)
    obtain ⟨first, others, he, hf⟩ := segments_letter hc (l ++ cs)
    rw [ih hr] at he
    obtain ⟨rfl, rfl⟩ := List.cons.inj he
    exact hf

/-- The first segment decides which letter comes next in the pattern. -/
theorem startsWithCased_segment {cs part : List Char} {rest : List (List Char)}
    (hs : segments cs = part :: rest) : Text.startsWithCased cs = Text.startsWithCased part := by
  have hi := intercalate_segments cs
  rw [hs] at hi
  cases rest with
  | nil => rw [← hi, List.intercalate_singleton]
  | cons next rest =>
    rw [← hi, List.intercalate_cons_cons, List.append_assoc, List.singleton_append,
      Text.startsWithCased_append_wildcard]

private theorem segments_lowerOnto (before cs : List Char) :
    ∃ part rest, segments cs = part :: rest ∧
      segments (Text.lowerOnto before [] cs) =
        Text.lowerOnto before [] part :: rest.map Text.lowerChars := by
  -- only the first segment has letters before it, since a wildcard hides what stands in front
  induction cs generalizing before with
  | nil => exact ⟨[], [], rfl, rfl⟩
  | cons c cs ih =>
    by_cases hc : c = wildcard
    · subst hc
      obtain ⟨part, rest, hs, hl⟩ := ih []
      refine ⟨[], segments cs, segments_wildcard cs, ?_⟩
      have hcut := Text.lowerOnto_append_wildcard [] before cs
      rw [List.nil_append] at hcut
      rw [Text.lowerOnto_cons, Text.smallForm_wildcard, hcut, List.singleton_append,
        segments_wildcard, hl, hs]
      rfl
    · obtain ⟨part, rest, hs, hf⟩ := segments_letter hc cs
      obtain ⟨first, others, hs', hl⟩ := ih (c :: before)
      obtain ⟨rfl, rfl⟩ := List.cons.inj (hs.symm.trans hs')
      refine ⟨c :: part, rest, hf, ?_⟩
      have hw : wildcard ∉ Text.smallForm before c cs :=
        mt (Text.wildcard_mem_smallForm before c cs).mp hc
      have hn : Text.smallForm before c cs = Text.smallForm before c part := by
        simp only [Text.smallForm, Text.smallSigma, startsWithCased_segment hs]
      rw [Text.lowerOnto_cons, segments_append hw hl, hn, ← Text.lowerOnto_cons]

/-- The segments of a pattern in small letters are its segments, each in small letters. -/
theorem segments_lowerChars (cs : List Char) :
    segments (Text.lowerChars cs) = (segments cs).map Text.lowerChars := by
  obtain ⟨part, rest, hs, hl⟩ := segments_lowerOnto [] cs
  rw [hs, List.map_cons]
  exact hl

/-! ### Shapes by segments -/

namespace Shape

/-- The shape of the pattern with the given segments. -/
def ofSegments : List (List Char) → Shape
  | [_] => .exact
  | [first, last] =>
    if first.isEmpty && !last.isEmpty then .suffix (String.ofList last)
    else if !first.isEmpty && last.isEmpty then .leading (String.ofList first)
    else .general
  | [first, middle, last] =>
    if first.isEmpty && !middle.isEmpty && last.isEmpty then .contains (String.ofList middle)
    else .general
  | _ => .general

/-- The shape with its literal changed. -/
def mapLiteral (f : String → String) : Shape → Shape
  | .exact => .exact
  | .suffix literal => .suffix (f literal)
  | .leading literal => .leading (f literal)
  | .contains literal => .contains (f literal)
  | .general => .general

/-- Every segment after the first has a wildcard in front. -/
theorem count_wildcard (cs : List Char) : cs.count wildcard + 1 = (segments cs).length := by
  induction cs with
  | nil => rfl
  | cons c cs ih =>
    by_cases hc : c = wildcard
    · subst hc
      rw [segments_wildcard, List.count_cons_self, List.length_cons, ih]
    · obtain ⟨part, rest, hs, he⟩ := segments_letter hc cs
      rw [he, List.count_cons_of_ne hc, ih, hs]
      rfl

private theorem getLast?_eq_wildcard_iff (l : List Char) {last : List Char}
    (hl : wildcard ∉ last) :
    (l ++ wildcard :: last).getLast? = some wildcard ↔ last = [] := by
  constructor
  · intro h
    cases last with
    | nil => rfl
    | cons d last =>
      rw [List.getLast?_append_of_ne_nil _ (by simp), List.getLast?_cons_cons] at h
      exact absurd (List.mem_of_getLast? h) hl
  · rintro rfl
    exact List.getLast?_concat

private theorem ofChars_of_two {first last : List Char} (hf : wildcard ∉ first)
    (hl : wildcard ∉ last) (hn : (first ++ wildcard :: last).count wildcard = 1) :
    ofChars (first ++ wildcard :: last) = ofSegments [first, last] := by
  have hg := getLast?_eq_wildcard_iff first hl
  unfold ofChars
  rw [hn]
  cases first with
  | nil => cases last <;> rfl
  | cons c first =>
    have hc : c ≠ wildcard := fun h ↦ hf (by simp [h])
    rw [List.cons_append] at hg ⊢
    cases last with
    | nil =>
      have hd : (c :: (first ++ [wildcard])).dropLast = c :: first := by
        rw [← List.cons_append, List.dropLast_concat]
      simp [hc, hg, hd, ofSegments]
    | cons d last => simp [hc, hg, ofSegments]

private theorem ofChars_of_three {first middle last : List Char} (hf : wildcard ∉ first)
    (hl : wildcard ∉ last)
    (hn : (first ++ wildcard :: (middle ++ wildcard :: last)).count wildcard = 2) :
    ofChars (first ++ wildcard :: (middle ++ wildcard :: last)) =
      ofSegments [first, middle, last] := by
  have hg := getLast?_eq_wildcard_iff middle hl
  unfold ofChars
  rw [hn]
  cases first with
  | nil =>
    change (if _ ∧ (middle ++ wildcard :: last).getLast? = some wildcard ∧
      1 < (middle ++ wildcard :: last).length then _ else _) = _
    simp only [hg]
    cases last with
    | nil =>
      rw [List.dropLast_concat]
      cases middle <;> simp [ofSegments]
    | cons d last => simp [ofSegments]
  | cons c first =>
    have hc : c ≠ wildcard := fun h ↦ hf (by simp [h])
    simp [hc, ofSegments]

/-- The segments of a pattern decide its shape. -/
theorem ofChars_eq_ofSegments (cs : List Char) : ofChars cs = ofSegments (segments cs) := by
  have hn := count_wildcard cs
  have hi := intercalate_segments cs
  have hw : ∀ part ∈ segments cs, wildcard ∉ part := fun _ ↦ wildcard_not_mem_segments
  rcases hs : segments cs with _ | ⟨first, _ | ⟨second, _ | ⟨third, _ | ⟨fourth, others⟩⟩⟩⟩
  · exact absurd hs (segments_ne_nil cs)
  all_goals
    rw [hs] at hn hi hw
  · rw [List.intercalate_singleton] at hi
    rw [← hi]
    exact (ofChars_eq_exact_iff first).mpr (hw first (by simp))
  · simp only [List.intercalate_cons_cons, List.intercalate_singleton, List.append_assoc,
      List.singleton_append] at hi
    subst hi
    exact ofChars_of_two (hw first (by simp)) (hw second (by simp)) (by simpa using hn)
  · simp only [List.intercalate_cons_cons, List.intercalate_singleton, List.append_assoc,
      List.singleton_append] at hi
    subst hi
    exact ofChars_of_three (hw first (by simp)) (hw third (by simp)) (by simpa using hn)
  · simp only [List.length_cons] at hn
    unfold ofChars
    split
    · omega
    · omega
    · omega
    · simp [ofSegments]

private theorem isEmpty_lowerChars (l : List Char) : (Text.lowerChars l).isEmpty = l.isEmpty := by
  rw [Bool.eq_iff_iff, List.isEmpty_iff, List.isEmpty_iff, Text.lowerChars_eq_nil_iff]

private theorem ofList_lowerChars (l : List Char) :
    String.ofList (Text.lowerChars l) = Text.lowercase (String.ofList l) := by
  rw [Text.lowercase, String.toList_ofList]

private theorem ofSegments_map_lowerChars : (parts : List (List Char)) →
    ofSegments (parts.map Text.lowerChars) = (ofSegments parts).mapLiteral Text.lowercase
  | [] => rfl
  | [_] => rfl
  | [first, last] => by
    simp only [ofSegments, List.map_cons, List.map_nil, isEmpty_lowerChars, ofList_lowerChars]
    split
    · rfl
    · split <;> rfl
  | [first, middle, last] => by
    simp only [ofSegments, List.map_cons, List.map_nil, isEmpty_lowerChars, ofList_lowerChars]
    split <;> rfl
  | _ :: _ :: _ :: _ :: _ => rfl

/-- The shape of a pattern in small letters is its shape, with the literal in small letters. -/
theorem classify_lowercase (pattern : String) :
    classify (Text.lowercase pattern) = (classify pattern).mapLiteral Text.lowercase := by
  rw [classify, classify, Text.toList_lowercase, ofChars_eq_ofSegments, ofChars_eq_ofSegments,
    segments_lowerChars, ofSegments_map_lowerChars]

end Shape

/-! ### Patterns read once or with every text -/

/-- Once the blanks are off the ends of a text there are none left. -/
theorem Text.trimChars_trimChars (cs : List Char) : trimChars (trimChars cs) = trimChars cs := by
  have he (l : List Char) : trimChars l = (l.dropWhile isBlankChar).rdropWhile isBlankChar := rfl
  have hd : (trimChars cs).dropWhile isBlankChar = trimChars cs := by
    rw [List.dropWhile_eq_self_iff]
    intro hl
    -- taking blanks off the end leaves the first character where it was
    have hp : trimChars cs <+: cs.dropWhile isBlankChar := List.rdropWhile_prefix _ _
    rw [hp.getElem hl]
    exact List.dropWhile_get_zero_not _ _ _
  rw [he (trimChars cs), hd, he, List.rdropWhile_idempotent]

theorem Text.trim_trim (s : String) : trim (trim s) = trim s := by
  rw [trim, trim, String.toList_ofList, trimChars_trimChars]

namespace Pattern

/-- The text of a pattern that was read gives this pattern again. -/
theorem parse_raw {raw : String} {p : Pattern} (h : parse raw = .ok p) : parse p.raw = .ok p := by
  have ht : p.raw = Text.trim raw := by
    simp only [parse] at h
    split at h
    · cases h
    · split at h
      · cases h
      · split at h
        · cases h
          rfl
        · cases h
  have hp : parse (Text.trim raw) = parse raw := by
    simp only [parse, Text.trim_trim]
  rw [ht, hp, h]

namespace IsRead

variable {p : Pattern}

/-- A pattern that was read has one shape in both modes, with its literal in small letters where
case does not matter. -/
theorem foldedShape_eq (h : p.IsRead) : p.foldedShape = p.shape.mapLiteral Text.lowercase := by
  have hs : Shape.classify p.raw = p.shape := h.classify_textFor .sensitive
  have hi := h.classify_textFor .insensitive
  rw [h.textFor_eq, CaseMode.fold_insensitive, Shape.classify_lowercase, hs] at hi
  exact hi.symm

/-- A pattern that was read accepts what its text matches. -/
theorem accepts_eq_wildcardMatch (h : p.IsRead) (mode : CaseMode) (text : String) :
    p.accepts mode text = wildcardMatch mode p.raw text := by
  have hr : p.raw.isEmpty = false := String.isEmpty_eq_false_iff.mpr h.raw_ne
  rw [accepts, wildcardMatch, hr, ← h.textFor_eq, h.classify_textFor]
  rfl

end IsRead

/-- A pattern that was read gives, in either mode and whatever the matchers were asked before, the
answer that its text gives when it is not read before, also for a text that is folded beforehand.
It has one shape in both modes, every automaton it asks for is built, and reading its text again
gives the same pattern. Folding a text is writing it small, also where the text is passed on as it
is. -/
theorem answers_of_parse {raw : String} {p : Pattern} (h : parse raw = .ok p) {m other : Matcher}
    (hm : m.Reached) (ho : other.Reached) (mode : CaseMode) (text : String) :
    (Matcher.accepts p mode text m).1 = (Matcher.wildcardMatch mode p.raw text other).1 ∧
      (Matcher.acceptsFolded p mode (mode.fold text) m).1 =
        (Matcher.accepts p mode text other).1 ∧
      p.foldedShape = p.shape.mapLiteral Text.lowercase ∧
      (p.shapeFor mode = .general →
        (Matcher.request ⟨p.textFor mode, mode⟩ m).1.isSome = true) ∧
      parse p.raw = .ok p ∧
      ∀ s : String, CaseMode.insensitive.fold s = Text.lowercase s := by
  have hr := isRead_of_parse h
  refine ⟨?_, ?_, hr.foldedShape_eq, fun hs ↦ ?_, parse_raw h, CaseMode.fold_insensitive⟩
  · rw [(Matcher.gives_accepts p mode text m hm.faithful).1,
      (Matcher.gives_wildcardMatch mode p.raw text other ho.faithful).1,
      hr.accepts_eq_wildcardMatch]
  · rw [(Matcher.gives_acceptsFolded p mode _ m hm.faithful).1,
      (Matcher.gives_accepts p mode text other ho.faithful).1, accepts_eq_acceptsFolded]
  · rw [(Matcher.gives_request _ m hm.faithful).1]
    exact hr.isSome_build? hs

/-- A general pattern with a title-case letter and a capital sigma, given with blanks. -/
theorem answers_of_parse_titlecase :
    parse " ǅ*x*Σ\t" = .ok (.ofText "ǅ*x*Σ") ∧
      (Matcher.accepts (.ofText "ǅ*x*Σ") .insensitive "ǆaxbς" (.new 1)).1 = true ∧
      parse "ǅ*x*Σ" = .ok (.ofText "ǅ*x*Σ") := by
  have h : parse " ǅ*x*Σ\t" = .ok (.ofText "ǅ*x*Σ") := by decide +kernel
  have ha := answers_of_parse h (.new 1) (.new 2) .insensitive "ǆaxbς"
  have hw : (Matcher.wildcardMatch .insensitive "ǅ*x*Σ" "ǆaxbς" (.new 2)).1 = true := by
    decide +kernel
  exact ⟨h, ha.1.trans hw, ha.2.2.2.2.1⟩

end Pattern

end TaintRules
