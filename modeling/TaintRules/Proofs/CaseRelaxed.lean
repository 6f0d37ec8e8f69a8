import TaintRules.Proofs.FoldedPatterns

/-!
# Matches where case no longer matters

Of all capitals only the sigma has two small forms, and which of them it takes depends on the
letters around it. A literal of a pattern stands alone, and in a text it stands among letters. So a
text that matches where case matters is found again where it does not, unless a capital sigma of
the literal takes one small form in the pattern and the other one in the text. A pattern without a
literal loses nothing: an exact one has the whole text around its sigmas, and an automaton takes
the two forms for one letter.
-/

namespace TaintRules

namespace Text

/-! ### Small letters among others -/

/-- The small forms of a stretch of text between `before`, from the nearest character on, and
`after`. -/
def lowerWithin : List Char → List Char → List Char → List Char
  | _, [], _ => []
  | before, c :: cs, after => smallForm before c (cs ++ after) ++ lowerWithin (c :: before) cs after

/-- A text is written small stretch by stretch, each among the others. -/
theorem lowerOnto_append (before cs after : List Char) :
    lowerOnto before [] (cs ++ after) =
      lowerWithin before cs after ++ lowerOnto (cs.reverse ++ before) [] after := by
  induction cs generalizing before with
  | nil => rfl
  | cons c cs ih =>
    rw [List.cons_append, lowerOnto_cons, ih, lowerWithin, List.append_assoc, List.reverse_cons,
      List.append_assoc, List.singleton_append]

/-- The end of a text has nothing after it. -/
theorem lowerOnto_eq_lowerWithin (before cs : List Char) :
    lowerOnto before [] cs = lowerWithin before cs [] := by
  have h := lowerOnto_append before cs []
  rw [List.append_nil, lowerOnto, List.reverse_nil, List.append_nil] at h
  exact h

private theorem length_smallForm (before after other rest : List Char) (c : Char) :
    (smallForm before c after).length = (smallForm other c rest).length := by
  unfold smallForm
  split
  · rfl
  · split <;> rfl

private theorem smallForm_eq_iff {before after other rest : List Char} {c : Char} :
    smallForm before c after = smallForm other c rest ↔
      (c = 'Σ' → smallSigma before after = smallSigma other rest) := by
  unfold smallForm
  split
  · next h => simp [h]
  · next h => simp [h]

private theorem length_lowerWithin (before after other rest cs : List Char) :
    (lowerWithin before cs after).length = (lowerWithin other cs rest).length := by
  induction cs generalizing before other with
  | nil => rfl
  | cons c cs ih =>
    rw [lowerWithin, lowerWithin, List.length_append, List.length_append,
      length_smallForm before _ other (cs ++ rest), ih]

/-- A stretch has as many small letters among others as it has alone. -/
theorem length_lowerChars (before cs after : List Char) :
    (lowerChars cs).length = (lowerWithin before cs after).length := by
  rw [lowerChars, lowerOnto_eq_lowerWithin]
  exact length_lowerWithin _ _ _ _ cs

/-- A stretch is written small alike in two places if its capital sigmas are. -/
theorem lowerWithin_eq_iff {before after other rest cs : List Char} :
    lowerWithin before cs after = lowerWithin other cs rest ↔
      ∀ front back, cs = front ++ 'Σ' :: back →
        smallSigma (front.reverse ++ before) (back ++ after) =
          smallSigma (front.reverse ++ other) (back ++ rest) := by
  induction cs generalizing before other with
  | nil => simp [lowerWithin]
  | cons c cs ih =>
    rw [lowerWithin, lowerWithin]
    constructor
    · intro h front back he
      obtain ⟨hc, hr⟩ := List.append_inj h (length_smallForm _ _ _ _ c)
      cases front with
      | nil =>
        cases he
        exact smallForm_eq_iff.mp hc rfl
      | cons d front =>
        cases he
        simpa using ih.mp hr front back rfl
    · intro h
      have hc : smallForm before c (cs ++ after) = smallForm other c (cs ++ rest) := by
        apply smallForm_eq_iff.mpr
        rintro rfl
        exact h [] cs rfl
      have hr : lowerWithin (c :: before) cs after = lowerWithin (c :: other) cs rest := by
        apply ih.mpr
        rintro front back rfl
        simpa using h (c :: front) back rfl
      rw [hc, hr]

/-- Every capital sigma of a literal takes between `before`, from the nearest character on, and
`after` the small form that it takes alone. -/
def SigmasStay (before literal after : List Char) : Prop :=
  ∀ front back, literal = front ++ 'Σ' :: back →
    smallSigma (front.reverse ++ before) (back ++ after) = smallSigma front.reverse back

/-- A literal is written small as it is alone if its capital sigmas are. -/
theorem sigmasStay_iff {before literal after : List Char} :
    SigmasStay before literal after ↔ lowerWithin before literal after = lowerChars literal := by
  rw [lowerChars, lowerOnto_eq_lowerWithin, lowerWithin_eq_iff]
  simp only [List.append_nil]
  exact Iff.rfl

theorem sigmasStay_of_not_mem {literal : List Char} (h : 'Σ' ∉ literal) (before after : List Char) :
    SigmasStay before literal after := by
  rintro front back rfl
  simp at h

/-- The end of a text is its end in small letters if the capital sigmas stay. -/
theorem lowerChars_suffix_iff (front literal : List Char) :
    lowerChars literal <:+ lowerChars (front ++ literal) ↔
      SigmasStay front.reverse literal [] := by
  have he : lowerChars (front ++ literal) =
      lowerWithin [] front literal ++ lowerWithin front.reverse literal [] := by
    rw [lowerChars, lowerOnto_append, List.append_nil, lowerOnto_eq_lowerWithin]
  have hl := length_lowerChars front.reverse literal []
  rw [he, sigmasStay_iff]
  constructor
  · intro h
    have hs := List.suffix_of_suffix_length_le h (List.suffix_append _ _) hl.le
    exact (hs.eq_of_length hl).symm
  · intro h
    rw [h]
    exact List.suffix_append _ _

/-- The front of a text is its front in small letters if the capital sigmas stay. -/
theorem lowerChars_prefix_iff (literal back : List Char) :
    lowerChars literal <+: lowerChars (literal ++ back) ↔ SigmasStay [] literal back := by
  have he : lowerChars (literal ++ back) =
      lowerWithin [] literal back ++ lowerOnto literal.reverse [] back := by
    rw [lowerChars, lowerOnto_append, List.append_nil]
  have hl := length_lowerChars [] literal back
  rw [he, sigmasStay_iff]
  constructor
  · intro h
    have hp := List.prefix_of_prefix_length_le h (List.prefix_append _ _) hl.le
    exact (hp.eq_of_length hl).symm
  · intro h
    rw [h]
    exact List.prefix_append _ _

/-- A stretch of a text occurs in its small letters if the capital sigmas stay. -/
theorem lowerChars_infix {front literal back : List Char}
    (h : SigmasStay front.reverse literal back) :
    lowerChars literal <:+: lowerChars (front ++ (literal ++ back)) := by
  rw [sigmasStay_iff] at h
  rw [lowerChars, lowerChars, lowerOnto_append, lowerOnto_append, List.append_nil, h]
  exact ⟨_, _, List.append_assoc _ _ _⟩

/-! ### Letters up to case and variant -/

/-- The letters that stand for the small form of a character. -/
def smallKeys (c : Char) : List Char := (smallForm [] c []).map letterKey

/-- The two small sigmas are one letter, so that it does not matter where a character stands. -/
theorem map_letterKey_smallForm (before : List Char) (c : Char) (after : List Char) :
    (smallForm before c after).map letterKey = smallKeys c := by
  have hs (before after : List Char) : letterKey (smallSigma before after) = 'σ' := by
    unfold smallSigma
    split <;> decide +kernel
  unfold smallKeys smallForm
  split
  · simp only [List.map_cons, List.map_nil, hs]
  · rfl

/-- The letters that stand for a text in small letters are those of its characters. -/
theorem map_letterKey_lowerChars (cs : List Char) :
    (lowerChars cs).map letterKey = cs.flatMap smallKeys := by
  have all (before : List Char) :
      (lowerOnto before [] cs).map letterKey = cs.flatMap smallKeys := by
    induction cs generalizing before with
    | nil => rfl
    | cons c cs ih =>
      rw [lowerOnto_cons, List.map_append, map_letterKey_smallForm, ih, List.flatMap_cons]
  exact all []

theorem smallKeys_wildcard : smallKeys wildcard = [wildcard] := by decide +kernel

theorem wildcard_not_mem_smallKeys {c : Char} (hc : c ≠ wildcard) : wildcard ∉ smallKeys c := by
  intro h
  obtain ⟨d, hd, hk⟩ := List.mem_map.mp h
  rw [(letterKey_eq_wildcard_iff d).mp hk, wildcard_mem_smallForm] at hd
  exact hc hd

end Text

/-- A text keeps the form of a pattern when each letter of both is replaced by some letters. -/
theorem Glob.flatMap {f : Char → List Char} (hw : f wildcard = [wildcard])
    (hf : ∀ c, c ≠ wildcard → wildcard ∉ f c) {p t : List Char} (h : Glob p t) :
    Glob (p.flatMap f) (t.flatMap f) := by
  induction h with
  | nil => exact .nil
  | letter hc _ ih =>
    rw [List.flatMap_cons, List.flatMap_cons]
    exact (glob_append_iff (hf _ hc)).mpr ⟨_, rfl, ih⟩
  | skip _ ih =>
    rw [List.flatMap_cons, hw]
    exact .skip ih
  | take _ ih =>
    rw [List.flatMap_cons, hw, List.singleton_append] at ih ⊢
    rw [List.flatMap_cons]
    exact glob_wildcard_mono (List.suffix_append _ _) ih

/-- A text of the form of a pattern is of this form in small letters, up to variants of letters. -/
theorem glob_letterKey_lowerChars {p t : List Char} (h : Glob p t) :
    Glob ((Text.lowerChars p).map Text.letterKey) ((Text.lowerChars t).map Text.letterKey) := by
  rw [Text.map_letterKey_lowerChars, Text.map_letterKey_lowerChars]
  exact h.flatMap Text.smallKeys_wildcard fun _ ↦ Text.wildcard_not_mem_smallKeys

/-! ### Answers -/

/-- Where case does not matter, a pattern is decided by its own shape, in small letters. -/
theorem wildcardMatch_insensitive_eq (pattern text : String) :
    wildcardMatch .insensitive pattern text =
      (!pattern.isEmpty && !text.isEmpty &&
        ((Shape.classify pattern).mapLiteral Text.lowercase).accepts .insensitive
          (Text.lowercase pattern) (Text.lowercase text)) := by
  rw [wildcardMatch, CaseMode.fold_insensitive, CaseMode.fold_insensitive,
    Shape.classify_lowercase]

namespace Shape

variable {literal text : String} (pattern : String)

/-- A literal at the end of a text is found in small letters if its capital sigmas stay. -/
theorem accepts_suffix_iff {front : List Char} (ht : text.toList = front ++ literal.toList) :
    (suffix (Text.lowercase literal)).accepts .insensitive pattern (Text.lowercase text) = true ↔
      Text.SigmasStay front.reverse literal.toList [] := by
  rw [← Text.lowerChars_suffix_iff, ← ht, ← Text.toList_lowercase, ← Text.toList_lowercase]
  exact List.isSuffixOf_iff_suffix

/-- A literal at the front of a text is found in small letters if its capital sigmas stay. -/
theorem accepts_leading_iff {back : List Char} (ht : text.toList = literal.toList ++ back) :
    (leading (Text.lowercase literal)).accepts .insensitive pattern (Text.lowercase text) = true ↔
      Text.SigmasStay [] literal.toList back := by
  rw [← Text.lowerChars_prefix_iff, ← ht, ← Text.toList_lowercase, ← Text.toList_lowercase]
  exact List.isPrefixOf_iff_prefix

/-- A literal within a text is found in small letters if its capital sigmas stay there. -/
theorem accepts_contains {front back : List Char}
    (ht : text.toList = front ++ (literal.toList ++ back))
    (hs : Text.SigmasStay front.reverse literal.toList back) :
    (contains (Text.lowercase literal)).accepts .insensitive pattern (Text.lowercase text) =
      true := by
  have hi := Text.lowerChars_infix hs
  rw [← ht, ← Text.toList_lowercase, ← Text.toList_lowercase] at hi
  exact occursIn_iff.mpr hi

/-- What an automaton accepts where case matters is accepted where it does not. -/
theorem accepts_general {pattern text : String}
    (hb : (Automaton.build? .insensitive (Text.lowercase pattern)).isSome = true)
    (h : general.accepts .sensitive pattern text = true) :
    general.accepts .insensitive (Text.lowercase pattern) (Text.lowercase text) = true := by
  unfold accepts acceptsWith at h ⊢
  cases hs : Automaton.build? .sensitive pattern with
  | none =>
    rw [hs] at h
    cases h
  | some automaton =>
    rw [hs] at h
    have hg : Glob pattern.toList text.toList := (Automaton.accepts_iff hs text).mp h
    obtain ⟨folded, hf⟩ := Option.isSome_iff_exists.mp hb
    rw [hf]
    apply (Automaton.accepts_iff hf _).mpr
    rw [Text.toList_lowercase, Text.toList_lowercase]
    exact glob_letterKey_lowerChars hg

end Shape

/-- When a text that matches the shape where case matters is found where it does not: always,
unless a literal decides the shape, and then if the capital sigmas of the literal stay as they
are. -/
def Shape.FindsAgain (text : List Char) (found : Prop) : Shape → Prop
  | .exact | .general => found
  | .suffix literal => ∀ front, text = front ++ literal.toList →
      (found ↔ Text.SigmasStay front.reverse literal.toList [])
  | .leading literal => ∀ back, text = literal.toList ++ back →
      (found ↔ Text.SigmasStay [] literal.toList back)
  | .contains literal => ∀ front back, text = front ++ (literal.toList ++ back) →
      Text.SigmasStay front.reverse literal.toList back → found

section Sensitive

variable {pattern text : String}
  (hb : Shape.classify (Text.lowercase pattern) = .general →
    (Automaton.build? .insensitive (Text.lowercase pattern)).isSome = true)
  (h : wildcardMatch .sensitive pattern text = true)

include h

private theorem accepts_of_sensitive :
    (Shape.classify pattern).accepts .sensitive pattern text = true ∧
      wildcardMatch .insensitive pattern text =
        ((Shape.classify pattern).mapLiteral Text.lowercase).accepts .insensitive
          (Text.lowercase pattern) (Text.lowercase text) := by
  rw [wildcardMatch, Bool.and_eq_true, Bool.and_eq_true] at h
  obtain ⟨⟨hp, ht⟩, hs⟩ := h
  rw [wildcardMatch_insensitive_eq, hp, ht]
  exact ⟨hs, rfl⟩

include hb

/-- A text that matches where case matters is found again where it does not, unless a capital sigma
of the literal takes another form in the text. -/
theorem findsAgain_of_sensitive :
    (Shape.classify pattern).FindsAgain text.toList
      (wildcardMatch .insensitive pattern text = true) := by
  obtain ⟨hs, hf⟩ := accepts_of_sensitive h
  rw [Shape.classify_lowercase] at hb
  rw [hf]
  cases hc : Shape.classify pattern with
  | exact =>
    rw [hc] at hs
    have he : text = pattern := beq_iff_eq.mp hs
    rw [he]
    exact beq_self_eq_true (Text.lowercase pattern)
  | suffix literal => exact fun front ht ↦ Shape.accepts_suffix_iff _ ht
  | leading literal => exact fun back ht ↦ Shape.accepts_leading_iff _ ht
  | contains literal => exact fun front back ht ↦ Shape.accepts_contains _ ht
  | general =>
    rw [hc] at hs hb
    exact Shape.accepts_general (hb rfl) hs

/-- A pattern without a capital sigma loses nothing where case no longer matters. -/
theorem insensitive_of_no_sigma (hn : 'Σ' ∉ pattern.toList) :
    wildcardMatch .insensitive pattern text = true := by
  have hs := (accepts_of_sensitive h).1
  have ha := findsAgain_of_sensitive hb h
  have hf := Shape.fits_ofChars pattern.toList
  rw [← Shape.classify] at hf
  cases hc : Shape.classify pattern with
  | exact =>
    rw [hc] at ha
    exact ha
  | suffix literal =>
    rw [hc] at hs ha hf
    obtain ⟨front, he⟩ := List.isSuffixOf_iff_suffix.mp hs
    rw [hf.1, List.mem_cons, not_or] at hn
    exact (ha front he.symm).mpr (Text.sigmasStay_of_not_mem hn.2 _ _)
  | leading literal =>
    rw [hc] at hs ha hf
    obtain ⟨back, he⟩ := List.isPrefixOf_iff_prefix.mp hs
    rw [hf.1, List.mem_append, not_or] at hn
    exact (ha back he.symm).mpr (Text.sigmasStay_of_not_mem hn.1 _ _)
  | contains literal =>
    rw [hc] at hs ha hf
    obtain ⟨front, back, he⟩ := occursIn_iff.mp hs
    rw [hf.1, List.mem_cons, List.mem_append, not_or, not_or] at hn
    rw [List.append_assoc] at he
    exact ha front back he.symm (Text.sigmasStay_of_not_mem hn.2.1 _ _)
  | general =>
    rw [hc] at ha
    exact ha

end Sensitive

/-- Whatever the matcher was asked before, a text that matches where case matters is found where it
does not, if the pattern is exact or general or has no capital sigma. A literal at the end or at
the front of the text is found exactly if each of its capital sigmas has the same small form in the
pattern and in the text, and a literal within the text is found if this is so at one of its places.
The same holds of a pattern that was read. -/
theorem insensitive_of_sensitive {m : Matcher} (hm : m.Reached) :
    (∀ pattern text : String,
        (Shape.classify (Text.lowercase pattern) = .general →
          (Automaton.build? .insensitive (Text.lowercase pattern)).isSome = true) →
        (Matcher.wildcardMatch .sensitive pattern text m).1 = true →
        let found := (Matcher.wildcardMatch .insensitive pattern text m).1 = true
        (Shape.classify pattern).FindsAgain text.toList found ∧
          ('Σ' ∉ pattern.toList → found)) ∧
      (∀ (raw text : String) (p : Pattern), Pattern.parse raw = .ok p →
        (Matcher.accepts p .sensitive text m).1 = true →
        let found := (Matcher.accepts p .insensitive text m).1 = true
        p.shape.FindsAgain text.toList found ∧ ('Σ' ∉ p.raw.toList → found)) := by
  constructor
  · intro pattern text hb h
    rw [(Matcher.gives_wildcardMatch _ pattern text m hm.faithful).1] at h ⊢
    exact ⟨findsAgain_of_sensitive hb h, insensitive_of_no_sigma hb h⟩
  · intro raw text p hp h
    have hr := Pattern.isRead_of_parse hp
    have hb : Shape.classify (Text.lowercase p.raw) = .general →
        (Automaton.build? .insensitive (Text.lowercase p.raw)).isSome = true := by
      rw [← CaseMode.fold_insensitive, ← hr.textFor_eq, hr.classify_textFor]
      exact hr.isSome_build?
    rw [(Matcher.gives_accepts p _ text m hm.faithful).1, hr.accepts_eq_wildcardMatch] at h ⊢
    rw [← show Shape.classify p.raw = p.shape from hr.classify_textFor .sensitive]
    exact ⟨findsAgain_of_sensitive hb h, insensitive_of_no_sigma hb h⟩

/-- A sigma alone is small as `σ`, and after a letter at the end of the text as `ς`: the text ends
with the literal of the pattern, and is not found where case does not matter. -/
theorem insensitive_misses_final_sigma :
    (Matcher.wildcardMatch .sensitive "*Σ" "ΑΣ" (.new 1)).1 = true ∧
      ¬ Text.SigmasStay ['Α'] ['Σ'] [] ∧
      ¬ (Matcher.wildcardMatch .insensitive "*Σ" "ΑΣ" (.new 1)).1 = true ∧
      Pattern.parse "*Σ" = .ok (.ofText "*Σ") ∧
      (Matcher.accepts (.ofText "*Σ") .sensitive "ΑΣ" (.new 1)).1 = true ∧
      ¬ (Matcher.accepts (.ofText "*Σ") .insensitive "ΑΣ" (.new 1)).1 = true := by
  have hstay : ¬ Text.SigmasStay ['Α'] ['Σ'] [] := by
    intro h
    have hs : Text.smallSigma ['Α'] [] = Text.smallSigma [] [] := h [] [] rfl
    exact absurd hs (by decide +kernel)
  have hc : Shape.classify "*Σ" = .suffix "Σ" := by decide +kernel
  have hs : (Matcher.wildcardMatch .sensitive "*Σ" "ΑΣ" (.new 1)).1 = true := by decide +kernel
  have hp : Pattern.parse "*Σ" = .ok (.ofText "*Σ") := by decide +kernel
  have ha : (Matcher.accepts (.ofText "*Σ") .sensitive "ΑΣ" (.new 1)).1 = true := by
    decide +kernel
  obtain ⟨adHoc, read⟩ := insensitive_of_sensitive (.new 1)
  have hb : Shape.classify (Text.lowercase "*Σ") ≠ .general := by decide +kernel
  have hw := (adHoc "*Σ" "ΑΣ" (fun h ↦ absurd h hb) hs).1
  have hr := (read "*Σ" "ΑΣ" _ hp ha).1
  rw [show (Pattern.ofText "*Σ").shape = .suffix "Σ" from hc] at hr
  rw [hc] at hw
  exact ⟨hs, hstay, mt (hw ['Α'] rfl).mp hstay, hp, ha, mt (hr ['Α'] rfl).mp hstay⟩

end TaintRules
