import TaintRules.Pattern.Automaton

/-!
# Deciding globs by their segments

A pattern is the sequence of its segments with a wildcard between each two. Taking every segment
at its first occurrence is a search without going back; it finds a way through the text exactly
when `Glob` holds, because a wildcard that is satisfied by less of the text is satisfied by more.
-/

namespace TaintRules

/-! ### Globs by the front of the pattern -/

/-- The empty pattern is the form of the empty text alone. -/
theorem glob_nil_iff {t : List Char} : Glob [] t ↔ t = [] := by
  constructor
  · intro h
    cases h
    rfl
  · intro h
    rw [h]
    exact .nil

/-- An ordinary character takes exactly itself from the front of the text. -/
theorem glob_letter_iff {c : Char} {p t : List Char} (hc : c ≠ wildcard) :
    Glob (c :: p) t ↔ ∃ s, t = c :: s ∧ Glob p s := by
  constructor
  · intro h
    cases h with
    | letter _ hr => exact ⟨_, rfl, hr⟩
    | skip _ => exact absurd rfl hc
    | take _ => exact absurd rfl hc
  · rintro ⟨s, rfl, hs⟩
    exact .letter hc hs

private theorem glob_wildcard_suffix {q t : List Char} (h : Glob q t) :
    ∀ p, q = wildcard :: p → ∃ s, s <:+ t ∧ Glob p s := by
  -- the induction is on the derivation: each further character taken lengthens what is dropped
  induction h with
  | nil =>
    intro p hp
    cases hp
  | letter hc _ _ =>
    intro p hp
    exact absurd (List.cons.inj hp).1 hc
  | skip hr _ =>
    intro p hp
    rw [← (List.cons.inj hp).2]
    exact ⟨_, List.suffix_refl _, hr⟩
  | take _ ih =>
    intro p hp
    obtain ⟨s, hs, hg⟩ := ih p hp
    exact ⟨s, hs.trans (List.suffix_cons _ _), hg⟩

/-- A leading wildcard leaves some end of the text to the rest of the pattern. -/
theorem glob_wildcard_iff {p t : List Char} :
    Glob (wildcard :: p) t ↔ ∃ s, s <:+ t ∧ Glob p s := by
  constructor
  · intro h
    exact glob_wildcard_suffix h p rfl
  · rintro ⟨s, ⟨front, rfl⟩, hs⟩
    induction front with
    | nil => exact .skip hs
    | cons c front ih => exact .take ih

/-- A leading wildcard that is satisfied by an end of the text is satisfied by the whole. -/
theorem glob_wildcard_mono {p s t : List Char} (hs : s <:+ t) (h : Glob (wildcard :: p) s) :
    Glob (wildcard :: p) t := by
  obtain ⟨r, hr, hg⟩ := glob_wildcard_iff.mp h
  exact glob_wildcard_iff.mpr ⟨r, hr.trans hs, hg⟩

/-- Literal characters in front of a pattern stand in front of the text. -/
theorem glob_append_iff {l p t : List Char} (hl : wildcard ∉ l) :
    Glob (l ++ p) t ↔ ∃ s, t = l ++ s ∧ Glob p s := by
  induction l generalizing t with
  | nil => simp
  | cons c l ih =>
    have hc : c ≠ wildcard := fun h ↦ hl (by simp [h])
    have hr : wildcard ∉ l := fun h ↦ hl (List.mem_cons_of_mem _ h)
    rw [List.cons_append, glob_letter_iff hc]
    constructor
    · rintro ⟨s, rfl, hs⟩
      obtain ⟨r, rfl, hg⟩ := (ih hr).mp hs
      exact ⟨r, rfl, hg⟩
    · rintro ⟨s, rfl, hg⟩
      exact ⟨l ++ s, rfl, (ih hr).mpr ⟨s, rfl, hg⟩⟩

/-- A pattern without wildcards is the form of itself alone. -/
theorem glob_literal_iff {l t : List Char} (hl : wildcard ∉ l) : Glob l t ↔ t = l := by
  have h := glob_append_iff (p := []) (t := t) hl
  simpa only [List.append_nil, glob_nil_iff, exists_eq_right] using h

/-- A literal behind a wildcard is the end of the text. -/
theorem glob_suffix_iff {l t : List Char} (hl : wildcard ∉ l) :
    Glob (wildcard :: l) t ↔ l <:+ t := by
  rw [glob_wildcard_iff]
  simp only [glob_literal_iff hl, exists_eq_right]

/-- A wildcard alone is the form of every text. -/
theorem glob_wildcard_only (t : List Char) : Glob [wildcard] t :=
  (glob_suffix_iff List.not_mem_nil).mpr (List.nil_suffix)

/-- A literal in front of a wildcard is the front of the text. -/
theorem glob_prefix_iff {l t : List Char} (hl : wildcard ∉ l) :
    Glob (l ++ [wildcard]) t ↔ l <+: t := by
  rw [glob_append_iff hl]
  constructor
  · rintro ⟨s, rfl, _⟩
    exact List.prefix_append l s
  · rintro ⟨s, rfl⟩
    exact ⟨s, rfl, glob_wildcard_only s⟩

/-- A literal between two wildcards occurs in the text. -/
theorem glob_infix_iff {l t : List Char} (hl : wildcard ∉ l) :
    Glob (wildcard :: (l ++ [wildcard])) t ↔ l <:+: t := by
  rw [glob_wildcard_iff, List.infix_iff_prefix_suffix]
  constructor
  · rintro ⟨s, hs, hg⟩
    exact ⟨s, (glob_prefix_iff hl).mp hg, hs⟩
  · rintro ⟨s, hp, hs⟩
    exact ⟨s, hs, (glob_prefix_iff hl).mpr hp⟩

/-! ### First occurrences -/

/-- What follows an occurrence does follow one. -/
theorem append_suffix_of_afterFirst? {part t rest : List Char}
    (h : afterFirst? part t = some rest) : part ++ rest <:+ t := by
  induction t with
  | nil =>
    simp only [afterFirst?] at h
    split at h
    · next he =>
      cases h
      rw [List.isEmpty_iff.mp he]
      exact List.suffix_refl _
    · cases h
  | cons c t ih =>
    simp only [afterFirst?] at h
    split at h
    · next hp =>
      obtain ⟨s, hs⟩ := List.isPrefixOf_iff_prefix.mp hp
      cases h
      exact ⟨[], by rw [List.nil_append, ← hs, List.drop_left]⟩
    · exact (ih h).trans (List.suffix_cons _ _)

/-- No occurrence is earlier than the first: what follows any other is an end of what follows
the first. -/
theorem afterFirst?_of_append_suffix {part t s : List Char} (h : part ++ s <:+ t) :
    ∃ rest, afterFirst? part t = some rest ∧ s <:+ rest := by
  induction t with
  | nil =>
    obtain ⟨rfl, rfl⟩ := List.append_eq_nil_iff.mp (List.suffix_nil.mp h)
    exact ⟨[], rfl, List.suffix_refl _⟩
  | cons c t ih =>
    simp only [afterFirst?]
    split
    · next hp =>
      refine ⟨_, rfl, ?_⟩
      obtain ⟨r, hr⟩ := List.isPrefixOf_iff_prefix.mp hp
      rw [← hr, List.drop_left]
      rw [← hr] at h
      have hl : s.length ≤ r.length := by
        have := h.length_le
        simp only [List.length_append] at this
        omega
      exact List.suffix_of_suffix_length_le ((List.suffix_append part s).trans h)
        (List.suffix_append part r) hl
    · next hp =>
      rcases List.suffix_cons_iff.mp h with he | hs
      · exact absurd (List.isPrefixOf_iff_prefix.mpr ⟨s, he⟩) hp
      · exact ih hs

/-- Occurring is being a stretch of the text. -/
theorem occursIn_iff {part t : List Char} : occursIn part t = true ↔ part <:+: t := by
  rw [occursIn, Option.isSome_iff_exists]
  constructor
  · rintro ⟨rest, h⟩
    exact (List.prefix_append part rest).isInfix.trans (append_suffix_of_afterFirst? h).isInfix
  · rintro ⟨front, back, h⟩
    have hs : part ++ back <:+ t := ⟨front, by rw [← h, List.append_assoc]⟩
    obtain ⟨rest, hr, _⟩ := afterFirst?_of_append_suffix hs
    exact ⟨rest, hr⟩

/-! ### Segments -/

/-- A pattern has at least one segment. -/
theorem segments_ne_nil (cs : List Char) : segments cs ≠ [] := by
  cases cs with
  | nil => simp [segments]
  | cons c cs =>
    simp only [segments, List.foldr_cons]
    split
    · simp
    · split <;> simp

/-- A wildcard in front puts an empty segment in front. -/
theorem segments_wildcard (cs : List Char) :
    segments (wildcard :: cs) = [] :: segments cs := by
  simp [segments]

/-- A literal character in front goes into the first segment. -/
theorem segments_letter {c : Char} (hc : c ≠ wildcard) (cs : List Char) :
    ∃ part rest, segments cs = part :: rest ∧ segments (c :: cs) = (c :: part) :: rest := by
  obtain ⟨part, rest, h⟩ := List.exists_cons_of_ne_nil (segments_ne_nil cs)
  refine ⟨part, rest, h, ?_⟩
  simp only [segments] at h ⊢
  simp [hc, h]

/-- Putting the wildcards back between the segments gives the pattern. -/
theorem intercalate_segments (cs : List Char) : [wildcard].intercalate (segments cs) = cs := by
  induction cs with
  | nil => rfl
  | cons c cs ih =>
    by_cases hc : c = wildcard
    · subst hc
      rw [segments_wildcard, List.intercalate_cons_of_ne_nil (segments_ne_nil cs), ih]
      rfl
    · obtain ⟨part, rest, hs, hc⟩ := segments_letter hc cs
      rw [hs] at ih
      rw [hc]
      cases rest with
      | nil =>
        rw [List.intercalate_singleton] at ih ⊢
        rw [ih]
      | cons next rest =>
        rw [List.intercalate_cons_cons] at ih ⊢
        rw [← ih]
        rfl

/-- Segments hold no wildcards. -/
theorem wildcard_not_mem_segments {cs part : List Char} (h : part ∈ segments cs) :
    wildcard ∉ part := by
  induction cs generalizing part with
  | nil =>
    rw [List.mem_singleton.mp h]
    exact List.not_mem_nil
  | cons c cs ih =>
    by_cases hc : c = wildcard
    · subst hc
      rw [segments_wildcard] at h
      rcases List.mem_cons.mp h with rfl | h
      · exact List.not_mem_nil
      · exact ih h
    · obtain ⟨first, rest, hs, he⟩ := segments_letter hc cs
      rw [he] at h
      rcases List.mem_cons.mp h with rfl | h
      · have hf : wildcard ∉ first := ih (by simp [hs])
        simpa [Ne.symm hc] using hf
      · exact ih (by simp [hs, h])

/-- Renaming letters renames them inside the segments, if it leaves wildcards apart. -/
theorem segments_map {f : Char → Char} (hf : ∀ c, f c = wildcard ↔ c = wildcard)
    (cs : List Char) : segments (cs.map f) = (segments cs).map (List.map f) := by
  induction cs with
  | nil => rfl
  | cons c cs ih =>
    by_cases hc : c = wildcard
    · subst hc
      rw [List.map_cons, (hf wildcard).mpr rfl, segments_wildcard, segments_wildcard, ih]
      rfl
    · obtain ⟨part, rest, hs, he⟩ := segments_letter hc cs
      obtain ⟨mapped, others, hm, hr⟩ := segments_letter (mt (hf c).mp hc) (cs.map f)
      rw [ih, hs, List.map_cons] at hm
      obtain ⟨hp, ho⟩ := List.cons.inj hm
      rw [List.map_cons, hr, he, ← hp, ← ho]
      rfl

/-! ### Automata -/

/-- Running through the parts decides the pattern that has a wildcard before each of them. -/
theorem runsThrough_iff {parts : List (List Char)} (hne : parts ≠ [])
    (hp : ∀ part ∈ parts, wildcard ∉ part) (t : List Char) :
    runsThrough parts t = true ↔ Glob (wildcard :: [wildcard].intercalate parts) t := by
  induction parts generalizing t with
  | nil => exact absurd rfl hne
  | cons part parts ih =>
    have hpart : wildcard ∉ part := hp part List.mem_cons_self
    cases parts with
    | nil =>
      rw [List.intercalate_singleton, glob_suffix_iff hpart, runsThrough,
        List.isSuffixOf_iff_suffix]
    | cons next rest =>
      have ih := ih (by simp) fun q hq ↦ hp q (List.mem_cons_of_mem _ hq)
      rw [List.intercalate_cons_cons, List.append_assoc, List.singleton_append,
        glob_wildcard_iff]
      simp only [glob_append_iff hpart]
      constructor
      · intro h
        rw [runsThrough] at h
        split at h
        · next rest hr =>
          exact ⟨_, append_suffix_of_afterFirst? hr, rest, rfl, (ih rest).mp h⟩
        · cases h
        · simp
      · rintro ⟨_, hs, s, rfl, hg⟩
        -- the first occurrence leaves at least as much text as the one that `Glob` used
        obtain ⟨rest, hr, hsr⟩ := afterFirst?_of_append_suffix hs
        rw [runsThrough, hr]
        · exact (ih rest).mpr (glob_wildcard_mono hsr hg)
        · simp

namespace Automaton

/-- The parts of an automaton accept what has the form of the pattern they make up. -/
theorem acceptsLetters_iff {parts : List (List Char)} (hne : parts ≠ [])
    (hp : ∀ part ∈ parts, wildcard ∉ part) (t : List Char) :
    acceptsLetters parts t = true ↔ Glob ([wildcard].intercalate parts) t := by
  cases parts with
  | nil => exact absurd rfl hne
  | cons first rest =>
    have hf : wildcard ∉ first := hp first List.mem_cons_self
    cases rest with
    | nil =>
      rw [List.intercalate_singleton, glob_literal_iff hf, acceptsLetters, beq_iff_eq]
      exact eq_comm
    | cons next rest =>
      have hr : ∀ part ∈ next :: rest, wildcard ∉ part :=
        fun q hq ↦ hp q (List.mem_cons_of_mem _ hq)
      rw [List.intercalate_cons_cons, List.append_assoc, List.singleton_append,
        glob_append_iff hf]
      simp only [acceptsLetters, Bool.and_eq_true, List.isPrefixOf_iff_prefix,
        runsThrough_iff (List.cons_ne_nil next rest) hr]
      constructor
      · rintro ⟨⟨s, rfl⟩, hg⟩
        rw [List.drop_left] at hg
        exact ⟨s, rfl, hg⟩
      · rintro ⟨s, rfl, hg⟩
        rw [List.drop_left]
        exact ⟨List.prefix_append _ _, hg⟩

end Automaton

end TaintRules
