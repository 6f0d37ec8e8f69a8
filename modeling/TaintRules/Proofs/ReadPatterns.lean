import TaintRules.Proofs.Wildcards
import TaintRules.Rule.Patterns

/-!
# Patterns that were read

A pattern that was read is determined by its text, which is not empty, and none of its automata is
too large. So it accepts exactly the texts of its form; an exact one accepts its own text alone,
and where case matters every literal part occurs in each text that is accepted.
-/

namespace TaintRules

/-- Every literal between the wildcards occurs in the texts of the form. -/
theorem infix_of_glob_intercalate {parts : List (List Char)}
    (hp : ∀ part ∈ parts, wildcard ∉ part) {t : List Char}
    (h : Glob ([wildcard].intercalate parts) t) : ∀ part ∈ parts, part <:+: t := by
  induction parts generalizing t with
  | nil => simp
  | cons first rest ih =>
    have hf : wildcard ∉ first := hp first List.mem_cons_self
    have hr : ∀ part ∈ rest, wildcard ∉ part := fun q hq ↦ hp q (List.mem_cons_of_mem _ hq)
    cases rest with
    | nil =>
      rw [List.intercalate_singleton, glob_literal_iff hf] at h
      simp [h]
    | cons next rest =>
      rw [List.intercalate_cons_cons, List.append_assoc, List.singleton_append,
        glob_append_iff hf] at h
      obtain ⟨s, rfl, hs⟩ := h
      obtain ⟨u, hu, hg⟩ := glob_wildcard_iff.mp hs
      intro part hm
      rcases List.mem_cons.mp hm with rfl | hm
      · exact (List.prefix_append _ _).isInfix
      · exact ((ih hr hg part hm).trans hu.isInfix).trans (List.suffix_append _ _).isInfix

namespace Pattern

/-- The pattern is the one of its text, which is not empty, and can be decided in both modes. -/
structure IsRead (p : Pattern) : Prop where
  eq_ofText : p = .ofText p.raw
  raw_ne : p.raw ≠ ""
  buildable (mode : CaseMode) : p.isBuildable mode = true

/-- Reading gives patterns that were read. -/
theorem isRead_of_parse {raw : String} {p : Pattern} (h : parse raw = .ok p) : p.IsRead := by
  simp only [parse] at h
  split at h
  · cases h
  · next hne =>
    split at h
    · cases h
    · split at h
      · next hb =>
        cases h
        obtain ⟨hs, hi⟩ := Bool.and_eq_true_iff.mp hb
        refine ⟨rfl, mt String.isEmpty_iff.mpr hne, fun mode ↦ ?_⟩
        cases mode with
        | sensitive => exact hs
        | insensitive => exact hi
      · cases h

namespace IsRead

variable {p : Pattern}

/-- The text is compared in its folded form. -/
theorem textFor_eq (h : p.IsRead) (mode : CaseMode) : p.textFor mode = mode.fold p.raw := by
  cases mode with
  | sensitive => rfl
  | insensitive =>
    rw [CaseMode.fold_insensitive]
    exact congrArg Pattern.folded h.eq_ofText

/-- The shape is that of the folded text. -/
theorem classify_textFor (h : p.IsRead) (mode : CaseMode) :
    Shape.classify (p.textFor mode) = p.shapeFor mode := by
  rw [h.textFor_eq]
  cases mode with
  | sensitive => exact (congrArg Pattern.shape h.eq_ofText).symm
  | insensitive =>
    have hs : p.foldedShape = (ofText p.raw).foldedShape := congrArg foldedShape h.eq_ofText
    rw [shapeFor, hs, CaseMode.fold_insensitive, ofText]

/-- A general pattern has an automaton. -/
theorem isSome_build? (h : p.IsRead) {mode : CaseMode} (hs : p.shapeFor mode = .general) :
    (Automaton.build? mode (p.textFor mode)).isSome = true := by
  simpa [isBuildable, hs] using h.buildable mode

/-- A folded text is accepted exactly if it is not empty and has the form of the folded pattern,
letter by letter as the shape compares them. -/
theorem acceptsFolded_iff (h : p.IsRead) (mode : CaseMode) (text : String) :
    p.acceptsFolded mode text = true ↔ text ≠ "" ∧
      Glob ((p.shapeFor mode).letters mode (p.textFor mode).toList)
        ((p.shapeFor mode).letters mode text.toList) := by
  rw [acceptsFolded, Bool.and_eq_true, Bool.not_eq_true', String.isEmpty_eq_false_iff,
    Shape.accepts_classify_iff (h.classify_textFor mode) h.isSome_build?]

/-- An exact pattern has no wildcard in its text. -/
theorem isExact_iff (h : p.IsRead) : p.isExact = true ↔ wildcard ∉ p.raw.toList := by
  have hs : Shape.ofChars p.raw.toList = p.shape := h.classify_textFor .sensitive
  rw [isExact, beq_iff_eq, ← Shape.ofChars_eq_exact_iff, hs]

/-- An exact pattern has the exact shape in either mode. -/
theorem shapeFor_of_isExact (h : p.IsRead) (he : p.isExact = true) (mode : CaseMode) :
    p.shapeFor mode = .exact := by
  have hw := h.isExact_iff.mp he
  rw [← h.classify_textFor, h.textFor_eq, Shape.classify, Shape.ofChars_eq_exact_iff,
    CaseMode.wildcard_mem_fold]
  exact hw

/-- An exact pattern accepts its own text alone. -/
theorem acceptsFolded_of_isExact (h : p.IsRead) (he : p.isExact = true) (mode : CaseMode)
    (text : String) : p.acceptsFolded mode text = true ↔ text = mode.fold p.raw := by
  have hw : wildcard ∉ (p.textFor mode).toList := by
    rw [h.textFor_eq, CaseMode.wildcard_mem_fold]
    exact h.isExact_iff.mp he
  rw [h.acceptsFolded_iff, h.shapeFor_of_isExact he, Shape.letters, Shape.letters,
    glob_literal_iff hw, String.toList_inj, h.textFor_eq]
  constructor
  · exact And.right
  · rintro rfl
    refine ⟨fun hf ↦ h.raw_ne ?_, rfl⟩
    rw [← String.isEmpty_iff] at hf ⊢
    rwa [CaseMode.isEmpty_fold] at hf

/-- Where case matters, every literal part occurs in each text that is accepted. -/
theorem occursIn_of_acceptsFolded (h : p.IsRead) {text part : String}
    (ha : p.acceptsFolded .sensitive text = true) (hp : part ∈ p.literals .sensitive) :
    occursIn part.toList text.toList = true := by
  have hg := ((h.acceptsFolded_iff .sensitive text).mp ha).2
  rw [Shape.letters_sensitive, Shape.letters_sensitive,
    ← intercalate_segments (p.textFor .sensitive).toList] at hg
  obtain ⟨segment, hs, rfl⟩ := List.mem_map.mp hp
  rw [String.toList_ofList, occursIn_iff]
  exact infix_of_glob_intercalate (fun _ ↦ wildcard_not_mem_segments) hg segment
    (List.mem_filter.mp hs).1

end IsRead

end Pattern

/-- The patterns of a rule were read. -/
def RulePatterns.AreRead (patterns : RulePatterns) : Prop := ∀ p ∈ patterns.all, p.IsRead

end TaintRules
