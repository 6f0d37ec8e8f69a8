import TaintRules.Pattern.Shape
import TaintRules.Text.Characters

/-!
# Automata for general patterns

A general pattern is cut at its wildcards into literal segments. The text has to begin with the
first segment and end with the last, and the others have to occur in between, in order and
without overlap; taking each at its first occurrence decides this without going back.

Where case does not matter, letters are compared by the letter that stands for all their case
forms and variants, which is wider than comparing small letters.

An automaton has a bounded size; a longer pattern is refused.
-/

namespace TaintRules

/-- The parts of a pattern between its wildcards, empty ones included. -/
def segments (cs : List Char) : List (List Char) :=
  cs.foldr (fun c parts ↦
    if c = wildcard then [] :: parts
    else match parts with
      | part :: rest => (c :: part) :: rest
      | [] => [[c]]) [[]]

/-- What follows the first occurrence of `part` in `text`, if there is one. -/
def afterFirst? (part : List Char) : List Char → Option (List Char)
  | [] => if part.isEmpty then some [] else none
  | c :: rest =>
    if part.isPrefixOf (c :: rest) then some ((c :: rest).drop part.length)
    else afterFirst? part rest

/-- Whether `part` occurs in `text`. -/
def occursIn (part text : List Char) : Bool := (afterFirst? part text).isSome

/-- Whether the text is any run, then the parts in order with any run before each but the last,
then the end: the parts are what follows the first segment of a pattern. -/
def runsThrough : List (List Char) → List Char → Bool
  | [], text => text.isEmpty
  | [last], text => last.isSuffixOf text
  | part :: rest, text =>
    match afterFirst? part text with
    | some remaining => runsThrough rest remaining
    | none => false

/-- A built general pattern: the letters of its segments, as its case mode compares them. -/
structure Automaton where
  mode : CaseMode
  parts : List (List Char)
  deriving DecidableEq, Repr

namespace Automaton

/-- The bound on the states of an automaton. -/
def stateLimit : Nat := 327680

/-- The states that one wildcard takes. -/
def wildcardStates : Nat := 20

/-- The number of states for a pattern: one for each byte of a literal character, and a fixed
number for each wildcard. -/
def states (pattern : String) : Nat :=
  let wildcards := pattern.toList.count wildcard
  (pattern.utf8ByteSize - wildcards) + wildcardStates * wildcards

/-- The letters of a text as the mode compares them inside an automaton. -/
def letters : CaseMode → List Char → List Char
  | .sensitive, cs => cs
  | .insensitive, cs => cs.map Text.letterKey

/-- The automaton for a pattern, unless it would be too large. -/
def build? (mode : CaseMode) (pattern : String) : Option Automaton :=
  if states pattern ≤ stateLimit then
    some ⟨mode, (segments pattern.toList).map (letters mode)⟩
  else none

/-- Whether the automaton accepts the letters of a whole text. -/
def acceptsLetters (parts : List (List Char)) (text : List Char) : Bool :=
  match parts with
  | [] => text.isEmpty
  | [only] => only == text
  | first :: rest => first.isPrefixOf text && runsThrough rest (text.drop first.length)

/-- Whether the automaton accepts the whole text. -/
def accepts (automaton : Automaton) (text : String) : Bool :=
  acceptsLetters automaton.parts (letters automaton.mode text.toList)

end Automaton

end TaintRules
