import TaintRules.Json.Basic
import TaintRules.Pattern.Automaton
import TaintRules.Pattern.Shape
import TaintRules.Text.Characters

/-!
# Patterns

A pattern is read once, when a rule is compiled. Reading takes off blanks at the ends, refuses
patterns that are empty, that have two wildcards in a row or that are too large, and notes the
shape of the pattern for either case mode.
-/

namespace TaintRules

/-- Why a text is not a pattern. -/
inductive PatternError where
  | empty
  | adjacentWildcards (text : String)
  | unbuildable (text : String)
  deriving DecidableEq, Repr

/-- The wording of the error. -/
def PatternError.message : PatternError → String
  | .empty => "pattern is empty"
  | .adjacentWildcards text => s!"pattern '{text}' contains adjacent wildcards"
  | .unbuildable text =>
    s!"pattern '{text}' does not build a matcher: "
      ++ "Compiled regex exceeds size limit of 10485760 bytes."

/-- A pattern that was read, with its text and shape for either case mode. -/
structure Pattern where
  raw : String
  shape : Shape
  foldedShape : Shape
  folded : String
  deriving DecidableEq, Repr

namespace Pattern

/-- Whether two wildcards follow each other. -/
def hasAdjacentWildcards : List Char → Bool
  | a :: b :: rest => (a = wildcard && b = wildcard) || hasAdjacentWildcards (b :: rest)
  | _ => false

/-- The shape of the pattern in a case mode. -/
def shapeFor (p : Pattern) : CaseMode → Shape
  | .sensitive => p.shape
  | .insensitive => p.foldedShape

/-- The text of the pattern in a case mode. -/
def textFor (p : Pattern) : CaseMode → String
  | .sensitive => p.raw
  | .insensitive => p.folded

/-- Whether the pattern needs no automaton in the mode, or has one. -/
def isBuildable (p : Pattern) (mode : CaseMode) : Bool :=
  p.shapeFor mode != .general || (Automaton.build? mode (p.textFor mode)).isSome

/-- The pattern with the given text, of which nothing is checked. -/
def ofText (text : String) : Pattern where
  raw := text
  shape := Shape.classify text
  foldedShape := Shape.classify (Text.lowercase text)
  folded := Text.lowercase text

/-- Reads a pattern. -/
def parse (raw : String) : Except PatternError Pattern :=
  let text := Text.trim raw
  if text.isEmpty then .error .empty
  else if hasAdjacentWildcards text.toList then .error (.adjacentWildcards text)
  else
    let pattern := ofText text
    if pattern.isBuildable .sensitive && pattern.isBuildable .insensitive then .ok pattern
    else .error (.unbuildable text)

/-- Whether the pattern has no wildcard. -/
def isExact (p : Pattern) : Bool := p.shape == .exact

/-- The number of wildcards. -/
def wildcardCount (p : Pattern) : Nat := p.raw.toList.count wildcard

/-- The number of characters that are no wildcard. -/
def literalLength (p : Pattern) : Nat := (p.raw.toList.filter (· != wildcard)).length

/-- The literal parts between the wildcards, in order. -/
def literals (p : Pattern) (mode : CaseMode) : List String :=
  ((segments (p.textFor mode).toList).filter (!·.isEmpty)).map String.ofList

/-- The text with the more bytes, the earlier one if they have equally many. -/
def longer (best : Option String) (next : String) : Option String :=
  match best with
  | some b => if next.utf8ByteSize ≤ b.utf8ByteSize then some b else some next
  | none => some next

/-- The literal part with the most bytes, the first one of several. -/
def longestLiteral? (p : Pattern) (mode : CaseMode) : Option String :=
  (p.literals mode).foldl longer none

end Pattern

/-! ### Patterns as JSON

A shape is written with its name and, if it is decided by one, its literal. -/

/-- A shape. -/
def Shape.toJson (shape : Shape) : Json :=
  .object ([("shape", .text shape.name)] ++ Json.field? "literal" (shape.literal?.map .text))

/-- A pattern, with its shape for either case mode. -/
def Pattern.toJson (p : Pattern) : Json :=
  .object [("raw", .text p.raw), ("kind", p.shape.toJson), ("folded_kind", p.foldedShape.toJson),
    ("folded", .text p.folded)]

end TaintRules
