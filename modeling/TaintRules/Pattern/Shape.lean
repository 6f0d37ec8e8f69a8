import TaintRules.Text.Lowercase

/-!
# Wildcards and the shapes of patterns

How names are compared, what a pattern with wildcards means, and which patterns are decided by one
comparison with a literal.
-/

namespace TaintRules

/-! ### Case modes

Names are compared either as they are written or in small letters. Folding a text once brings it
into the form in which the mode compares it. -/

/-- Whether capitals and small letters are told apart. -/
inductive CaseMode where
  | sensitive
  | insensitive
  deriving DecidableEq, Repr

namespace CaseMode

/-- The mode with the given answer to "are matches case-sensitive?". -/
def ofBool (caseSensitive : Bool) : CaseMode :=
  if caseSensitive then .sensitive else .insensitive

/-- Whether the mode tells capitals and small letters apart. -/
def isSensitive : CaseMode → Bool
  | .sensitive => true
  | .insensitive => false

/-- The text as the mode compares it. ASCII text without capitals is passed on as it is. -/
def fold : CaseMode → String → String
  | .sensitive, s => s
  | .insensitive, s => if Text.isSmallAscii s then s else Text.lowercase s

end CaseMode

/-! ### What a wildcard pattern means

A pattern is a list of characters in which `*` stands for any run of characters, the empty run
included, and every other character for itself. `Glob p t` says that the whole of `t` has the
form `p`; it is stated by rules and not by a search. -/

/-- The wildcard, which stands for any run of characters. -/
def wildcard : Char := '*'

/-- `Glob p t` holds when the whole text `t` has the form of the pattern `p`. -/
inductive Glob : List Char → List Char → Prop where
  /-- The empty pattern is the form of the empty text. -/
  | nil : Glob [] []
  /-- A character other than the wildcard stands for itself. -/
  | letter {c : Char} {p t : List Char} (ordinary : c ≠ wildcard) (rest : Glob p t) :
      Glob (c :: p) (c :: t)
  /-- A wildcard may stand for nothing. -/
  | skip {p t : List Char} (rest : Glob p t) : Glob (wildcard :: p) t
  /-- A wildcard may take one character more. -/
  | take {c : Char} {p t : List Char} (rest : Glob (wildcard :: p) t) :
      Glob (wildcard :: p) (c :: t)

/-! ### Pattern shapes

Most patterns have no wildcard, or one at an end, or one at both ends. Each of these shapes is
decided by one comparison with a literal. Everything else is general and needs an automaton. -/

/-- The shape of a pattern, with the literal that decides it. -/
inductive Shape where
  /-- No wildcard: the text equals the pattern. -/
  | exact
  /-- One wildcard, in front: the text ends with the literal. -/
  | suffix (literal : String)
  /-- One wildcard, at the end: the text begins with the literal. -/
  | leading (literal : String)
  /-- A wildcard at both ends: the literal occurs in the text. -/
  | contains (literal : String)
  /-- Any other arrangement of wildcards. -/
  | general
  deriving DecidableEq, Repr

namespace Shape

/-- The shape of a pattern given by its characters. -/
def ofChars (cs : List Char) : Shape :=
  match cs.count wildcard, cs with
  | 0, _ => .exact
  | 1, first :: rest =>
    if rest.isEmpty then .general
    else if first = wildcard then .suffix (String.ofList rest)
    else if cs.getLast? = some wildcard then .leading (String.ofList cs.dropLast)
    else .general
  | 2, first :: rest =>
    if first = wildcard ∧ rest.getLast? = some wildcard ∧ 1 < rest.length then
      .contains (String.ofList rest.dropLast)
    else .general
  | _, _ => .general

/-- The shape of a pattern. -/
def classify (pattern : String) : Shape := ofChars pattern.toList

/-- The name under which the shape is reported. -/
def name : Shape → String
  | .exact => "exact"
  | .suffix _ => "suffix"
  | .leading _ => "prefix"
  | .contains _ => "contains"
  | .general => "general"

/-- The literal of a shape that is decided by one. -/
def literal? : Shape → Option String
  | .suffix literal | .leading literal | .contains literal => some literal
  | .exact | .general => none

/-- Whether the shape has wildcards at its ends only. -/
def isSingle (shape : Shape) : Bool := shape.literal?.isSome

/-- The relative cost of deciding the shape for one text. -/
def evalCost : Shape → Nat
  | .exact => 1
  | .suffix _ | .leading _ => 2
  | .contains _ => 3
  | .general => 10

end Shape

end TaintRules
