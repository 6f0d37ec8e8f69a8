import TaintRules.Decimal
import TaintRules.Pattern.Basic

/-!
# Errors of compilation

A rule that cannot be compiled is reported under its name and does not affect other rules.
-/

namespace TaintRules

/-- Why a rule was not compiled. -/
inductive CompileError where
  /-- The atom at a position has a blank name. -/
  | emptyId (position : Nat)
  | emptyAtom (ruleId : String)
  | missingTarget (ruleId : String)
  | conflictingTarget (ruleId : String)
  | malformedPattern (ruleId field : String) (cause : PatternError)
  | confidenceOutOfRange (ruleId : String) (value base adjustment : Float)
  | noGenerator (ruleId reason : String)
  | badConstraint (ruleId : String) (position : UInt64) (reason : String)
  | duplicateId (ruleId : String)
  deriving Repr

namespace CompileError

/-- The name of the rule, or of the atom if none of its rules is at fault. -/
def ruleId : CompileError → String
  | .emptyId _ => ""
  | .emptyAtom id | .missingTarget id | .conflictingTarget id | .malformedPattern id _ _
  | .confidenceOutOfRange id _ _ _ | .noGenerator id _ | .badConstraint id _ _
  | .duplicateId id => id

/-- The kind of the error. -/
def kind : CompileError → String
  | .emptyId _ => "EmptyRuleId"
  | .emptyAtom _ => "EmptyAtom"
  | .missingTarget _ => "MissingMatchTarget"
  | .conflictingTarget _ => "ConflictingMatchTarget"
  | .malformedPattern .. => "MalformedPattern"
  | .confidenceOutOfRange .. => "ConfidenceOutOfRange"
  | .noGenerator .. => "NoViableGenerator"
  | .badConstraint .. => "InvalidArgConstraint"
  | .duplicateId _ => "DuplicateRuleId"

/-- What the error says about the rule. -/
def detail : CompileError → String
  | .emptyId _ => ""
  | .emptyAtom _ => "atom has no match rules"
  | .missingTarget _ => "neither 'call' nor 'read' is populated"
  | .conflictingTarget _ => "both 'call' and 'read' are populated"
  | .malformedPattern _ field cause => "malformed " ++ field ++ " pattern: " ++ cause.message
  | .confidenceOutOfRange _ value base adjustment =>
    let text := Decimal.Format.message.text
    "confidence " ++ text value ++ " (base " ++ text base ++ " + adjustment " ++ text adjustment
      ++ ") is outside [0, 1]"
  | .noGenerator _ reason => "no viable candidate generator (" ++ reason ++ ")"
  | .badConstraint _ position reason =>
    "invalid constraint on argument " ++ toString position.toNat ++ ": " ++ reason
  | .duplicateId _ => "duplicate rule id"

/-- The wording of the error. -/
def message : CompileError → String
  | .emptyId position => "atom at position " ++ toString position ++ " has an empty id"
  | error => "rule '" ++ error.ruleId ++ "': " ++ error.detail

/-- The wording of several errors, which shows the first. -/
def batchMessage (errors : List CompileError) : String :=
  toString errors.length ++ " rule(s) failed to compile; first: "
    ++ (errors.head?.map message).getD ""

end CompileError

end TaintRules
