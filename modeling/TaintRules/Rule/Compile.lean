import TaintRules.Config.Basic
import TaintRules.Rule.Json

/-!
# Compiling atoms

Every match rule of every atom is compiled by itself, under the name of its atom and its place in
it. Rules that fail are reported; of rules with one name the first counts and the others are
reported. The rules that remain are put into the order in which they run.
-/

namespace TaintRules

/-- The name of the match rule at a place in an atom. -/
def Atom.ruleId (atom : Atom) (index : Nat) : String := atom.id ++ "#" ++ toString index

/-- Reads a pattern that stands in a field of a rule. -/
def parseField (ruleId field raw : String) : Except CompileError Pattern :=
  (Pattern.parse raw).mapError (.malformedPattern ruleId field)

/-- The patterns of a match rule, which names either a call or a read. A blank name counts as
none. -/
def MatchRule.patterns (ruleId : String) (rule : MatchRule) : Except CompileError RulePatterns := do
  let make (target : EntityKind) (member : String) : Except CompileError RulePatterns := do
    let baseType ← rule.baseType.mapM (parseField ruleId "base_type")
    return { target, baseType, member := ← parseField ruleId target.name member }
  match Text.nonBlank rule.call, Text.nonBlank rule.read with
  | some _, some _ => throw (.conflictingTarget ruleId)
  | some call, none => make .call call
  | none, some read => make .read read
  | none, none => throw (.missingTarget ruleId)

namespace Atom

/-- Compiles the match rule at a place in an atom. -/
def compileRule (config : ValidConfig) (atom : Atom) (index : Nat) :
    Except CompileError CompiledRule := do
  let ruleId := atom.ruleId index
  let some rule := atom.matchRules[index]? | throw (.missingTarget ruleId)
  let patterns ← rule.patterns ruleId
  let (tier, patternType) := patterns.classify rule.strategy
  let generator ← GeneratorPlan.choose ruleId patterns
  let predicates ← PredicatePlan.make ruleId patterns generator rule.args
  let specificity := Specificity.of config.tiers tier patterns
  let confidence ← Confidence.of ruleId config.tiers config.confidence tier patternType
  let identity : RuleIdentity := { ruleId, tier, patternType, patterns, steps := predicates.steps }
  return {
    compiledId := identity.toHex
    ruleId, tier, patternType, patterns, generator, predicates, specificity, confidence
    atomId := atom.id
    effect := { kind := atom.kind, category := atom.effectiveCategory }
    metadata := {
      severity := atom.severity, cwe := atom.cwe, owasp := atom.owasp, tags := atom.tags
      description := atom.description }
    verbose := atom.debug }

/-- Compiles the match rules of the atom at a position of a catalog. -/
def compileAt (config : ValidConfig) (position : Nat) (atom : Atom) :
    List (Except CompileError CompiledRule) :=
  if Text.isBlank atom.id then [.error (.emptyId position)]
  else if atom.matchRules.isEmpty then [.error (.emptyAtom atom.id)]
  else (List.range atom.matchRules.length).map (atom.compileRule config)

end Atom

/-- What compiling a catalog gives: the rules, and what failed. -/
structure Compilation where
  rules : RuleSet
  errors : List CompileError

namespace Compilation

/-- The results for a catalog whose first atom has the given position. -/
def results (config : ValidConfig) : Nat → List Atom → List (Except CompileError CompiledRule)
  | _, [] => []
  | position, atom :: rest => atom.compileAt config position ++ results config (position + 1) rest

/-- Splits results into rules and errors. A name that was seen before is an error. -/
def collect : List String → List (Except CompileError CompiledRule) →
    List CompiledRule × List CompileError
  | _, [] => ([], [])
  | seen, .ok rule :: rest =>
    if seen.contains rule.ruleId then
      let (rules, errors) := collect seen rest
      (rules, .duplicateId rule.ruleId :: errors)
    else
      let (rules, errors) := collect (rule.ruleId :: seen) rest
      (rule :: rules, errors)
  | seen, .error error :: rest =>
    let (rules, errors) := collect seen rest
    (rules, error :: errors)

/-- Compiles a catalog of atoms. -/
def ofAtoms (config : ValidConfig) (atoms : List Atom) : Compilation :=
  let (rules, errors) := collect [] (results config 0 atoms)
  { rules := .ofRules rules, errors }

/-- Whether everything was compiled. -/
def isClean (c : Compilation) : Bool := c.errors.isEmpty

end Compilation

/-- Why a catalog was refused as a whole. -/
inductive CatalogError where
  | rule (error : CompileError)
  | batch (errors : List CompileError)

namespace CatalogError

/-- The errors of the rules. -/
def errors : CatalogError → List CompileError
  | .rule error => [error]
  | .batch errors => errors

/-- The wording of the error. -/
def message : CatalogError → String
  | .rule error => "Compile error: " ++ error.message
  | .batch errors => CompileError.batchMessage errors

end CatalogError

/-- The rules of a catalog in which everything was compiled. -/
def Compilation.strict (c : Compilation) : Except CatalogError RuleSet :=
  match c.errors with
  | [] => .ok c.rules
  | [error] => .error (.rule error)
  | errors => .error (.batch errors)

end TaintRules
