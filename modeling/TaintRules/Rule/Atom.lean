/-!
# Atoms

An atom declares a source, a sink or a sanitizer. Each of its match rules is one way in which code
can match it: by the name of a call or of a property that is read, by the type of the receiver, and
by conditions on arguments.
-/

namespace TaintRules

/-- What an atom declares. -/
inductive AtomKind where
  | source
  | sink
  | sanitizer
  deriving DecidableEq, Repr

/-- How severe a finding is. -/
inductive Severity where
  | info
  | low
  | medium
  | high
  | critical
  deriving DecidableEq, Repr

/-- The declared strategy of a match rule; any but `auto` puts the rule into the last tier. -/
inductive Strategy where
  | auto
  | fuzzy
  | trigram
  | fallback
  deriving DecidableEq, Repr

/-- A condition on an argument. -/
inductive ArgCheck where
  | present
  | notConst
  | const
  /-- The descriptor of the argument matches a pattern. -/
  | matching (pattern : String)
  deriving DecidableEq, Repr

/-- A condition on the argument at a position. -/
structure ArgConstraint where
  position : UInt64
  check : ArgCheck
  deriving DecidableEq, Repr

/-- One way to match an atom. -/
structure MatchRule where
  baseType : Option String := none
  call : Option String := none
  read : Option String := none
  args : List ArgConstraint := []
  strategy : Strategy := .auto
  deriving DecidableEq, Repr

/-- A declared source, sink or sanitizer. -/
structure Atom where
  id : String
  kind : AtomKind
  tags : List String := []
  matchRules : List MatchRule := []
  cwe : List String := []
  owasp : List String := []
  severity : Severity := .medium
  description : Option String := none
  category : Option String := none
  /-- Whether runs trace each candidate of the atom's rules. -/
  debug : Bool := false
  deriving DecidableEq, Repr

/-- The kinds by name. -/
def AtomKind.table : List (String × AtomKind) :=
  [("source", .source), ("sink", .sink), ("sanitizer", .sanitizer)]

/-- The name of the kind. -/
def AtomKind.name : AtomKind → String
  | .source => "source"
  | .sink => "sink"
  | .sanitizer => "sanitizer"

/-- The severities by name. -/
def Severity.table : List (String × Severity) :=
  [("info", .info), ("low", .low), ("medium", .medium), ("high", .high), ("critical", .critical)]

/-- The name of the severity. -/
def Severity.name : Severity → String
  | .info => "info"
  | .low => "low"
  | .medium => "medium"
  | .high => "high"
  | .critical => "critical"

/-- The strategies by name. -/
def Strategy.table : List (String × Strategy) :=
  [("auto", .auto), ("fuzzy", .fuzzy), ("trigram", .trigram), ("fallback", .fallback)]

/-- The name of the strategy. -/
def Strategy.name : Strategy → String
  | .auto => "auto"
  | .fuzzy => "fuzzy"
  | .trigram => "trigram"
  | .fallback => "fallback"

/-- The names of the checks, in the order in which they are numbered. -/
def ArgCheck.names : List String := ["present", "not_const", "const", "matches"]

/-- The name of the check. -/
def ArgCheck.name : ArgCheck → String
  | .present => "present"
  | .notConst => "not_const"
  | .const => "const"
  | .matching _ => "matches"

/-- The category of findings: the declared one, or else the first tag. -/
def Atom.effectiveCategory (atom : Atom) : Option String :=
  atom.category.orElse fun _ ↦ atom.tags.head?

end TaintRules
