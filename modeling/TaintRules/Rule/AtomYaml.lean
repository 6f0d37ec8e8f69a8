import TaintRules.Rule.Atom
import TaintRules.Yaml.Resolve

/-!
# Atoms as YAML

A catalog of atoms is read straight from the nodes of its document, so that a number or a truth
value may stand where a text is due. An empty node counts as an empty list or an empty record.
-/

namespace TaintRules.Yaml

/-- A reader of one node, given what aliases stand for. -/
abbrev NodeReader (α : Type) := Anchors → Node → Resolve α

namespace NodeReader

/-- The text of a scalar. -/
def text : NodeReader String := fun anchors node ↦ do
  match ← node.follow anchors with
  | .scalar _ _ text => return text
  | _ => throw .malformed

/-- A truth value. -/
def bool : NodeReader Bool := fun anchors node ↦ do
  match ← node.follow anchors with
  | .scalar tag style text =>
    let literal := style = .plain || (style = .literal && tag = some (.standard "bool"))
    match if literal then truth? text else none with
    | some b => return b
    | none => throw .malformed
  | _ => throw .malformed

/-- A word of 64 bits. -/
def word : NodeReader UInt64 := fun anchors node ↦ do
  match ← node.follow anchors with
  | .scalar tag style text =>
    let literal := style = .plain || (style = .literal && tag = some (.standard "int"))
    match if literal then whole? text else none with
    | some n => if 0 ≤ n ∧ n < UInt64.size then return UInt64.ofNat n.toNat else throw .malformed
    | none => throw .malformed
  | _ => throw .malformed

/-- Whether a plain scalar is the missing value. -/
def isMissing (tag : Option Tag) (text : String) : Bool :=
  match tag with
  | none => text.isEmpty || isNull text
  | some tag => tag = .standard "null" && isNull text

/-- A value that may be missing. -/
def optional (item : NodeReader α) : NodeReader (Option α) := fun anchors node ↦ do
  match ← node.follow anchors with
  | .scalar tag .plain text =>
    if isMissing tag text then return none
    else if tag = some (.standard "null") then throw .malformed
    else return some (← item anchors (.scalar tag .plain text))
  | node => return some (← item anchors node)

/-- A list of values. -/
def list (item : NodeReader α) : NodeReader (List α) := fun anchors node ↦ do
  match ← node.follow anchors with
  | .sequence _ items => items.mapM (item anchors)
  | .scalar _ .plain "" => return []
  | _ => throw .malformed

/-- The entries of a record. -/
def entries (anchors : Anchors) (node : Node) : Resolve (List (Node × Node)) := do
  match ← node.follow anchors with
  | .mapping _ entries => return entries
  | .scalar _ .plain "" => return []
  | _ => throw .malformed

/-- A variant without content: its name, or its name as a tag on the missing value. -/
def variant (table : List (String × α)) : NodeReader α := fun anchors node ↦ do
  match ← node.follow anchors with
  | .scalar tag style text =>
    let missing := style = .plain && (text.isEmpty || isNull text)
    let named := match tag.bind Tag.custom? with
      | some name => if missing then some name else none
      | none => some text
    match named.bind fun name ↦ table.lookup name with
    | some value => return value
    | none => throw .malformed
  | _ => throw .malformed

/-- One field of a record that is read into a `σ`. -/
structure Field (σ : Type) where
  name : String
  read : Anchors → Node → σ → Resolve σ

/-- A field that is read by `item`. -/
def field (name : String) (item : NodeReader α) (set : α → σ → σ) : Field σ :=
  ⟨name, fun anchors node s ↦ return set (← item anchors node) s⟩

/-- Reads the entries of a record, each field at most once. Other fields are passed over, unless
they are refused. -/
def readEntries (fields : List (Field σ)) (strict : Bool) (anchors : Anchors) :
    List String → σ → List (Node × Node) → Resolve (List String × σ)
  | seen, read, [] => return (seen, read)
  | seen, read, (key, value) :: rest => do
    let name ← text anchors key
    match fields.find? (·.name == name) with
    | some field =>
      if seen.contains name then throw .malformed
      readEntries fields strict anchors (name :: seen) (← field.read anchors value read) rest
    | none =>
      if strict then throw .malformed
      readEntries fields strict anchors seen read rest

/-- A record whose fields are read over defaults; some of them have to be given. -/
def record (fields : List (Field σ)) (strict : Bool) (needed : List String) (defaults : σ) :
    NodeReader σ := fun anchors node ↦ do
  let entries ← entries anchors node
  let (seen, read) ← readEntries fields strict anchors [] defaults entries
  if needed.all seen.contains then return read else throw .malformed

/-- Whether a value holds a tag of the document's own, which no constraint may. -/
def hasTag : Value → Bool
  | .tagged _ _ => true
  | .sequence items => items.attach.any fun ⟨item, _⟩ ↦ hasTag item
  | .mapping entries =>
    entries.attach.any fun ⟨(key, value), _⟩ ↦ hasTag key || hasTag value
  | _ => false
termination_by value => sizeOf value
decreasing_by
  all_goals
    have := List.sizeOf_lt_of_mem ‹_›
    simp at this ⊢
    omega

/-- The value of a part of a constraint, six collections deep in its catalog. A key of a mapping in
it may be repeated. -/
def part : NodeReader Value := fun anchors node ↦ do
  let value ← node.resolve anchors false (Node.maxDepth - 6)
  if hasTag value then throw .malformed
  return value

/-- The parts of a constraint beside its position, by name; only the check and the pattern have
to be unique. -/
def parts (anchors : Anchors) : List (Node × Node) → Resolve (Option UInt64 × List (String × Value))
  | [] => return (none, [])
  | (key, value) :: rest => do
    let name ← text anchors key
    if name = "position" then
      let position ← word anchors value
      let (other, values) ← parts anchors rest
      if other.isSome then throw .malformed
      return (some position, values)
    else
      let value ← part anchors value
      let (position, values) ← parts anchors rest
      return (position, (name, value) :: values)

/-- The check of a name or a number, with the pattern that belongs to some. -/
def checkOf (check : Value) (pattern : List Value) : Option ArgCheck := do
  let name ← match check with
    | .text name => some name
    | .int n => if 0 ≤ n then ArgCheck.names[n.toNat]? else none
    | _ => none
  match name, pattern with
  | "present", _ => some .present
  | "not_const", _ => some .notConst
  | "const", _ => some .const
  | "matches", [.text pattern] => some (.matching pattern)
  | _, _ => none

/-- A constraint on an argument. -/
def argConstraint : NodeReader ArgConstraint := fun anchors node ↦ do
  let (position, values) ← parts anchors (← entries anchors node)
  let named (name : String) := (values.filter (·.1 == name)).map (·.2)
  match position, named "check" with
  | some position, [check] =>
    match checkOf check (named "pattern") with
    | some check => return ⟨position, check⟩
    | none => throw .malformed
  | _, _ => throw .malformed

/-- A match rule. -/
def matchRule : NodeReader MatchRule :=
  record [
    field "base_type" (optional text) fun v r ↦ { r with baseType := v },
    field "call" (optional text) fun v r ↦ { r with call := v },
    field "read" (optional text) fun v r ↦ { r with read := v },
    field "args" (list argConstraint) fun v r ↦ { r with args := v },
    field "strategy" (variant Strategy.table) fun v r ↦ { r with strategy := v }]
    true [] {}

/-- An atom. -/
def atom : NodeReader Atom :=
  record [
    field "id" text fun v a ↦ { a with id := v },
    field "kind" (variant AtomKind.table) fun v a ↦ { a with kind := v },
    field "tags" (list text) fun v a ↦ { a with tags := v },
    field "match" (list matchRule) fun v a ↦ { a with matchRules := v },
    field "cwe" (list text) fun v a ↦ { a with cwe := v },
    field "owasp" (list text) fun v a ↦ { a with owasp := v },
    field "severity" (variant Severity.table) fun v a ↦ { a with severity := v },
    field "description" (optional text) fun v a ↦ { a with description := v },
    field "category" (optional text) fun v a ↦ { a with category := v },
    field "debug" bool fun v a ↦ { a with debug := v }]
    false ["id", "kind"] { id := "", kind := .source }

end NodeReader

end TaintRules.Yaml

namespace TaintRules

/-- The atoms of a catalog in YAML; a text without a document has none. -/
def Atom.listOfText (text : String) : Except DocumentError (List Atom) :=
  Yaml.Stream.decode text [] (Yaml.NodeReader.list Yaml.NodeReader.atom)

end TaintRules
