import TaintRules.Config.Error
import TaintRules.Yaml.Grammar
import TaintRules.Yaml.Scalar

/-!
# The value of a document

Scalars are resolved and aliases replaced by what they stand for. Collections may not be nested more
than 128 deep, which also ends a collection that contains itself, and the number of aliases that
are followed is bounded by the size of the document.
-/

namespace TaintRules.Yaml

/-- What aliases stand for, and how many of them may be followed. -/
structure Anchors where
  nodes : List (Nat × Node)
  limit : Nat

/-- The anchors of a document. Of nodes with one number the last counts. -/
def Anchors.ofNode (root : Node) : Anchors where
  nodes := root.anchors.reverse
  limit := 100 * root.size

/-- A computation that counts the aliases that it follows. -/
abbrev Resolve := StateT Nat (Except DocumentError)

namespace Node

/-- The node itself: what an alias stands for, without its anchor. -/
def follow (anchors : Anchors) : Node → Resolve Node
  | .anchored _ content => return content
  | .alias number => do
    modify (· + 1)
    if anchors.limit < (← get) then throw .tooManyAliases
    match anchors.nodes.lookup number with
    | some node => return node
    | none => throw .malformed
  | node => return node

/-- The deepest nesting of collections that is read. -/
def maxDepth : Nat := 128

/-- Puts a tag of the document's own around a value. -/
def wrapTag (tag : Option Tag) (value : Value) : Value :=
  match tag.bind Tag.custom? with
  | some name => .tagged name value
  | none => value

/-- The value of a mapping with the given entries; if `unique` holds, its keys have to differ. -/
def mappingOf (unique : Bool) (resolve : Node → Resolve Value) :
    List (Value × Value) → List (Node × Node) → Resolve Value
  | read, [] => return .mapping read.reverse
  | read, (key, value) :: rest => do
    let key ← resolve key
    if unique && read.any (·.1.same key) then throw .malformed
    mappingOf unique resolve ((key, ← resolve value) :: read) rest

/-- The value of a node in which collections may be nested up to a depth. Keys of one mapping have
to differ if `unique` holds. -/
def resolve (anchors : Anchors) (unique : Bool) : Nat → Node → Resolve Value
  | depth, node => do
    match depth, ← node.follow anchors with
    | _, .scalar tag style text =>
      match scalarValue? tag style text with
      | some value => return value
      | none => throw .malformed
    | depth + 1, .sequence tag items =>
      return wrapTag tag (.sequence (← items.mapM (resolve anchors unique depth)))
    | depth + 1, .mapping tag entries =>
      return wrapTag tag (← mappingOf unique (resolve anchors unique depth) [] entries)
    | _, _ => throw .malformed

end Node

/-- The content of a text with one document, read by `read`; without a document it is `missing`. A
fault that `read` finds goes before what is wrong further on in the text. -/
def Stream.decode (text : String) (missing : α) (read : Anchors → Node → Resolve α) :
    Except DocumentError α := do
  match Stream.ofText text with
  | ⟨none, _⟩ => return missing
  | ⟨some root, sequel⟩ =>
    let (value, _) ← (read (.ofNode root) root).run 0
    match sequel with
    | .nothing => return value
    | .more => throw .severalDocuments
    | .unreadable => throw .malformed

/-- The value of a text with one document; without a document it is the missing value. -/
def Value.ofText (text : String) : Except DocumentError Value :=
  Stream.decode text .null fun anchors root ↦ root.resolve anchors true Node.maxDepth

end TaintRules.Yaml
