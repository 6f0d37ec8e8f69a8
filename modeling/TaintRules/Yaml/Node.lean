import TaintRules.Yaml.Token

/-!
# YAML nodes

The tree that a YAML document writes, before its scalars are resolved. Anchors have numbers; an
alias stands for the last node of the document that has its number.
-/

namespace TaintRules.Yaml

/-- A node of a document. -/
inductive Node where
  | scalar (tag : Option Tag) (style : Style) (text : String)
  | sequence (tag : Option Tag) (items : List Node)
  | mapping (tag : Option Tag) (entries : List (Node × Node))
  | alias (number : Nat)
  | anchored (number : Nat) (content : Node)
  deriving Inhabited

namespace Node

/-- A node that is not written out. -/
def empty : Node := .scalar none .plain ""

mutual

/-- The anchored nodes of a tree, in the order in which they start. -/
def anchors : Node → List (Nat × Node)
  | .scalar _ _ _ | .alias _ => []
  | .sequence _ items => itemAnchors items
  | .mapping _ entries => entryAnchors entries
  | .anchored number content => (number, content) :: anchors content

/-- The anchored nodes of a sequence. -/
def itemAnchors : List Node → List (Nat × Node)
  | [] => []
  | item :: rest => anchors item ++ itemAnchors rest

/-- The anchored nodes of a mapping. -/
def entryAnchors : List (Node × Node) → List (Nat × Node)
  | [] => []
  | (key, value) :: rest => anchors key ++ anchors value ++ entryAnchors rest

end

mutual

/-- The size of a tree: a scalar or an alias counts once, a collection twice and its content. -/
def size : Node → Nat
  | .scalar _ _ _ | .alias _ => 1
  | .sequence _ items => 2 + itemsSize items
  | .mapping _ entries => 2 + entriesSize entries
  | .anchored _ content => size content

/-- The size of the items of a sequence. -/
def itemsSize : List Node → Nat
  | [] => 0
  | item :: rest => size item + itemsSize rest

/-- The size of the entries of a mapping. -/
def entriesSize : List (Node × Node) → Nat
  | [] => 0
  | (key, value) :: rest => size key + size value + entriesSize rest

end

end Node

/-- What follows the first document of a text. -/
inductive Sequel where
  | nothing
  | more
  /-- The text cannot be read up to the end of the document. -/
  | unreadable
  deriving DecidableEq, Repr

/-- What a text holds: its first document, if there is one, as far as it can be read, and what
follows it. -/
structure Stream where
  root : Option Node
  sequel : Sequel

end TaintRules.Yaml
