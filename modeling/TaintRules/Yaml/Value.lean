import TaintRules.Decimal

/-!
# YAML values

What a YAML document says once its scalars are resolved. A mapping keeps its entries in the order
of the document, and its keys may be any values.
-/

namespace TaintRules.Yaml

/-- The value of a YAML node. -/
inductive Value where
  | null
  | bool (value : Bool)
  | int (value : Int)
  | float (value : Float)
  | text (value : String)
  | sequence (items : List Value)
  | mapping (entries : List (Value × Value))
  /-- A value with a tag of the document's own. -/
  | tagged (tag : String) (content : Value)
  deriving Inhabited

namespace Value

/-- The value without its tags. -/
def untag : Value → Value
  | .tagged _ content => content.untag
  | value => value

/-- The value of a key that is a text, looked up through tags. -/
def get? (value : Value) (name : String) : Option Value :=
  match value.untag with
  | .mapping entries =>
    (entries.find? fun entry ↦ match entry.1 with
      | .text key => key == name
      | _ => false).map (·.2)
  | _ => none

/-- The name by which a tag is compared: without an exclamation mark in front of something. -/
def tagKey (tag : String) : List Char :=
  match tag.toList with
  | '!' :: next :: rest => next :: rest
  | name => name

/-- Whether two doubles are the same value, or both are no number. -/
def sameFloat (x y : Float) : Bool := x == y || (x.isNaN && y.isNaN)

mutual

/-- Whether two values are the same; the order of a mapping's entries does not matter. -/
def same : Value → Value → Bool
  | .null, .null => true
  | .bool a, .bool b => a == b
  | .int a, .int b => a == b
  | .float a, .float b => sameFloat a b
  | .text a, .text b => a == b
  | .sequence as, .sequence bs => sameItems as bs
  | .mapping as, .mapping bs => as.length == bs.length && sameEntries as bs
  | .tagged s a, .tagged t b => tagKey s == tagKey t && same a b
  | _, _ => false

/-- Whether two lists hold the same values in the same order. -/
def sameItems : List Value → List Value → Bool
  | [], [] => true
  | a :: as, b :: bs => same a b && sameItems as bs
  | _, _ => false

/-- Whether each entry of the first list occurs in the second. -/
def sameEntries : List (Value × Value) → List (Value × Value) → Bool
  | [], _ => true
  | (key, value) :: rest, others => occurs key value others && sameEntries rest others

/-- Whether an entry occurs in a list of entries. -/
def occurs (key value : Value) : List (Value × Value) → Bool
  | [] => false
  | (k, v) :: rest => (same key k && same value v) || occurs key value rest

end

end Value

/-! ### Writing configuration documents

The block form of a document made of nested mappings with plain keys and scalars: one entry a line,
two blanks deeper for each level. -/

/-- The text of a scalar; other values have none of their own. -/
def Value.scalarText : Value → String
  | .null => "null"
  | .bool b => toString b
  | .int n => toString n
  | .float x => Decimal.Format.document.text x
  | .text s => s
  | .sequence _ | .mapping _ | .tagged _ _ => ""

mutual

/-- The lines of the entries of a mapping. -/
def entryLines (indent : String) : List (Value × Value) → String
  | [] => ""
  | (key, value) :: rest => entryLine indent key value ++ entryLines indent rest

/-- The lines of one entry. -/
def entryLine (indent : String) (key : Value) : Value → String
  | .mapping entries =>
    indent ++ key.scalarText ++ ":\n" ++ entryLines (indent ++ "  ") entries
  | value => indent ++ key.scalarText ++ ": " ++ value.scalarText ++ "\n"

end

/-- The text of a document that is a mapping. -/
def Value.write : Value → String
  | .mapping entries => entryLines "" entries
  | value => value.scalarText ++ "\n"

end TaintRules.Yaml
