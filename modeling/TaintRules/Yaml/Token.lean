import TaintRules.Hash.Blake3

/-!
# YAML tokens

The signs and words of a YAML text. Block structure, which the text shows by indentation, has tokens
of its own.
-/

namespace TaintRules.Yaml

/-! ### YAML tags

The full name of a tag, as bytes: the escapes in a tag may write bytes that are the form of no
text. A tag that starts with an exclamation mark is one of the document's own. -/

/-- The full name of a tag. -/
structure Tag where
  bytes : List UInt8
  deriving DecidableEq, Repr

namespace Tag

/-- The tag that some bytes write; a byte of zero ends it. -/
def ofBytes (bytes : List UInt8) : Tag := ⟨bytes.takeWhile (· ≠ 0)⟩

/-- The tag with a text as its name. -/
def ofText (text : String) : Tag := ⟨Bytes.utf8 text⟩

/-- The name of a tag after a start that its handle stands for. -/
def append (start rest : Tag) : Tag := ⟨start.bytes ++ rest.bytes⟩

/-- The exclamation mark in front of a tag of the document's own. -/
def mark : UInt8 := 0x21

/-- The exclamation mark alone. -/
def bare : Tag := ⟨[mark]⟩

/-- What stands in front of the names of all standard tags. -/
def standardStart : Tag := ofText "tag:yaml.org,2002:"

/-- A standard tag by its name. -/
def standard (name : String) : Tag := standardStart.append (ofText name)

/-- Whether a tag starts like one of the document's own. -/
def isMarked (tag : Tag) : Bool := tag.bytes.head? = some mark

/-- The name of a tag of the document's own, if it is a text. -/
def custom? (tag : Tag) : Option String :=
  match tag.bytes with
  | first :: rest =>
    if first = mark then
      String.fromUTF8? ⟨(if rest.isEmpty then tag.bytes else rest).toArray⟩
    else none
  | [] => none

end Tag

/-! ### YAML tokens -/

/-- How a scalar is written. -/
inductive Style where
  | plain
  | singleQuoted
  | doubleQuoted
  | literal
  | folded
  deriving DecidableEq, Repr

/-- A token. A text that cannot be read any further ends with `malformed`. -/
inductive Token where
  | streamEnd
  | malformed
  | versionDirective (major minor : Nat)
  | tagDirective (handle : String) (start : Tag)
  | documentStart
  | documentEnd
  | blockSequenceStart
  | blockMappingStart
  | blockEnd
  | flowSequenceStart
  | flowSequenceEnd
  | flowMappingStart
  | flowMappingEnd
  | blockEntry
  | flowEntry
  | key
  | value
  | alias (name : String)
  | anchor (name : String)
  | tag (handle : String) (suffix : Tag)
  | scalar (style : Style) (text : String)
  deriving DecidableEq, Repr

end TaintRules.Yaml
