import TaintRules.Yaml.Lexer
import TaintRules.Yaml.Node

/-!
# The grammar of YAML

How the tokens of a text make up a node. Where a node is due and a sign that ends it follows, the
node is the empty one. A text that does not follow the grammar is given up where that shows, and
what was read before stays. Of any three calls nested in each other one passes a token, so that
three times the number of tokens bounds the depth of the calls.
-/

namespace TaintRules.Yaml

/-- How far a text is read: the tokens that are left, the tag handles in force, and the numbers of
the anchors so far. -/
structure Progress where
  tokens : List Token
  handles : List (String × Tag) := []
  anchors : List (String × Nat) := []

/-- A part of the grammar. -/
abbrev Parse := StateM Progress

namespace Parse

/-- The next token. -/
def peek : Parse Token := do return (← get).tokens.head?.getD .malformed

/-- Passes the next token. -/
def advance : Parse Unit := modify fun p ↦ { p with tokens := p.tokens.tail }

/-- Reads no further: all that would follow counts as malformed. -/
def giveUp (result : α) : Parse α := do
  modify fun p ↦ { p with tokens := [] }
  return result

/-- Numbers an anchor by the count of different names before it. -/
def numberAnchor (name : String) : Parse Nat := do
  let p ← get
  let number := p.anchors.length
  set { p with anchors := (name, number) :: p.anchors.filter (·.1 != name) }
  return number

/-- The anchor and the tag in front of a node, in either order. -/
def properties : Parse (Option String × Option (String × Tag)) := do
  match ← peek with
  | .anchor name =>
    advance
    match ← peek with
    | .tag handle suffix =>
      advance
      return (some name, some (handle, suffix))
    | _ => return (some name, none)
  | .tag handle suffix =>
    advance
    match ← peek with
    | .anchor name =>
      advance
      return (some name, some (handle, suffix))
    | _ => return (none, some (handle, suffix))
  | _ => return (none, none)

/-- The full name of a tag; its handle has to be known. -/
def fullTag (tag : String × Tag) : Parse Tag := do
  if tag.1.isEmpty then return tag.2
  match (← get).handles.lookup tag.1 with
  | some start => return start.append tag.2
  | none => giveUp tag.2

/-- Whether a token ends an item of a block sequence. -/
def endsItem : Token → Bool
  | .blockEntry | .blockEnd => true
  | _ => false

/-- Whether a token ends an item of a sequence that is not indented in its mapping. -/
def endsFlatItem : Token → Bool
  | .blockEntry | .key | .value | .blockEnd => true
  | _ => false

/-- Whether a token ends a key or a value of a block mapping. -/
def endsEntry : Token → Bool
  | .key | .value | .blockEnd => true
  | _ => false

/-- Whether a token ends a key between braces. -/
def endsFlowKey : Token → Bool
  | .value | .flowEntry | .flowMappingEnd => true
  | _ => false

/-- Whether a token ends a value between braces. -/
def endsFlowValue : Token → Bool
  | .flowEntry | .flowMappingEnd => true
  | _ => false

/-- Whether a token ends the key of a single pair in a sequence. -/
def endsPairKey : Token → Bool
  | .value | .flowEntry | .flowSequenceEnd => true
  | _ => false

/-- Whether a token ends the value of a single pair in a sequence. -/
def endsPairValue : Token → Bool
  | .flowEntry | .flowSequenceEnd => true
  | _ => false

mutual

/-- A node. Block collections count only where `block` holds, and a sequence that is not indented
only where `flat` holds. -/
def node : Nat → (block flat : Bool) → Parse Node
  | 0, _, _ => giveUp .empty
  | fuel + 1, block, flat => do
    match ← peek with
    | .alias name =>
      advance
      match (← get).anchors.lookup name with
      | some number => return .alias number
      | none => giveUp .empty
    | _ =>
      let (anchor, tag) ← properties
      let tag ← tag.mapM fullTag
      let number ← anchor.mapM numberAnchor
      let content ← content fuel block flat (anchor.isSome || tag.isSome) tag
      match number with
      | some number => return .anchored number content
      | none => return content

/-- What follows the anchor and the tag of a node; if there are any, it may be empty. -/
def content : Nat → (block flat named : Bool) → Option Tag → Parse Node
  | 0, _, _, _, _ => giveUp .empty
  | fuel + 1, block, flat, named, tag => do
    let token ← peek
    if flat && token = .blockEntry then return .sequence tag (← flatItems fuel [])
    match token with
    | .scalar style text =>
      advance
      return .scalar tag style text
    | .flowSequenceStart =>
      advance
      return .sequence tag (← flowItems fuel true [])
    | .flowMappingStart =>
      advance
      return .mapping tag (← flowEntries fuel true [])
    | _ =>
      if block && token = .blockSequenceStart then
        advance
        return .sequence tag (← blockItems fuel [])
      else if block && token = .blockMappingStart then
        advance
        return .mapping tag (← blockEntries fuel [])
      else if named then return .scalar tag .plain ""
      else giveUp .empty

/-- The items of a block sequence after those in `read`, which are reversed. -/
def blockItems : Nat → List Node → Parse (List Node)
  | 0, read => giveUp read.reverse
  | fuel + 1, read => do
    match ← peek with
    | .blockEntry =>
      advance
      let item ← if endsItem (← peek) then pure .empty else node fuel true false
      blockItems fuel (item :: read)
    | .blockEnd =>
      advance
      return read.reverse
    | _ => giveUp read.reverse

/-- The items of a sequence that is not indented in its mapping. -/
def flatItems : Nat → List Node → Parse (List Node)
  | 0, read => giveUp read.reverse
  | fuel + 1, read => do
    match ← peek with
    | .blockEntry =>
      advance
      let item ← if endsFlatItem (← peek) then pure .empty else node fuel true false
      flatItems fuel (item :: read)
    | _ => return read.reverse

/-- The entries of a block mapping. -/
def blockEntries : Nat → List (Node × Node) → Parse (List (Node × Node))
  | 0, read => giveUp read.reverse
  | fuel + 1, read => do
    match ← peek with
    | .key =>
      advance
      let key ← if endsEntry (← peek) then pure .empty else node fuel true true
      if (← peek) = .value then
        advance
        let value ← if endsEntry (← peek) then pure .empty else node fuel true true
        blockEntries fuel ((key, value) :: read)
      else blockEntries fuel ((key, .empty) :: read)
    | .blockEnd =>
      advance
      return read.reverse
    | _ => giveUp read.reverse

/-- The items of a sequence between brackets. A key makes its item a mapping of one entry. -/
def flowItems : Nat → (first : Bool) → List Node → Parse (List Node)
  | 0, _, read => giveUp read.reverse
  | fuel + 1, first, read => do
    if (← peek) = .flowSequenceEnd then
      advance
      return read.reverse
    if !first then
      if (← peek) = .flowEntry then advance else giveUp ()
    match ← peek with
    | .flowSequenceEnd =>
      advance
      return read.reverse
    | .malformed => return read.reverse
    | .key =>
      advance
      let key ← pairKey fuel
      let value ← pairValue fuel
      flowItems fuel false (.mapping none [(key, value)] :: read)
    | _ =>
      let item ← node fuel false false
      flowItems fuel false (item :: read)

/-- The key of a single pair. The sign that ends an empty one is passed. -/
def pairKey : Nat → Parse Node
  | 0 => giveUp .empty
  | fuel + 1 => do
    if endsPairKey (← peek) then
      advance
      return .empty
    else node fuel false false

/-- The value of a single pair. -/
def pairValue : Nat → Parse Node
  | 0 => giveUp .empty
  | fuel + 1 => do
    if (← peek) = .value then
      advance
      if endsPairValue (← peek) then return .empty else node fuel false false
    else return .empty

/-- The entries of a mapping between braces. -/
def flowEntries : Nat → (first : Bool) → List (Node × Node) → Parse (List (Node × Node))
  | 0, _, read => giveUp read.reverse
  | fuel + 1, first, read => do
    if (← peek) = .flowMappingEnd then
      advance
      return read.reverse
    if !first then
      if (← peek) = .flowEntry then advance else giveUp ()
    match ← peek with
    | .flowMappingEnd =>
      advance
      return read.reverse
    | .malformed => return read.reverse
    | .key =>
      advance
      let key ← if endsFlowKey (← peek) then pure .empty else node fuel false false
      if (← peek) = .value then
        advance
        let value ← if endsFlowValue (← peek) then pure .empty else node fuel false false
        flowEntries fuel false ((key, value) :: read)
      else flowEntries fuel false ((key, .empty) :: read)
    | _ =>
      let key ← node fuel false false
      flowEntries fuel false ((key, .empty) :: read)

end

/-- The handles that need no directive. -/
def standardHandles : List (String × Tag) := [("!", Tag.bare), ("!!", Tag.standardStart)]

/-- The directives in front of a document: at most one version, and each handle once. -/
def directives : Nat → (versioned : Bool) → Parse Unit
  | 0, _ => giveUp ()
  | fuel + 1, versioned => do
    match ← peek with
    | .versionDirective major minor =>
      if versioned || major ≠ 1 || (minor ≠ 1 && minor ≠ 2) then giveUp ()
      else
        advance
        directives fuel true
    | .tagDirective handle start =>
      let p ← get
      if (p.handles.lookup handle).isSome then giveUp ()
      else
        set { p with handles := p.handles ++ [(handle, start)] }
        advance
        directives fuel versioned
    | _ => modify fun p ↦ { p with handles := p.handles ++ standardHandles }

/-- Whether a token stands between documents. -/
def dividesDocuments : Token → Bool
  | .versionDirective _ _ | .tagDirective _ _ | .documentStart | .documentEnd | .streamEnd => true
  | _ => false

/-- The first document of a text. -/
def document (fuel : Nat) : Parse Node := do
  let token ← peek
  directives fuel false
  if !dividesDocuments token || token = .documentEnd then node fuel true false
  else
    if (← peek) = .documentStart then advance else giveUp ()
    if dividesDocuments (← peek) then return .empty else node fuel true false

/-- A whole text, of which only the first document is read. -/
def stream (fuel : Nat) : Parse Stream := do
  if (← peek) = .streamEnd then return ⟨none, .nothing⟩
  let root ← document fuel
  if (← peek) = .malformed then return ⟨some root, .unreadable⟩
  let rest := (← get).tokens.dropWhile (· = .documentEnd)
  return ⟨some root, if rest.head? = some .streamEnd then .nothing else .more⟩

end Parse

/-- What a text holds. -/
def Stream.ofText (text : String) : Stream :=
  let tokens := tokens text
  ((Parse.stream (3 * tokens.length + 3)).run { tokens }).1

end TaintRules.Yaml
