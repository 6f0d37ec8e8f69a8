import TaintRules.Entity.ConstFlags
import TaintRules.Text.Characters

/-!
# Entities

An entity is one occurrence of a call or of a property read in the analysed code, with the type of
its receiver where inference found one. Entities are what rules are matched against.
-/

namespace TaintRules

/-- The two kinds of occurrences. -/
inductive EntityKind where
  | call
  | read
  deriving DecidableEq, Repr

namespace EntityKind

/-- The name of the kind, which is also the name of the field that holds the member. -/
def name : EntityKind → String
  | .call => "call"
  | .read => "read"

/-- The kind with a name, in any case of ASCII letters and with blanks around it. -/
def parse? (s : String) : Option EntityKind :=
  match Text.asciiLower (Text.trim s) with
  | "call" => some .call
  | "read" => some .read
  | _ => none

end EntityKind

/-- A call: the receiver's type, the simple and the qualified name, the arguments. -/
structure CallSite where
  id : String
  baseType : Option String := none
  call : String
  qualifiedCall : Option String := none
  args : List String := []
  isConst : ConstFlags := ConstFlags.empty
  deriving DecidableEq, Repr

/-- Appends an argument, and what is known about its constness. -/
def CallSite.addArg (site : CallSite) (descriptor : String) (isConst : Option Bool) : CallSite :=
  { site with
    args := site.args ++ [descriptor]
    isConst := match isConst with
      | some flag => site.isConst.insert (UInt64.ofNat site.args.length) flag
      | none => site.isConst }

/-- A property read: the receiver's type and the name. -/
structure PropertyRead where
  id : String
  baseType : Option String := none
  read : String
  deriving DecidableEq, Repr

/-- One occurrence in the analysed code. -/
inductive Entity where
  | call (site : CallSite)
  | read (access : PropertyRead)
  deriving DecidableEq, Repr

/-- Why a record or an entity cannot be indexed. -/
inductive MalformedEntity where
  | unknownKind (id kind : String)
  | missingMember (id : String) (kind : EntityKind) (field : String)
  | conflictingMembers (id : String)
  deriving DecidableEq, Repr

namespace MalformedEntity

/-- The entity at fault. -/
def entityId : MalformedEntity → String
  | .unknownKind id _ | .missingMember id _ _ | .conflictingMembers id => id

/-- The wording of the error. -/
def message : MalformedEntity → String
  | .unknownKind id kind =>
    s!"entity '{id}': unknown kind '{kind}' (expected 'call' or 'read')"
  | .missingMember id kind field =>
    s!"entity '{id}': kind '" ++ kind.name ++ s!"' requires a non-empty '{field}'"
  | .conflictingMembers id => s!"entity '{id}': both 'call' and 'read' are populated"

end MalformedEntity

namespace Entity

/-- The identifier that the finder of the entity gave it. -/
def id : Entity → String
  | .call site => site.id
  | .read access => access.id

/-- The kind of the entity. -/
def kind : Entity → EntityKind
  | .call _ => .call
  | .read _ => .read

/-- The receiver's type, where it is known. -/
def baseType : Entity → Option String
  | .call site => site.baseType
  | .read access => access.baseType

/-- The simple name of the called or read member. -/
def member : Entity → String
  | .call site => site.call
  | .read access => access.read

/-- The qualified name of a call, where it is known. -/
def qualifiedCall : Entity → Option String
  | .call site => site.qualifiedCall
  | .read _ => none

/-- The call, if the entity is one. -/
def asCall? : Entity → Option CallSite
  | .call site => some site
  | .read _ => none

/-- An entity with a blank member name cannot be indexed. -/
def validate (e : Entity) : Except MalformedEntity Unit :=
  if Text.isBlank e.member then .error (.missingMember e.id e.kind e.kind.name) else .ok ()

/-- Whether the entity can be indexed. -/
def isValid (e : Entity) : Bool := !Text.isBlank e.member

end Entity

/-- A record of an entity as a loader delivers it: a kind in words, and any of the fields. -/
structure EntityRecord where
  id : String := ""
  kind : String := ""
  baseType : Option String := none
  call : Option String := none
  read : Option String := none
  qualifiedCall : Option String := none
  args : List String := []
  isConst : ConstFlags := ConstFlags.empty
  deriving DecidableEq, Repr, Inhabited

/-- The entity that a record describes. Blank names count as missing. -/
def EntityRecord.toEntity (r : EntityRecord) : Except MalformedEntity Entity :=
  match EntityKind.parse? r.kind with
  | none => .error (.unknownKind r.id r.kind)
  | some kind =>
    match kind, Text.nonBlank r.call, Text.nonBlank r.read with
    | _, some _, some _ => .error (.conflictingMembers r.id)
    | .call, some call, none =>
      .ok (.call ⟨r.id, Text.nonBlank r.baseType, call, Text.nonBlank r.qualifiedCall,
        r.args, r.isConst⟩)
    | .read, none, some read => .ok (.read ⟨r.id, Text.nonBlank r.baseType, read⟩)
    | kind, _, _ => .error (.missingMember r.id kind kind.name)

/-- The record that describes an entity. -/
def Entity.toRecord : Entity → EntityRecord
  | .call site =>
    { id := site.id, kind := EntityKind.call.name, baseType := site.baseType,
      call := some site.call, qualifiedCall := site.qualifiedCall, args := site.args,
      isConst := site.isConst }
  | .read access =>
    { id := access.id, kind := EntityKind.read.name, baseType := access.baseType,
      read := some access.read }

end TaintRules
