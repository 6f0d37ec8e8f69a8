import TaintRules.Entity.Fingerprint
import TaintRules.Pattern.Shape

/-!
# The tiered index

A batch of entities is indexed once, in three tables: typed calls by receiver type and name, all
calls by simple and qualified name, and typed reads by receiver type and name. Keys are folded by
the case mode, so that looking up any spelling finds all of them.
-/

namespace TaintRules

/-! ### Postings

A table from keys to the positions at which they occur. Keys stand in the order in which they
first occurred, and the positions of a key in the order in which they were noted. The positions are
counted as they are noted. -/

/-- The positions of each key. -/
structure Postings (κ : Type) where
  entries : List (κ × List Nat)
  /-- The number of pairs of a key and one of its positions. -/
  entryCount : Nat
  deriving DecidableEq, Repr

namespace Postings

variable {κ : Type}

/-- No key occurs. -/
def empty : Postings κ := ⟨[], 0⟩

/-- The number of distinct keys. -/
def size (postings : Postings κ) : Nat := postings.entries.length

variable [DecidableEq κ]

/-- Notes a position in a list of keys. -/
def insertEntry (key : κ) (position : Nat) : List (κ × List Nat) → List (κ × List Nat)
  | [] => [(key, [position])]
  | (other, positions) :: rest =>
    if other = key then (other, positions ++ [position]) :: rest
    else (other, positions) :: insertEntry key position rest

/-- Notes that a key occurs at a position. -/
def insert (postings : Postings κ) (key : κ) (position : Nat) : Postings κ where
  entries := insertEntry key position postings.entries
  entryCount := postings.entryCount + 1

@[simp] theorem entryCount_insert (postings : Postings κ) (key : κ) (position : Nat) :
    (postings.insert key position).entryCount = postings.entryCount + 1 := rfl

/-- The positions of a key, none if it does not occur. -/
def query (postings : Postings κ) (key : κ) : List Nat :=
  (postings.entries.lookup key).getD []

end Postings

/-! ### The tiered index -/

/-- A receiver type and a member name, as the index compares them. -/
structure TypedKey where
  baseType : String
  member : String
  deriving DecidableEq, Repr

/-- The key of a type and a name in a case mode. -/
def TypedKey.fold (mode : CaseMode) (baseType member : String) : TypedKey :=
  ⟨mode.fold baseType, mode.fold member⟩

/-- The three tables, and the entities that only some of them can hold. -/
structure Tables where
  typeCall : Postings TypedKey := .empty
  call : Postings String := .empty
  typeRead : Postings TypedKey := .empty
  untypedCalls : Nat := 0
  untypedReads : Nat := 0
  deriving DecidableEq, Repr

/-- The folded names of a call: the simple one, and the qualified one if it differs. -/
def CallSite.names (mode : CaseMode) (site : CallSite) : List String :=
  let simple := mode.fold site.call
  simple :: ((site.qualifiedCall.map mode.fold).filter (· != simple)).toList

/-- Notes the entity at a position. -/
def Tables.insert (mode : CaseMode) (tables : Tables) (position : Nat) : Entity → Tables
  | .call site =>
    let named := { tables with
      call := (site.names mode).foldl (fun table name ↦ table.insert name position) tables.call }
    match site.baseType with
    | some baseType =>
      { named with
        typeCall := tables.typeCall.insert (TypedKey.fold mode baseType site.call) position }
    | none => { named with untypedCalls := tables.untypedCalls + 1 }
  | .read access =>
    match access.baseType with
    | some baseType =>
      { tables with
        typeRead := tables.typeRead.insert (TypedKey.fold mode baseType access.read) position }
    | none => { tables with untypedReads := tables.untypedReads + 1 }

/-- Notes entities at consecutive positions. -/
def Tables.insertAll (mode : CaseMode) (tables : Tables) (position : Nat) : List Entity → Tables
  | [] => tables
  | e :: rest => insertAll mode (tables.insert mode position e) (position + 1) rest

/-- A batch with its tables; it does not change once it is built. -/
structure Index where
  entities : List Entity
  mode : CaseMode
  tables : Tables
  fingerprint : Fingerprint
  deriving DecidableEq, Repr

namespace Index

/-- Indexes a batch whose fingerprint is known. -/
def buildWith (fingerprint : Fingerprint) (entities : List Entity) (mode : CaseMode) : Index :=
  ⟨entities, mode, Tables.insertAll mode {} 0 entities, fingerprint⟩

/-- Indexes a batch. -/
def build (entities : List Entity) (mode : CaseMode) : Index :=
  buildWith (Fingerprint.ofBatch entities) entities mode

/-- The number of entities. -/
def size (index : Index) : Nat := index.entities.length

/-- The typed calls of a type and a name, in any spelling that folds to the same key. -/
def lookupTypeCall (index : Index) (mode : CaseMode) (baseType member : String) : List Nat :=
  index.tables.typeCall.query (TypedKey.fold mode baseType member)

/-- The calls of a simple or qualified name. -/
def lookupCall (index : Index) (mode : CaseMode) (name : String) : List Nat :=
  index.tables.call.query (mode.fold name)

/-- The typed reads of a type and a name. -/
def lookupTypeRead (index : Index) (mode : CaseMode) (baseType member : String) : List Nat :=
  index.tables.typeRead.query (TypedKey.fold mode baseType member)

end Index

end TaintRules
