import TaintRules.Entity.Basic
import TaintRules.Hash.Blake3

/-!
# Fingerprints of batches

A batch is recognised by the hash of a byte encoding: the number of entities, then each entity
with its kind, its fields with their presence and length, its arguments and its flags.
-/

namespace TaintRules

/-- A field that may be missing: a mark, and the text with its length. -/
def encodeField : Option String → List UInt8
  | some s => 1 :: Bytes.sized s
  | none => [0]

/-- The flags, position by position. -/
def ConstFlags.encode (flags : ConstFlags) : List UInt8 :=
  flags.entries.flatMap fun (position, flag) ↦
    Bytes.word64 position.toNat ++ [if flag then 1 else 0]

/-- The bytes of an entity. -/
def Entity.encode : Entity → List UInt8
  | .call site =>
    67 :: (encodeField (some site.id) ++ encodeField site.baseType ++ encodeField (some site.call)
      ++ encodeField site.qualifiedCall ++ Bytes.word64 site.args.length
      ++ site.args.flatMap (fun arg ↦ encodeField (some arg)) ++ site.isConst.encode)
  | .read access =>
    82 :: (encodeField (some access.id) ++ encodeField access.baseType
      ++ encodeField (some access.read))

/-- The bytes of a batch. -/
def encodeBatch (batch : List Entity) : List UInt8 :=
  Bytes.word64 batch.length ++ batch.flatMap Entity.encode

/-- What a batch is recognised by. -/
structure Fingerprint where
  digest : List UInt8
  deriving DecidableEq, Repr

namespace Fingerprint

/-- The fingerprint of a batch. -/
def ofBatch (batch : List Entity) : Fingerprint := ⟨Blake3.hash (encodeBatch batch)⟩

/-- The fingerprint in hexadecimal digits. -/
def toHex (f : Fingerprint) : String := Bytes.hex f.digest

end Fingerprint

end TaintRules
