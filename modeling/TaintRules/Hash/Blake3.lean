/-!
# Bytes and their hash

What is recognised by its hash is first written as bytes. Batches and rules share the encoding of
their parts and the hash, which is BLAKE3.
-/

namespace TaintRules.Bytes

/-! ### Bytes of numbers and texts

Encodings that are hashed are lists of bytes: numbers take eight bytes, the low one first, and
texts their UTF-8 form, with their length in front where another field follows. -/

/-- The `count` low bytes of a number, the lowest first. -/
def littleEndian : Nat → Nat → List UInt8
  | 0, _ => []
  | count + 1, n => UInt8.ofNat n :: littleEndian count (n / 256)

/-- The eight bytes of a number. -/
def word64 (n : Nat) : List UInt8 := littleEndian 8 n

/-- The UTF-8 form of a text. -/
def utf8 (s : String) : List UInt8 := s.toByteArray.data.toList

/-- A text with its length in bytes in front. -/
def sized (s : String) : List UInt8 := word64 (utf8 s).length ++ utf8 s

/-- Two small hexadecimal digits for each byte. -/
def hex (bytes : List UInt8) : String :=
  String.ofList (bytes.flatMap fun b ↦
    [Nat.digitChar (b.toNat / 16), Nat.digitChar (b.toNat % 16)])

end TaintRules.Bytes

namespace TaintRules.Blake3

/-! ### The BLAKE3 hash

The input is cut into chunks of 1024 bytes and each chunk into blocks of 64. The blocks of a chunk
are compressed one after the other; the chunks are the leaves of a binary tree, built by joining
neighbours level by level, and the last compression, at the root, gives the digest. -/

/-- The chaining value that one compression hands to the next. -/
abbrev Chain := Vector UInt32 8

/-- The sixteen words of a message block or of the inner state. -/
abbrev Block := Vector UInt32 16

/-- The chaining value that every chunk begins with. -/
def initial : Chain :=
  #v[0x6A09E667, 0xBB67AE85, 0x3C6EF372, 0xA54FF53A, 0x510E527F, 0x9B05688C, 0x1F83D9AB, 0x5BE0CD19]

/-- Marks the first block of a chunk. -/
def chunkStart : UInt32 := 1

/-- Marks the last block of a chunk. -/
def chunkEnd : UInt32 := 2

/-- Marks the joining of two subtrees. -/
def parent : UInt32 := 4

/-- Marks the last compression. -/
def root : UInt32 := 8

/-- Rotates a word to the right, by less than its width. -/
def rotateRight (w n : UInt32) : UInt32 := (w >>> n) ||| (w <<< (32 - n))

/-- Mixes two message words into four words of the state. -/
def quarter (a b c d : Fin 16) (x y : UInt32) (v : Block) : Block :=
  let va := v[a] + v[b] + x
  let vd := rotateRight (v[d] ^^^ va) 16
  let vc := v[c] + vd
  let vb := rotateRight (v[b] ^^^ vc) 12
  let va := va + vb + y
  let vd := rotateRight (vd ^^^ va) 8
  let vc := vc + vd
  let vb := rotateRight (vb ^^^ vc) 7
  (((v.set a va).set b vb).set c vc).set d vd

/-- Mixes a message block into the state: the columns, then the diagonals. -/
def round (m v : Block) : Block :=
  let v := quarter 0 4 8 12 m[0] m[1] v
  let v := quarter 1 5 9 13 m[2] m[3] v
  let v := quarter 2 6 10 14 m[4] m[5] v
  let v := quarter 3 7 11 15 m[6] m[7] v
  let v := quarter 0 5 10 15 m[8] m[9] v
  let v := quarter 1 6 11 12 m[10] m[11] v
  let v := quarter 2 7 8 13 m[12] m[13] v
  quarter 3 4 9 14 m[14] m[15] v

/-- The order in which the next round takes the words of the block. -/
def permute (m : Block) : Block :=
  #v[m[2], m[6], m[3], m[10], m[7], m[0], m[4], m[13],
     m[1], m[11], m[12], m[5], m[9], m[14], m[15], m[8]]

/-- The rounds that are left, each with the block in its next order. -/
def rounds : Nat → Block → Block → Block
  | 0, _, v => v
  | n + 1, m, v => rounds n (permute m) (round m v)

/-- A compression that is still to be made; it takes the root mark only if it is the last one. -/
structure Node where
  chain : Chain
  block : Block
  counter : Nat
  size : Nat
  flags : UInt32

/-- The chaining value of a compression. -/
def Node.compress (node : Node) (flags : UInt32) : Chain :=
  let h := node.chain
  let v : Block :=
    #v[h[0], h[1], h[2], h[3], h[4], h[5], h[6], h[7],
       initial[0], initial[1], initial[2], initial[3],
       UInt32.ofNat node.counter, UInt32.ofNat (node.counter / UInt32.size),
       UInt32.ofNat node.size, node.flags ||| flags]
  let v := rounds 7 node.block v
  #v[v[0] ^^^ v[8], v[1] ^^^ v[9], v[2] ^^^ v[10], v[3] ^^^ v[11],
     v[4] ^^^ v[12], v[5] ^^^ v[13], v[6] ^^^ v[14], v[7] ^^^ v[15]]

/-- The word at a place of a list of bytes, the low byte first; bytes past the end are zero. -/
def wordAt (bytes : List UInt8) : UInt32 :=
  let byte (i : Nat) : UInt32 := (bytes.getD i 0).toUInt32
  byte 0 ||| (byte 1 <<< 8) ||| (byte 2 <<< 16) ||| (byte 3 <<< 24)

/-- The words of a list of bytes, as many as asked for. -/
def words : Nat → List UInt8 → List UInt32
  | 0, _ => []
  | n + 1, bytes => wordAt (bytes.take 4) :: words n (bytes.drop 4)

/-- The message block of at most 64 bytes, filled up with zeros. -/
def blockOf (bytes : List UInt8) : Block :=
  let ws := words 16 bytes
  Vector.ofFn fun i ↦ ws.getD i 0

/-- Cuts a list into pieces of the given size; the last one may be shorter. The empty list is one
empty piece. -/
def pieces (size : Nat) : Nat → List UInt8 → List (List UInt8)
  | 0, bytes => [bytes]
  | fuel + 1, bytes =>
    if bytes.length ≤ size then [bytes]
    else bytes.take size :: pieces size fuel (bytes.drop size)

/-- Compresses the blocks of a chunk up to its last, which is left to be made. -/
def chunkBlocks (counter : Nat) (chain : Chain) (flags : UInt32) : List (List UInt8) → Node
  | [] => ⟨chain, blockOf [], counter, 0, flags ||| chunkEnd⟩
  | [last] => ⟨chain, blockOf last, counter, last.length, flags ||| chunkEnd⟩
  | block :: rest =>
    let node : Node := ⟨chain, blockOf block, counter, block.length, flags⟩
    chunkBlocks counter (node.compress 0) 0 rest

/-- The leaf of a chunk. -/
def chunkNode (bytes : List UInt8) (counter : Nat) : Node :=
  chunkBlocks counter initial chunkStart (pieces 64 16 bytes)

/-- The node above two subtrees. -/
def parentNode (left right : Node) : Node :=
  ⟨initial, Vector.cast (by decide) (left.compress 0 ++ right.compress 0), 0, 64, parent⟩

/-- Joins neighbours; a node without a neighbour goes up as it is. -/
def joinNeighbours : List Node → List Node
  | left :: right :: rest => parentNode left right :: joinNeighbours rest
  | nodes => nodes

/-- Joins level by level until one node is left. -/
def joinAll : Nat → List Node → List Node
  | 0, nodes => nodes
  | levels + 1, nodes => if nodes.length ≤ 1 then nodes else joinAll levels (joinNeighbours nodes)

/-- The four bytes of a word, the low one first. -/
def wordBytes (w : UInt32) : List UInt8 :=
  [w.toUInt8, (w >>> 8).toUInt8, (w >>> 16).toUInt8, (w >>> 24).toUInt8]

/-- The digest of a list of bytes: 32 bytes. -/
def hash (bytes : List UInt8) : List UInt8 :=
  let chunks := pieces 1024 (bytes.length / 1024 + 1) bytes
  let leaves := chunks.mapIdx fun i chunk ↦ chunkNode chunk i
  match joinAll 64 leaves with
  | node :: _ => (node.compress root).toList.flatMap wordBytes
  | [] => []

end TaintRules.Blake3
