/-!
# BLAKE3

The unkeyed hash of a byte string, 32 bytes long. The input is cut into chunks of 1024 bytes and a
chunk into blocks of 64; chunks are the leaves of a binary tree whose left subtrees are full, and
the node at the root is compressed once more with the root flag.
-/
namespace CodeAudit.Blake3

/-- Eight words: what a compression passes on. -/
abbrev Chaining := Vector UInt32 8

/-- Sixteen words: a message block, or the state of a compression. -/
abbrev Block := Vector UInt32 16

/-- The words a hash starts from. -/
def initial : Chaining :=
  #v[0x6A09E667, 0xBB67AE85, 0x3C6EF372, 0xA54FF53A, 0x510E527F, 0x9B05688C, 0x1F83D9AB, 0x5BE0CD19]

/-- The order in which a round reads the words of the round before. -/
def permute (m : Block) : Block :=
  #v[m[2], m[6], m[3], m[10], m[7], m[0], m[4], m[13],
     m[1], m[11], m[12], m[5], m[9], m[14], m[15], m[8]]

/-- Marks the first block of a chunk. -/
def chunkStart : UInt32 := 1
/-- Marks the last block of a chunk. -/
def chunkEnd : UInt32 := 2
/-- Marks a node with two subtrees. -/
def parentNode : UInt32 := 4
/-- Marks the node at the root. -/
def rootNode : UInt32 := 8

/-- Turns a word to the right by fewer than 32 bits. -/
def rotateRight (x n : UInt32) : UInt32 :=
  (x >>> n) ||| (x <<< (32 - n))

/-- Mixes two message words into four words of the state. -/
def mix (v : Block) (a b c d : Fin 16) (x y : UInt32) : Block :=
  let va := v[a] + v[b] + x
  let vd := rotateRight (v[d] ^^^ va) 16
  let vc := v[c] + vd
  let vb := rotateRight (v[b] ^^^ vc) 12
  let va := va + vb + y
  let vd := rotateRight (vd ^^^ va) 8
  let vc := vc + vd
  let vb := rotateRight (vb ^^^ vc) 7
  (((v.set a va).set b vb).set c vc).set d vd

/-- One round: the four columns, then the four diagonals. -/
def round (v m : Block) : Block :=
  let v := mix v 0 4 8 12 m[0] m[1]
  let v := mix v 1 5 9 13 m[2] m[3]
  let v := mix v 2 6 10 14 m[4] m[5]
  let v := mix v 3 7 11 15 m[6] m[7]
  let v := mix v 0 5 10 15 m[8] m[9]
  let v := mix v 1 6 11 12 m[10] m[11]
  let v := mix v 2 7 8 13 m[12] m[13]
  mix v 3 4 9 14 m[14] m[15]

/-- The given number of rounds, each with the words of the one before permuted. -/
def rounds : Nat → Block → Block → Block
  | 0, v, _ => v
  | n + 1, v, m => rounds n (round v m) (permute m)

/-- A compression that is still to be made: all of its inputs but the root flag. -/
structure Node where
  chaining : Chaining
  block : Block
  counter : UInt64
  size : UInt32
  flags : UInt32

/-- The chaining words of a node after its seven rounds. -/
def Node.compress (n : Node) (extra : UInt32) : Chaining :=
  let h := n.chaining
  let v : Block :=
    #v[h[0], h[1], h[2], h[3], h[4], h[5], h[6], h[7],
       initial[0], initial[1], initial[2], initial[3],
       n.counter.toUInt32, (n.counter >>> 32).toUInt32, n.size, n.flags ||| extra]
  let v := rounds 7 v n.block
  #v[v[0] ^^^ v[8], v[1] ^^^ v[9], v[2] ^^^ v[10], v[3] ^^^ v[11],
     v[4] ^^^ v[12], v[5] ^^^ v[13], v[6] ^^^ v[14], v[7] ^^^ v[15]]

/-- The words of a block, low byte first, with zeros after the last byte. -/
def Block.ofBytes (bytes : List UInt8) : Block :=
  let byteAt (i : Nat) : UInt32 := ((bytes.drop i).headD 0).toUInt32
  Vector.ofFn fun i =>
    byteAt (4 * i) ||| (byteAt (4 * i + 1) <<< 8) ||| (byteAt (4 * i + 2) <<< 16) ||| (byteAt (4 * i + 3) <<< 24)

/-- The last compression of a chunk of at most 1024 bytes, its number given. -/
def chunk (counter : UInt64) (chaining : Chaining) (flags : UInt32) (bytes : List UInt8) : Node :=
  let node : Node :=
    ⟨chaining, Block.ofBytes (bytes.take 64), counter, (bytes.take 64).length.toUInt32, flags⟩
  if bytes.length ≤ 64 then { node with flags := flags ||| chunkEnd }
  else chunk counter (node.compress 0) 0 (bytes.drop 64)
termination_by bytes.length

/-- The node above two subtrees. -/
def join (left right : Chaining) : Node :=
  ⟨initial, left ++ right, 0, 64, parentNode⟩

/-- The largest power of two that is at least one and less than `n`, for `n` above one. -/
def leftChunks (n : Nat) : Nat :=
  Nat.pow 2 (n - 1).log2

/-- The node at the top of the tree over the bytes, whose first chunk has the given number. -/
def tree (counter : Nat) (bytes : List UInt8) : Node :=
  if h : bytes.length ≤ 1024 then chunk counter.toUInt64 initial chunkStart bytes
  else
    let chunks := (bytes.length + 1023) / 1024
    let left := leftChunks chunks
    join ((tree counter (bytes.take (1024 * left))).compress 0)
      ((tree (counter + left) (bytes.drop (1024 * left))).compress 0)
termination_by bytes.length
decreasing_by
  · have : Nat.pow 2 ((bytes.length + 1023) / 1024 - 1).log2 ≤ (bytes.length + 1023) / 1024 - 1 :=
      Nat.log2_self_le (by omega)
    simp only [List.length_take, leftChunks]
    omega
  · have : 0 < Nat.pow 2 ((bytes.length + 1023) / 1024 - 1).log2 := Nat.two_pow_pos _
    simp only [List.length_drop, leftChunks]
    omega

/-- The four bytes of a word, low byte first. -/
def wordBytes (w : UInt32) : List UInt8 :=
  [w.toUInt8, (w >>> 8).toUInt8, (w >>> 16).toUInt8, (w >>> 24).toUInt8]

/-- The hash of a byte string. -/
def hash (bytes : List UInt8) : List UInt8 :=
  ((tree 0 bytes).compress rootNode).toList.flatMap wordBytes

/-- Two lower-case hexadecimal digits for each byte. -/
def hexDigits (bytes : List UInt8) : List Char :=
  bytes.flatMap fun b => [(b.toNat / 16).digitChar, (b.toNat % 16).digitChar]

/-- The hash of a text's bytes in hexadecimal digits. -/
def hashText (text : List Char) : String :=
  String.ofList (hexDigits (hash (String.ofList text).toUTF8.toList))

end CodeAudit.Blake3
