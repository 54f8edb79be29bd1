/-
  LinkedData.Blake3 — the BLAKE3 hash function, for 32 bytes of output.

  Content is cut into chunks of 1024 bytes and these into blocks of 64. A chunk chains its
  blocks; chunks are the leaves of a binary tree whose left halves are full. A node is what
  its last compression is to be run on, so that the root can be told apart (`root`) from a
  node that only passes its chaining value up (`chain`).
-/

import LinkedData.Hex

namespace LinkedData.Blake3

abbrev Words (n : Nat) := Vector UInt32 n

def start : Words 8 :=
  #v[0x6A09E667, 0xBB67AE85, 0x3C6EF372, 0xA54FF53A, 0x510E527F, 0x9B05688C, 0x1F83D9AB, 0x5BE0CD19]

def chunkStart : UInt32 := 1
def chunkEnd : UInt32 := 2
def parentFlag : UInt32 := 4
def rootFlag : UInt32 := 8

/-! ## Compression -/

def rotate (x : UInt32) (k : UInt32) : UInt32 := (x >>> k) ||| (x <<< (32 - k))

/-- Mix two message words into four words of the state. -/
def mix (v : Words 16) (a b c d : Fin 16) (x y : UInt32) : Words 16 :=
  let va := v[a] + v[b] + x
  let vd := rotate (v[d] ^^^ va) 16
  let vc := v[c] + vd
  let vb := rotate (v[b] ^^^ vc) 12
  let va := va + vb + y
  let vd := rotate (vd ^^^ va) 8
  let vc := vc + vd
  let vb := rotate (vb ^^^ vc) 7
  (((v.set a va).set b vb).set c vc).set d vd

/-- Columns, then diagonals. -/
def round (v m : Words 16) : Words 16 :=
  let v := mix v 0 4 8 12 m[0] m[1]
  let v := mix v 1 5 9 13 m[2] m[3]
  let v := mix v 2 6 10 14 m[4] m[5]
  let v := mix v 3 7 11 15 m[6] m[7]
  let v := mix v 0 5 10 15 m[8] m[9]
  let v := mix v 1 6 11 12 m[10] m[11]
  let v := mix v 2 7 8 13 m[12] m[13]
  mix v 3 4 9 14 m[14] m[15]

def permute (m : Words 16) : Words 16 :=
  #v[m[2], m[6], m[3], m[10], m[7], m[0], m[4], m[13], m[1], m[11], m[12], m[5], m[9], m[14], m[15], m[8]]

def rounds : Nat → Words 16 → Words 16 → Words 16
  | 0, v, _ => v
  | k + 1, v, m => rounds k (round v m) (permute m)

structure Node where
  chaining : Words 8
  block : Words 16
  counter : UInt64
  length : UInt32
  flags : UInt32

/-- The first eight words of a node's compression. -/
def Node.compress (n : Node) (flags : UInt32) : Words 8 :=
  let h := n.chaining
  let v := rounds 7
    #v[h[0], h[1], h[2], h[3], h[4], h[5], h[6], h[7], start[0], start[1], start[2], start[3],
       n.counter.toUInt32, (n.counter >>> 32).toUInt32, n.length, n.flags ||| flags] n.block
  #v[v[0] ^^^ v[8], v[1] ^^^ v[9], v[2] ^^^ v[10], v[3] ^^^ v[11],
     v[4] ^^^ v[12], v[5] ^^^ v[13], v[6] ^^^ v[14], v[7] ^^^ v[15]]

def Node.chain (n : Node) : Words 8 := n.compress 0

def littleEndian (w : UInt32) : Bytes := [w.toUInt8, (w >>> 8).toUInt8, (w >>> 16).toUInt8, (w >>> 24).toUInt8]

def Node.root (n : Node) : Bytes := (n.compress rootFlag).toList.flatMap littleEndian

/-! ## Chunks -/

/-- A word of four bytes, the least first; missing bytes are zero. -/
def word (bs : Bytes) : UInt32 :=
  bs.foldr (fun b w => (w <<< 8) ||| b.toUInt32) 0

def block (bs : Bytes) : Words 16 := Vector.ofFn fun i => word ((bs.drop (4 * i.val)).take 4)

/-- Pieces of `size` bytes, the last one shorter. -/
def pieces (size : Nat) (bs : Bytes) : List Bytes :=
  if _h : size = 0 ∨ (bs.drop size).isEmpty then [bs] else bs.take size :: pieces size (bs.drop size)
termination_by bs.length
decreasing_by
  simp only [List.isEmpty_iff, List.drop_eq_nil_iff, not_or, Nat.not_le] at _h
  rw [List.length_drop]
  omega

/-- The blocks of a chunk, each chained to those before it. -/
def chunkBlocks (counter : UInt64) : UInt32 → Words 8 → List Bytes → Node
  | flags, chaining, [] => ⟨chaining, block [], counter, 0, flags ||| chunkEnd⟩
  | flags, chaining, [bs] => ⟨chaining, block bs, counter, bs.length.toUInt32, flags ||| chunkEnd⟩
  | flags, chaining, bs :: rest =>
    chunkBlocks counter 0 (Node.chain ⟨chaining, block bs, counter, bs.length.toUInt32, flags⟩) rest

def chunk (counter : Nat) (bs : Bytes) : Node := chunkBlocks counter.toUInt64 chunkStart start (pieces 64 bs)

/-! ## The tree -/

def parent (left right : Node) : Node :=
  ⟨start, (left.chain ++ right.chain : Vector UInt32 (8 + 8)), 0, 64, parentFlag⟩

/-- The largest power of two below `n`, for `n` from 2 on. -/
def leftSize (n : Nat) : Nat := 1 <<< Nat.log2 (n - 1)

theorem leftSize_pos (n : Nat) : 0 < leftSize n := by
  rw [leftSize, Nat.one_shiftLeft]
  exact Nat.pow_pos (by decide)

theorem leftSize_lt {n : Nat} (h : 2 ≤ n) : leftSize n < n := by
  have := Nat.log2_self_le (n := n - 1) (by omega)
  rw [leftSize, Nat.one_shiftLeft]
  omega

/-- The tree over chunks, the first of which is number `counter`. -/
def tree (counter : Nat) (chunks : List Bytes) : Node :=
  if _h : 2 ≤ chunks.length then
    let k := leftSize chunks.length
    parent (tree counter (chunks.take k)) (tree (counter + k) (chunks.drop k))
  else chunk counter (chunks.headD [])
termination_by chunks.length
decreasing_by
  · have := leftSize_lt _h; simp only [List.length_take]; omega
  · have := leftSize_pos chunks.length; simp only [List.length_drop]; omega

def hash (bs : Bytes) : Bytes := (tree 0 (pieces 1024 bs)).root

/-- The hash as text. -/
def hexOf (bs : Bytes) : String := Hex.encode (hash bs)

theorem length_hash (bs : Bytes) : (hash bs).length = 32 := by
  have aux : ∀ ws : List UInt32, (ws.flatMap littleEndian).length = 4 * ws.length := by
    intro ws
    induction ws with
    | nil => rfl
    | cons w ws ih => simp only [List.flatMap_cons, List.length_append, ih, littleEndian, List.length_cons]; simp; omega
  simp [hash, Node.root, aux]

end LinkedData.Blake3
