import LedgerGenesis.Hash.Sha2

/-! # Keyed BLAKE2b with a 32-byte digest

A key fills a first block of its own. Keys are at most `maxKeyLength` bytes long.
-/
namespace LedgerGenesis.Blake2b

def maxKeyLength : Nat := 64

def blockSize : Nat := 128

def initial : Vector UInt64 8 :=
  Vector.ofFn fun i => (sha512Initial.getD i.val 0).toNat.toUInt64

/-- The order in which each round takes the words of a block. -/
def schedules : List (Vector (Fin 16) 16) :=
  [#v[0, 1, 2, 3, 4, 5, 6, 7, 8, 9, 10, 11, 12, 13, 14, 15],
   #v[14, 10, 4, 8, 9, 15, 13, 6, 1, 12, 0, 2, 11, 7, 5, 3],
   #v[11, 8, 12, 0, 5, 2, 15, 13, 10, 14, 3, 6, 7, 1, 9, 4],
   #v[7, 9, 3, 1, 13, 12, 11, 14, 2, 6, 5, 10, 4, 0, 15, 8],
   #v[9, 0, 5, 7, 2, 4, 10, 15, 14, 1, 11, 12, 6, 8, 3, 13],
   #v[2, 12, 6, 10, 0, 11, 8, 3, 4, 13, 7, 5, 15, 14, 1, 9],
   #v[12, 5, 1, 15, 14, 13, 4, 10, 0, 7, 6, 3, 9, 2, 8, 11],
   #v[13, 11, 7, 14, 12, 1, 3, 9, 5, 0, 15, 4, 8, 6, 2, 10],
   #v[6, 15, 14, 9, 11, 3, 0, 8, 12, 2, 13, 7, 1, 4, 10, 5],
   #v[10, 2, 8, 4, 7, 6, 1, 5, 15, 11, 9, 14, 3, 12, 13, 0],
   #v[0, 1, 2, 3, 4, 5, 6, 7, 8, 9, 10, 11, 12, 13, 14, 15],
   #v[14, 10, 4, 8, 9, 15, 13, 6, 1, 12, 0, 2, 11, 7, 5, 3]]

/-- The positions mixed together in a round: the four columns, then the four diagonals. -/
def quarters : List (Fin 16 × Fin 16 × Fin 16 × Fin 16 × Fin 16 × Fin 16) :=
  [(0, 4, 8, 12, 0, 1), (1, 5, 9, 13, 2, 3), (2, 6, 10, 14, 4, 5), (3, 7, 11, 15, 6, 7),
   (0, 5, 10, 15, 8, 9), (1, 6, 11, 12, 10, 11), (2, 7, 8, 13, 12, 13), (3, 4, 9, 14, 14, 15)]

def rotateRight (x n : UInt64) : UInt64 := (x >>> n) ||| (x <<< (64 - n))

def mix (v : Vector UInt64 16) (a b c d : Fin 16) (x y : UInt64) : Vector UInt64 16 :=
  let a1 := v[a] + v[b] + x
  let d1 := rotateRight (v[d] ^^^ a1) 32
  let c1 := v[c] + d1
  let b1 := rotateRight (v[b] ^^^ c1) 24
  let a2 := a1 + b1 + y
  let d2 := rotateRight (d1 ^^^ a2) 16
  let c2 := c1 + d2
  let b2 := rotateRight (b1 ^^^ c2) 63
  (((v.set a a2).set b b2).set c c2).set d d2

def round (block : Vector UInt64 16) (v : Vector UInt64 16) (order : Vector (Fin 16) 16) :
    Vector UInt64 16 :=
  quarters.foldl (fun v (a, b, c, d, x, y) => mix v a b c d block[order[x]] block[order[y]]) v

/-- Folds a block into the state, `count` bytes having been read with it. -/
def compress (h : Vector UInt64 8) (bytes : Bytes) (count : Nat) (last : Bool) : Vector UInt64 8 :=
  let words := ((Bytes.blocks 8 bytes).map fun bs => (Bytes.ofLittleEndian bs).toUInt64).toArray
  let block : Vector UInt64 16 := Vector.ofFn fun i => words.getD i.val 0
  let v : Vector UInt64 16 := h ++ initial
  let v := v.set 12 (v[12] ^^^ count.toUInt64)
  let v := if last then v.set 14 (~~~v[14]) else v
  let v := schedules.foldl (round block) v
  Vector.ofFn fun i => h[i] ^^^ v[i.val] ^^^ v[i.val + 8]

def fold (h : Vector UInt64 8) (count : Nat) : List Bytes → Vector UInt64 8
  | [] => h
  | [b] => compress h b (count + b.length) true
  | b :: c :: bs => fold (compress h b (count + b.length) false) (count + b.length) (c :: bs)

/-- The blocks of a message under a key; there is always at least one. -/
def inputBlocks (key message : Bytes) : List Bytes :=
  let keyBlock := if key.isEmpty then [] else key ++ List.replicate (blockSize - key.length) 0
  match Bytes.blocks blockSize (keyBlock ++ message) with
  | [] => [[]]
  | bs => bs

end LedgerGenesis.Blake2b

namespace LedgerGenesis

/-- The 32-byte BLAKE2b digest of a message under a key of at most `Blake2b.maxKeyLength` bytes. -/
def blake2b256 (key message : Bytes) : Bytes :=
  let parameters := (0x01010020 : UInt64) ^^^ (key.length.toUInt64 <<< 8)
  let start := Blake2b.initial.set 0 (Blake2b.initial[0] ^^^ parameters)
  let h := Blake2b.fold start 0 (Blake2b.inputBlocks key message)
  [h[0], h[1], h[2], h[3]].flatMap fun x => Bytes.littleEndian 8 x.toNat

end LedgerGenesis
