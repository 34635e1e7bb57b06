import LedgerGenesis.Bytes.Basic

/-! # Keccak-256

The sponge over twenty-five lanes with the padding that starts with a single one bit. Lane `i` stands at
column `i % 5` and row `i / 5`; each layer of a round is a function of the lane's position.
-/
namespace LedgerGenesis.Keccak

abbrev State := Vector UInt64 25

def lane (s : State) (x y : Nat) : UInt64 := s[x % 5 + 5 * (y % 5)]

def rotations : Vector UInt64 25 :=
  #v[0, 1, 62, 28, 27, 36, 44, 6, 55, 20, 3, 10, 43,
    25, 39, 41, 45, 15, 21, 8, 18, 2, 61, 56, 14]

def roundConstants : List UInt64 :=
  [0x0000000000000001, 0x0000000000008082, 0x800000000000808a, 0x8000000080008000,
   0x000000000000808b, 0x0000000080000001, 0x8000000080008081, 0x8000000000008009,
   0x000000000000008a, 0x0000000000000088, 0x0000000080008009, 0x000000008000000a,
   0x000000008000808b, 0x800000000000008b, 0x8000000000008089, 0x8000000000008003,
   0x8000000000008002, 0x8000000000000080, 0x000000000000800a, 0x800000008000000a,
   0x8000000080008081, 0x8000000000008080, 0x0000000080000001, 0x8000000080008008]

def rotateLeft (x n : UInt64) : UInt64 :=
  if n == 0 then x else (x <<< n) ||| (x >>> (64 - n))

def theta (s : State) : State :=
  let column : Vector UInt64 5 := Vector.ofFn fun x =>
    lane s x 0 ^^^ lane s x 1 ^^^ lane s x 2 ^^^ lane s x 3 ^^^ lane s x 4
  Vector.ofFn fun i => s[i] ^^^ column[(i.val + 4) % 5] ^^^ rotateLeft column[(i.val + 1) % 5] 1

/-- Rotates each lane and moves it to its place: the lane at column `x` of the new row `y` comes from
column `x + 3 y` and row `x`. -/
def rhoPi (s : State) : State :=
  Vector.ofFn fun i =>
    let x := i.val % 5
    let y := i.val / 5
    rotateLeft (lane s (x + 3 * y) x) (lane rotations (x + 3 * y) x)

def chi (s : State) : State :=
  Vector.ofFn fun i =>
    let x := i.val % 5
    let y := i.val / 5
    s[i] ^^^ (~~~lane s (x + 1) y &&& lane s (x + 2) y)

def iota (k : UInt64) (s : State) : State := s.set 0 (s[0] ^^^ k)

def permute (s : State) : State :=
  roundConstants.foldl (fun s k => iota k (chi (rhoPi (theta s)))) s

/-- Bytes absorbed at a time. -/
def rate : Nat := 136

def absorb (s : State) (block : Bytes) : State :=
  let words : Array UInt64 :=
    ((Bytes.blocks 8 block).map fun bs => (Bytes.ofLittleEndian bs).toUInt64).toArray
  permute (Vector.ofFn fun i => s[i] ^^^ words.getD i.val 0)

/-- A one bit after the message and a one bit at the end of the last block. -/
def pad (m : Bytes) : Bytes :=
  let free := rate - m.length % rate
  m ++ if free = 1 then [0x81] else 0x01 :: List.replicate (free - 2) 0 ++ [0x80]

end LedgerGenesis.Keccak

namespace LedgerGenesis

def keccak256 (m : Bytes) : Bytes :=
  let s := (Bytes.blocks Keccak.rate (Keccak.pad m)).foldl Keccak.absorb (Vector.replicate 25 0)
  [s[0], s[1], s[2], s[3]].flatMap fun x => Bytes.littleEndian 8 x.toNat

end LedgerGenesis
