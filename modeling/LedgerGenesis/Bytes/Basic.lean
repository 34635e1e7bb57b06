/-! # Byte strings and the words written in them -/
namespace LedgerGenesis

abbrev Bytes := List UInt8

namespace Bytes

/-- The low `k` bytes of a number, least significant first. -/
def littleEndian : Nat → Nat → Bytes
  | 0, _ => []
  | k + 1, n => n.toUInt8 :: littleEndian k (n / 256)

/-- The low `k` bytes of a number, most significant first. -/
def bigEndian (k n : Nat) : Bytes := (littleEndian k n).reverse

def ofLittleEndian : Bytes → Nat
  | [] => 0
  | b :: bs => b.toNat + 256 * ofLittleEndian bs

def ofBigEndian (bs : Bytes) : Nat := ofLittleEndian bs.reverse

@[simp] theorem length_littleEndian (k n : Nat) : (littleEndian k n).length = k := by
  induction k generalizing n with
  | zero => rfl
  | succ k ih => simp [littleEndian, ih]

/-- The bytes in consecutive blocks of `size`, the last one as short as it comes. -/
def blocks (size : Nat) (bs : Bytes) : List Bytes := go (bs.length + 1) bs
where
  go : Nat → Bytes → List Bytes
    | 0, _ => []
    | _, [] => []
    | fuel + 1, b :: bs => (b :: bs).take size :: go fuel ((b :: bs).drop size)

end Bytes

end LedgerGenesis
