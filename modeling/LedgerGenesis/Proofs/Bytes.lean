import LedgerGenesis.Bytes.Basic
import Mathlib.Algebra.Ring.Nat

/-! # Words in bytes

A word of `k` bytes is read back from its bytes.
-/
namespace LedgerGenesis.Bytes

theorem ofLittleEndian_littleEndian (k n : Nat) :
    ofLittleEndian (littleEndian k n) = n % 256 ^ k := by
  induction k generalizing n with
  | zero => simp [littleEndian, ofLittleEndian, Nat.mod_one]
  | succ k ih =>
    have hb : n.toUInt8.toNat = n % 256 := rfl
    rw [littleEndian, ofLittleEndian, ih, hb, Nat.pow_succ, Nat.mul_comm (256 ^ k), Nat.mod_mul]

theorem ofLittleEndian_lt (bs : Bytes) : ofLittleEndian bs < 256 ^ bs.length := by
  induction bs with
  | nil => decide
  | cons b bs ih =>
    have hb := b.toNat_lt
    rw [ofLittleEndian, List.length_cons, Nat.pow_succ]
    omega

/-- The bound is the best one. -/
theorem ofLittleEndian_replicate_succ (k : Nat) :
    ofLittleEndian (List.replicate k 255) + 1 = 256 ^ k := by
  induction k with
  | zero => rfl
  | succ k ih =>
    have hb : UInt8.toNat 255 = 255 := rfl
    rw [List.replicate_succ, ofLittleEndian, hb, Nat.pow_succ, ← ih]
    omega

theorem ofBigEndian_bigEndian {k n : Nat} (h : n < 256 ^ k) : ofBigEndian (bigEndian k n) = n := by
  rw [ofBigEndian, bigEndian, List.reverse_reverse, ofLittleEndian_littleEndian, Nat.mod_eq_of_lt h]

@[simp] theorem length_bigEndian (k n : Nat) : (bigEndian k n).length = k := by
  rw [bigEndian, List.length_reverse, length_littleEndian]

end LedgerGenesis.Bytes
