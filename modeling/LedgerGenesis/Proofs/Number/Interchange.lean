import LedgerGenesis.Number.Binary64
import Mathlib.Algebra.Ring.Nat

/-! # The interchange form of a double

A canonical double is read back from its sixty-four bits.
-/
namespace LedgerGenesis

namespace Binary64

/-- The significand has at most fifty-three bits, and fewer only under the least exponent. -/
def IsCanonical : Binary64 → Prop
  | finite _ m e => m < 2 * hiddenBit ∧ (m < hiddenBit → e = leastExponent) ∧
      leastExponent ≤ e ∧ e ≤ greatestExponent
  | _ => True

def ofBits (n : Nat) : Binary64 :=
  if n / hiddenBit % 2048 = 2047 then
    if n % hiddenBit = 0 then infinite (signBit ≤ n) else nan
  else if n / hiddenBit % 2048 = 0 then finite (signBit ≤ n) (n % hiddenBit) leastExponent
  else finite (signBit ≤ n) (n % hiddenBit + hiddenBit) ((n / hiddenBit % 2048 : Nat) - 1075)

/-- Sign, exponent and significand are found in a word by their places. -/
theorem places {b : Bool} {k l n : Nat} (hk : k < 2048) (hl : l < hiddenBit)
    (hn : n = b.toNat * signBit + k * hiddenBit + l) :
    n / hiddenBit % 2048 = k ∧ n % hiddenBit = l ∧ decide (signBit ≤ n) = b := by
  simp only [hiddenBit, signBit] at *
  cases b
  · simp only [Bool.toNat_false] at hn
    exact ⟨by omega, by omega, decide_eq_false (by omega)⟩
  · simp only [Bool.toNat_true] at hn
    exact ⟨by omega, by omega, decide_eq_true (by omega)⟩

theorem toBits_finite_cases {b : Bool} {m : Nat} {e : Int} (h : (finite b m e).IsCanonical) :
    (m < hiddenBit ∧ e = leastExponent ∧
      (finite b m e).toBits = b.toNat * signBit + 0 * hiddenBit + m) ∨
    ∃ k l : Nat, 0 < k ∧ k < 2047 ∧ e = (k : Int) - 1075 ∧ l < hiddenBit ∧ m = l + hiddenBit ∧
      (finite b m e).toBits = b.toNat * signBit + k * hiddenBit + l := by
  obtain ⟨hm, hleast, hl, hg⟩ := h
  simp only [leastExponent, greatestExponent] at hleast hl hg
  by_cases hsmall : m < hiddenBit
  · refine Or.inl ⟨hsmall, hleast hsmall, ?_⟩
    simp only [toBits, if_pos hsmall, Nat.mod_eq_of_lt hsmall]
  · refine Or.inr ⟨(e + 1075).toNat, m - hiddenBit, by omega, by omega, by omega, by omega, by omega, ?_⟩
    have hmod : m % hiddenBit = m - hiddenBit := by
      rw [Nat.mod_eq_sub_mod (by omega), Nat.mod_eq_of_lt (by omega)]
    simp only [toBits, if_neg hsmall, hmod]

theorem ofBits_toBits {x : Binary64} (hx : x.IsCanonical) : ofBits x.toBits = x := by
  cases x with
  | nan => rfl
  | infinite b => cases b <;> rfl
  | finite b m e =>
    obtain ⟨hm, rfl, hbits⟩ | ⟨k, l, hpos, hk, rfl, hl, rfl, hbits⟩ := toBits_finite_cases hx
    · obtain ⟨hexp, hlow, hsign⟩ := places (by omega) hm hbits
      simp [ofBits, hexp, hlow, hsign]
    · obtain ⟨hexp, hlow, hsign⟩ := places (by omega) hl hbits
      have h0 : k ≠ 0 := by omega
      have h1 : k ≠ 2047 := by omega
      simp [ofBits, hexp, hlow, hsign, h0, h1]

theorem toBits_lt {x : Binary64} (hx : x.IsCanonical) : x.toBits < 256 ^ 8 := by
  cases x with
  | nan => decide
  | infinite b => cases b <;> decide
  | finite b m e =>
    have hb : b.toNat ≤ 1 := Bool.toNat_le b
    obtain ⟨hm, -, hbits⟩ | ⟨k, l, -, hk, -, hl, -, hbits⟩ := toBits_finite_cases hx
    all_goals
      rw [hbits]
      simp only [hiddenBit, signBit] at *
      omega

theorem toBits_injective {x y : Binary64} (hx : x.IsCanonical) (hy : y.IsCanonical)
    (h : x.toBits = y.toBits) : x = y := by
  rw [← ofBits_toBits hx, h, ofBits_toBits hy]

end Binary64

end LedgerGenesis
