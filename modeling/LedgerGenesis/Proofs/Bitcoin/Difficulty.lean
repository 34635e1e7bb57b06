import LedgerGenesis.Bitcoin.Difficulty
import Mathlib.Data.Int.Bitwise
import Mathlib.Tactic.Ring

/-! # What a compact word stands for

A word without the sign bit stands for its mantissa times a power of 256, rounded down, and a word with it
for nothing. Normalized words, which have a bit in the top byte of the mantissa, stand for targets in
their own order. Nothing bounds the exponent, so a target may be wider than any hash.
-/
namespace LedgerGenesis.CompactTarget

variable {bits b c : Int}

/-- The mantissa times `256 ^ (exponent - 3)`, rounded down. A negative exponent may count as zero, since
either leaves nothing of a mantissa. -/
def target (bits : Int) : Nat := mantissa bits * 256 ^ (exponent bits).toNat / 256 ^ 3

theorem mantissa_lt (bits : Int) : mantissa bits < 0x800000 := by
  unfold mantissa
  omega

theorem isNegative_eq_testBit (bits : Int) : isNegative bits = bits.testBit 23 := by
  have hpow : 2 ^ 23 = 0x800000 := by decide
  unfold isNegative
  cases bits with
  | ofNat n =>
    rw [Int.testBit, Nat.testBit_eq_decide_div_mod_eq, hpow, Bool.eq_iff_iff, beq_iff_eq,
      decide_eq_true_iff, Int.ofNat_eq_natCast]
    omega
  | negSucc n =>
    rw [Int.testBit, Nat.testBit_eq_decide_div_mod_eq, hpow, Bool.eq_iff_iff, beq_iff_eq,
      Bool.not_eq_true', decide_eq_false_iff_not]
    omega

theorem mantissa_natCast (n : Nat) : mantissa n = n % 2 ^ 23 := by
  unfold mantissa
  omega

theorem toNat_exponent_natCast (n : Nat) : (exponent n).toNat = n / 2 ^ 24 := by
  unfold exponent
  omega

theorem target_natCast (n : Nat) : target n = n % 2 ^ 23 * 256 ^ (n / 2 ^ 24) / 256 ^ 3 := by
  rw [target, mantissa_natCast, toNat_exponent_natCast]

/-! ## Expansion -/

theorem target_of_exponent_nonpos (h : exponent bits ≤ 0) : target bits = 0 := by
  have hm := mantissa_lt bits
  unfold target
  rw [Int.toNat_of_nonpos h]
  exact Nat.div_eq_of_lt (by omega)

theorem target_of_exponent_le (h : exponent bits ≤ 3) :
    target bits = mantissa bits / 256 ^ (3 - exponent bits).toNat := by
  rcases le_or_gt (exponent bits) 0 with hnone | hpos
  · have hm := mantissa_lt bits
    have hpow : 256 ^ 3 ≤ 256 ^ (3 - exponent bits).toNat :=
      Nat.pow_le_pow_right (by decide) (by omega)
    rw [target_of_exponent_nonpos hnone, Nat.div_eq_of_lt (by omega)]
  · have hsum : 3 = (3 - exponent bits).toNat + (exponent bits).toNat := by omega
    have hpow : 256 ^ 3 = 256 ^ (3 - exponent bits).toNat * 256 ^ (exponent bits).toNat := by
      rw [← Nat.pow_add, ← hsum]
    rw [target, hpow, Nat.mul_div_mul_right _ _ (Nat.pow_pos (by decide))]

/-- From exponent 3 on nothing is rounded away. -/
theorem target_mul_of_le_exponent (h : 3 ≤ exponent bits) :
    target bits * 256 ^ 3 = mantissa bits * 256 ^ (exponent bits).toNat := by
  have hdvd : 256 ^ 3 ∣ 256 ^ (exponent bits).toNat := Nat.pow_dvd_pow 256 (by omega)
  exact Nat.div_mul_cancel (Dvd.dvd.mul_left hdvd _)

theorem target_of_le_exponent (h : 3 ≤ exponent bits) :
    target bits = mantissa bits * 256 ^ (exponent bits - 3).toNat := by
  have hsum : (exponent bits).toNat = (exponent bits - 3).toNat + 3 := by omega
  unfold target
  rw [hsum, Nat.pow_add, ← Nat.mul_assoc, Nat.mul_div_cancel _ (by decide)]

theorem expand_of_negative (h : bits.testBit 23 = true) : expand bits = .error (.negativeTarget bits) := by
  unfold expand
  rw [isNegative_eq_testBit, if_pos h]

theorem expand_of_unsigned (h : bits.testBit 23 = false) : expand bits = .ok (target bits) := by
  have hsign : ¬ bits.testBit 23 = true := by
    rw [h]
    decide
  have hbyte : ∀ k, 2 ^ (8 * k) = 256 ^ k := fun k => Nat.pow_mul 2 8 k
  unfold expand
  rw [isNegative_eq_testBit, if_neg hsign]
  split
  next he => rw [Nat.shiftRight_eq_div_pow, hbyte, target_of_exponent_le he]
  next he => rw [Nat.shiftLeft_eq, hbyte, target_of_le_exponent (by omega)]

theorem expand_eq_ok_iff {t : Nat} : expand bits = .ok t ↔ bits.testBit 23 = false ∧ target bits = t := by
  cases h : bits.testBit 23 with
  | true => simp [expand_of_negative h]
  | false => simp [expand_of_unsigned h]

theorem expand_eq_error_iff {e : GenesisError} :
    expand bits = .error e ↔ bits.testBit 23 = true ∧ .negativeTarget bits = e := by
  cases h : bits.testBit 23 with
  | true => simp [expand_of_negative h]
  | false => simp [expand_of_unsigned h]

/-! ## Order -/

/-- The top byte of the mantissa is in use, and the sign bit, which is beside it, is not. -/
structure Normalized (bits : Int) : Prop where
  unsigned : bits.testBit 23 = false
  le_mantissa : 0x8000 ≤ mantissa bits

/-- A word without the sign bit is its exponent above its mantissa. -/
theorem eq_of_unsigned (h : bits.testBit 23 = false) : bits = exponent bits * 0x1000000 + mantissa bits := by
  rw [← isNegative_eq_testBit, isNegative, beq_eq_false_iff_ne] at h
  unfold exponent mantissa
  omega

theorem exponent_mono (h : b ≤ c) : exponent b ≤ exponent c := Int.ediv_le_ediv (by decide) h

theorem mantissa_lt_mantissa (hb : b.testBit 23 = false) (hc : c.testBit 23 = false) (h : b < c)
    (he : exponent b = exponent c) : mantissa b < mantissa c := by
  have hb := eq_of_unsigned hb
  have hc := eq_of_unsigned hc
  omega

/-- Before rounding the order is strict: one step of the exponent outweighs any two mantissas, as a
normalized one is at least the 256th part of any other. -/
theorem scaled_lt_scaled (hb : Normalized b) (hc : Normalized c) (h : b < c) (hpos : 0 ≤ exponent b) :
    mantissa b * 256 ^ (exponent b).toNat < mantissa c * 256 ^ (exponent c).toNat := by
  rcases (exponent_mono h.le).eq_or_lt with he | he
  · have hm := mantissa_lt_mantissa hb.unsigned hc.unsigned h he
    rw [he]
    exact Nat.mul_lt_mul_of_pos_right hm (Nat.pow_pos (by decide))
  · have hstep : (exponent b).toNat + 1 ≤ (exponent c).toNat := by omega
    calc mantissa b * 256 ^ (exponent b).toNat
        < 0x800000 * 256 ^ (exponent b).toNat :=
          Nat.mul_lt_mul_of_pos_right (mantissa_lt b) (Nat.pow_pos (by decide))
      _ = 0x8000 * 256 ^ ((exponent b).toNat + 1) := by ring
      _ ≤ mantissa c * 256 ^ (exponent c).toNat :=
          Nat.mul_le_mul hc.le_mantissa (Nat.pow_le_pow_right (by decide) hstep)

theorem target_mono (hb : Normalized b) (hc : Normalized c) (h : b ≤ c) : target b ≤ target c := by
  rcases h.eq_or_lt with rfl | hlt
  · exact le_rfl
  · rcases le_or_gt (exponent b) 0 with hnone | hpos
    · rw [target_of_exponent_nonpos hnone]
      exact Nat.zero_le _
    · exact Nat.div_le_div_right (scaled_lt_scaled hb hc hlt hpos.le).le

theorem target_strictMono (hb : Normalized b) (hc : Normalized c) (h : b < c) (hexact : 3 ≤ exponent b) :
    target b < target c := by
  have hscaled := scaled_lt_scaled hb hc h (by omega)
  rw [← target_mul_of_le_exponent hexact,
    ← target_mul_of_le_exponent (hexact.trans (exponent_mono h.le))] at hscaled
  exact Nat.lt_of_mul_lt_mul_right hscaled

/-- Where nothing is rounded away, comparing targets is comparing words. -/
theorem target_lt_target_iff (hb : Normalized b) (hc : Normalized c) (hexact : 3 ≤ exponent b) :
    target b < target c ↔ b < c := by
  constructor
  · intro h
    by_contra hle
    exact absurd h (not_lt.mpr (target_mono hc hb (not_lt.mp hle)))
  · intro h
    exact target_strictMono hb hc h hexact

/-- The order of words is not that of targets where the mantissa begins with an empty byte. -/
example : (0x03123456 : Int) < 0x04000001 ∧ target 0x04000001 < target 0x03123456 := by decide

/-! ## Width -/

/-- A target fits in 256 bits when the mantissa ends before byte 35, moved up by the exponent. -/
theorem target_lt_iff (bits : Int) :
    target bits < 2 ^ 256 ↔ mantissa bits < 256 ^ (35 - (exponent bits).toNat) := by
  have hwidth : 2 ^ 256 * 256 ^ 3 = 256 ^ 35 := by decide
  unfold target
  rw [Nat.div_lt_iff_lt_mul (by decide), hwidth]
  rcases Nat.le_total (exponent bits).toNat 35 with hle | hge
  · have hpow : 256 ^ 35 = 256 ^ (35 - (exponent bits).toNat) * 256 ^ (exponent bits).toNat := by
      rw [← Nat.pow_add, Nat.sub_add_cancel hle]
    rw [hpow, Nat.mul_lt_mul_right (Nat.pow_pos (by decide))]
  · have hpow : 256 ^ 35 ≤ 256 ^ (exponent bits).toNat := Nat.pow_le_pow_right (by decide) hge
    rw [Nat.sub_eq_zero_of_le hge, Nat.pow_zero, Nat.lt_one_iff]
    constructor
    · intro h
      by_contra hm
      exact absurd h (not_lt.mpr (hpow.trans (Nat.le_mul_of_pos_left _ (Nat.pos_of_ne_zero hm))))
    · intro hm
      rw [hm, Nat.zero_mul]
      exact Nat.pow_pos (by decide)

/-- Targets are either small or multiples of 256, so none is the last number of 256 bits. -/
theorem target_succ_ne (bits : Int) : target bits + 1 ≠ 2 ^ 256 := by
  rcases le_or_gt (exponent bits) 3 with hle | hgt
  · have hm := mantissa_lt bits
    have hdiv := Nat.div_le_self (mantissa bits) (256 ^ (3 - exponent bits).toNat)
    rw [target_of_exponent_le hle]
    omega
  · have hsum : (exponent bits - 3).toNat = (exponent bits - 4).toNat + 1 := by omega
    rw [target_of_le_exponent hgt.le, hsum, Nat.pow_succ, ← Nat.mul_assoc]
    omega

end LedgerGenesis.CompactTarget
