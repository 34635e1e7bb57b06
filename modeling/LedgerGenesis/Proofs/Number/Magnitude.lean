import LedgerGenesis.Number.Binary64
import LedgerGenesis.Proofs.Json.Showable
import Mathlib.Data.List.Induction

/-! # How large the numbers of texts are

A numeral that is read has no more digits than one that is written. A double is rounded in units in which it
has at most fifty-three bits, so that its integer part is far below the first integer without a numeral.
-/
namespace LedgerGenesis

namespace Numeral

variable {t : Text} {ds : List Nat}

theorem lt_ten_of_digit? {p : CodePoint} {d : Nat} (h : p.digit? = some d) : d < 10 := by
  obtain ⟨low, hlow, rfl⟩ := Option.map_eq_some_iff.mp h
  have hrange := List.find?_some hlow
  simp only [Bool.and_eq_true, decide_eq_true_eq] at hrange
  omega

theorem lt_ten_of_digitsAfter (h : digitsAfter t = some ds) : ∀ d ∈ ds, d < 10 := by
  fun_induction digitsAfter t generalizing ds with
  | case1 =>
    cases h
    exact List.forall_mem_nil _
  | case2 p =>
    obtain ⟨d, hd, rfl⟩ := Option.map_eq_some_iff.mp h
    exact List.forall_mem_singleton.mpr (lt_ten_of_digit? hd)
  | case3 _ _ d hd ih | case5 _ _ _ _ d hd ih =>
    obtain ⟨es, hes, rfl⟩ := Option.map_eq_some_iff.mp h
    exact List.forall_mem_cons.mpr ⟨lt_ten_of_digit? hd, ih hes⟩
  | case4 | case6 => cases h

theorem lt_ten_of_digits? (h : digits? t = some ds) : ∀ d ∈ ds, d < 10 := by
  unfold digits? at h
  split at h
  next => cases h
  next p t =>
    split at h
    next d hd =>
      obtain ⟨es, hes, rfl⟩ := Option.map_eq_some_iff.mp h
      exact List.forall_mem_cons.mpr ⟨lt_ten_of_digit? hd, lt_ten_of_digitsAfter hes⟩
    next => cases h

theorem ofDigits_lt (h : ∀ d ∈ ds, d < 10) : ofDigits ds < 10 ^ ds.length := by
  induction ds using List.reverseRecOn with
  | nil => exact Nat.one_pos
  | append_singleton ds d ih =>
    have hd : d < 10 := h d (by simp)
    have hds := ih fun e he => h e (List.mem_append_left _ he)
    simp only [ofDigits, List.foldl_append, List.foldl_cons, List.foldl_nil, List.length_append,
      List.length_singleton, Nat.pow_succ] at hds ⊢
    omega

theorem lt_of_magnitude? {n : Nat} (h : magnitude? t = some n) : n < 10 ^ maxDigits := by
  unfold magnitude? at h
  split at h
  next ds hds =>
    split at h
    next hlength =>
      cases h
      calc ofDigits ds < 10 ^ ds.length := ofDigits_lt (lt_ten_of_digits? hds)
        _ ≤ 10 ^ maxDigits := Nat.pow_le_pow_right (by decide) hlength
    next => cases h
  next => cases h

theorem hasNumeral_of_toInt? {n : Int} (h : toInt? t = some n) : HasNumeral n := by
  unfold toInt? at h
  have hmagnitude : ∃ u k, magnitude? u = some k ∧ (n = k ∨ n = -k) := by
    split at h
    next u _ =>
      simp only [Option.map_eq_some_iff, Option.bind_eq_bind, Option.bind_eq_some_iff, Option.pure_def,
        Option.some.injEq] at h
      obtain ⟨_, ⟨k, hk, rfl⟩, rfl⟩ := h
      exact ⟨u, k, hk, Or.inr rfl⟩
    next =>
      obtain ⟨k, hk, rfl⟩ := Option.map_eq_some_iff.mp h
      exact ⟨_, k, hk, Or.inl rfl⟩
    next =>
      obtain ⟨k, hk, rfl⟩ := Option.map_eq_some_iff.mp h
      exact ⟨_, k, hk, Or.inl rfl⟩
  obtain ⟨u, k, hk, rfl | rfl⟩ := hmagnitude
  · exact lt_of_magnitude? hk
  · rw [HasNumeral, Int.natAbs_neg]
    exact lt_of_magnitude? hk

end Numeral

namespace Binary64

variable {num den : Nat} {e : Int} {negative : Bool}

/-- The significand of a finite number has at most fifty-three bits, and its exponent is one of a double. -/
def IsBounded : Binary64 → Prop
  | finite _ m e => m ≤ 2 * hiddenBit ∧ e ≤ greatestExponent
  | _ => True

/-- In units of this size or more a quotient has fifty-three bits at most. -/
theorem div_inUnits_lt (hden : den ≠ 0) (he : (num.log2 : Int) - den.log2 - 52 ≤ e) :
    (inUnits num den e).1 / (inUnits num den e).2 < 2 * hiddenBit := by
  have hnum : num < 2 ^ (num.log2 + 1) := Nat.lt_log2_self
  have hlow : 2 ^ den.log2 ≤ den := Nat.log2_self_le hden
  have hpos : 0 < den := Nat.pos_of_ne_zero hden
  have hbits : 2 * hiddenBit = 2 ^ 53 := by decide
  rw [hbits]
  unfold inUnits
  split
  next hneg =>
    obtain ⟨k, rfl⟩ : ∃ k : Nat, e = -k := ⟨(-e).toNat, by omega⟩
    rw [Int.neg_neg, Int.toNat_natCast, Nat.div_lt_iff_lt_mul hpos]
    calc num * 2 ^ k < 2 ^ (num.log2 + 1) * 2 ^ k := Nat.mul_lt_mul_of_pos_right hnum (Nat.two_pow_pos k)
      _ = 2 ^ (num.log2 + 1 + k) := (Nat.pow_add ..).symm
      _ ≤ 2 ^ (53 + den.log2) := Nat.pow_le_pow_right (by decide) (by omega)
      _ = 2 ^ 53 * 2 ^ den.log2 := Nat.pow_add ..
      _ ≤ 2 ^ 53 * den := Nat.mul_le_mul_left _ hlow
  next hnonneg =>
    obtain ⟨k, rfl⟩ : ∃ k : Nat, e = k := ⟨e.toNat, by omega⟩
    rw [Int.toNat_natCast]
    refine (Nat.div_lt_iff_lt_mul (Nat.mul_pos hpos (Nat.two_pow_pos k))).mpr ?_
    calc num < 2 ^ (num.log2 + 1) := hnum
      _ ≤ 2 ^ (53 + (den.log2 + k)) := Nat.pow_le_pow_right (by decide) (by omega)
      _ = 2 ^ 53 * (2 ^ den.log2 * 2 ^ k) := by rw [Nat.pow_add, Nat.pow_add]
      _ ≤ 2 ^ 53 * (den * 2 ^ k) := Nat.mul_le_mul_left _ (Nat.mul_le_mul_right _ hlow)

theorem div_exponentFor_lt (hden : den ≠ 0) :
    (inUnits num den (exponentFor num den)).1 / (inUnits num den (exponentFor num den)).2 <
      2 * hiddenBit := by
  unfold exponentFor
  dsimp only
  split
  next h => exact h
  next => exact div_inUnits_lt hden (by omega)

theorem roundHalfEven_le (num den : Nat) : roundHalfEven num den ≤ num / den + 1 := by
  unfold roundHalfEven
  dsimp only
  split <;> omega

theorem isBounded_ofRatio (hden : den ≠ 0) : (ofRatio negative num den).IsBounded := by
  have hdiv := @div_exponentFor_lt num den hden
  have hround := roundHalfEven_le (inUnits num den (exponentFor num den)).1
    (inUnits num den (exponentFor num den)).2
  unfold ofRatio
  split
  next => exact ⟨Nat.zero_le _, by decide⟩
  next =>
    dsimp only
    generalize roundHalfEven _ _ = m at hround ⊢
    by_cases hm : m = 2 * hiddenBit
    · by_cases he : greatestExponent < exponentFor num den + 1
      · simp [hm, he, IsBounded]
      · simp only [if_pos hm, if_neg he]
        exact ⟨by omega, Int.not_lt.mp he⟩
    · by_cases he : greatestExponent < exponentFor num den
      · simp [hm, he, IsBounded]
      · simp only [if_neg hm, if_neg he]
        exact ⟨by omega, Int.not_lt.mp he⟩

theorem isBounded_ofDecimal (digits : Nat) (exponent : Int) :
    (ofDecimal negative digits exponent).IsBounded := by
  unfold ofDecimal
  split
  next => exact ⟨Nat.zero_le _, by decide⟩
  next =>
    split
    next => exact trivial
    next =>
      split
      next => exact ⟨Nat.zero_le _, by decide⟩
      next =>
        split
        next => exact isBounded_ofRatio Nat.one_ne_zero
        next => exact isBounded_ofRatio (Nat.pow_pos (by decide)).ne'

theorem natAbs_truncate_le (m : Nat) (e : Int) : (truncate negative m e).natAbs ≤ m * 2 ^ e.toNat := by
  have hmagnitude : (truncate negative m e).natAbs =
      if e < 0 then m / Nat.pow 2 (-e).toNat else m * Nat.pow 2 e.toNat := by
    unfold truncate
    cases negative <;> simp only [if_true, Bool.false_eq_true, if_false, Int.natAbs_neg, Int.natAbs_natCast]
  rw [hmagnitude]
  split
  next => exact (Nat.div_le_self ..).trans (Nat.le_mul_of_pos_right _ (Nat.two_pow_pos _))
  next => exact le_rfl

theorem hasNumeral_truncate {m : Nat} (h : (finite negative m e).IsBounded) :
    HasNumeral (truncate negative m e) := by
  obtain ⟨hm, he⟩ := h
  have hbits : 2 * hiddenBit = 2 ^ 53 := by decide
  have hdigits : 53 + e.toNat < Numeral.maxDigits := by
    unfold greatestExponent at he
    unfold Numeral.maxDigits
    omega
  calc (truncate negative m e).natAbs ≤ m * 2 ^ e.toNat := natAbs_truncate_le m e
    _ ≤ 2 ^ 53 * 2 ^ e.toNat := Nat.mul_le_mul_right _ (hbits ▸ hm)
    _ = 2 ^ (53 + e.toNat) := (Nat.pow_add ..).symm
    _ ≤ 10 ^ (53 + e.toNat) := Nat.pow_le_pow_left (by decide) _
    _ < 10 ^ Numeral.maxDigits := Nat.pow_lt_pow_right (by decide) hdigits

end Binary64

end LedgerGenesis
