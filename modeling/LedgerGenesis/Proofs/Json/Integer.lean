import LedgerGenesis.Json.Access
import Mathlib

/-! # The integer that a value is taken for

An integer is taken as it is written. A truth value is taken for 0 or 1, a double for what is left of it without its
fraction, and a text for what its numeral denotes, so that many values are taken for the same integer.
-/
namespace LedgerGenesis

namespace Json

variable {v : Json} {n : Int}

/-- A value is taken for the integer. -/
inductive IsTakenFor : Json → Int → Prop
  | int (n : Int) : IsTakenFor (.int n) n
  | bool (b : Bool) : IsTakenFor (.bool b) b.toNat
  | positive (m : Nat) (e : Int) : IsTakenFor (.float (.finite false m e)) ⌊(m : ℚ) * 2 ^ e⌋
  | negative (m : Nat) (e : Int) : IsTakenFor (.float (.finite true m e)) ⌈-((m : ℚ) * 2 ^ e)⌉
  | text {t : Text} {n : Int} (h : Numeral.toInt? t = some n) : IsTakenFor (.text t) n

theorem floor_scaled (m : Nat) (e : Int) : ⌊(m : ℚ) * 2 ^ e⌋ =
    (if e < 0 then m / Nat.pow 2 (-e).toNat else m * Nat.pow 2 e.toNat : Nat) := by
  by_cases he : e < 0
  · obtain ⟨k, rfl⟩ : ∃ k : Nat, e = -k := ⟨(-e).toNat, by omega⟩
    have hquotient : (m : ℚ) * 2 ^ (-(k : Int)) = ((m : Int) : ℚ) / (2 ^ k : Nat) := by
      rw [zpow_neg, zpow_natCast]
      push_cast
      rfl
    rw [if_pos he, hquotient, Rat.floor_intCast_div_natCast]
    simp
  · obtain ⟨k, rfl⟩ : ∃ k : Nat, e = k := ⟨e.toNat, by omega⟩
    have hproduct : (m : ℚ) * 2 ^ (k : Int) = ((m * 2 ^ k : Nat) : ℚ) := by
      rw [zpow_natCast]
      push_cast
      rfl
    rw [if_neg he, hproduct, Int.floor_natCast]
    simp

theorem truncate_false (m : Nat) (e : Int) : Binary64.truncate false m e = ⌊(m : ℚ) * 2 ^ e⌋ := by
  rw [floor_scaled]
  rfl

theorem truncate_true (m : Nat) (e : Int) : Binary64.truncate true m e = ⌈-((m : ℚ) * 2 ^ e)⌉ := by
  rw [Int.ceil_neg, floor_scaled]
  rfl

theorem toInt_eq_ok_iff : v.toInt = .ok n ↔ v.IsTakenFor n := by
  constructor
  · intro h
    cases v with
    | int m =>
      cases h
      exact .int n
    | bool b =>
      cases h
      exact .bool b
    | float x =>
      cases x with
      | finite negative m e =>
        obtain rfl : Binary64.truncate negative m e = n := Except.ok.inj h
        cases negative with
        | false => exact truncate_false m e ▸ .positive m e
        | true => exact truncate_true m e ▸ .negative m e
      | _ => cases h
    | text t =>
      simp only [toInt] at h
      split at h
      next m hm =>
        cases h
        exact .text hm
      next => cases h
    | _ => cases h
  · rintro (_ | _ | ⟨m, e⟩ | ⟨m, e⟩ | h)
    · rfl
    · rfl
    · exact congrArg Except.ok (truncate_false m e)
    · exact congrArg Except.ok (truncate_true m e)
    · simp only [toInt, h]

end Json

end LedgerGenesis
