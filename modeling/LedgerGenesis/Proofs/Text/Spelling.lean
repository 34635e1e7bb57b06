import LedgerGenesis.Text.CodePoint
import Mathlib.Data.List.Basic

/-! # Distinct values have distinct spellings -/
namespace LedgerGenesis.Text

theorem ofChars_injective : Function.Injective ofChars :=
  List.map_injective_iff.mpr fun _ _ h => CodePoint.char.inj h

@[simp] theorem ofString_inj {s t : String} : ofString s = ofString t ↔ s = t :=
  (ofChars_injective.eq_iff).trans String.toList_inj

/-- An integer has one decimal form, and no other integer has it. -/
theorem ofInt_injective : Function.Injective ofInt := by
  have digits_inj : ∀ {m n : Nat}, Nat.toDigits 10 m = Nat.toDigits 10 n → m = n := by
    intro m n h
    rw [← @Nat.ofDigitChars_ten_toDigits m, h, Nat.ofDigitChars_ten_toDigits]
  -- a sign is no digit, so a negative number never looks like a natural one
  have sign_ne : ∀ (m n : Nat), CodePoint.char '-' :: ofChars (Nat.toDigits 10 m) ≠
      ofChars (Nat.toDigits 10 n) := by
    intro m n h
    have hc : '-' :: Nat.toDigits 10 m = Nat.toDigits 10 n := ofChars_injective h
    have hd := Nat.isDigit_of_mem_toDigits (b := 10) (by omega) (by omega) (hc ▸ List.mem_cons_self)
    simp at hd
  intro a b h
  cases a with
  | ofNat m =>
    cases b with
    | ofNat n => exact congrArg Int.ofNat (digits_inj (ofChars_injective h))
    | negSucc n => exact absurd h.symm (sign_ne _ _)
  | negSucc m =>
    cases b with
    | ofNat n => exact absurd h (sign_ne _ _)
    | negSucc n =>
      have hs := digits_inj (ofChars_injective (List.cons.inj h).2)
      exact congrArg Int.negSucc (Nat.succ.inj hs)

end LedgerGenesis.Text
