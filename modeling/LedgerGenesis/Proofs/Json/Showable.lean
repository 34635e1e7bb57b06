import LedgerGenesis.Error
import LedgerGenesis.Proofs.Json.Parts
import Mathlib.Data.Nat.Digits.Defs

/-! # Values that can be shown

A value can be shown when each integer in it is below the first that has no numeral.
-/
namespace LedgerGenesis

/-- The integer has a numeral: one digit more than the longest numerals have, and there is none. -/
def HasNumeral (n : Int) : Prop := n.natAbs < 10 ^ Numeral.maxDigits

instance {n : Int} : Decidable (HasNumeral n) := inferInstanceAs (Decidable (_ < _))

namespace Json

variable {v : Json} {n : Int}

theorem hasNumeral_int_iff : (int n).hasNumeral = true ↔ HasNumeral n := by
  rw [hasNumeral, decide_eq_true_iff]
  exact Nat.length_toDigits_le_iff (by decide) (by decide)

theorem isShowable_iff : v.isShowable = true ↔ v.Throughout fun w => w.hasNumeral = true :=
  List.all_eq_true

@[simp] theorem isShowable_null : null.isShowable = true := rfl

@[simp] theorem isShowable_bool (b : Bool) : (bool b).isShowable = true := rfl

@[simp] theorem isShowable_float (x : Binary64) : (float x).isShowable = true := rfl

@[simp] theorem isShowable_text (t : Text) : (text t).isShowable = true := rfl

@[simp] theorem isShowable_int_iff : (int n).isShowable = true ↔ HasNumeral n := by
  rw [isShowable_iff, Throughout.int_iff, hasNumeral_int_iff]

end Json

namespace GenesisError

variable {e : GenesisError}

theorem isShowable_of_shown_eq_nil (h : e.shown = []) : e.isShowable = true := by
  rw [isShowable, h]
  rfl

theorem isShowable_iff_of_shown_eq_int {n : Int} (h : e.shown = [.int n]) :
    e.isShowable = true ↔ HasNumeral n := by
  rw [isShowable, h, List.all_eq_true, List.forall_mem_singleton, Json.isShowable_int_iff]

end GenesisError

end LedgerGenesis
