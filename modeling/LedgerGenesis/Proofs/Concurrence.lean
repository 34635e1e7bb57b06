import LedgerGenesis.Proofs.Outcome

/-! # Runs that concur

Two runs concur if they give the same value or errors of one class. What is done with the value keeps that,
so runs that differ in their inputs are compared input by input.
-/
namespace LedgerGenesis

/-- The class of an error: the kind of a reported one, and a fault itself. -/
def Error.category : Error → GenesisError.Kind ⊕ Fault
  | .genesis e => .inl e.kind
  | .fault f => .inr f

/-- The same value, or errors of one class. -/
def Concur {α : Type} (x y : Except Error α) : Prop :=
  x.mapError Error.category = y.mapError Error.category

namespace Concur

variable {α β : Type} {x y z : Except Error α}

theorem refl (x : Except Error α) : Concur x x := rfl

theorem of_eq (h : x = y) : Concur x y := congrArg (Except.mapError Error.category) h

theorem trans (h : Concur x y) (h' : Concur y z) : Concur x z := Eq.trans h h'

theorem ok_iff (h : Concur x y) {a : α} : x = .ok a ↔ y = .ok a := by
  have hx : x.mapError Error.category = .ok a ↔ x = .ok a := mapError_eq_ok_iff
  rw [← hx, h]
  exact mapError_eq_ok_iff

theorem bind {f g : α → Except Error β} (h : Concur x y) (hf : ∀ a, Concur (f a) (g a)) :
    Concur (x >>= f) (y >>= g) := by
  cases x with
  | ok a =>
    obtain rfl : y = .ok a := h.ok_iff.mp rfl
    exact hf a
  | error e =>
    cases y with
    | ok a => cases h
    | error e' =>
      have he : e.category = e'.category := Except.error.inj h
      exact congrArg Except.error he

/-- What is done with the value may be the same in both runs. -/
theorem bind_same (h : Concur x y) (f : α → Except Error β) : Concur (x >>= f) (y >>= f) :=
  h.bind fun a => refl (f a)

end Concur

end LedgerGenesis
