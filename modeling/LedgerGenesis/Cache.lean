import LedgerGenesis.Text.CodePoint

/-! # Caches

A cache keeps what was read successfully under a name and gives it back without reading again.
-/
namespace LedgerGenesis

abbrev Cache (α : Type) := List (Text × α)

namespace Cache

variable {α ε : Type}

/-- What is kept under a name, or else what reading gives, kept if the reading succeeds. -/
def fetch (name : Text) (read : Text → Except ε α) (c : Cache α) : Except ε α × Cache α :=
  match c.lookup name with
  | some a => (.ok a, c)
  | none =>
    match read name with
    | .ok a => (.ok a, (name, a) :: c)
    | .error e => (.error e, c)

end Cache

end LedgerGenesis
