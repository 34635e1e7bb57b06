/-! # Powers and inverses modulo a number -/
namespace LedgerGenesis.Modular

/-- `base ^ exponent` modulo `m`, by squaring, for exponents below `2 ^ bits`. -/
def pow (m : Nat) : Nat → Nat → Nat → Nat
  | 0, _, _ => 1 % m
  | bits + 1, base, exponent =>
    let half := pow m bits (base * base % m) (exponent / 2)
    if exponent % 2 = 1 then base * half % m else half

/-- The inverse modulo a prime. -/
def inverse (p : Nat) (x : Nat) : Nat := pow p (p.log2 + 1) (x % p) (p - 2)

def sub (m x y : Nat) : Nat := (x % m + (m - y % m)) % m

end LedgerGenesis.Modular
