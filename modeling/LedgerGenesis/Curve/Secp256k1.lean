import LedgerGenesis.Bytes.Basic
import LedgerGenesis.Curve.Modular

/-! # Compressed points on the curve y² = x³ + 7 over 2²⁵⁶ - 2³² - 977 -/
namespace LedgerGenesis.Secp256k1

def prime : Nat := Nat.pow 2 256 - Nat.pow 2 32 - 977

/-- Euler's criterion, with zero counted as a square. -/
def isSquare (x : Nat) : Bool :=
  let r := Modular.pow prime 256 (x % prime) ((prime - 1) / 2)
  r == 0 || r == 1

/-- A parity byte and an abscissa below the prime over which the curve has a point. -/
def isCompressedPoint : Bytes → Bool
  | parity :: abscissa =>
    let x := Bytes.ofBigEndian abscissa
    (parity == 2 || parity == 3) && abscissa.length == 32 && x < prime && isSquare (x * x * x + 7)
  | [] => false

end LedgerGenesis.Secp256k1
