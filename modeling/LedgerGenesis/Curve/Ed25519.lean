import LedgerGenesis.Curve.Modular
import LedgerGenesis.Hash.Sha2

/-! # Public keys on the twisted Edwards curve over 2²⁵⁵ - 19

Points are kept in extended coordinates, where one addition law covers all cases.
-/
namespace LedgerGenesis.Ed25519

def prime : Nat := Nat.pow 2 255 - 19

/-- Twice the curve constant -121665 / 121666. -/
def twiceConstant : Nat := 2 * Modular.sub prime 0 (121665 * Modular.inverse prime 121666) % prime

structure Point where
  x : Nat
  y : Nat
  z : Nat
  t : Nat

def Point.identity : Point := ⟨0, 1, 1, 0⟩

def Point.add (k : Nat) (p q : Point) : Point :=
  let a := Modular.sub prime p.y p.x * Modular.sub prime q.y q.x % prime
  let b := (p.y + p.x) * (q.y + q.x) % prime
  let c := p.t * k % prime * q.t % prime
  let d := 2 * p.z * q.z % prime
  let e := Modular.sub prime b a
  let f := Modular.sub prime d c
  let g := (d + c) % prime
  let h := (b + a) % prime
  ⟨e * f % prime, g * h % prime, f * g % prime, e * h % prime⟩

/-- `n` times a point, for `n` below `2 ^ bits`. -/
def Point.scale (k : Nat) : Nat → Nat → Point → Point
  | 0, _, _ => identity
  | bits + 1, n, p =>
    let rest := scale k bits (n / 2) (p.add k p)
    if n % 2 = 1 then rest.add k p else rest

def base : Point :=
  let x := 15112221349535400772501151409588531511454012693041857206046113283949847762202
  let y := 46316835694926478169428394003475163141307993866256225615783033603165251855960
  ⟨x, y, 1, x * y % prime⟩

/-- The ordinate in 255 bits and the parity of the abscissa in the last one. -/
def Point.compress (p : Point) : Bytes :=
  let inverse := Modular.inverse prime p.z
  let x := p.x * inverse % prime
  let y := p.y * inverse % prime
  Bytes.littleEndian 32 (y + x % 2 * Nat.pow 2 255)

/-- The scalar of a secret: the first half of its digest, its three lowest bits and the highest one
cleared and the next one set. -/
def secretScalar (secret : Bytes) : Nat :=
  let n := Bytes.ofLittleEndian ((sha512 secret).take 32)
  n % Nat.pow 2 254 / 8 * 8 + Nat.pow 2 254

def publicKey (secret : Bytes) : Bytes :=
  (base.scale twiceConstant 255 (secretScalar secret)).compress

end LedgerGenesis.Ed25519
