/-! # Double precision numbers as exact data

A finite number is a sign, a significand and a power of two. `ofRatio` rounds a quotient to the nearest
double, a tie to the even significand, and always gives the canonical form: a significand below `2 ^ 53`
and an exponent from -1074 to 971, the significand at least `2 ^ 52` unless the exponent is the least.
-/
namespace LedgerGenesis

inductive Binary64 where
  | nan
  | infinite (negative : Bool)
  | finite (negative : Bool) (significand : Nat) (exponent : Int)
  deriving DecidableEq, Inhabited

namespace Binary64

def leastExponent : Int := -1074

def greatestExponent : Int := 971

/-- The highest bit of a significand of fifty-three bits, which the interchange form leaves out. -/
def hiddenBit : Nat := 0x10000000000000

/-- The bit of the sign in the interchange form. -/
def signBit : Nat := 0x8000000000000000

/-- `num / den` in units of `2 ^ e`, as a quotient of natural numbers. -/
def inUnits (num den : Nat) (e : Int) : Nat × Nat :=
  if e < 0 then (num * Nat.pow 2 (-e).toNat, den) else (num, den * Nat.pow 2 e.toNat)

/-- The nearest integer to a quotient, a tie to the even one. -/
def roundHalfEven (num den : Nat) : Nat :=
  let q := num / den
  let r := num % den
  if den < 2 * r ∨ (den = 2 * r ∧ q % 2 = 1) then q + 1 else q

/-- The exponent at which a quotient has a significand of fifty-three bits, or the least one. -/
def exponentFor (num den : Nat) : Int :=
  let guess := max ((num.log2 : Int) - den.log2 - 53) leastExponent
  let (n, d) := inUnits num den guess
  if n / d < 2 * hiddenBit then guess else guess + 1

def ofRatio (negative : Bool) (num den : Nat) : Binary64 :=
  if num = 0 then finite negative 0 leastExponent
  else
    let e := exponentFor num den
    let (n, d) := inUnits num den e
    let m := roundHalfEven n d
    let (m, e) := if m = 2 * hiddenBit then (hiddenBit, e + 1) else (m, e)
    if greatestExponent < e then infinite negative else finite negative m e

/-- The double nearest to `digits * 10 ^ exponent`; far beyond either end of the range the exponent
alone decides. -/
def ofDecimal (negative : Bool) (digits : Nat) (exponent : Int) : Binary64 :=
  if digits = 0 then finite negative 0 leastExponent
  else if 310 < exponent then infinite negative
  else if (digits.log2 : Int) + 3 * exponent < -1080 ∧ exponent < 0 then
    finite negative 0 leastExponent
  else if 0 ≤ exponent then ofRatio negative (digits * Nat.pow 10 exponent.toNat) 1
  else ofRatio negative digits (Nat.pow 10 (-exponent).toNat)

def isZero : Binary64 → Bool
  | finite _ m _ => m == 0
  | _ => false

/-- Numerical equality: the two zeros are equal, and nothing equals a NaN. -/
def equal : Binary64 → Binary64 → Bool
  | nan, _ => false
  | _, nan => false
  | x, y => (x.isZero && y.isZero) || x == y

/-- The integer part of a finite number, toward zero. -/
def truncate (negative : Bool) (m : Nat) (e : Int) : Int :=
  let magnitude : Nat := if e < 0 then m / Nat.pow 2 (-e).toNat else m * Nat.pow 2 e.toNat
  if negative then -magnitude else magnitude

def equalsInt (x : Binary64) (n : Int) : Bool :=
  match x with
  | finite negative m e =>
    truncate negative m e == n && (0 ≤ e || m % Nat.pow 2 (-e).toNat == 0)
  | _ => false

/-- The interchange form: sign, eleven bits of biased exponent, fifty-two bits of significand. -/
def toBits : Binary64 → Nat
  | nan => 0x7FF8000000000000
  | infinite negative => negative.toNat * signBit + 0x7FF0000000000000
  | finite negative m e =>
    let biased := if m < hiddenBit then 0 else (e + 1075).toNat
    negative.toNat * signBit + biased * hiddenBit + m % hiddenBit

end Binary64

end LedgerGenesis
