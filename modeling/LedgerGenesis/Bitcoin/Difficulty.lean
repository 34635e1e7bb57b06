import LedgerGenesis.Error

/-! # Compact difficulty targets

The compact form is a word of an exponent above a twenty-three bit mantissa with a sign bit between
them. It stands for the mantissa times `256 ^ (exponent - 3)`, rounded down.
-/
namespace LedgerGenesis.CompactTarget

def exponent (bits : Int) : Int := bits / 0x1000000

def mantissa (bits : Int) : Nat := (bits % 0x800000).toNat

def isNegative (bits : Int) : Bool := bits / 0x800000 % 2 == 1

def expand (bits : Int) : Except GenesisError Nat :=
  if isNegative bits then .error (.negativeTarget bits)
  else if exponent bits ≤ 3 then .ok (mantissa bits >>> (8 * (3 - exponent bits).toNat))
  else .ok (mantissa bits <<< (8 * (exponent bits - 3).toNat))

end LedgerGenesis.CompactTarget
