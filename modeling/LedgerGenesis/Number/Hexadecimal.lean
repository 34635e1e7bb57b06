import LedgerGenesis.Text.CodePoint

/-! # Hexadecimal digits and numerals -/
namespace LedgerGenesis

/-- The low `k` hexadecimal digits of a number, most significant first, in lower case. -/
def hexDigits : Nat → Nat → List Char
  | 0, _ => []
  | k + 1, n => hexDigits k (n / 16) ++ [Nat.digitChar (n % 16)]

def hexValue? (c : Char) : Option Nat :=
  if '0' ≤ c ∧ c ≤ '9' then some (c.toNat - '0'.toNat)
  else if 'a' ≤ c ∧ c ≤ 'f' then some (c.toNat - 'a'.toNat + 10)
  else if 'A' ≤ c ∧ c ≤ 'F' then some (c.toNat - 'A'.toNat + 10)
  else none

/-- An integer as a hexadecimal numeral, its sign before the mark. -/
def Text.ofIntHex (n : Int) : Text :=
  ofChars ((if n < 0 then ['-'] else []) ++ '0' :: 'x' :: Nat.toDigits 16 n.natAbs)

end LedgerGenesis
