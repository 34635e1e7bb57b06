import LedgerGenesis.Bytes.Basic
import LedgerGenesis.Number.Hexadecimal

/-! # Hexadecimal byte strings

Bytes are written in lower case, with a `0x` mark where a genesis value is meant. A text is read with or
without one mark, in either case, with ASCII blanks anywhere but inside a pair of digits.
-/
namespace LedgerGenesis.Hex

def digits (bs : Bytes) : List Char := bs.flatMap fun b => hexDigits 2 b.toNat

/-- The digits after a `0x` mark. -/
def encode (bs : Bytes) : Text := Text.ofChars ('0' :: 'x' :: digits bs)

def isBlank (p : CodePoint) : Bool :=
  (0x09 ≤ p.number && p.number ≤ 0x0D) || p.number == 0x20

def digit? (p : CodePoint) : Option Nat := p.char?.bind hexValue?

def decodePairs : Text → Option Bytes
  | [] => some []
  | [p] => if isBlank p then some [] else none
  | p :: q :: t =>
    if isBlank p then decodePairs (q :: t)
    else match digit? p, digit? q with
      | some a, some b => (decodePairs t).map ((a * 16 + b).toUInt8 :: ·)
      | _, _ => none

/-- A text without its first `0x` or `0X`. -/
def withoutMark : Text → Text
  | .char '0' :: .char 'x' :: t => t
  | .char '0' :: .char 'X' :: t => t
  | t => t

def decode (t : Text) : Option Bytes := decodePairs (withoutMark t)

/-- A hash as block explorers show it: most significant byte first and without a mark. -/
def displayHash (bs : Bytes) : Text := Text.ofChars (digits bs.reverse)

end LedgerGenesis.Hex
