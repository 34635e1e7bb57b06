import LedgerGenesis.Bytes.Basic
import LedgerGenesis.Text.CodePoint

/-! # UTF-8

`encode` writes characters in the shortest form. Both readers run one machine over the bytes: it is
between characters, or inside one with continuation bytes still owed and bounds on the next of them.
`decode` refuses ill-formed bytes; `decodeLossy` puts one replacement character for each maximal
ill-formed part.
-/
namespace LedgerGenesis.Utf8

def encodeChar (c : Char) : Bytes :=
  let n := c.toNat
  if n < 0x80 then [n.toUInt8]
  else if n < 0x800 then [(0xC0 + n / 64).toUInt8, (0x80 + n % 64).toUInt8]
  else if n < 0x10000 then
    [(0xE0 + n / 4096).toUInt8, (0x80 + n / 64 % 64).toUInt8, (0x80 + n % 64).toUInt8]
  else
    [(0xF0 + n / 262144).toUInt8, (0x80 + n / 4096 % 64).toUInt8,
      (0x80 + n / 64 % 64).toUInt8, (0x80 + n % 64).toUInt8]

def encode (cs : List Char) : Bytes := cs.flatMap encodeChar

/-- A character begun: its bits so far, the continuation bytes owed after the next one, and the bounds
of the next one. -/
structure Begun where
  value : Nat
  more : Nat
  low : Nat
  high : Nat

/-- What a first byte announces. -/
inductive Lead where
  | whole (c : Char)
  | begun (b : Begun)
  | invalid

def lead (b : Nat) : Lead :=
  if b < 0x80 then .whole (Char.ofNat b)
  else if b < 0xC2 then .invalid
  else if b < 0xE0 then .begun ⟨b - 0xC0, 0, 0x80, 0xBF⟩
  else if b = 0xE0 then .begun ⟨0, 1, 0xA0, 0xBF⟩
  else if b = 0xED then .begun ⟨13, 1, 0x80, 0x9F⟩
  else if b < 0xF0 then .begun ⟨b - 0xE0, 1, 0x80, 0xBF⟩
  else if b = 0xF0 then .begun ⟨0, 2, 0x90, 0xBF⟩
  else if b < 0xF4 then .begun ⟨b - 0xF0, 2, 0x80, 0xBF⟩
  else if b = 0xF4 then .begun ⟨4, 2, 0x80, 0x8F⟩
  else .invalid

/-- The character completed by a continuation byte, or what is still owed after it. -/
def Begun.step (g : Begun) (b : Nat) : Lead :=
  if g.low ≤ b ∧ b ≤ g.high then
    match g.more with
    | 0 => .whole (Char.ofNat (g.value * 64 + (b - 0x80)))
    | k + 1 => .begun ⟨g.value * 64 + (b - 0x80), k, 0x80, 0xBF⟩
  else .invalid

def decodeFrom : Option Begun → Bytes → Option (List Char)
  | none, [] => some []
  | some _, [] => none
  | state, b :: bs =>
    match (match state with | none => lead b.toNat | some g => g.step b.toNat) with
    | .whole c => (decodeFrom none bs).map (c :: ·)
    | .begun g => decodeFrom (some g) bs
    | .invalid => none

def decode (bs : Bytes) : Option (List Char) := decodeFrom none bs

def replacement : Char := '\uFFFD'

/-- A byte that cannot continue the character begun ends that part and is read afresh. -/
def decodeLossyFrom : Option Begun → Bytes → List Char
  | none, [] => []
  | some _, [] => [replacement]
  | none, b :: bs =>
    match lead b.toNat with
    | .whole c => c :: decodeLossyFrom none bs
    | .begun g => decodeLossyFrom (some g) bs
    | .invalid => replacement :: decodeLossyFrom none bs
  | some g, b :: bs =>
    match g.step b.toNat with
    | .whole c => c :: decodeLossyFrom none bs
    | .begun g => decodeLossyFrom (some g) bs
    | .invalid =>
      replacement :: match lead b.toNat with
        | .whole c => c :: decodeLossyFrom none bs
        | .begun g => decodeLossyFrom (some g) bs
        | .invalid => replacement :: decodeLossyFrom none bs

def decodeLossy (bs : Bytes) : List Char := decodeLossyFrom none bs

end LedgerGenesis.Utf8

namespace LedgerGenesis.Text

/-- The UTF-8 form of a text in which no surrogate half stands alone. -/
def utf8? (t : Text) : Option Bytes := t.chars?.map Utf8.encode

def ofUtf8? (bs : Bytes) : Option Text := (Utf8.decode bs).map ofChars

end LedgerGenesis.Text
