import LedgerGenesis.Text.Utf8

/-! # WebAssembly modules

A validator of images that knows the simplest modules alone: a header, and custom sections after it. A section
is its id, the length of its body and the body; the body of a custom section starts with a name in UTF-8.
Lengths are numbers of at most thirty-two bits in groups of seven, the low group first.
-/
namespace LedgerGenesis.Wasm

/-- A number of so many bits at the start of some bytes, and what follows it. -/
def readNumber : Nat → Bytes → Option (Nat × Bytes)
  | _, [] => none
  | width, b :: bs =>
    if b.toNat < 128 then if b.toNat < Nat.pow 2 width then some (b.toNat, bs) else none
    else if 7 < width then
      (readNumber (width - 7) bs).map fun (n, rest) => (b.toNat - 128 + 128 * n, rest)
    else none

/-- As many bytes as a number in front of them says, and what follows them. -/
def readBlock (bs : Bytes) : Option (Bytes × Bytes) :=
  match readNumber 32 bs with
  | some (n, rest) => if n ≤ rest.length then some (rest.take n, rest.drop n) else none
  | none => none

/-- The greatest length of a name. -/
def maxNameLength : Nat := 100000

def isCustomBody (body : Bytes) : Bool :=
  match readBlock body with
  | some (name, _) => name.length ≤ maxNameLength && (Utf8.decode name).isSome
  | none => false

/-- Custom sections one after the other; each takes one unit of fuel. -/
def areCustomSections : Nat → Bytes → Bool
  | _, [] => true
  | 0, _ => false
  | fuel + 1, id :: bs =>
    id == 0 &&
      match readBlock bs with
      | some (body, rest) => isCustomBody body && areCustomSections fuel rest
      | none => false

/-- The mark of a module and version one. -/
def header : Bytes := [0x00, 0x61, 0x73, 0x6D, 0x01, 0x00, 0x00, 0x00]

/-- A section takes at least one byte. -/
def isModule (bs : Bytes) : Bool :=
  bs.take 8 == header && areCustomSections bs.length (bs.drop 8)

end LedgerGenesis.Wasm
