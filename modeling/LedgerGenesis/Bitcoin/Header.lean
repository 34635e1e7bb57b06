import LedgerGenesis.Error
import LedgerGenesis.Hash.Sha2

/-! # Block headers

A header is four 32-bit words and two hashes in internal byte order. Its wire form has eighty bytes.
-/
namespace LedgerGenesis

structure Header where
  version : UInt32
  previous : Bytes
  merkleRoot : Bytes
  time : UInt32
  bits : UInt32
  nonce : UInt32
  previous_length : previous.length = 32
  merkleRoot_length : merkleRoot.length = 32
  deriving DecidableEq

namespace Header

/-- An integer that fits in thirty-two bits, neither a truth value nor a double. -/
def readWord (name : HeaderWord) : Json → Except GenesisError UInt32
  | .int n => if 0 ≤ n ∧ n < 0x100000000 then .ok n.toNat.toUInt32 else .error (.badHeaderWord name (.int n))
  | v => .error (.badHeaderWord name v)

def make (version : Json) (previous merkleRoot : Bytes) (time bits nonce : Json) :
    Except Error Header := do
  let version ← raising (readWord .version version)
  let time ← raising (readWord .time time)
  let bits ← raising (readWord .bits bits)
  let nonce ← raising (readWord .nonce nonce)
  if hp : previous.length = 32 then
    if hm : merkleRoot.length = 32 then
      return ⟨version, previous, merkleRoot, time, bits, nonce, hp, hm⟩
    else throw (.genesis (.badHeaderHash .merkleRoot))
  else throw (.genesis (.badHeaderHash .previous))

variable (h : Header)

def word (w : UInt32) : Bytes := Bytes.littleEndian 4 w.toNat

def serialize : Bytes :=
  word h.version ++ h.previous ++ h.merkleRoot ++ word h.time ++ word h.bits ++ word h.nonce

def hash : Bytes := doubleSha256 h.serialize

def toJson : Json :=
  .object [
    ("version", .int h.version.toNat),
    ("previousHeaderHash", .text (Hex.encode h.previous)),
    ("merkleRootHash", .text (Hex.encode h.merkleRoot)),
    ("time", .int h.time.toNat),
    ("bits", .int h.bits.toNat),
    ("nonce", .int h.nonce.toNat)]

end Header

end LedgerGenesis
