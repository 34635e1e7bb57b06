import LedgerGenesis.Bitcoin.Difficulty
import LedgerGenesis.Bitcoin.Header
import LedgerGenesis.Bitcoin.Retarget
import LedgerGenesis.Json.Access

/-! # The anchor of the Bitcoin bridge

The anchor is the header from which the bridge starts to verify, with its declared hash, its height and
the depth at which blocks count as confirmed. A verifier decides whether an anchor may be used; the one
by header hash checks the declared hash and the proof of work.
-/
namespace LedgerGenesis

structure Anchor where
  network : BitcoinNetwork
  confirmations : Int
  height : Int
  /-- In internal byte order. -/
  declaredHash : Bytes
  header : Header
  retarget : Retarget
  deriving DecidableEq

namespace Anchor

/-- The chain that every anchor is of. -/
def chain : Chain := .bitcoin

/-- A hash in display order, as the bytes in internal order. -/
def readHash (v : Json) : Except Fault Bytes := do
  let bs ← v.toBytes
  if bs.length = 32 then return bs.reverse else throw (.hashLength bs.length)

def readNetwork (v : Json) : Except Fault BitcoinNetwork :=
  match BitcoinNetwork.ofJson? v with
  | some n => .ok n
  | none => .error (Fault.unknownBitcoinNetwork v).raised

def readEntry (data : Json) (retarget : Retarget) : Except Error Anchor := do
  let version ← data.field "header_version"
  let previous ← readHash (← data.field "previous_header_hash")
  let merkleRoot ← readHash (← data.field "merkle_root_hash")
  let time ← data.field "time"
  let bits ← data.field "bits"
  let nonce ← data.field "nonce"
  let header ← Header.make version previous merkleRoot time bits nonce
  let network ← readNetwork (← data.field "network")
  let confirmations ← (← data.field "confirmation_number").toInt
  let height ← (← data.field "height").toInt
  let declaredHash ← readHash (← data.field "hash")
  return { network, confirmations, height, declaredHash, header, retarget }

/-- An anchor from an entry or from the text of one. -/
def ofJson (v : Json) (retarget : Retarget) : Except Error Anchor := do
  let anchor ← reporting [.key, .content, .shape, .access] .malformedAnchor do
    let data ← match v with
      | .text t => Json.parse t
      | v => pure v
    readEntry data retarget
  if 0 < anchor.confirmations then return anchor else throw (.genesis .confirmationNotPositive)

/-- A verdict on anchors. -/
abbrev Verifier := Anchor → Except Error Unit

/-- The declared hash is the header's, the header's target is within the network's limit, and the hash
is within the header's target. -/
def verifyWork (a : Anchor) : Except GenesisError Unit := do
  let computed := a.header.hash
  if computed ≠ a.declaredHash then throw (.headerHashMismatch computed a.declaredHash)
  let bits : Int := a.header.bits.toNat
  let target ← CompactTarget.expand bits
  let limit ← CompactTarget.expand a.retarget.maxBits
  if limit < target then throw (.bitsAboveLimit bits a.retarget.maxBits)
  if target < Bytes.ofLittleEndian computed then throw (.targetNotMet a.declaredHash)

namespace Verifier

/-- Checks the work, and reports the height of an anchor that passes. -/
def headerHash : Verifier := fun a => do
  a.verifyWork
  Json.report [.int a.height]

/-- Accepts every anchor. -/
def trusting : Verifier := fun _ => .ok ()

/-- The verifier of a builder that was given none that can decide. -/
def absent : Verifier := fun _ => .error (.fault .noVerifier)

end Verifier

end Anchor

end LedgerGenesis
