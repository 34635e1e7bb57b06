import LedgerGenesis.Bitcoin.Anchor
import LedgerGenesis.Curve.Secp256k1
import LedgerGenesis.Json.Access
import LedgerGenesis.Seed

/-! # Trustees of bridged chains

A trustee has an account and two keys that are points of the curve. A set of trustees serves one chain
and says how large a committee may be; the committee of a chain is the first set that serves it.
-/
namespace LedgerGenesis

structure Trustee where
  account : Bytes
  about : Bytes
  hotKey : Bytes
  coldKey : Bytes
  hotKey_valid : Secp256k1.isCompressedPoint hotKey = true
  coldKey_valid : Secp256k1.isCompressedPoint coldKey = true
  deriving DecidableEq

namespace Trustee

def make (account about hotKey coldKey : Bytes) : Except GenesisError Trustee :=
  if hh : Secp256k1.isCompressedPoint hotKey = true then
    if hc : Secp256k1.isCompressedPoint coldKey = true then
      .ok ⟨account, about, hotKey, coldKey, hh, hc⟩
    else .error (.badTrusteeKey about .cold)
  else .error (.badTrusteeKey about .hot)

/-- The account that an entry names, by a seed if it has one. -/
def entryAccount (entry : Json) : Except Error Bytes :=
  match entry with
  | .object fields =>
    match Json.lookup "seed" fields with
    | some seed => Seed.account seed
    | none => (do (← entry.field "account").toBytes : Except Fault Bytes).mapError .fault
  | _ => .error (.fault .notIndexed)

def ofEntry (entry : Json) : Except Error Trustee := do
  let account ← entryAccount entry
  let about ← (← entry.field "about").toUtf8
  let hotKey ← (← entry.field "hot_key").toBytes
  let coldKey ← (← entry.field "cold_key").toBytes
  make account about hotKey coldKey

def toJson (t : Trustee) : Except Fault Json :=
  match Text.ofUtf8? t.about with
  | none => .error .notUtf8
  | some about =>
    .ok (.list [.text (Hex.encode t.account), .text about, .text (Hex.encode t.hotKey),
      .text (Hex.encode t.coldKey)])

end Trustee

/-- Trustees of one chain and the bounds on their number. -/
structure TrusteeSet where
  chain : Chain
  least : Int
  greatest : Int
  trustees : List Trustee
  deriving DecidableEq

namespace TrusteeSet

def readChain (v : Json) : Except Fault Chain :=
  match Chain.ofJson? v with
  | some c => .ok c
  | none => .error (Fault.unknownChain v).raised

def readEntry (data : Json) : Except Error TrusteeSet := do
  let least ← (← (← data.field "config").field "min_trustee_count").toInt
  let greatest ← (← (← data.field "config").field "max_trustee_count").toInt
  let entries ← (← data.field "trustees").elements
  let trustees ← entries.mapM Trustee.ofEntry
  let chain ← readChain (← data.field "chain")
  return { chain, least, greatest, trustees }

def ofJson (data : Json) : Except Error TrusteeSet :=
  reporting [.key, .content, .shape] .malformedTrustees (readEntry data)

def boundsJson (s : TrusteeSet) : Json :=
  .object [("minTrusteeCount", .int s.least), ("maxTrusteeCount", .int s.greatest)]

def toJson (s : TrusteeSet) : Except Fault Json := do
  let trustees ← s.trustees.mapM Trustee.toJson
  return .list [.text s.chain.name, s.boundsJson, .list trustees]

def accounts (s : TrusteeSet) : List Bytes := s.trustees.map Trustee.account

/-- A set whose size is within its own bounds. -/
def checkSize (s : TrusteeSet) : Except GenesisError TrusteeSet :=
  let count := s.trustees.length
  if (count : Int) < s.least then .error (.tooFewTrustees s.chain count s.least)
  else if s.greatest < count then .error (.tooManyTrustees s.chain count s.greatest)
  else .ok s

/-- The first set that serves a chain, if its size is within its bounds. -/
def select (sets : List TrusteeSet) (chain : Chain) : Except GenesisError TrusteeSet :=
  match sets.find? fun s => s.chain = chain with
  | some s => s.checkSize
  | none => .error (.noTrustees chain)

/-- The committee for the chain of an anchor if there is one, else for the given chain. -/
def committee (sets : List TrusteeSet) (anchor : Option Anchor) (chain : Chain) :
    Except Error TrusteeSet :=
  raising <| select sets (match anchor with | some _ => Anchor.chain | none => chain)

end TrusteeSet

end LedgerGenesis
