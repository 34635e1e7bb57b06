import LedgerGenesis.Genesis.State
import LedgerGenesis.Spec.Document

/-! # Chain specifications

A specification is a genesis with what clients must know of its network. The genesis is either an
assembled state or frozen data, kept as it was read. A specification that was read from a document is
written as that document.
-/
namespace LedgerGenesis

namespace Spec

/-- Client data beside the genesis, null where there is none. -/
structure Extensions where
  forkBlocks : Json := .null
  badBlocks : Json := .null
  lightSyncState : Json := .null
  deriving DecidableEq

structure Metadata where
  name : Json
  id : Json
  chainType : ChainType
  bootNodes : List Json := []
  /-- Address and verbosity of each endpoint. -/
  telemetry : List (Json × Json) := []
  protocolId : Json := .null
  properties : Json := .null
  extensions : Extensions := {}
  deriving DecidableEq

inductive Genesis where
  | assembled (s : State)
  | frozen (data : Json)
  deriving DecidableEq

end Spec

structure Spec where
  metadata : Spec.Metadata
  genesis : Spec.Genesis
  codeSubstitutes : Json := .object []
  /-- The document that the specification was read from. -/
  source : Option Document := none
  deriving DecidableEq

namespace Spec

def formatVersion : Int := 1

/-- What wallets and explorers show of a network. -/
def networkProperties (n : Network) : Json :=
  .object [
    ("network", .text n.name),
    ("ss58Format", .int n.addressFormat),
    ("tokenDecimals", .int nativeDecimals),
    ("tokenSymbol", nativeInfo.token)]

def Metadata.telemetryJson (m : Metadata) : Json :=
  if m.telemetry.isEmpty then .null
  else .list (m.telemetry.map fun (address, verbosity) => .list [address, verbosity])

/-- The fields of a document that come before its genesis. -/
def Metadata.fields (m : Metadata) : Document :=
  [("formatVersion", .int formatVersion),
    ("name", m.name),
    ("id", m.id),
    ("chainType", .text m.chainType.name),
    ("bootNodes", .list m.bootNodes),
    ("telemetryEndpoints", m.telemetryJson),
    ("protocolId", m.protocolId),
    ("properties", m.properties),
    ("forkBlocks", m.extensions.forkBlocks),
    ("badBlocks", m.extensions.badBlocks),
    ("lightSyncState", m.extensions.lightSyncState)]

def Genesis.toJson : Genesis → Except Fault Json
  | frozen data => .ok data
  | assembled s => s.toJson.map fun v => .object [("runtime", v)]

variable (s : Spec)

def isFrozen : Bool :=
  match s.genesis with
  | .frozen _ => true
  | .assembled _ => false

/-- The digest of an assembled genesis. -/
def genesisHash : Except Fault (Option Bytes) :=
  match s.genesis with
  | .frozen _ => .ok none
  | .assembled state => state.hash.map some

def toJson : Except Fault Json :=
  match s.source with
  | some fields => .ok (.object fields)
  | none => do
    let substitutes ← s.codeSubstitutes.toMapping
    let genesis ← s.genesis.toJson
    let rest : Document := [("codeSubstitutes", substitutes), ("genesis", genesis)]
    return .object (s.metadata.fields ++ rest)

def toBytes : Except Fault Bytes := do Document.encode (← s.toJson)

end Spec

end LedgerGenesis
