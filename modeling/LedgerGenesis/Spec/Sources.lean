import LedgerGenesis.Genesis.Assembly
import LedgerGenesis.Image.Store
import LedgerGenesis.Settings
import LedgerGenesis.Spec.Snapshot
import LedgerGenesis.Table

/-! # What specifications are built from

Files, settings, a validator of images and a verifier of anchors. A seeded specification derives its
validators and its balances from seeds; a rebuilt one takes all inputs from published tables. Inputs are read
in a fixed order, and the first that fails gives the error.
-/
namespace LedgerGenesis

structure Sources where
  files : Files
  settings : Settings := {}
  accepts : Image.Validator
  verify : Anchor.Verifier := Anchor.Verifier.headerHash

/-- The anchor of a profile out of a table, if it may be used. -/
def Table.verifiedAnchor (t : Table) (p : Parameters) (verify : Anchor.Verifier) : Except Error Anchor := do
  let a ← t.anchor p.retarget
  verify a
  return a

/-- Metadata of a profile's network, with telemetry where wanted. -/
def Settings.metadata (s : Settings) (profile : Profile) (name id protocolId : Json)
    (withTelemetry : Bool) : Except Fault Spec.Metadata := do
  let p := profile.parameters
  let telemetry ← if withTelemetry then s.telemetry p.network else pure []
  return {
    name, id
    chainType := p.chainType
    telemetry, protocolId
    properties := Spec.networkProperties p.network }

namespace Sources

variable (src : Sources)

def table (name : Text) : Except Error Table := Table.read src.files src.settings.tableDirectory name

def snapshotBytes (name : Text) : Except Error Bytes :=
  Table.readBytes src.files src.settings.tableDirectory name

def image (p : Parameters) : Except Error Bytes :=
  Image.readAccepted src.accepts src.files src.settings.imagePaths p.runtime

def anchor (p : Parameters) : Except Error Anchor := do
  (← src.table p.anchorTable).verifiedAnchor p src.verify

def assets : Except Error (List AssetDefinition) := do (← src.table Table.defaultAssets).assets

def trusteeSets (name : Text) : Except Error (List TrusteeSet) := do (← src.table name).trusteeSets

def testnetTrustees : Text := "trustees_testnet.json"

def mainnetTrustees : Text := "trustees_mainnet.json"

def technicalCommittee : Text := "technical_committee.json"

def adminKeys : Text := "admin_keys.json"

/-- A specification whose validators, the first of whom is the administrator, and endowed accounts come
from seeds. -/
def seeded (profile : Profile) (administrator : Text) (others endowed : List Text)
    (metadata : Spec.Metadata) : Except Error Spec := do
  let p := profile.parameters
  let accounts ← endowed.mapM fun seed => Seed.account (.text seed)
  let code ← src.image p
  let authorities ← (administrator :: others).mapM fun seed => Authority.ofSeed (.text seed) none
  let assets ← src.assets
  let endowment ← Endowment.allocate accounts (.int p.endowment) p.reservedStake []
  let trusteeSets ← src.trusteeSets testnetTrustees
  let anchor ← src.anchor p
  let adminKey ← Seed.account (.text administrator)
  let state ← Inputs.assemble {
    profile := .text profile.name
    code, authorities, assets, endowment, trusteeSets, anchor
    governance := { adminKey := some adminKey } }
  return Spec.ofState state metadata

/-- The administrator's key of a network, where the profile has one. -/
def adminKey (p : Parameters) : Except Error (Option Bytes) :=
  if p.hasAdminKey then do
    let keys ← src.table adminKeys
    some <$> keys.adminKey p.network.name
  else .ok none

/-- A specification of a public network made anew from the published tables. -/
def rebuilt (profile : Profile) (authoritiesTable : Text) (metadata : Spec.Metadata) :
    Except Error Spec := do
  let p := profile.parameters
  let adminKey ← src.adminKey p
  let code ← src.image p
  let authorities ← (← src.table authoritiesTable).authorities
  let assets ← src.assets
  let endowment ← Endowment.allocate [] (.int p.endowment) p.reservedStake []
  let trusteeSets ← src.trusteeSets mainnetTrustees
  let anchor ← src.anchor p
  let technicalMembers ← (← src.table technicalCommittee).accounts p.network.name
  let builderParams ← (← src.table Table.defaultBuilderParams).builderParams
  let state ← Inputs.assemble {
    profile := .text profile.name
    code, authorities, assets, endowment, trusteeSets, anchor
    governance := { adminKey, technicalMembers }
    builderParams }
  return Spec.ofState state metadata

/-- The published snapshot of a network. -/
def snapshot (name : Text) (metadata : Spec.Metadata) : Except Error Spec := do
  let bs ← src.snapshotBytes name
  Spec.ofSnapshot bs metadata

end Sources

end LedgerGenesis
