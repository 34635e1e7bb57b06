import LedgerGenesis.Genesis.State

/-! # Assembly of a genesis state

All inputs of a genesis are checked against each other before a state exists. The checks run in a fixed
order, and the first one that fails gives the error. The total of the endowment is reported at the end.
-/
namespace LedgerGenesis

/-- What a genesis is assembled from. -/
structure Inputs where
  /-- The name of the profile. -/
  profile : Json
  code : Bytes
  authorities : List Authority
  assets : List AssetDefinition
  endowment : Endowment
  trusteeSets : List TrusteeSet
  anchor : Anchor
  governance : Governance := {}
  /-- Migration data for the genesis builder, null when there is none. -/
  builderParams : Json := .null

namespace Inputs

/-- Each authority has all its keys and a stash that no earlier one has. -/
def bindFrom : Nat → List Bytes → List Authority → Except GenesisError (List Validator)
  | _, _, [] => .ok []
  | index, seen, a :: rest =>
    if !a.isComplete then .error (.missingRoles index a.referral a.missingRoles)
    else if a.account ∈ seen then .error (.duplicateStash a.account)
    else (bindFrom (index + 1) (a.account :: seen) rest).map (Validator.ofAuthority a :: ·)

def bindValidators (authorities : List Authority) : Except GenesisError (List Validator) :=
  if authorities.isEmpty then .error .noAuthorities else bindFrom 0 [] authorities

/-- Endowments of the native currency are kept elsewhere; all others must be of registered assets. -/
def checkEndowedAssets (registry : Registry) (assets : List (Int × Balances)) :
    Except GenesisError (List (Int × Balances)) :=
  let others := assets.filter fun p => p.1 ≠ nativeAsset
  match others.find? fun p => p.1 ∉ registry.restrictions.map Prod.fst with
  | some (id, _) => .error (.endowmentOfUnknownAsset id)
  | none => .ok others

/-- Where accounts are endowed, every validator's stash is among them. -/
def checkStashes (endowment : Endowment) (validators : List Validator) : Except GenesisError Unit :=
  if endowment.native.isEmpty then .ok ()
  else match validators.find? fun v => !endowment.accounts.contains v.stash with
    | some v => .error (.unendowedValidator v.referral v.stash)
    | none => .ok ()

/-- An admin key is given exactly where the profile has one. -/
def checkAdminKey (profile : Profile) (key : Option Bytes) : Except GenesisError Unit :=
  match profile.parameters.hasAdminKey, key with
  | true, none => .error (.adminKeyRequired profile)
  | false, some _ => .error (.adminKeyForbidden profile)
  | _, _ => .ok ()

/-- The Bitcoin network that a network family is bridged to. -/
def bridgedNetwork : Network → BitcoinNetwork
  | .mainnet => .mainnet
  | .testnet => .testnet

def checkAnchor (p : Parameters) (anchor : Anchor) : Except GenesisError Unit :=
  if anchor.network ≠ bridgedNetwork p.network then
    .error (.wrongBitcoinNetwork p.network anchor.network)
  else if anchor.retarget ≠ p.retarget then .error .retargetMismatch
  else .ok ()

/-- Seats of the technical committee and of the elected council. -/
def seats (p : Parameters) (endowment : Endowment) (governance : Governance) :
    List Bytes × List (Bytes × Int) :=
  if p.derivesGovernance then (endowment.technicalMembers, endowment.electionsMembers)
  else (governance.technicalMembers, [])

/-- Migration data as a mapping; an empty value stands for an empty one. -/
def builderMapping (v : Json) : Except Fault Json :=
  if v.isTruthy then v.toMapping else .ok (.object [])

end Inputs

open Inputs in
/-- The state that consistent inputs make. -/
def Inputs.assemble (i : Inputs) : Except Error State := do
  let profile ← Profile.ofJson i.profile
  let p := profile.parameters
  let validators ← bindValidators i.authorities
  let registry ← Registry.ofDefinitions i.assets []
  let assetsEndowed ← raising (checkEndowedAssets registry i.endowment.assets)
  checkStashes i.endowment validators
  checkAdminKey profile i.governance.adminKey
  let (technicalMembers, electionsMembers) := seats p i.endowment i.governance
  checkAnchor p i.anchor
  let committee ← TrusteeSet.committee i.trusteeSets (some i.anchor) .bitcoin
  let builderParams ← builderMapping i.builderParams
  Json.report [.int i.endowment.total]
  return {
    profile
    code := i.code
    validators
    adminKey := i.governance.adminKey
    balances := i.endowment.native
    totalEndowed := i.endowment.total
    registry
    assetsEndowed
    technicalMembers
    electionsMembers
    trusteeSets := i.trusteeSets
    bridge := {
      committee
      anchor := i.anchor
      withdrawalFee := p.withdrawalFee
      maxWithdrawalCount := p.maxWithdrawalCount }
    builderParams }

end LedgerGenesis
