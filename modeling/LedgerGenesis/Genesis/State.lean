import LedgerGenesis.Asset.Registry
import LedgerGenesis.Authority
import LedgerGenesis.Endowment
import LedgerGenesis.Hash.Keccak
import LedgerGenesis.Json.MessagePack
import LedgerGenesis.Parameters
import LedgerGenesis.Trustee

/-! # The genesis state and its configuration

A state binds the validators, the initial balances, the asset registry, the seats of governance and the
Bitcoin bridge. `State.toJson` is the configuration of the runtime, one entry for each of its sections;
every section that lists validators does so in the order of the bindings. The digest of a state is the
Keccak-256 hash of the MessagePack form of its configuration.
-/
namespace LedgerGenesis

/-- The keys with which a validator signs in a session. -/
structure SessionKeys where
  babe : Bytes
  grandpa : Bytes
  imOnline : Bytes
  authorityDiscovery : Bytes
  deriving DecidableEq

def SessionKeys.toJson (k : SessionKeys) : Json :=
  .object [
    ("grandpa", .text (Hex.encode k.grandpa)),
    ("babe", .text (Hex.encode k.babe)),
    ("imOnline", .text (Hex.encode k.imOnline)),
    ("authorityDiscovery", .text (Hex.encode k.authorityDiscovery))]

/-- A stash account bound to its session keys. -/
structure Validator where
  stash : Bytes
  referral : Bytes
  keys : SessionKeys
  deriving DecidableEq

def Validator.ofAuthority (a : Authority) : Validator where
  stash := a.account
  referral := a.referral
  keys := {
    babe := a.babe
    grandpa := a.grandpa
    imOnline := a.imOnline
    authorityDiscovery := a.authorityDiscovery }

/-- Seats of governance that do not come from the endowment. -/
structure Governance where
  adminKey : Option Bytes := none
  technicalMembers : List Bytes := []
  deriving DecidableEq

structure Bridge where
  committee : TrusteeSet
  anchor : Anchor
  withdrawalFee : Nat
  maxWithdrawalCount : Nat
  deriving DecidableEq

def Bridge.toJson (b : Bridge) : Json :=
  .object [
    ("genesisTrustees", .list (b.committee.accounts.map fun a => .text (Hex.encode a))),
    ("networkId", .text b.anchor.network.name),
    ("confirmationNumber", .int b.anchor.confirmations),
    ("genesisHash", .text (Hex.encode b.anchor.declaredHash)),
    ("genesisInfo", .list [b.anchor.header.toJson, .int b.anchor.height]),
    ("paramsInfo", b.anchor.retarget.toJson),
    ("btcWithdrawalFee", .int b.withdrawalFee),
    ("maxWithdrawalCount", .int b.maxWithdrawalCount),
    ("verifier", .text "Recover")]

structure State where
  profile : Profile
  code : Bytes
  validators : List Validator
  adminKey : Option Bytes
  balances : Balances
  totalEndowed : Nat
  registry : Registry
  assetsEndowed : List (Int × Balances)
  technicalMembers : List Bytes
  electionsMembers : List (Bytes × Int)
  trusteeSets : List TrusteeSet
  bridge : Bridge
  /-- Opaque migration data, a mapping. -/
  builderParams : Json
  deriving DecidableEq

namespace State

variable (s : State)

def parameters : Parameters := s.profile.parameters

/-- Account, validator id and keys of each validator. -/
def sessionKeys : List (Bytes × Bytes × SessionKeys) :=
  s.validators.map fun v => (v.stash, v.stash, v.keys)

/-- Stash and referral of each validator, who all start as candidates. -/
def stakingCandidates : List (Bytes × Bytes) := s.validators.map fun v => (v.stash, v.referral)

def pairJson (p : Nat × Nat) : Json := .list [.int p.1, .int p.2]

def hexList (accounts : List Bytes) : Json := .list (accounts.map fun a => .text (Hex.encode a))

/-- The field that only profiles with a least number of validators have. -/
def minimumCountField (p : Parameters) : List (Text × Json) :=
  match p.minimumValidatorCount with
  | some n => [("minimumValidatorCount", .int n)]
  | none => []

def stakingFields (p : Parameters) : List (Text × Json) :=
  [("validatorCount", .int p.validatorCount),
    ("sessionsPerEra", .int p.sessionsPerEra),
    ("globDistRatio", pairJson p.distributionRatio),
    ("miningRatio", pairJson p.miningRatio),
    ("minimumPenalty", .int p.minimumPenalty),
    ("candidateRequirement", pairJson p.candidateRequirement)]

def stakingJson (p : Parameters) : Json := .object (stakingFields p ++ minimumCountField p)

def tradingPairJson (t : TradingPair) : Json :=
  .list [.int t.base, .int t.quote, .int t.pipDecimals, .int t.tickDecimals, .int t.latestPrice,
    .bool t.tradable]

def sessionJson : Json :=
  .object [("keys", .list (s.sessionKeys.map fun (account, validator, keys) =>
    .list [.text (Hex.encode account), .text (Hex.encode validator), keys.toJson]))]

def restrictionsJson : Json :=
  .list (s.registry.restrictions.map fun (id, r) => .list [.int id, .int r.bits])

/-- A referral as the text that it encodes. -/
def referralJson (referral : Bytes) : Except Fault Json :=
  match Text.ofUtf8? referral with
  | some t => .ok (.text t)
  | none => .error .notUtf8

/-- The section that only profiles with an admin key have. -/
def sudoSection : List (Text × Json) :=
  match s.adminKey with
  | some key => [("sudo", .object [("key", .text (Hex.encode key))])]
  | none => []

/-- The sections that every profile has, given the parts that need not have a form. -/
def commonSections (endowed : Json) (trustees initialAuthorities : List Json) : List (Text × Json) :=
  let p := s.parameters
  [("system", .object [("code", .text (Hex.encode s.code))]),
    ("babe", .object [
      ("authorities", .list []),
      ("epochConfig", .object [
        ("c", pairJson p.epochProbability), ("allowed_slots", .text p.allowedSlots)])]),
    ("grandpa", .object [("authorities", .list [])]),
    ("council", .object [("members", .list [])]),
    ("technicalCommittee", .object [("members", .list [])]),
    ("technicalMembership", .object [("members", hexList s.technicalMembers)]),
    ("democracy", .object []),
    ("treasury", .object []),
    ("elections", .object [("members", .list (s.electionsMembers.map fun (a, stake) =>
      .list [.text (Hex.encode a), .int stake]))]),
    ("imOnline", .object [("keys", .list [])]),
    ("authorityDiscovery", .object [("keys", .list [])]),
    ("session", s.sessionJson),
    ("balances", .object [("balances", Endowment.balancesJson s.balances)]),
    ("indices", .object [("indices", .list [])]),
    ("xSystem", .object [("networkProps", .text p.network.name)]),
    ("xAssetsRegistrar", .object [("assets", .list (s.registry.entries.map AssetEntry.toJson))]),
    ("xAssets", .object [
      ("assetsRestrictions", s.restrictionsJson),
      ("endowed", endowed)]),
    ("xGatewayCommon", .object [("trustees", .list trustees)]),
    ("xGatewayBitcoin", s.bridge.toJson),
    ("xStaking", stakingJson p),
    ("xMiningAsset", .object [
      ("claimRestrictions", .list (p.claimRestrictions.map fun (id, r) =>
        .list [.int id, pairJson r])),
      ("miningPowerMap", .list (p.miningPower.map fun (id, n) => .list [.int id, .int n]))]),
    ("xSpot", .object [("tradingPairs", .list (p.tradingPairs.map tradingPairJson))]),
    ("xGenesisBuilder", .object [
      ("params", s.builderParams), ("initialAuthorities", .list initialAuthorities)]),
    ("ethereumChainId", .object [("chainId", .int p.evmChainId)]),
    ("evm", .object [("accounts", .object [])]),
    ("ethereum", .object []),
    ("baseFee", .object [
      ("baseFeePerGas", .int baseFeePerGas),
      ("isActive", .bool false),
      ("elasticity", .int baseFeeElasticity)]),
    ("xAssetsBridge", .object [("adminKey", .null)]),
    ("xBtcLedger", .object [])]

def sections : Except Fault (List (Text × Json)) := do
  let endowed ← Endowment.assetsJson s.assetsEndowed
  let trustees ← s.trusteeSets.mapM TrusteeSet.toJson
  let initialAuthorities ← s.stakingCandidates.mapM fun c => referralJson c.2
  return s.sudoSection ++ s.commonSections endowed trustees initialAuthorities

/-- The configuration of the runtime. -/
def toJson : Except Fault Json := s.sections.map .object

/-- The canonical bytes of the configuration. -/
def encode : Except Fault Bytes := do MessagePack.pack (← s.toJson)

def hash : Except Fault Bytes := s.encode.map keccak256

end State

end LedgerGenesis
