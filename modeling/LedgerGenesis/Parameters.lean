import LedgerGenesis.Asset.Registry
import LedgerGenesis.Bitcoin.Retarget

/-! # Constants of each profile -/
namespace LedgerGenesis

def nativeDecimals : Nat := 8

def nativeSymbol : String := "PCX"

/-- The id of bridged bitcoin. -/
def bridgedBitcoin : Int := 1

/-- Smallest units of the native currency in a dollar. -/
def dollars : Nat := Nat.pow 10 nativeDecimals

def cents : Nat := dollars / 100

def millisecondsPerBlock : Nat := 6000

/-- Blocks in a minute, an hour and a day. -/
def minutes : Nat := 60000 / millisecondsPerBlock

def hours : Nat := minutes * 60

def days : Nat := hours * 24

def seedEndowment : Nat := 10000000 * dollars

/-- What an elected council seat reserves. -/
def councilStake : Nat := 100 * dollars

def baseFeePerGas : Nat := 10000000000

/-- In parts per million. -/
def baseFeeElasticity : Nat := 125000

/-- A market of two assets. -/
structure TradingPair where
  base : Int
  quote : Int
  pipDecimals : Int
  tickDecimals : Int
  latestPrice : Int
  tradable : Bool
  deriving DecidableEq

structure Parameters where
  network : Network
  chainType : ChainType
  hasAdminKey : Bool
  /-- Whether governance seats come from the endowed accounts. -/
  derivesGovernance : Bool
  /-- The family of the runtime code image. -/
  runtime : String
  /-- The table that holds the anchor. -/
  anchorTable : String
  retarget : Retarget
  sessionsPerEra : Nat
  evmChainId : Nat
  endowment : Nat
  minimumValidatorCount : Option Nat
  validatorCount : Nat := 40
  /-- Shares of the treasury, and of cross-chain assets and staking. -/
  distributionRatio : Nat × Nat := (12, 88)
  /-- Shares of asset mining and of staking. -/
  miningRatio : Nat × Nat := (10, 90)
  minimumPenalty : Nat := 100 * dollars
  /-- Own and total bond of a candidate. -/
  candidateRequirement : Nat × Nat := (100 * dollars, 1000 * dollars)
  reservedStake : Nat := councilStake
  withdrawalFee : Nat := 500000
  maxWithdrawalCount : Nat := 100
  /-- By asset, the staking required to claim and the claim interval. -/
  claimRestrictions : List (Int × (Nat × Nat)) := [(bridgedBitcoin, (10, days * 7))]
  miningPower : List (Int × Nat) := [(bridgedBitcoin, 400)]
  tradingPairs : List TradingPair := [⟨nativeAsset, bridgedBitcoin, 9, 2, 100000, true⟩]
  epochProbability : Nat × Nat := (1, 4)
  allowedSlots : String := "PrimaryAndSecondaryPlainSlots"

namespace Profile

def testnetAnchorTable : String := "btc_genesis_params_testnet.json"

def parameters : Profile → Parameters
  | development => {
    network := .testnet, chainType := .development, hasAdminKey := true, derivesGovernance := true
    runtime := "dev", anchorTable := testnetAnchorTable, retarget := .testnet
    sessionsPerEra := 12, evmChainId := 1503, endowment := seedEndowment
    minimumValidatorCount := none }
  | «local» => {
    network := .testnet, chainType := .local, hasAdminKey := true, derivesGovernance := true
    runtime := "dev", anchorTable := testnetAnchorTable, retarget := .testnet
    sessionsPerEra := 12, evmChainId := 1503, endowment := seedEndowment
    minimumValidatorCount := none }
  | publicTest => {
    network := .testnet, chainType := .live, hasAdminKey := true, derivesGovernance := false
    runtime := "malan", anchorTable := testnetAnchorTable, retarget := .testnet
    sessionsPerEra := 12, evmChainId := 1502, endowment := 0, minimumValidatorCount := some 2 }
  | main => {
    network := .mainnet, chainType := .live, hasAdminKey := false, derivesGovernance := false
    runtime := "chainx", anchorTable := "btc_genesis_params_mainnet.json", retarget := .mainnet
    sessionsPerEra := 1, evmChainId := 1501, endowment := 0, minimumValidatorCount := none }

/-- The profile of a name. -/
def ofJson (v : Json) : Except Error Profile :=
  match ofJson? v with
  | some p => .ok p
  | none => .error (GenesisError.unknownProfile v).raised

end Profile

end LedgerGenesis
