import LedgerGenesis.Spec.Basic

/-! # Published snapshots -/
namespace LedgerGenesis.Published

def chainXTelemetry : Text := "wss://telemetry.chainx.org/submit/"

def polkadotTelemetry : Text := "wss://telemetry.polkadot.io/submit/"

/-- Raw storage that holds an empty code module and the number of heap pages. -/
def emptyStorage : Json :=
  .object [("raw", .object [
    ("top", .object [
      ("0x3a636f6465", .text "0x0061736d01000000"),
      ("0x3a686561707061676573", .text "0x0008000000000000")]),
    ("childrenDefault", .object [])])]

/-- A live chain whose endpoints all have verbosity zero. -/
def liveSnapshot (name id : Text) (network : Network) (telemetry : List Text) : Spec where
  metadata := {
    name := .text name
    id := .text id
    chainType := .live
    telemetry := telemetry.map fun address => (.text address, .int 0)
    protocolId := .text "pcx1"
    properties := Spec.networkProperties network }
  genesis := .frozen emptyStorage

def mainnetSnapshot : Spec :=
  liveSnapshot "ChainX" "chainx" .mainnet [chainXTelemetry, polkadotTelemetry]

def testnetSnapshot : Spec := liveSnapshot "ChainX-Malan" "chainx-malan" .testnet [chainXTelemetry]

end LedgerGenesis.Published
