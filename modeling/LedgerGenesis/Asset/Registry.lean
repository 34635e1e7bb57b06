import LedgerGenesis.Asset.Restrictions

/-! # The asset registry

Definitions of assets split into registry entries and the restrictions of each asset. The native
currency has the reserved id zero: its balances are no business of the registry.
-/
namespace LedgerGenesis

structure AssetInfo where
  token : Json
  tokenName : Json
  chain : Chain
  decimals : Int
  desc : Json
  deriving DecidableEq

def AssetInfo.toJson (i : AssetInfo) : Json :=
  .object [("token", i.token), ("tokenName", i.tokenName), ("chain", .text i.chain.name),
    ("decimals", .int i.decimals), ("desc", i.desc)]

structure AssetDefinition where
  id : Int
  info : AssetInfo
  restrictions : Restrictions
  isOnline : Bool
  hasMiningRights : Bool
  deriving DecidableEq

/-- What the registry keeps of a definition. -/
structure AssetEntry where
  id : Int
  info : AssetInfo
  isOnline : Bool
  hasMiningRights : Bool
  deriving DecidableEq

def AssetEntry.toJson (e : AssetEntry) : Json :=
  .list [.int e.id, e.info.toJson, .bool e.isOnline, .bool e.hasMiningRights]

namespace AssetDefinition

def readChain (v : Json) : Except Fault Chain :=
  match Chain.ofJson? v with
  | some c => .ok c
  | none => .error (Fault.unknownChain v).raised

def ofJson (data : Json) : Except Fault AssetDefinition := do
  let id ← (← data.field "id").toInt
  let token ← data.field "token"
  let tokenName ← data.field "token_name"
  let chain ← readChain (← data.field "chain")
  let decimals ← (← data.field "decimals").toInt
  let desc ← data.field "desc"
  let restrictions ← Restrictions.ofJson (← data.fieldOr "restrictions" (.list []))
  let isOnline ← data.fieldOr "is_online" (.bool true)
  let hasMiningRights ← data.fieldOr "has_mining_rights" (.bool true)
  return {
    id, info := { token, tokenName, chain, decimals, desc }, restrictions
    isOnline := isOnline.isTruthy, hasMiningRights := hasMiningRights.isTruthy }

def entry (d : AssetDefinition) : AssetEntry := ⟨d.id, d.info, d.isOnline, d.hasMiningRights⟩

end AssetDefinition

/-- The id of the native currency. -/
def nativeAsset : Int := 0

def nativeInfo : AssetInfo where
  token := .text "PCX"
  tokenName := .text "Polkadot ChainX"
  chain := .chainX
  decimals := 8
  desc := .text "ChainX's crypto currency in Polkadot ecology"

/-- The native currency may only be moved and transferred. -/
def nativeRestrictions : Restrictions := ⟨4 ||| 8 ||| 16 ||| 32⟩

/-- Restrictions by asset, in the order of registration. -/
abbrev RestrictionMap := List (Int × Restrictions)

structure Registry where
  entries : List AssetEntry
  restrictions : RestrictionMap
  deriving DecidableEq

namespace Registry

/-- No definition may take the reserved id or one of those seen before it. -/
def checkIds : List Int → List AssetDefinition → Except GenesisError Unit
  | _, [] => .ok ()
  | seen, d :: ds =>
    if d.id = nativeAsset then .error (.reservedAsset d.info.token)
    else if d.id ∈ seen then .error (.duplicateAsset d.id)
    else checkIds (d.id :: seen) ds

def setRestrictions (id : Int) (r : Restrictions) (m : RestrictionMap) : RestrictionMap :=
  m.map fun p => if p.1 = id then (id, r) else p

/-- Each override in turn; every one must be of a registered asset. -/
def override (m : RestrictionMap) : List (Int × Restrictions) → Except GenesisError RestrictionMap
  | [] => .ok m
  | (id, r) :: rest =>
    if id ∈ m.map Prod.fst then override (setRestrictions id r m) rest
    else .error (.restrictionOnUnknownAsset id)

def split (definitions : List AssetDefinition) (overrides : List (Int × Restrictions)) :
    Except GenesisError Registry := do
  checkIds [] definitions
  let restrictions ← override (definitions.map fun d => (d.id, d.restrictions)) overrides
  return { entries := definitions.map AssetDefinition.entry, restrictions }

/-- The registry of definitions, whose tokens are reported. -/
def ofDefinitions (definitions : List AssetDefinition) (overrides : List (Int × Restrictions)) :
    Except Error Registry := do
  let registry ← raising (split definitions overrides)
  Json.report (registry.entries.map fun e => e.info.token)
  return registry

end Registry

end LedgerGenesis
