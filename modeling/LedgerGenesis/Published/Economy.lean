import LedgerGenesis.Published.Layout

/-! # Published assets and migration data -/
namespace LedgerGenesis.Published

def genesisAssets : Layout :=
  table [("assets", .items [
    .fields [
      ("id", 1),
      ("token", "XBTC"),
      ("token_name", "ChainX Bitcoin"),
      ("chain", "Bitcoin"),
      ("decimals", 8),
      ("desc", "ChainX's cross-chain Bitcoin"),
      ("restrictions", .line (.list [.text "DESTROY_USABLE"])),
      ("is_online", .line (.bool true)),
      ("has_mining_rights", .line (.bool true))]])]

def noItems : Layout := .line (.list [])

def builderParams : Layout :=
  table [("params", .fields [
    ("balances", noItems),
    ("xassets", noItems),
    ("xstaking", .fields [("validators", noItems), ("nominators", noItems)]),
    ("xmining_asset", .fields [("xbtc_miners", noItems), ("xbtc_info", .line .null)])])]

end LedgerGenesis.Published
