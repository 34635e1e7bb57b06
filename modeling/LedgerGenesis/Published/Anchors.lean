import LedgerGenesis.Published.Layout

/-! # Published anchors of the Bitcoin bridge -/
namespace LedgerGenesis.Published

/-- The first block of the main network. -/
def mainnetAnchor : Layout :=
  table [
    ("network", "Mainnet"),
    ("confirmation_number", 4),
    ("height", 0),
    ("hash", "000000000019d6689c085ae165831e934ff763ae46a2a6c172b3f1b60a8ce26f"),
    ("header_version", 1),
    ("previous_header_hash", "0000000000000000000000000000000000000000000000000000000000000000"),
    ("merkle_root_hash", "4a5e1e4baab89f3a32518a88c31bc87f618f76673e2cc77ab2127b7afdeda33b"),
    ("time", 1231006505),
    ("bits", 486604799),
    ("nonce", 2083236893)]

/-- The first block of the test network. -/
def testnetAnchor : Layout :=
  table [
    ("network", "Testnet"),
    ("confirmation_number", 4),
    ("height", 0),
    ("hash", "000000000933ea01ad0ee984209779baaec3ced90fa3f408719526f8d77f4943"),
    ("header_version", 1),
    ("previous_header_hash", "0000000000000000000000000000000000000000000000000000000000000000"),
    ("merkle_root_hash", "4a5e1e4baab89f3a32518a88c31bc87f618f76673e2cc77ab2127b7afdeda33b"),
    ("time", 1296688602),
    ("bits", 486604799),
    ("nonce", 414098458)]

end LedgerGenesis.Published
