import LedgerGenesis.Files.Basic
import LedgerGenesis.Published.Anchors
import LedgerGenesis.Published.Economy
import LedgerGenesis.Published.Governance
import LedgerGenesis.Published.Snapshots
import LedgerGenesis.Published.Trustees

/-! # The directory of published tables -/
namespace LedgerGenesis.Published

/-- The directory that holds the published tables. -/
def directory : Text := "/usr/share/ledger-genesis/res"

def snapshotBytes (s : Spec) : Bytes := s.toBytes.toOption.getD []

/-- The published tables by file name. -/
def catalog : List (String × Bytes) :=
  [("admin_keys.json", adminKeys.bytes),
    ("authorities_mainnet.json", mainnetAuthorities.bytes),
    ("authorities_malan.json", testnetAuthorities.bytes),
    ("btc_genesis_params_mainnet.json", mainnetAnchor.bytes),
    ("btc_genesis_params_testnet.json", testnetAnchor.bytes),
    ("chainx_regenesis.json", snapshotBytes mainnetSnapshot),
    ("genesis_assets.json", genesisAssets.bytes),
    ("genesis_builder_params.json", builderParams.bytes),
    ("malan.json", snapshotBytes testnetSnapshot),
    ("technical_committee.json", technicalCommittee.bytes),
    ("trustees_mainnet.json", mainnetTrustees.bytes),
    ("trustees_testnet.json", testnetTrustees.bytes)]

/-- The published tables put into a directory. -/
def install (directory : Text) (fs : Files) : Files.Attempt :=
  catalog.foldl (fun a entry => a.andThen fun fs => fs.place (Path.join directory entry.1) entry.2)
    { files := fs }

end LedgerGenesis.Published
