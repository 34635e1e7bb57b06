import LedgerGenesis.Spec.Sources

/-! # The specifications that have names

Development and local networks are seeded. The public networks have a snapshot, which nodes start from,
and can be rebuilt from their tables. Any other specification is named by the path of its file.
-/
namespace LedgerGenesis

inductive Preset where
  | development
  | «local»
  | malan
  | newMalan
  | mainnet
  | newMainnet
  deriving DecidableEq

namespace Preset

/-- The ids by which specifications are asked for. -/
def ids : List (String × Preset) :=
  [("dev", development), ("local", «local»), ("malan", malan), ("testnet", malan),
    ("new-malan", newMalan), ("mainnet", mainnet), ("chainx", mainnet), ("new-mainnet", newMainnet)]

def ofId? (id : Text) : Option Preset := (ids.find? fun p => Text.ofString p.1 = id).map Prod.snd

/-- The preset of a profile, from its snapshot or made anew. -/
def ofProfile (profile : Profile) (frozen : Bool) : Except GenesisError Preset :=
  match profile, frozen with
  | .development, false => .ok development
  | .local, false => .ok «local»
  | .publicTest, false => .ok newMalan
  | .main, false => .ok newMainnet
  | .publicTest, true => .ok malan
  | .main, true => .ok mainnet
  | .development, true | .local, true => .error (.noSnapshot profile)

def malanSnapshot : Text := "malan.json"

def mainnetSnapshot : Text := "chainx_regenesis.json"

/-- The table that holds the snapshot. -/
def snapshotTable? : Preset → Option Text
  | malan => some malanSnapshot
  | mainnet => some mainnetSnapshot
  | _ => none

def stash (seed : Text) : Text := seed ++ "//stash"

def alice : Text := "Alice"

def bob : Text := "Bob"

/-- The well-known names of local networks. -/
def localNames : List Text := [alice, bob, "Charlie", "Dave", "Eve", "Ferdie"]

def malanMetadata (s : Settings) : Except Fault Spec.Metadata :=
  s.metadata .publicTest (.text "ChainX-Malan") (.text "chainx-malan") (.text "pcx1") true

def mainnetMetadata (s : Settings) : Except Fault Spec.Metadata :=
  s.metadata .main (.text "ChainX") (.text "chainx") (.text "pcx1") true

def build (src : Sources) : Preset → Except Error Spec
  | development => do
    let metadata ← src.settings.metadata .development (.text "Development") (.text "dev")
      (.text "chainx-dev") false
    src.seeded .development alice [] [alice, bob, stash alice, stash bob] metadata
  | «local» => do
    let metadata ← src.settings.metadata .local (.text "ChainX Local Testnet") (.text "dev")
      (.text "pcx") false
    src.seeded .local alice [bob] (localNames ++ localNames.map stash) metadata
  | malan => do src.snapshot malanSnapshot (← malanMetadata src.settings)
  | mainnet => do src.snapshot mainnetSnapshot (← mainnetMetadata src.settings)
  | newMalan => do src.rebuilt .publicTest "authorities_malan.json" (← malanMetadata src.settings)
  | newMainnet => do src.rebuilt .main "authorities_mainnet.json" (← mainnetMetadata src.settings)

end Preset

namespace Spec

/-- The snapshot in a file. -/
def ofFile (fs : Files) (path : Text) : Except Error Spec := do
  let bs ← reporting [.system] (fun _ => .unreadableSpec path) ((fs.read path).mapError .fault)
  ofBytes bs

/-- The specification of a profile's name. -/
def ofProfile (src : Sources) (profile : Json) (frozen : Bool) : Except Error Spec := do
  let profile ← Profile.ofJson profile
  let preset ← Preset.ofProfile profile frozen
  preset.build src

/-- The specification of an id, or else of the file at that path. -/
def load (src : Sources) (id : Text) : Except Error Spec :=
  match Preset.ofId? id with
  | some preset => preset.build src
  | none => if src.files.isFile id then ofFile src.files id else .error (.genesis (.unknownSpec id))

/-- The bytes of the snapshot of an id, or else of the file at that path. -/
def snapshotBytes (src : Sources) (id : Text) : Except Error Bytes :=
  match (Preset.ofId? id).bind Preset.snapshotTable? with
  | some name => src.snapshotBytes name
  | none =>
    if src.files.isFile id then (src.files.read id).mapError .fault
    else .error (.genesis (.notFrozen id))

end Spec

end LedgerGenesis
