import LedgerGenesis.Asset.Registry
import LedgerGenesis.Authority
import LedgerGenesis.Bitcoin.Anchor
import LedgerGenesis.Cache
import LedgerGenesis.Files.Basic
import LedgerGenesis.Trustee

/-! # Tables of genesis inputs

A table is a file that holds an object of version one. Its sections are taken for what the genesis needs:
an anchor, trustees, assets, authorities, accounts and an administrator's key.
-/
namespace LedgerGenesis

structure Table where
  name : Text
  fields : List (Text × Json)
  deriving DecidableEq

namespace Table

def version : Int := 1

/-- The path of a table in a directory that settings name. -/
def path (directory : Json) (name : Text) : Except Fault Text :=
  match directory with
  | .text d => .ok (Path.join d name)
  | _ => .error .notAPath

/-- The bytes of a table's file. -/
def readBytes (fs : Files) (directory : Json) (name : Text) : Except Error Bytes := do
  let p ← path directory name
  if fs.isFile p then fs.read p else throw (.genesis (.resourceNotFound name directory.display))

/-- The table that a file's bytes denote. -/
def ofBytes (name : Text) (bs : Bytes) : Except GenesisError Table :=
  match Text.ofUtf8? bs with
  | none => .error (.malformedResource name)
  | some t =>
    match Json.parse t with
    | .error _ => .error (.malformedResource name)
    | .ok (.object fields) =>
      let v := (Json.lookup "version" fields).getD .null
      if v.equal (.int version) then .ok ⟨name, fields⟩ else .error (.resourceVersion name v)
    | .ok _ => .error (.resourceNotObject name)

def read (fs : Files) (directory : Json) (name : Text) : Except Error Table := do
  let bs ← readBytes fs directory name
  ofBytes name bs

variable (t : Table)

def toJson : Json := .object t.fields

def sectionAt (key : Text) : Except GenesisError Json :=
  match Json.lookup key t.fields with
  | some v => .ok v
  | none => .error (.resourceSection t.name key)

/-- Each entry of a section. -/
def entries (key : Text) : Except Error (List Json) := do
  let v ← t.sectionAt key
  v.elements

def anchor (retarget : Retarget) : Except Error Anchor := Anchor.ofJson t.toJson retarget

def trusteeSets : Except Error (List TrusteeSet) := do (← t.entries "candidates").mapM TrusteeSet.ofJson

def assets : Except Error (List AssetDefinition) := do
  (← t.entries "assets").mapM fun v => (AssetDefinition.ofJson v).mapError .fault

def authorities : Except Error (List Authority) := do (← t.entries "authorities").mapM Authority.ofJson

def accounts (key : Text) : Except Error (List Bytes) := do
  (← t.entries key).mapM fun v => v.toBytes.mapError .fault

/-- The administrator's key for a network. -/
def adminKey (network : Text) : Except Error Bytes := do
  let keys ← t.sectionAt "admin_keys"
  let key ← reporting [.key] (fun _ => .noAdminKey network t.name)
    ((keys.field network).mapError .fault)
  key.toBytes

def builderParams : Except GenesisError Json := t.sectionAt "params"

/-- The tables that inputs have by default. -/
def defaultAssets : Text := "genesis_assets.json"

def defaultBuilderParams : Text := "genesis_builder_params.json"

end Table

/-- The tables of a directory, each read at most once. -/
structure TableStore where
  directory : Json
  tables : Cache Table := []
  deriving DecidableEq

def TableStore.load (fs : Files) (name : Text) (s : TableStore) : Except Error Table × TableStore :=
  let (t, tables) := s.tables.fetch name (Table.read fs s.directory)
  (t, { s with tables })

/-- A section of a table, which is loaded as a whole. -/
def TableStore.loadSection (fs : Files) (name key : Text) (s : TableStore) : Except Error Json × TableStore :=
  let (t, s) := s.load fs name
  (do (← t).sectionAt key, s)

end LedgerGenesis
