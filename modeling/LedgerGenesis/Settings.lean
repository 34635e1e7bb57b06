import LedgerGenesis.Bitcoin.Anchor
import LedgerGenesis.Files.Basic
import LedgerGenesis.Image.Store
import LedgerGenesis.Json.Printer
import LedgerGenesis.Published.Catalog

/-! # Settings of the builder

Settings say where the code images and the tables are and which telemetry endpoints the public networks
have. A settings file is an object of three sections; what it leaves out keeps its default. The values
themselves are checked where they are used.
-/
namespace LedgerGenesis

structure Settings where
  devImage : Json := .text "./runtime/dev_runtime.compact.wasm"
  malanImage : Json := .text "./runtime/malan_runtime.compact.wasm"
  chainxImage : Json := .text "./runtime/chainx_runtime.compact.wasm"
  tableDirectory : Json := .text Published.directory
  mainnetTelemetry : Json :=
    .list [.text Published.chainXTelemetry, .text Published.polkadotTelemetry]
  testnetTelemetry : Json := .list [.text Published.chainXTelemetry]
  verbosity : Json := .int 0
  deriving DecidableEq

namespace Settings

def runtimeFields : List Text := ["dev", "malan", "chainx"]

def tableFields : List Text := ["res_dir"]

def telemetryFields : List Text := ["mainnet", "testnet", "verbosity"]

/-- A section of settings, which holds no fields but the given ones. -/
def readSection (key : Text) (known : List Text) (file : List (Text × Json)) :
    Except Fault (List (Text × Json)) :=
  match (Json.lookup key file).getD (.object []) with
  | .object fields =>
    match fields.find? fun f => !known.contains f.1 with
    | some f => .error (.unknownSetting f.1)
    | none => .ok fields
  | _ => .error .notSettings

def fieldOr (fields : List (Text × Json)) (key : Text) (default : Json) : Json :=
  (Json.lookup key fields).getD default

def ofJson : Json → Except Fault Settings
  | .object file => do
    let runtime ← readSection "runtime" runtimeFields file
    let tables ← readSection "resources" tableFields file
    let telemetry ← readSection "telemetry" telemetryFields file
    let default : Settings := {}
    return {
      devImage := fieldOr runtime "dev" default.devImage
      malanImage := fieldOr runtime "malan" default.malanImage
      chainxImage := fieldOr runtime "chainx" default.chainxImage
      tableDirectory := fieldOr tables "res_dir" default.tableDirectory
      mainnetTelemetry := fieldOr telemetry "mainnet" default.mainnetTelemetry
      testnetTelemetry := fieldOr telemetry "testnet" default.testnetTelemetry
      verbosity := fieldOr telemetry "verbosity" default.verbosity }
  | _ => .error .notMapping

def ofBytes (bs : Bytes) : Except Fault Settings :=
  match Text.ofUtf8? bs with
  | none => .error .notUtf8
  | some t => (Json.parse t).bind ofJson

/-- The settings of a file. -/
def ofFile (fs : Files) (path : Text) : Except Fault Settings := (fs.read path).bind ofBytes

variable (s : Settings)

def imagePaths : ImagePaths :=
  [("dev", s.devImage), ("malan", s.malanImage), ("chainx", s.chainxImage)]

def toJson : Json :=
  .object [
    ("runtime", .object s.imagePaths),
    ("resources", .object [("res_dir", s.tableDirectory)]),
    ("telemetry", .object [
      ("mainnet", s.mainnetTelemetry),
      ("testnet", s.testnetTelemetry),
      ("verbosity", s.verbosity)])]

/-- The text of a settings file, which is all ASCII. -/
def fileText : Text := s.toJson.render Json.asciiStyle 0

def toBytes : Bytes := (s.fileText.utf8?).getD []

/-- Endpoints of a network, each with the one verbosity. -/
def telemetry (n : Network) : Except Fault (List (Json × Json)) := do
  let addresses ← (match n with
    | .mainnet => s.mainnetTelemetry
    | .testnet => s.testnetTelemetry).elements
  return addresses.map (·, s.verbosity)

end Settings

end LedgerGenesis
