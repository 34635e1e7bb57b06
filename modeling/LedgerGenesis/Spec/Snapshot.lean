import LedgerGenesis.Spec.Basic

/-! # Frozen specifications

A snapshot is the document of a specification. Reading one checks its shape and takes the metadata out of
it; the document itself is kept, so that writing the specification gives it back.
-/
namespace LedgerGenesis.Spec

/-- The fields that every snapshot has. -/
def requiredFields : List Text := ["formatVersion", "name", "id", "chainType", "genesis"]

def fieldOrNull (doc : Document) (key : Text) : Json := (Json.lookup key doc).getD .null

/-- A value, or a default where it is empty. -/
def orIfEmpty (v default : Json) : Json := if v.isTruthy then v else default

def checkFields (doc : Document) : Except GenesisError Unit :=
  match requiredFields.filter fun k => !(Json.keys doc).contains k with
  | [] => .ok ()
  | missing => .error (.snapshotLacks missing)

def checkVersion (version : Json) : Except GenesisError Unit :=
  if version.equal (.int formatVersion) then .ok () else .error (.unsupportedFormat version)

def readChainType (v : Json) : Except GenesisError ChainType :=
  match ChainType.ofJson? v with
  | some t => .ok t
  | none => .error (.unknownChainType v)

/-- Genesis data holds raw storage or the configuration of a runtime. -/
def holdsGenesis : Json → Bool
  | .object fields => fields.any fun f => f.1 = Text.ofString "raw" ∨ f.1 = Text.ofString "runtime"
  | _ => false

def readEndpoint (v : Json) : Except Fault (Json × Json) := do
  let (address, verbosity) ← v.toPair
  return (address, .int (← verbosity.toInt))

def readEndpoints (v : Json) : Except Fault (List (Json × Json)) :=
  (orIfEmpty v (.list [])).elements.bind (·.mapM readEndpoint)

def readTelemetry (v : Json) : Except Error (List (Json × Json)) :=
  reporting [.shape, .content] (fun _ => .malformedTelemetry) ((readEndpoints v).mapError .fault)

def isText : Json → Bool
  | .text _ => true
  | _ => false

def readBootNodes : Json → Except GenesisError (List Json)
  | .null => .ok []
  | .list nodes => if nodes.all isText then .ok nodes else .error .malformedBootNodes
  | _ => .error .malformedBootNodes

def ofDocument (doc : Document) : Except Error Spec := do
  let value := fieldOrNull doc
  checkFields doc
  checkVersion (value "formatVersion")
  let chainType ← readChainType (value "chainType")
  let genesis := value "genesis"
  if !holdsGenesis genesis then throw (.genesis .snapshotWithoutGenesis)
  let telemetry ← readTelemetry (value "telemetryEndpoints")
  let bootNodes ← readBootNodes (value "bootNodes")
  return {
    metadata := {
      name := value "name"
      id := value "id"
      chainType, bootNodes, telemetry
      protocolId := value "protocolId"
      properties := value "properties"
      extensions := {
        forkBlocks := value "forkBlocks"
        badBlocks := value "badBlocks"
        lightSyncState := value "lightSyncState" } }
    genesis := .frozen genesis
    codeSubstitutes := orIfEmpty (value "codeSubstitutes") (.object [])
    source := some doc }

/-- The specification of a snapshot. -/
def ofBytes (bs : Bytes) : Except Error Spec := do ofDocument (← Document.decode bs)

/-- Whether reading a snapshot and writing it gives the same bytes. -/
def isByteStable (bs : Bytes) : Except Error Bool := do
  let s ← ofBytes bs
  return (← s.toBytes) == bs

/-- An assembled state under the given metadata. -/
def ofState (s : State) (m : Metadata) : Spec where
  metadata := m
  genesis := .assembled s

/-- A snapshot that must agree with the given metadata on name and id, and otherwise keeps its own. -/
def ofSnapshot (bs : Bytes) (m : Metadata) : Except Error Spec := do
  let s ← ofBytes bs
  if s.metadata.name.equal m.name && s.metadata.id.equal m.id then return s
  else throw (.genesis (.snapshotMismatch s.metadata.name s.metadata.id m.name m.id))

end LedgerGenesis.Spec
