import LedgerGenesis.CommandLine.Invocation
import LedgerGenesis.Spec.Preset

/-! # Outcomes

Doing an invocation prints a text, leaves the files behind that it wrote, and ends in one of four ways.
Errors of a genesis are reported; a fault that no report covers ends the invocation with what it has
printed and written so far.
-/
namespace LedgerGenesis.CommandLine

inductive Ending where
  | completed
  | reported (e : GenesisError)
  /-- The frozen specification changes when it is written anew. -/
  | unstable (chain : Text)
  | aborted (f : Fault)
  deriving DecidableEq

structure Outcome where
  printed : Text
  files : Files
  ending : Ending
  deriving DecidableEq

namespace Ending

def ofError : Error → Ending
  | .genesis e => reported e
  | .fault f => aborted f

/-- The status of an invocation that has an end of its own. -/
def status? : Ending → Option Nat
  | completed => some 0
  | reported _ | unstable _ => some 1
  | aborted _ => none

def unstableComplaint (chain : Text) : Text := "Frozen spec '" ++ chain ++ "' changes when re-encoded"

end Ending

namespace Given

/-- An option without text shows as the list of its no values. -/
def display : Given → Text
  | text t => t
  | nothing => "[]"

/-- The path of a file. -/
def path : Given → Except Fault Text
  | text t => .ok t
  | nothing => .error .notAPath

/-- The id of a specification, or the path of its file. -/
def id : Given → Except Fault Text
  | text t => .ok t
  | nothing => .error .notAKey

end Given

namespace Outcome

variable (accepts : Image.Validator) (fs : Files)

def announcement : Option Given → Text
  | none => []
  | some config => "Loading builder configuration from: " ++ config.display ++ "\n"

/-- The settings of a configuration file, or the defaults where none is given. -/
def settings : Option Given → Except Error Settings
  | none => .ok {}
  | some config =>
    reporting [.system, .content, .shape, .access] (fun _ => .unreadableConfiguration config.display)
      ((config.path.bind (Settings.ofFile fs)).mapError .fault)

/-- A file put at a path, and what follows once it stands there. -/
def placing (output : Given) (bs : Bytes) (printed : Text) (next : Text → Files → Outcome) : Outcome :=
  match output.path with
  | .error f => { printed, files := fs, ending := .aborted f }
  | .ok path =>
    let attempt := fs.place path bs
    match attempt.fault? with
    | some f => { printed, files := attempt.files, ending := .aborted f }
    | none => next path attempt.files

/-- The specification of a chain with its document. -/
def specWithBytes (chain : Given) (config : Option Given) : Except Error (Spec × Bytes) := do
  let settings ← settings fs config
  let spec ← Spec.load { files := fs, settings, accepts } (← chain.id)
  return (spec, ← spec.toBytes)

def writtenNotice (s : Spec) (path : Text) : Text :=
  "\nChain spec '" ++ s.metadata.name.display ++ "' (" ++ s.metadata.id.display ++ ") written to: " ++
    path ++ "\n"

def genesisNotice : Option Bytes → Text
  | some hash => "  - Genesis hash: " ++ Hex.encode hash ++ "\n"
  | none => "  - Frozen genesis, copied verbatim\n"

/-- The outcome once the document of a specification is in its file. -/
def written (s : Spec) (printed path : Text) (files : Files) : Outcome :=
  let printed := printed ++ writtenNotice s path
  match s.genesisHash with
  | .error f => { printed, files, ending := .aborted f }
  | .ok hash => { printed := printed ++ genesisNotice hash, files, ending := .completed }

def ofBuildSpec (chain : Given) (output config : Option Given) : Outcome :=
  let printed := announcement config
  match specWithBytes accepts fs chain config with
  | .error e => { printed, files := fs, ending := .ofError e }
  | .ok (spec, bs) =>
    match output with
    | none =>
      { printed := printed ++ (Text.ofUtf8? bs).getD [], files := fs, ending := .completed }
    | some output => placing fs output bs printed (written spec printed)

/-- The snapshot of a chain, and whether it is written anew as it is. -/
def checkedSnapshot (chain : Given) (config : Option Given) : Except Error (Bytes × Bool) := do
  let settings ← settings fs config
  let bs ← Spec.snapshotBytes { files := fs, settings, accepts } (← chain.id)
  return (bs, ← Spec.isByteStable bs)

def stableNotice (chain : Text) (bs : Bytes) : Text :=
  "Frozen spec '" ++ chain ++ "' is byte-stable (" ++ Text.ofNat bs.length ++ " bytes)\n"

def ofCheckFrozen (chain : Given) (config : Option Given) : Outcome :=
  let printed := announcement config
  match checkedSnapshot accepts fs chain config with
  | .error e => { printed, files := fs, ending := .ofError e }
  | .ok (bs, true) =>
    { printed := printed ++ stableNotice chain.display bs, files := fs, ending := .completed }
  | .ok (_, false) => { printed, files := fs, ending := .unstable chain.display }

def sampleNotice (path : Text) : Text :=
  "\nGenerated sample builder configuration at: " ++ path ++
    "\nPoint the runtime paths at the compiled wasm code images before building dynamic specs.\n"

def ofSampleConfig (output : Given) : Outcome :=
  placing fs output (Settings.toBytes {}) [] fun path files =>
    { printed := sampleNotice path, files, ending := .completed }

def ofInvocation : Invocation → Outcome
  | .buildSpec chain output config => ofBuildSpec accepts fs chain output config
  | .checkFrozen chain config => ofCheckFrozen accepts fs chain config
  | .sampleConfig output => ofSampleConfig fs output

end Outcome

end LedgerGenesis.CommandLine
