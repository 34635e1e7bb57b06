import LedgerGenesis.CommandLine.Outcome
import LedgerGenesis.Image.Module

/-! # The program

Reads the files that an invocation may need, works out its outcome, and carries that out: the file it
wrote, what it printed, what it complains of and its status.
-/
namespace LedgerGenesis.CommandLine

namespace Invocation

def config? : Invocation → Option Given
  | buildSpec _ _ config | checkFrozen _ config => config
  | sampleConfig _ => none

def output? : Invocation → Option Given
  | buildSpec _ output _ => output
  | checkFrozen .. => none
  | sampleConfig output => some output

/-- The file that an invocation takes a chain from, if it names one. -/
def chain? : Invocation → Option Given
  | buildSpec chain _ _ | checkFrozen chain _ => some chain
  | sampleConfig _ => none

end Invocation

/-- The files that settings point to. -/
def settingsPaths (s : Settings) : List Text :=
  let images := s.imagePaths.filterMap fun image =>
    match image.2 with
    | .text path => some path
    | _ => none
  let tables := Published.catalog.filterMap fun table =>
    (Table.path s.tableDirectory table.1).toOption
  images ++ tables

/-- Adds the file at a path if it can be read. -/
def addFile (fs : Files) (path : Text) : IO Files := do
  match ← (IO.FS.readBinFile path.toDisplay).toBaseIO with
  | .ok bs => return (fs.place path bs.toList).files
  | .error _ => return fs

/-- The path that an option gives, if it gives one. -/
def pathOf (given : Option Given) : List Text := (given.bind fun g => g.path.toOption).toList

/-- The published tables and all files that an invocation may read. -/
def gather (invocation : Invocation) : IO Files := do
  let published := (Published.install Published.directory Files.empty).files
  let fs ← (pathOf invocation.config?).foldlM addFile published
  let settings := (Outcome.settings fs invocation.config?).toOption.getD {}
  (pathOf invocation.chain? ++ settingsPaths settings).foldlM addFile fs

/-- Writes a file that an outcome has changed. -/
def store (before after : Files) (path : Text) : IO Unit := do
  match (after.read path).toOption with
  | some bs =>
    if (before.read path).toOption ≠ some bs then
      let directory := Path.directory path
      if !directory.isEmpty then IO.FS.createDirAll directory.toDisplay
      IO.FS.writeBinFile path.toDisplay ⟨bs.toArray⟩
  | none => return

def complain (ending : Ending) : IO Unit :=
  match ending with
  | .completed => return
  | .reported e => IO.eprintln (e.kind.name ++ ": " ++ e.message.toDisplay)
  | .unstable chain => IO.eprintln (Ending.unstableComplaint chain).toDisplay
  | .aborted f => IO.eprintln ("unexpected fault" ++ ((f.text?.map fun t => ": " ++ t.toDisplay).getD ""))

def perform (invocation : Invocation) : IO UInt32 := do
  let fs ← gather invocation
  let outcome := Outcome.ofInvocation Wasm.isModule fs invocation
  (pathOf invocation.output?).forM (store fs outcome.files)
  IO.print outcome.printed.toDisplay
  complain outcome.ending
  return (outcome.ending.status?.getD 1).toUInt32

def usage : String :=
  "usage: build-spec [--chain CHAIN] [--output OUTPUT] [--config CONFIG]\n" ++
  "       check-frozen --chain CHAIN [--config CONFIG]\n" ++
  "       sample-config [--output OUTPUT]\n"

def answer (arguments : List String) : IO UInt32 := do
  match Invocation.parse (arguments.map Text.ofString) with
  | .ok invocation => perform invocation
  | .error stop =>
    match stop with
    | .help => IO.print usage
    | .misuse => IO.eprint usage
    return stop.status.toUInt32

end LedgerGenesis.CommandLine

def main (arguments : List String) : IO UInt32 := LedgerGenesis.CommandLine.answer arguments
