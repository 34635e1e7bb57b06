import LedgerGenesis.Error
import LedgerGenesis.Files.Path

/-! # Files

Files and directories by location. A path is followed name by name, and each one that another follows
must be a directory: the dot stays where it is, two dots go back, any other name goes on. What adds or
takes away an entry follows the path to the directory of its last name. Names and paths have a greatest
length.

A file is placed by making the directories that its path still lacks, outermost first, and writing it. The
directories stay also where a later step fails.
-/
namespace LedgerGenesis

/-- The names from the current directory on, or from the root directory, which is the name of one slash. -/
abbrev Location := List Bytes

structure Files where
  contents : List (Location × Bytes)
  directories : List Location
  deriving DecidableEq

namespace Files

def empty : Files := ⟨[], []⟩

def rootLocation : Location := [[0x2F]]

def dot : Bytes := [0x2E]

def dots : Bytes := [0x2E, 0x2E]

def maxNameLength : Nat := 255

def maxPathLength : Nat := 4095

/-- A path taken apart: where it starts, the names on it, and whether a slash at its end asks for a
directory. -/
structure Route where
  origin : Location
  names : List Bytes
  endsInSlash : Bool

namespace Route

def ofBytes (path : Bytes) : Route where
  origin := if path.head? = some 0x2F then rootLocation else []
  names := (Path.components path).filter fun c => !c.isEmpty
  endsInSlash := path.getLast? = some 0x2F

def ofPath (path : Text) : Except Fault Route :=
  match Path.bytes? path with
  | none => .error .loneSurrogate
  | some bs =>
    if bs.contains 0 then .error .nulInPath
    else if bs.isEmpty then .error .noSuchFile
    else if maxPathLength < bs.length then .error .nameTooLong
    else .ok (ofBytes bs)

/-- The last name, if it names an entry of its directory. -/
def entryName? (r : Route) : Option Bytes := r.names.getLast?.filter fun c => c ≠ dot && c ≠ dots

end Route

/-- Where a name leads from a directory. -/
def advance (l : Location) (name : Bytes) : Location :=
  if name = dot then l
  else if name = dots then
    if l = rootLocation then l
    else if l.getLast?.getD dots = dots then l ++ [dots]
    else l.dropLast
  else l ++ [name]

variable (fs : Files)

/-- The current directory, those it stands in and the root directory are always there. -/
def isDirectory (l : Location) : Bool :=
  l.all (· = dots) || l = rootLocation || fs.directories.contains l

def content? (l : Location) : Option Bytes := fs.contents.lookup l

/-- The fault of going on from a location that is no directory. -/
def blocked (l : Location) : Fault := if (fs.content? l).isSome then .notDirectory else .noSuchFile

/-- Where a name leads from a location, which must be a directory. -/
def enter (l : Location) (name : Bytes) : Except Fault Location :=
  if !fs.isDirectory l then .error (fs.blocked l)
  else if maxNameLength < name.length then .error .nameTooLong
  else .ok (advance l name)

def walk : Location → List Bytes → Except Fault Location
  | l, [] => .ok l
  | l, c :: cs => (fs.enter l c).bind fun next => walk next cs

def locate (path : Text) : Except Fault Location := do
  let r ← Route.ofPath path
  let l ← fs.walk r.origin r.names
  if r.endsInSlash && !fs.isDirectory l then throw (fs.blocked l)
  return l

/-- The bytes of the file at a path. -/
def read (path : Text) : Except Fault Bytes := do
  let l ← fs.locate path
  match fs.content? l with
  | some bs => return bs
  | none => throw (if fs.isDirectory l then .isDirectory else .noSuchFile)

def isFile (path : Text) : Bool := (fs.read path).isOk

def holdsDirectory (path : Text) : Bool :=
  match fs.locate path with
  | .ok l => fs.isDirectory l
  | .error _ => false

def holds (path : Text) : Bool := fs.isFile path || fs.holdsDirectory path

/-- The location of the entry that a route ends at, in a directory that is there. A route that ends at no
name of an entry has the given fault. -/
def entry (r : Route) (unnamed : Fault) : Except Fault Location := do
  let parent ← fs.walk r.origin r.names.dropLast
  if !fs.isDirectory parent then throw (fs.blocked parent)
  match r.entryName? with
  | none => throw unnamed
  | some name => fs.enter parent name

def setContent (l : Location) (bs : Bytes) : Files :=
  { fs with contents := (l, bs) :: fs.contents.filter fun p => p.1 ≠ l }

/-- A file written in a directory that is there. -/
def write (path : Text) (bs : Bytes) : Except Fault Files := do
  let r ← Route.ofPath path
  let l ← fs.entry r .isDirectory
  if r.endsInSlash || fs.isDirectory l then throw .isDirectory
  return fs.setContent l bs

/-- A directory made in one that is there. -/
def makeDirectory (path : Text) : Except Fault Files := do
  let l ← fs.entry (← Route.ofPath path) .fileExists
  if fs.isDirectory l || (fs.content? l).isSome then throw .fileExists
  return { fs with directories := l :: fs.directories }

def remove (path : Text) : Except Fault Files := do
  let r ← Route.ofPath path
  let l ← fs.entry r .isDirectory
  match fs.content? l with
  | some _ =>
    if r.endsInSlash then throw .notDirectory
    return { fs with contents := fs.contents.filter fun p => p.1 ≠ l }
  | none => throw (if fs.isDirectory l then .isDirectory else .noSuchFile)

/-- What an attempt leaves behind, and the fault that ended it if one did. -/
structure Attempt where
  files : Files
  fault? : Option Fault := none
  deriving DecidableEq

namespace Attempt

/-- A step that changes all or nothing. -/
def ofStep (fs : Files) : Except Fault Files → Attempt
  | .ok files => { files }
  | .error f => { files := fs, fault? := some f }

/-- What follows an attempt that succeeds. -/
def andThen (a : Attempt) (next : Files → Attempt) : Attempt :=
  match a.fault? with
  | none => next a.files
  | some _ => a

end Attempt

/-- A directory made at a path unless it is there. -/
def ensureDirectory (path : Text) : Attempt :=
  match fs.makeDirectory path with
  | .ok files => { files }
  | .error f => { files := fs, fault? := if fs.holdsDirectory path then none else some f }

/-- The path of the directory that a path stands in, and its last name. A slash at its end counts for
nothing. -/
def parentAndName (path : Text) : Text × Text :=
  let name := Path.lastComponent path
  let parent := Path.directory path
  if name.isEmpty then (Path.directory parent, Path.lastComponent parent) else (parent, name)

/-- How many directories can be lacking one inside the other. -/
def maxLackingDirectories : Nat := 985

/-- A directory made with all those it stands in, as far as they are within so many levels. A file in the
place of an outer one shows when the next is made; a dot needs nothing beyond the directory before it. -/
def makeDirectoriesWithin (fs : Files) : Nat → Text → Attempt
  | 0, _ => { files := fs, fault? := some .tooManyDirectories }
  | levels + 1, path =>
    let (parent, name) := parentAndName path
    if parent.isEmpty || name.isEmpty || fs.holds parent then fs.ensureDirectory path
    else
      let outer := makeDirectoriesWithin fs levels parent
      if outer.fault?.any (· ≠ .fileExists) then outer
      else if name = Text.ofString "." then { files := outer.files }
      else outer.files.ensureDirectory path

def makeDirectories (path : Text) : Attempt := fs.makeDirectoriesWithin maxLackingDirectories path

/-- The directory in which a path puts its file. -/
def directoryOf (path : Text) : Text :=
  let d := Path.directory path
  if d.isEmpty then Text.ofString "." else d

/-- A file put at a path whose directories are made as needed. -/
def place (path : Text) (bs : Bytes) : Attempt :=
  (fs.makeDirectories (directoryOf path)).andThen fun made => .ofStep made (made.write path bs)

end Files

end LedgerGenesis
