import LedgerGenesis.Cache
import LedgerGenesis.Files.Basic
import LedgerGenesis.Json.Access

/-! # Runtime code images

Settings name a path for each runtime family. The image of a family is the file at its path, which a validator
must accept. Which images are modules of the virtual machine is for the validator to say.
-/
namespace LedgerGenesis

/-- The paths of images by runtime family. -/
abbrev ImagePaths := List (Text × Json)

namespace Image

/-- A verdict on the bytes of an image. -/
abbrev Validator := Bytes → Bool

/-- The integers that can be handles of open files. -/
def isHandle (n : Int) : Bool := -2147483648 ≤ n && n ≤ 2147483647

/-- The bytes of the file at a path. A path given as an integer or a truth value is no file. -/
def readFile (fs : Files) : Json → Except Fault (Option Bytes)
  | .text p => .ok (fs.read p).toOption
  | .bool _ => .ok none
  | .int n => if isHandle n then .ok none else .error .outOfRange
  | _ => .error .notAPath

/-- The image of a family, which a validator must accept. -/
def readAccepted (accepts : Validator) (fs : Files) (paths : ImagePaths) (runtime : Text) :
    Except Error Bytes := do
  let path := (Json.lookup runtime paths).getD .null
  if !path.isTruthy then throw (.genesis (.imageNotConfigured runtime))
  match ← readFile fs path with
  | none => throw (.genesis (.imageNotFound runtime path))
  | some bs => if accepts bs then return bs else throw (.genesis (.imageInvalid runtime path))

end Image

/-- The images of all families, each read at most once. -/
structure ImageStore where
  paths : ImagePaths
  images : Cache Bytes := []
  deriving DecidableEq

def ImageStore.loadAccepted (accepts : Image.Validator) (fs : Files) (runtime : Text) (s : ImageStore) :
    Except Error Bytes × ImageStore :=
  let (bs, images) := s.images.fetch runtime (Image.readAccepted accepts fs s.paths)
  (bs, { s with images })

end LedgerGenesis
