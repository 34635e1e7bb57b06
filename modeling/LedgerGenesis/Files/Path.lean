import LedgerGenesis.Text.Utf8

/-! # Paths

A path is a text of names between slashes. Joining and splitting work on the text; a file is found by the
bytes of the names, which are those of UTF-8, save that a half from U+DC80 to U+DCFF stands for one byte.
-/
namespace LedgerGenesis.Path

def slash : CodePoint := .char '/'

def isAbsolute : Text → Bool
  | [] => false
  | p :: _ => p = slash

/-- A path taken from a directory; an absolute one stands for itself. -/
def join (directory path : Text) : Text :=
  if isAbsolute path then path
  else if directory.isEmpty ∨ directory.getLast? = some slash then directory ++ path
  else directory ++ slash :: path

/-- A text without the slashes at its end, unless it has no others. -/
def trimSlashes (t : Text) : Text :=
  let trimmed := (t.reverse.dropWhile (· = slash)).reverse
  if trimmed.isEmpty then t else trimmed

/-- What stands before the last component. -/
def directory (path : Text) : Text := trimSlashes (path.reverse.dropWhile (· ≠ slash)).reverse

/-- What stands after the last slash. -/
def lastComponent (path : Text) : Text := (path.reverse.takeWhile (· ≠ slash)).reverse

/-- The bytes that a code point has in a path. -/
def codePointBytes? : CodePoint → Option Bytes
  | .char c => some (Utf8.encodeChar c)
  | .surrogate u =>
    if 0x480 ≤ u.val ∧ u.val < 0x500 then some [(u.val - 0x400).toUInt8] else none

def bytes? (path : Text) : Option Bytes := (path.mapM codePointBytes?).map List.flatten

/-- The components of a path, one more than it has slashes. -/
def components : Bytes → List Bytes
  | [] => [[]]
  | b :: bs =>
    match components bs with
    | [] => [[b]]
    | c :: cs => if b = 0x2F then [] :: c :: cs else (b :: c) :: cs

end LedgerGenesis.Path
