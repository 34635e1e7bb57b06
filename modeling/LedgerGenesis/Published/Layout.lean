import LedgerGenesis.Json.Printer
import LedgerGenesis.Text.Utf8

/-! # Layout of published tables

A layout is a value together with the places where its text breaks: a value that stands on one line, or
items or fields on a line each.
-/
namespace LedgerGenesis.Published

inductive Layout where
  | line (v : Json)
  | items (ls : List Layout)
  | fields (fs : List (String × Layout))

namespace Layout

instance : Coe String Layout := ⟨fun s => line (.text s)⟩

instance (n : Nat) : OfNat Layout n := ⟨line (.int n)⟩

mutual

/-- The text of a value on one line. -/
def lineText : Json → Text
  | .list vs => "[" ++ Text.joinWith ", " (lineItems vs) ++ "]"
  | .object fs => "\x7b" ++ Text.joinWith ", " (lineFields fs) ++ "\x7d"
  | v => Json.renderScalar Json.plainStyle v

def lineItems : List Json → List Text
  | [] => []
  | v :: vs => lineText v :: lineItems vs

def lineFields : List (Text × Json) → List Text
  | [] => []
  | (k, v) :: fs => (Json.renderText Json.plainStyle k ++ ": " ++ lineText v) :: lineFields fs

end

/-- Parts on a line each between two brackets. -/
def stack (depth : Nat) (first last : Text) (parts : List Text) : Text :=
  first ++ Json.lineBreak (depth + 1) ++
    Text.joinWith (.char ',' :: Json.lineBreak (depth + 1)) parts ++ Json.lineBreak depth ++ last

mutual

def text (depth : Nat) : Layout → Text
  | line v => lineText v
  | items ls => stack depth "[" "]" (itemTexts (depth + 1) ls)
  | fields fs => stack depth "\x7b" "\x7d" (fieldTexts (depth + 1) fs)

def itemTexts (depth : Nat) : List Layout → List Text
  | [] => []
  | l :: ls => text depth l :: itemTexts depth ls

def fieldTexts (depth : Nat) : List (String × Layout) → List Text
  | [] => []
  | (k, l) :: fs => (Json.renderText Json.plainStyle k ++ ": " ++ text depth l) :: fieldTexts depth fs

end

/-- The bytes of a table's file. -/
def bytes (l : Layout) : Bytes := ((text 0 l ++ "\n").utf8?).getD []

end Layout

/-- A table has a version and its sections. -/
def table (sections : List (String × Layout)) : Layout := .fields (("version", 1) :: sections)

/-- A list of texts on a line each. -/
def texts (ss : List String) : Layout := .items (ss.map fun (s : String) => .line (.text s))

end LedgerGenesis.Published
