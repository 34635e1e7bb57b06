import LedgerGenesis.Text.DecimalDigit

/-! # Integer numerals

A numeral has an optional sign and decimal digits of any script; single underscores may stand between
digits, and blanks around the whole. Numerals of more than `maxDigits` digits are not read.
-/
namespace LedgerGenesis.Numeral

/-- The greatest number of digits of a numeral. -/
def maxDigits : Nat := 4300

/-- The digits after a first one, each underscore followed by a digit. -/
def digitsAfter : Text → Option (List Nat)
  | [] => some []
  | [p] => (p.digit?).map ([·])
  | p :: q :: t =>
    if p = .char '_' then
      match q.digit? with
      | some d => (digitsAfter t).map (d :: ·)
      | none => none
    else match p.digit? with
      | some d => (digitsAfter (q :: t)).map (d :: ·)
      | none => none

def digits? : Text → Option (List Nat)
  | [] => none
  | p :: t =>
    match p.digit? with
    | some d => (digitsAfter t).map (d :: ·)
    | none => none

def ofDigits (ds : List Nat) : Nat := ds.foldl (fun n d => 10 * n + d) 0

def trim (t : Text) : Text :=
  ((t.dropWhile CodePoint.isBlank).reverse.dropWhile CodePoint.isBlank).reverse

def magnitude? (t : Text) : Option Nat :=
  match digits? t with
  | some ds => if ds.length ≤ maxDigits then some (ofDigits ds) else none
  | none => none

/-- The integer that a text denotes. -/
def toInt? (t : Text) : Option Int :=
  match trim t with
  | .char '-' :: r => (magnitude? r).map fun n => -(n : Int)
  | .char '+' :: r => (magnitude? r).map Int.ofNat
  | r => (magnitude? r).map Int.ofNat

end LedgerGenesis.Numeral
