import LedgerGenesis.Json.Basic
import LedgerGenesis.Number.Numeral
import LedgerGenesis.Number.Shortest
import LedgerGenesis.Text.Quoted

/-! # Values in texts

A value is shown on one line, texts quoted. `display` shows a text as it stands. Integers are shown by their
decimal numerals, so a value with an integer in it whose numeral would be too long cannot be shown at all.
-/
namespace LedgerGenesis.Json

/-- An integer has a numeral unless that would have too many digits. Other values need none. -/
def hasNumeral : Json → Bool
  | int n => (Nat.toDigits 10 n.natAbs).length ≤ Numeral.maxDigits
  | _ => true

/-- Whether each integer in a value has a numeral. -/
def isShowable (v : Json) : Bool := v.parts.all hasNumeral

mutual

def inspect : Json → Text
  | null => "None"
  | bool true => "True"
  | bool false => "False"
  | int n => Text.ofInt n
  | float x => x.render Binary64.messageLayout
  | text t => t.quoted
  | list vs => "[" ++ Text.joinWith ", " (inspectItems vs) ++ "]"
  | object fields => "\x7b" ++ Text.joinWith ", " (inspectFields fields) ++ "\x7d"
  | table rows => "\x7b" ++ Text.joinWith ", " (inspectRows rows) ++ "\x7d"

def inspectItems : List Json → List Text
  | [] => []
  | v :: vs => inspect v :: inspectItems vs

def inspectFields : List (Text × Json) → List Text
  | [] => []
  | (k, v) :: fields => (k.quoted ++ ": " ++ inspect v) :: inspectFields fields

def inspectRows : List (Json × Json) → List Text
  | [] => []
  | (k, v) :: rows => (inspect k ++ ": " ++ inspect v) :: inspectRows rows

end

def display : Json → Text
  | text t => t
  | v => inspect v

end LedgerGenesis.Json
