import LedgerGenesis.Error
import LedgerGenesis.Json.Reader

/-! # Taking values apart

Each function takes a text or a value for what a table wants there, and otherwise says by its fault what
it was not.
-/
namespace LedgerGenesis.Json

/-- The fault that a text of no value amounts to. -/
def ReadError.fault : ReadError → Fault
  | .longNumeral => .longNumeral
  | _ => .malformedJson

/-- The value of a text in the lenient dialect. -/
def parse (t : Text) : Except Fault Json :=
  match t.chars? with
  | some cs => (read .lenient cs).mapError ReadError.fault
  | none => .error .malformedJson

/-- The value of a field that must be there. -/
def field (key : Text) : Json → Except Fault Json
  | object fields =>
    match lookup key fields with
    | some v => .ok v
    | none => .error (.missingKey key)
  | _ => .error .notIndexed

/-- The value of a field of a mapping, or a default. -/
def fieldOr (v : Json) (key : Text) (default : Json) : Except Fault Json :=
  match v with
  | object fields => .ok ((lookup key fields).getD default)
  | _ => .error .notMapping

/-- The items of a list, the keys of an object, the code points of a text. -/
def elements : Json → Except Fault (List Json)
  | list vs => .ok vs
  | object fields => .ok (fields.map fun f => text f.1)
  | table rows => .ok (rows.map Prod.fst)
  | text t => .ok (t.map fun p => text [p])
  | _ => .error .notIterable

/-- An integer as written, a truth value as 0 or 1, a finite double without its fraction, or the integer
that a text denotes. -/
def toInt : Json → Except Fault Int
  | int n => .ok n
  | bool b => .ok b.toNat
  | float (.finite negative m e) => .ok (Binary64.truncate negative m e)
  | float (.infinite _) => .error .infinite
  | float .nan => .error .badNumeral
  | text t =>
    match Numeral.toInt? t with
    | some n => .ok n
    | none => .error .badNumeral
  | _ => .error .notNumeric

/-- The bytes that a hexadecimal text denotes. -/
def toBytes : Json → Except Fault Bytes
  | text t =>
    match Hex.decode t with
    | some bs => .ok bs
    | none => .error .badHex
  | _ => .error .notText

def toUtf8 : Json → Except Fault Bytes
  | text t =>
    match t.utf8? with
    | some bs => .ok bs
    | none => .error .loneSurrogate
  | _ => .error .notText

/-- The two items of a value that has exactly two. -/
def toPair (v : Json) : Except Fault (Json × Json) :=
  match v.elements with
  | .ok [a, b] => .ok (a, b)
  | .ok _ => .error .notAPair
  | .error f => .error f

/-- Whether a value may be the key of a mapping. -/
def isKey : Json → Bool
  | list _ | object _ | table _ => false
  | _ => true

/-- Whether two values are one key of a mapping: equal values are, and so are two that are the same. -/
def sameKey (k l : Json) : Bool := k = l || k.scalarEqual l

/-- A row set where its key stands, or added at the end. -/
def setRow (key value : Json) : List (Json × Json) → List (Json × Json)
  | [] => [(key, value)]
  | (k, v) :: rows => if sameKey k key then (k, value) :: rows else (k, v) :: setRow key value rows

def gatherRows : List (Json × Json) → List Json → Except Fault (List (Json × Json))
  | rows, [] => .ok rows
  | rows, v :: vs =>
    match v.toPair with
    | .ok (k, w) => if k.isKey then gatherRows (setRow k w rows) vs else .error .notAKey
    | .error f => .error f

/-- The fields of rows whose keys are all texts. -/
def textFields? : List (Json × Json) → Option (List (Text × Json))
  | [] => some []
  | (text k, v) :: rows => (textFields? rows).map ((k, v) :: ·)
  | _ :: _ => none

def ofRows (rows : List (Json × Json)) : Json :=
  match textFields? rows with
  | some fields => object fields
  | none => table rows

/-- A mapping as it stands, or the mapping that a sequence of pairs lists. -/
def toMapping : Json → Except Fault Json
  | object fields => .ok (object fields)
  | table rows => .ok (table rows)
  | v =>
    match v.elements with
    | .ok vs => (gatherRows [] vs).map ofRows
    | .error f => .error f

end LedgerGenesis.Json
