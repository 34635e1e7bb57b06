import LedgerGenesis.Number.Binary64
import LedgerGenesis.Text.CodePoint

/-! # JSON values

Objects keep the order of their fields. A `table` is a mapping whose keys are not all texts; no document
denotes one, it only arises from a list of pairs. Besides identity, values have the looser equality of
numbers, by which `true`, `1` and `1.0` are one value and the order of fields does not matter.
-/
namespace LedgerGenesis

inductive Json where
  | null
  | bool (b : Bool)
  | int (n : Int)
  | float (x : Binary64)
  | text (t : Text)
  | list (items : List Json)
  | object (fields : List (Text × Json))
  | table (rows : List (Json × Json))
  deriving Inhabited

namespace Json

mutual

def identical : Json → Json → Bool
  | null, null => true
  | bool a, bool b => a == b
  | int a, int b => a == b
  | float a, float b => a == b
  | text a, text b => a == b
  | list a, list b => identicalItems a b
  | object a, object b => identicalFields a b
  | table a, table b => identicalRows a b
  | _, _ => false

def identicalItems : List Json → List Json → Bool
  | [], [] => true
  | v :: vs, w :: ws => identical v w && identicalItems vs ws
  | _, _ => false

def identicalFields : List (Text × Json) → List (Text × Json) → Bool
  | [], [] => true
  | (k, v) :: vs, (l, w) :: ws => k == l && (identical v w && identicalFields vs ws)
  | _, _ => false

def identicalRows : List (Json × Json) → List (Json × Json) → Bool
  | [], [] => true
  | (k, v) :: vs, (l, w) :: ws => identical k l && (identical v w && identicalRows vs ws)
  | _, _ => false

end

mutual

theorem identical_iff (v w : Json) : identical v w = true ↔ v = w := by
  match v with
  | null | bool _ | int _ | float _ | text _ => cases w <;> simp [identical]
  | list vs => cases w <;> simp [identical, identicalItems_iff vs]
  | object vs => cases w <;> simp [identical, identicalFields_iff vs]
  | table vs => cases w <;> simp [identical, identicalRows_iff vs]

theorem identicalItems_iff (vs ws : List Json) : identicalItems vs ws = true ↔ vs = ws := by
  match vs with
  | [] => cases ws <;> simp [identicalItems]
  | v :: vs => cases ws <;> simp [identicalItems, identical_iff v, identicalItems_iff vs]

theorem identicalFields_iff (vs ws : List (Text × Json)) :
    identicalFields vs ws = true ↔ vs = ws := by
  match vs with
  | [] => cases ws <;> simp [identicalFields]
  | (k, v) :: vs =>
    rcases ws with _ | ⟨⟨l, w⟩, ws⟩ <;>
      simp [identicalFields, identical_iff v, identicalFields_iff vs, and_assoc]

theorem identicalRows_iff (vs ws : List (Json × Json)) : identicalRows vs ws = true ↔ vs = ws := by
  match vs with
  | [] => cases ws <;> simp [identicalRows]
  | (k, v) :: vs =>
    rcases ws with _ | ⟨⟨l, w⟩, ws⟩ <;>
      simp [identicalRows, identical_iff k, identical_iff v, identicalRows_iff vs, and_assoc]

end

instance : DecidableEq Json := fun v w => decidable_of_iff _ (identical_iff v w)

/-- The value of a field of an object. -/
def lookup (key : Text) : List (Text × Json) → Option Json
  | [] => none
  | (k, v) :: fields => if k = key then some v else lookup key fields

/-- A field set where it stands, or added at the end. -/
def setField (key : Text) (value : Json) : List (Text × Json) → List (Text × Json)
  | [] => [(key, value)]
  | (k, v) :: fields => if k = key then (k, value) :: fields else (k, v) :: setField key value fields

def keys (fields : List (Text × Json)) : List Text := fields.map Prod.fst

mutual

/-- A value and all the values inside it. -/
def parts : Json → List Json
  | null => [null]
  | bool b => [bool b]
  | int n => [int n]
  | float x => [float x]
  | text t => [text t]
  | list vs => list vs :: partsOfItems vs
  | object fields => object fields :: partsOfFields fields
  | table rows => table rows :: partsOfRows rows

def partsOfItems : List Json → List Json
  | [] => []
  | v :: vs => parts v ++ partsOfItems vs

def partsOfFields : List (Text × Json) → List Json
  | [] => []
  | (_, v) :: fields => parts v ++ partsOfFields fields

def partsOfRows : List (Json × Json) → List Json
  | [] => []
  | (k, v) :: rows => parts k ++ (parts v ++ partsOfRows rows)

end

/-- Empty and zero values, and null, count as absent. -/
def isTruthy : Json → Bool
  | null => false
  | bool b => b
  | int n => n != 0
  | float x => !x.isZero
  | text t => !t.isEmpty
  | list items => !items.isEmpty
  | object fields => !fields.isEmpty
  | table rows => !rows.isEmpty

/-- The integer that a truth value or an integer stands for. -/
def integer? : Json → Option Int
  | bool b => some b.toNat
  | int n => some n
  | _ => none

/-- Equality of the values that may be keys of a mapping. -/
def scalarEqual : Json → Json → Bool
  | null, null => true
  | text a, text b => a == b
  | float a, float b => a.equal b
  | float a, w => match w.integer? with
    | some n => a.equalsInt n
    | none => false
  | v, float b => match v.integer? with
    | some n => b.equalsInt n
    | none => false
  | v, w => match v.integer?, w.integer? with
    | some m, some n => m == n
    | _, _ => false

mutual

def equal : Json → Json → Bool
  | list vs, list ws => equalItems vs ws
  | object vs, object ws => vs.length == ws.length && equalFields vs ws
  | v, w => scalarEqual v w

def equalItems : List Json → List Json → Bool
  | [], [] => true
  | v :: vs, w :: ws => equal v w && equalItems vs ws
  | _, _ => false

/-- Whether each field on the left has an equal one of its key on the right. -/
def equalFields : List (Text × Json) → List (Text × Json) → Bool
  | [], _ => true
  | (k, v) :: vs, ws => (match lookup k ws with | some w => equal v w | none => false) && equalFields vs ws

end

end Json

end LedgerGenesis
