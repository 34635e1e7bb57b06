import LedgerGenesis.Json.Access

/-! # Operations that an asset disallows

The disallowed operations are the set bits of a word. Six bits have names; a word may hold others.
-/
namespace LedgerGenesis

structure Restrictions where
  bits : Nat
  deriving DecidableEq

namespace Restrictions

def empty : Restrictions := ⟨0⟩

/-- The names and the bit, if any, that each sets. -/
def named : List (String × Restrictions) :=
  [("NONE", empty), ("MOVE", ⟨1⟩), ("TRANSFER", ⟨2⟩), ("DEPOSIT", ⟨4⟩), ("WITHDRAW", ⟨8⟩),
    ("DESTROY_WITHDRAWAL", ⟨16⟩), ("DESTROY_USABLE", ⟨32⟩)]

def ofName? (t : Text) : Option Restrictions :=
  (named.find? fun p => Text.ofString p.1 = t).map Prod.snd

def union (r s : Restrictions) : Restrictions := ⟨r.bits ||| s.bits⟩

def allows (r op : Restrictions) : Bool := r.bits &&& op.bits == 0

def ofNameValue : Json → Except Fault Restrictions
  | .text t =>
    match ofName? t with
    | some r => .ok r
    | none => .error (Fault.unknownRestriction (.text t)).raised
  | v => if v.isKey then .error (Fault.unknownRestriction v).raised else .error .notAKey

def ofNames (names : List Json) : Except Fault Restrictions :=
  names.foldlM (fun r v => (ofNameValue v).map r.union) empty

/-- The restrictions that the items of a value name. -/
def ofJson (v : Json) : Except Fault Restrictions := do ofNames (← v.elements)

/-- The word of an integer. A negative one is a complement: of the six named bits, or of the bits of its
magnitude when it is below -64. -/
def ofInt (n : Int) : Restrictions :=
  if 0 ≤ n then ⟨n.toNat⟩
  else if -64 ≤ n then ⟨(64 + n).toNat⟩
  else ⟨(Nat.pow 2 (n.natAbs.log2 + 1) + n).toNat⟩

end Restrictions

end LedgerGenesis
