import LedgerGenesis.Error

/-! # The MessagePack form of JSON values

Every integer, text, list and mapping takes the shortest form there is, and a double takes eight bytes.
Integers below -2⁶³ or from 2⁶⁴ on have no form.
-/
namespace LedgerGenesis.MessagePack

def packNat (n : Nat) : Except Fault Bytes :=
  if n < 0x80 then .ok [n.toUInt8]
  else if n < 0x100 then .ok (0xCC :: Bytes.bigEndian 1 n)
  else if n < 0x10000 then .ok (0xCD :: Bytes.bigEndian 2 n)
  else if n < 0x100000000 then .ok (0xCE :: Bytes.bigEndian 4 n)
  else if n < 0x10000000000000000 then .ok (0xCF :: Bytes.bigEndian 8 n)
  else .error .outOfRange

/-- A negative integer, given by `-1 - n`. -/
def packNegative (n : Nat) : Except Fault Bytes :=
  if n < 0x20 then .ok [(0xFF - n).toUInt8]
  else if n < 0x80 then .ok (0xD0 :: Bytes.bigEndian 1 (0xFF - n))
  else if n < 0x8000 then .ok (0xD1 :: Bytes.bigEndian 2 (0xFFFF - n))
  else if n < 0x80000000 then .ok (0xD2 :: Bytes.bigEndian 4 (0xFFFFFFFF - n))
  else if n < 0x8000000000000000 then .ok (0xD3 :: Bytes.bigEndian 8 (0xFFFFFFFFFFFFFFFF - n))
  else .error .outOfRange

def packInt : Int → Except Fault Bytes
  | .ofNat n => packNat n
  | .negSucc n => packNegative n

def textHeader (n : Nat) : Except Fault Bytes :=
  if n < 0x20 then .ok [(0xA0 + n).toUInt8]
  else if n < 0x100 then .ok (0xD9 :: Bytes.bigEndian 1 n)
  else if n < 0x10000 then .ok (0xDA :: Bytes.bigEndian 2 n)
  else if n < 0x100000000 then .ok (0xDB :: Bytes.bigEndian 4 n)
  else .error .tooLong

def listHeader (n : Nat) : Except Fault Bytes :=
  if n < 0x10 then .ok [(0x90 + n).toUInt8]
  else if n < 0x10000 then .ok (0xDC :: Bytes.bigEndian 2 n)
  else if n < 0x100000000 then .ok (0xDD :: Bytes.bigEndian 4 n)
  else .error .tooLong

def mapHeader (n : Nat) : Except Fault Bytes :=
  if n < 0x10 then .ok [(0x80 + n).toUInt8]
  else if n < 0x10000 then .ok (0xDE :: Bytes.bigEndian 2 n)
  else if n < 0x100000000 then .ok (0xDF :: Bytes.bigEndian 4 n)
  else .error .tooLong

def packText (t : Text) : Except Fault Bytes :=
  match t.utf8? with
  | some bs => (textHeader bs.length).map (· ++ bs)
  | none => .error .loneSurrogate

mutual

def pack : Json → Except Fault Bytes
  | .null => .ok [0xC0]
  | .bool b => .ok [if b then 0xC3 else 0xC2]
  | .int n => packInt n
  | .float x => .ok (0xCB :: Bytes.bigEndian 8 x.toBits)
  | .text t => packText t
  | .list vs => do
    let header ← listHeader vs.length
    let items ← packItems vs
    return header ++ items
  | .object fields => do
    let header ← mapHeader fields.length
    let fields ← packFields fields
    return header ++ fields
  | .table rows => do
    let header ← mapHeader rows.length
    let rows ← packRows rows
    return header ++ rows

def packItems : List Json → Except Fault Bytes
  | [] => .ok []
  | v :: vs => do
    let v ← pack v
    let vs ← packItems vs
    return v ++ vs

def packFields : List (Text × Json) → Except Fault Bytes
  | [] => .ok []
  | (k, v) :: fields => do
    let k ← packText k
    let v ← pack v
    let fields ← packFields fields
    return k ++ (v ++ fields)

def packRows : List (Json × Json) → Except Fault Bytes
  | [] => .ok []
  | (k, v) :: rows => do
    let k ← pack k
    let v ← pack v
    let rows ← packRows rows
    return k ++ (v ++ rows)

end

end LedgerGenesis.MessagePack
