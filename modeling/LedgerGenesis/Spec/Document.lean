import LedgerGenesis.Error
import LedgerGenesis.Json.Printer
import LedgerGenesis.Json.Reader

/-! # Documents as bytes

A document is an object, written in the plain style with a line break at its end. It is read in the
strict dialect, so that no two fields of an object have one key and every number is an integer.
-/
namespace LedgerGenesis

/-- The fields of a document, in order. -/
abbrev Document := List (Text × Json)

namespace Document

def encode (v : Json) : Except Fault Bytes :=
  if v.isShowable then
    match (v.render Json.plainStyle 0 ++ "\n").utf8? with
    | some bs => .ok bs
    | none => .error .loneSurrogate
  else .error .longNumeral

/-- The error of a text that denotes no value. -/
def refusal : Json.ReadError → GenesisError
  | .duplicateKey key => .duplicateKey key
  | .inexactNumber literal => .inexactNumber (Text.ofChars literal)
  | .malformed | .longNumeral => .malformedSnapshot

def decode (bs : Bytes) : Except GenesisError Document :=
  match Utf8.decode bs with
  | none => .error .malformedSnapshot
  | some cs =>
    match Json.read .strict cs with
    | .ok (.object fields) => .ok fields
    | .ok _ => .error .snapshotNotObject
    | .error e => .error (refusal e)

end Document

end LedgerGenesis
