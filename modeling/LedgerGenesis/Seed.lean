import LedgerGenesis.Curve.Ed25519
import LedgerGenesis.Error
import LedgerGenesis.Hash.Blake2b

/-! # Keys from seeds

A seed is one or more segments without slashes, joined by single or double slashes. Its derivation path
is the seed after two slashes, and the secret of a role is the digest of that path under the role's tag.
-/
namespace LedgerGenesis.Seed

def slash : CodePoint := .char '/'

/-- Whether a seed may go on like this where so many more slashes may stand; it may end only after a
segment, where two may. -/
def continues : Nat → Text → Bool
  | k, [] => k == 2
  | k, p :: t =>
    if p = slash then
      match k with
      | 0 => false
      | k + 1 => continues k t
    else continues 2 t

def isSeed (t : Text) : Bool := continues 0 t

def ofJson : Json → Except Error Text
  | .text t => if isSeed t then .ok t else .error (GenesisError.invalidSeed (.text t)).raised
  | v => .error (GenesisError.invalidSeed v).raised

def path (seed : Text) : Text := slash :: slash :: seed

/-- The Ed25519 public key of a derivation path under a role tag. -/
def publicKey (path : Text) (tag : Bytes) : Except Fault Bytes :=
  match path.utf8? with
  | none => .error .loneSurrogate
  | some message =>
    if Blake2b.maxKeyLength < tag.length then .error .roleTooLong
    else .ok (Ed25519.publicKey (blake2b256 tag message))

/-- The key of a seed under a role tag. -/
def key (seed : Json) (tag : Bytes) : Except Error Bytes := do
  let t ← ofJson seed
  raising ((publicKey (path t) tag).mapError (.seedRejected t))

end LedgerGenesis.Seed

namespace LedgerGenesis

def Role.tagBytes (r : Role) : Bytes := Utf8.encode r.tag.toList

def Seed.roleKey (seed : Json) (r : Role) : Except Error Bytes := key seed r.tagBytes

/-- The stash account of a seed. -/
def Seed.account (seed : Json) : Except Error Bytes := roleKey seed .account

end LedgerGenesis
