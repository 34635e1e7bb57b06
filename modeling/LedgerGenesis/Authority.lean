import LedgerGenesis.Json.Access
import LedgerGenesis.Seed

/-! # Validator identities

An identity holds a key for each role and a referral label. Identities come from a seed, or from a
published entry that gives the keys in hexadecimal.
-/
namespace LedgerGenesis

structure Authority where
  account : Bytes
  referral : Bytes
  babe : Bytes
  grandpa : Bytes
  imOnline : Bytes
  authorityDiscovery : Bytes
  deriving DecidableEq

namespace Authority

def keyLength : Nat := 32

def key (a : Authority) : Role → Bytes
  | .account => a.account
  | .babe => a.babe
  | .grandpa => a.grandpa
  | .imOnline => a.imOnline
  | .authorityDiscovery => a.authorityDiscovery

/-- The roles whose key is absent or of another length than a public key. -/
def missingRoles (a : Authority) : List Role :=
  Role.all.filter fun r => (a.key r).length != keyLength

def isComplete (a : Authority) : Bool := a.missingRoles.isEmpty

/-- The identity of a seed, whose label is the seed itself unless another is given. -/
def ofSeed (seed : Json) (referral : Option Json) : Except Error Authority := do
  let account ← Seed.roleKey seed .account
  let referral ← (referral.getD seed).toUtf8
  let babe ← Seed.roleKey seed .babe
  let grandpa ← Seed.roleKey seed .grandpa
  let imOnline ← Seed.roleKey seed .imOnline
  let authorityDiscovery ← Seed.roleKey seed .authorityDiscovery
  return { account, referral, babe, grandpa, imOnline, authorityDiscovery }

/-- The key of a role in a published entry, empty when the entry has none. -/
def entryKey (entry : Json) (r : Role) : Except Fault Bytes := do
  let v ← entry.fieldOr r.name (.text [])
  v.toBytes

def readEntry (entry : Json) : Except Fault Authority := do
  let account ← (← entry.field Role.account.name).toBytes
  let referral ← (← entry.field "referral").toUtf8
  let babe ← entryKey entry .babe
  let grandpa ← entryKey entry .grandpa
  let imOnline ← entryKey entry .imOnline
  let authorityDiscovery ← entryKey entry .authorityDiscovery
  return { account, referral, babe, grandpa, imOnline, authorityDiscovery }

def ofJson (entry : Json) : Except Error Authority :=
  reporting [.key, .content] (.malformedAuthority entry) ((readEntry entry).mapError .fault)

def toJson (a : Authority) : Except Fault Json :=
  match Text.ofUtf8? a.referral with
  | none => .error .notUtf8
  | some referral =>
    .ok (.object [
      (Role.account.name, .text (Hex.encode a.account)),
      ("referral", .text referral),
      (Role.babe.name, .text (Hex.encode a.babe)),
      (Role.grandpa.name, .text (Hex.encode a.grandpa)),
      (Role.imOnline.name, .text (Hex.encode a.imOnline)),
      (Role.authorityDiscovery.name, .text (Hex.encode a.authorityDiscovery))])

end Authority

end LedgerGenesis
