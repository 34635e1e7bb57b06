import LedgerGenesis.Error

/-! # Initial balances

Every endowed account gets the same native amount. The first half of the accounts, rounded up, hold the
seats of the technical committee and of the elected council, and each council seat reserves a stake.
Other assets are endowed account by account. Ids, the amount and the total are reported on the way, so an
allocation fails where one of them cannot be shown.
-/
namespace LedgerGenesis

abbrev Balances := List (Bytes × Nat)

/-- Balances to be granted, before their amounts are checked. -/
abbrev Grants := List (Bytes × Json)

structure Endowment where
  native : Balances
  total : Nat
  technicalMembers : List Bytes
  electionsMembers : List (Bytes × Int)
  assets : List (Int × Balances)
  deriving DecidableEq

namespace Endowment

def accounts (e : Endowment) : List Bytes := e.native.map Prod.fst

/-- Each amount is a natural number, and no account repeats one of those seen before it. -/
def checkGrants (holding : Holding) : List Bytes → Grants → Except GenesisError Balances
  | _, [] => .ok []
  | seen, (account, .int n) :: rest =>
    if n < 0 then .error (.negativeEndowment holding n account)
    else if account ∈ seen then .error (.duplicateEndowment holding account)
    else (checkGrants holding (account :: seen) rest).map ((account, n.toNat) :: ·)
  | _, (_, amount) :: _ => .error (.amountNotInteger holding amount)

/-- A pair put in its place among pairs in increasing order of id. -/
def insertById {α : Type} (p : Int × α) : List (Int × α) → List (Int × α)
  | [] => [p]
  | q :: qs => if p.1 ≤ q.1 then p :: q :: qs else q :: insertById p qs

def sortById {α : Type} (ps : List (Int × α)) : List (Int × α) := ps.foldr insertById []

/-- The balances of an asset, whose id is in the text of every refusal. -/
def allocateAsset (id : Int) (grants : Grants) : Except Error (Int × Balances) := do
  Json.report (Holding.asset id).ids
  let balances ← raising (checkGrants (.asset id) [] grants)
  return (id, balances)

/-- The balances of each asset, in increasing order of id. -/
def allocateAssets (grants : List (Int × Grants)) : Except Error (List (Int × Balances)) :=
  (sortById grants).mapM fun (id, cs) => allocateAsset id cs

def isInteger : Json → Bool
  | .int _ => true
  | _ => false

/-- Seats for half of the accounts, rounded up. -/
def seats (n : Nat) : Nat := (n + 1) / 2

/-- The same amount for every account, and what the assets are endowed with. -/
def allocate (accounts : List Bytes) (amount : Json) (stake : Int) (assets : List (Int × Grants)) :
    Except Error Endowment := do
  if !isInteger amount then throw (GenesisError.amountNotInteger .native amount).raised
  let native ← raising (checkGrants .native [] (accounts.map (·, amount)))
  let total : Nat := (native.map Prod.snd).foldr (· + ·) 0
  let notable := (native.map Prod.fst).take (seats native.length)
  let assets ← allocateAssets assets
  Json.report [amount, .int total]
  return {
    native, total
    technicalMembers := notable
    electionsMembers := notable.map (·, stake)
    assets }

def balancesJson (bs : Balances) : Json :=
  .list (bs.map fun (a, n) => .list [.text (Hex.encode a), .int n])

/-- Balances by the decimal numeral of the asset's id. -/
def assetsJson (assets : List (Int × Balances)) : Except Fault Json := do
  Json.report (assets.map fun p => .int p.1)
  return .object (assets.map fun (id, bs) => (Text.ofInt id, balancesJson bs))

def toJson (e : Endowment) : Except Fault Json := do
  let assets ← assetsJson e.assets
  return .object [("native", balancesJson e.native), ("totalEndowed", .int e.total), ("assets", assets)]

end Endowment

end LedgerGenesis
