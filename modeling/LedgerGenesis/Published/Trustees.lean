import LedgerGenesis.Published.Layout

/-! # Published trustees -/
namespace LedgerGenesis.Published

/-- A trustee, whose account is given by the field of the given name. -/
def trustee (field account about hotKey coldKey : String) : Layout :=
  .fields [(field, account), ("about", about), ("hot_key", hotKey), ("cold_key", coldKey)]

/-- The trustees of Bitcoin, at least three and at most fifteen. -/
def bitcoinTrustees (trustees : List Layout) : Layout :=
  table [("candidates", .items [
    .fields [
      ("chain", "Bitcoin"),
      ("config", .line (.object [("min_trustee_count", .int 3), ("max_trustee_count", .int 15)])),
      ("trustees", .items trustees)]])]

def mainnetTrustees : Layout :=
  bitcoinTrustees [
    trustee "account" "0x8fa51087d1a7327c90da45f8e369e31037606427f07ef77007a41036227a3a5b" "Web3"
      "0279be667ef9dcbbac55a06295ce870b07029bfcdb2dce28d959f2815b16f81798"
      "0379be667ef9dcbbac55a06295ce870b07029bfcdb2dce28d959f2815b16f81798",
    trustee "account" "0x4386e83d66fbdf9ebe72af81d453f41fb8f877287f04823665fc81b58cab6e6b" "XPool"
      "02c6047f9441ed7d6d3045406e95c07cd85c778e4b8cef3ca7abac09b95c709ee5"
      "03c6047f9441ed7d6d3045406e95c07cd85c778e4b8cef3ca7abac09b95c709ee5",
    trustee "account" "0x5620d851190bda61acb08f1a06defcdd5a3c7da3c33819643e7d6ee232ee78bf" "ChainY"
      "02f9308a019258c31049344f85f89d5229b531c845836f99b08601f113bce036f9"
      "03f9308a019258c31049344f85f89d5229b531c845836f99b08601f113bce036f9"]

def testnetTrustees : Layout :=
  bitcoinTrustees [
    trustee "seed" "Alice" "Alice"
      "0279be667ef9dcbbac55a06295ce870b07029bfcdb2dce28d959f2815b16f81798"
      "0379be667ef9dcbbac55a06295ce870b07029bfcdb2dce28d959f2815b16f81798",
    trustee "seed" "Bob" "Bob"
      "02c6047f9441ed7d6d3045406e95c07cd85c778e4b8cef3ca7abac09b95c709ee5"
      "03c6047f9441ed7d6d3045406e95c07cd85c778e4b8cef3ca7abac09b95c709ee5",
    trustee "seed" "Charlie" "Charlie"
      "02f9308a019258c31049344f85f89d5229b531c845836f99b08601f113bce036f9"
      "03f9308a019258c31049344f85f89d5229b531c845836f99b08601f113bce036f9"]

end LedgerGenesis.Published
