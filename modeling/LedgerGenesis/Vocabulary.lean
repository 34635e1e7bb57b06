import LedgerGenesis.Json.Basic

/-! # The closed sets of names

Each set is a type; `name` is the spelling in tables and documents, and `ofJson?` reads it back.
-/
namespace LedgerGenesis

/-- The member of a list whose name is the given value. -/
def findNamed {α : Type} (all : List α) (name : α → String) : Json → Option α
  | .text t => all.find? fun a => Text.ofString (name a) = t
  | _ => none

/-- A kind of deployment. -/
inductive Profile where
  | development
  | «local»
  | publicTest
  | main
  deriving DecidableEq

namespace Profile

def all : List Profile := [development, «local», publicTest, main]

def name : Profile → String
  | development => "development"
  | «local» => "local"
  | publicTest => "public-test"
  | main => "main"

def ofJson? : Json → Option Profile := findNamed all name

end Profile

/-- The network family of a profile. -/
inductive Network where
  | mainnet
  | testnet
  deriving DecidableEq

namespace Network

def all : List Network := [mainnet, testnet]

def name : Network → String
  | mainnet => "mainnet"
  | testnet => "testnet"

def ofJson? : Json → Option Network := findNamed all name

/-- The address format of the network. -/
def addressFormat : Network → Int
  | mainnet => 44
  | testnet => 42

end Network

/-- How clients treat a chain. -/
inductive ChainType where
  | development
  | «local»
  | live
  deriving DecidableEq

namespace ChainType

def all : List ChainType := [development, «local», live]

def name : ChainType → String
  | development => "Development"
  | «local» => "Local"
  | live => "Live"

def ofJson? : Json → Option ChainType := findNamed all name

end ChainType

/-- A chain that assets live on and trustees serve. -/
inductive Chain where
  | chainX
  | bitcoin
  | ethereum
  | polkadot
  deriving DecidableEq

namespace Chain

def all : List Chain := [chainX, bitcoin, ethereum, polkadot]

def name : Chain → String
  | chainX => "ChainX"
  | bitcoin => "Bitcoin"
  | ethereum => "Ethereum"
  | polkadot => "Polkadot"

def ofJson? : Json → Option Chain := findNamed all name

end Chain

/-- The bridged Bitcoin network. -/
inductive BitcoinNetwork where
  | mainnet
  | testnet
  deriving DecidableEq

namespace BitcoinNetwork

def all : List BitcoinNetwork := [mainnet, testnet]

def name : BitcoinNetwork → String
  | mainnet => "Mainnet"
  | testnet => "Testnet"

def ofJson? : Json → Option BitcoinNetwork := findNamed all name

end BitcoinNetwork

/-- What a validator signs for. -/
inductive Role where
  | account
  | babe
  | grandpa
  | imOnline
  | authorityDiscovery
  deriving DecidableEq

namespace Role

def all : List Role := [account, babe, grandpa, imOnline, authorityDiscovery]

def name : Role → String
  | account => "account"
  | babe => "babe"
  | grandpa => "grandpa"
  | imOnline => "im_online"
  | authorityDiscovery => "authority_discovery"

/-- The four letters that set the keys of a role apart. -/
def tag : Role → String
  | account => "acco"
  | babe => "babe"
  | grandpa => "gran"
  | imOnline => "imon"
  | authorityDiscovery => "audi"

end Role

/-- The words of a block header that are no hashes, in the order in which they are checked. -/
inductive HeaderWord where
  | version
  | time
  | bits
  | nonce
  deriving DecidableEq

def HeaderWord.name : HeaderWord → String
  | version => "version"
  | time => "time"
  | bits => "bits"
  | nonce => "nonce"

inductive HeaderHash where
  | previous
  | merkleRoot
  deriving DecidableEq

def HeaderHash.name : HeaderHash → String
  | previous => "previous_header_hash"
  | merkleRoot => "merkle_root_hash"

/-- The two keys of a trustee. -/
inductive TrusteeKey where
  | hot
  | cold
  deriving DecidableEq

def TrusteeKey.name : TrusteeKey → String
  | hot => "hot_key"
  | cold => "cold_key"

/-- What a balance is held in. -/
inductive Holding where
  | native
  | asset (id : Int)
  deriving DecidableEq

/-- The id of an asset as a value. -/
def Holding.ids : Holding → List Json
  | native => []
  | asset id => [.int id]

def Holding.display : Holding → Text
  | native => "native"
  | asset id => "asset " ++ Text.ofInt id

end LedgerGenesis
