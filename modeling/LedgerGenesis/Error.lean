import LedgerGenesis.Bytes.Hex
import LedgerGenesis.Json.Display
import LedgerGenesis.Text.Utf8
import LedgerGenesis.Vocabulary

/-! # Errors

A `Fault` says why a value or a file could not be taken for what was wanted of it. A `GenesisError` says
what is wrong with the inputs of a genesis; its `kind` is the class that reports name, and its `message`
is the text they show. Faults met inside a table entry become a genesis error of that table, except those
of a family that the table lets through. An error is raised together with its text: where this would show a
value that cannot be shown, the numeral that is lacking is the fault instead.
-/
namespace LedgerGenesis

inductive Fault where
  /-- A mapping lacks the key. -/
  | missingKey (key : Text)
  /-- A field is asked of a value that is no mapping. -/
  | notIndexed
  /-- Items are asked of a value that has none. -/
  | notIterable
  /-- An integer is asked of a value that is no number and no text. -/
  | notNumeric
  /-- A list or an object stands where a key must. -/
  | notAKey
  /-- A value that is no mapping stands where named settings must. -/
  | notSettings
  /-- A setting of an unknown name. -/
  | unknownSetting (name : Text)
  /-- A value that is no text stands where a path must. -/
  | notAPath
  /-- A text is asked of another value. -/
  | notText
  /-- A mapping is asked of another value. -/
  | notMapping
  | badHex
  | badNumeral
  | hashLength (length : Nat)
  | unknownRestriction (name : Json)
  | unknownChain (name : Json)
  | unknownBitcoinNetwork (name : Json)
  /-- A pair is asked of a value with another number of items. -/
  | notAPair
  | roleTooLong
  | nulInPath
  | malformedJson
  | longNumeral
  | notUtf8
  | loneSurrogate
  /-- An integer is asked of an infinite number. -/
  | infinite
  /-- An integer is beyond what an encoding can hold. -/
  | outOfRange
  /-- A text or a collection is longer than an encoding can say. -/
  | tooLong
  | noVerifier
  | noSuchFile
  | isDirectory
  | notDirectory
  | fileExists
  | nameTooLong
  /-- More directories are lacking, one inside the other, than can be made at once. -/
  | tooManyDirectories
  deriving DecidableEq

/-- The families by which tables tell faults apart. -/
inductive Fault.Family where
  | key
  | shape
  | access
  | content
  | magnitude
  | system
  | verifier
  deriving DecidableEq

namespace Fault

def family : Fault → Family
  | missingKey _ => .key
  | notIndexed | notIterable | notNumeric | notAKey | notSettings | unknownSetting _ | notAPath => .shape
  | notText | notMapping => .access
  | badHex | badNumeral | hashLength _ | unknownRestriction _ | unknownChain _
  | unknownBitcoinNetwork _ | notAPair | roleTooLong | nulInPath | malformedJson | longNumeral | notUtf8
  | loneSurrogate | tooLong => .content
  | infinite | outOfRange | tooManyDirectories => .magnitude
  | noSuchFile | isDirectory | notDirectory | fileExists | nameTooLong => .system
  | noVerifier => .verifier

/-- The text of the faults that have one of their own. -/
def text? : Fault → Option Text
  | missingKey key => some key.quoted
  | hashLength n => some ("Expected 32-byte hash, got " ++ Text.ofNat n ++ " bytes")
  | unknownRestriction name => some ("Unknown asset restriction " ++ name.inspect)
  | unknownChain name => some (name.inspect ++ " is not a valid Chain")
  | unknownBitcoinNetwork name => some (name.inspect ++ " is not a valid BtcNetwork")
  | _ => none

/-- The values that the text of a fault shows. -/
def shown : Fault → List Json
  | unknownRestriction v | unknownChain v | unknownBitcoinNetwork v => [v]
  | _ => []

/-- A fault as it is raised. -/
def raised (f : Fault) : Fault := if f.shown.all Json.isShowable then f else longNumeral

/-- A message about a fault: what the report says, then the fault's own text if it has one. -/
def appended (f : Fault) (report : Text) : Text :=
  match f.text? with
  | some t => report ++ .char ' ' :: t
  | none => report

end Fault

inductive GenesisError where
  | invalidSeed (seed : Json)
  | seedRejected (seed : Text) (cause : Fault)
  | duplicateAsset (id : Int)
  | reservedAsset (token : Json)
  | restrictionOnUnknownAsset (id : Int)
  | endowmentOfUnknownAsset (id : Int)
  | malformedAuthority (entry : Json) (cause : Fault)
  | noAuthorities
  | missingRoles (index : Nat) (referral : Bytes) (roles : List Role)
  | duplicateStash (account : Bytes)
  | amountNotInteger (holding : Holding) (amount : Json)
  | negativeEndowment (holding : Holding) (amount : Int) (account : Bytes)
  | duplicateEndowment (holding : Holding) (account : Bytes)
  | unendowedValidator (referral stash : Bytes)
  | spacingNotPositive
  | windowNotMultiple (timespan spacing : Int)
  | factorNotPositive
  | negativeTarget (bits : Int)
  | badHeaderWord (word : HeaderWord) (value : Json)
  | badHeaderHash (hash : HeaderHash)
  | malformedAnchor (cause : Fault)
  | confirmationNotPositive
  | headerHashMismatch (computed declared : Bytes)
  | bitsAboveLimit (bits limit : Int)
  | targetNotMet (declared : Bytes)
  | wrongBitcoinNetwork (network : Network) (anchored : BitcoinNetwork)
  | retargetMismatch
  | badTrusteeKey (about : Bytes) (key : TrusteeKey)
  | malformedTrustees (cause : Fault)
  | tooFewTrustees (chain : Chain) (count : Nat) (least : Int)
  | tooManyTrustees (chain : Chain) (count : Nat) (greatest : Int)
  | noTrustees (chain : Chain)
  | adminKeyRequired (profile : Profile)
  | adminKeyForbidden (profile : Profile)
  | unknownProfile (given : Json)
  | noSnapshot (profile : Profile)
  | unknownSpec (id : Text)
  | notFrozen (id : Text)
  | imageNotConfigured (runtime : Text)
  | imageNotFound (runtime : Text) (path : Json)
  | imageInvalid (runtime : Text) (path : Json)
  | duplicateKey (key : Text)
  | inexactNumber (literal : Text)
  | malformedSnapshot
  | snapshotNotObject
  | snapshotLacks (fields : List Text)
  | unsupportedFormat (version : Json)
  | unknownChainType (given : Json)
  | snapshotWithoutGenesis
  | malformedTelemetry
  | malformedBootNodes
  | snapshotMismatch (name id expectedName expectedId : Json)
  | unreadableSpec (path : Text)
  | resourceNotFound (name directory : Text)
  | malformedResource (name : Text)
  | resourceNotObject (name : Text)
  | resourceVersion (name : Text) (version : Json)
  | resourceSection (name key : Text)
  | noAdminKey (network name : Text)
  | unreadableConfiguration (path : Text)
  deriving DecidableEq

namespace GenesisError

/-- The classes of genesis errors. -/
inductive Kind where
  | invalidSeed
  | duplicateAssetId
  | reservedAssetId
  | unknownAssetReference
  | incompleteAuthority
  | duplicateAuthority
  | invalidEndowmentAmount
  | negativeEndowment
  | duplicateEndowment
  | unendowedValidator
  | invalidAnchor
  | invalidTrusteeKey
  | insufficientTrustees
  | noTrusteesForChain
  | adminKeyMismatch
  | unknownProfile
  | missingRuntimeImage
  | malformedSnapshot
  | missingResource
  deriving DecidableEq

def Kind.name : Kind → String
  | invalidSeed => "InvalidSeed"
  | duplicateAssetId => "DuplicateAssetId"
  | reservedAssetId => "ReservedAssetId"
  | unknownAssetReference => "UnknownAssetReference"
  | incompleteAuthority => "IncompleteAuthority"
  | duplicateAuthority => "DuplicateAuthority"
  | invalidEndowmentAmount => "InvalidEndowmentAmount"
  | negativeEndowment => "NegativeEndowment"
  | duplicateEndowment => "DuplicateEndowment"
  | unendowedValidator => "UnendowedValidator"
  | invalidAnchor => "InvalidAnchor"
  | invalidTrusteeKey => "InvalidTrusteeKey"
  | insufficientTrustees => "InsufficientTrustees"
  | noTrusteesForChain => "NoTrusteesForChain"
  | adminKeyMismatch => "AdminKeyMismatch"
  | unknownProfile => "UnknownProfile"
  | missingRuntimeImage => "MissingRuntimeImage"
  | malformedSnapshot => "MalformedSnapshot"
  | missingResource => "MissingResource"

def kind : GenesisError → Kind
  | invalidSeed _ | seedRejected .. => .invalidSeed
  | duplicateAsset _ => .duplicateAssetId
  | reservedAsset _ => .reservedAssetId
  | restrictionOnUnknownAsset _ | endowmentOfUnknownAsset _ => .unknownAssetReference
  | malformedAuthority .. | noAuthorities | missingRoles .. => .incompleteAuthority
  | duplicateStash _ => .duplicateAuthority
  | amountNotInteger .. => .invalidEndowmentAmount
  | negativeEndowment .. => .negativeEndowment
  | duplicateEndowment .. => .duplicateEndowment
  | unendowedValidator .. => .unendowedValidator
  | spacingNotPositive | windowNotMultiple .. | factorNotPositive | negativeTarget _ | badHeaderWord ..
  | badHeaderHash _ | malformedAnchor _ | confirmationNotPositive | headerHashMismatch ..
  | bitsAboveLimit .. | targetNotMet _ | wrongBitcoinNetwork .. | retargetMismatch => .invalidAnchor
  | badTrusteeKey .. | malformedTrustees _ => .invalidTrusteeKey
  | tooFewTrustees .. | tooManyTrustees .. => .insufficientTrustees
  | noTrustees _ => .noTrusteesForChain
  | adminKeyRequired _ | adminKeyForbidden _ => .adminKeyMismatch
  | unknownProfile _ | noSnapshot _ | unknownSpec _ | notFrozen _ => .unknownProfile
  | imageNotConfigured _ | imageNotFound .. | imageInvalid .. => .missingRuntimeImage
  | duplicateKey _ | inexactNumber _ | malformedSnapshot | snapshotNotObject | snapshotLacks _
  | unsupportedFormat _ | unknownChainType _ | snapshotWithoutGenesis | malformedTelemetry
  | malformedBootNodes | snapshotMismatch .. | unreadableSpec _ => .malformedSnapshot
  | resourceNotFound .. | malformedResource _ | resourceNotObject _ | resourceVersion ..
  | resourceSection .. | noAdminKey .. | unreadableConfiguration _ => .missingResource

def message : GenesisError → Text
  | invalidSeed seed => "Invalid seed " ++ seed.inspect
  | seedRejected seed cause => cause.appended ("Key derivation rejected seed " ++ seed.quoted ++ ":")
  | duplicateAsset id => "Asset id " ++ Text.ofInt id ++ " registered twice"
  | reservedAsset token => "Asset id 0 is reserved for the native currency (" ++ token.display ++ ")"
  | restrictionOnUnknownAsset id => "Restriction references unknown asset id " ++ Text.ofInt id
  | endowmentOfUnknownAsset id => "Endowment references unknown asset id " ++ Text.ofInt id
  | malformedAuthority entry cause =>
    cause.appended ("Malformed authority entry " ++ entry.inspect ++ ":")
  | noAuthorities => "At least one initial authority is required"
  | missingRoles index referral roles =>
    "Authority #" ++ Text.ofNat index ++ " (" ++ Text.ofChars (Utf8.decodeLossy referral) ++
      ") is missing keys: " ++ Text.joinWith ", " (roles.map fun r => Text.ofString r.name)
  | duplicateStash account => "Stash " ++ Hex.encode account ++ " bound twice"
  | amountNotInteger holding amount =>
    holding.display ++ " endowment amount " ++ amount.inspect ++ " is not an integer"
  | negativeEndowment holding amount account =>
    "Negative " ++ holding.display ++ " endowment " ++ Text.ofInt amount ++ " for " ++ Hex.encode account
  | duplicateEndowment holding account =>
    "Account " ++ Hex.encode account ++ " endowed twice with " ++ holding.display
  | unendowedValidator referral stash =>
    "Validator " ++ Text.ofChars (Utf8.decodeLossy referral) ++ " stash " ++ Hex.encode stash ++
      " has no native balance"
  | spacingNotPositive => "Target block spacing must be positive"
  | windowNotMultiple timespan spacing =>
    "Retarget window " ++ Text.ofInt timespan ++ "s is not a multiple of block spacing " ++
      Text.ofInt spacing ++ "s"
  | factorNotPositive => "Retargeting factor must be positive"
  | negativeTarget bits => "Negative compact target " ++ Text.ofIntHex bits
  | badHeaderWord word value =>
    "Header " ++ Text.ofString word.name ++ " must be a 32-bit unsigned integer, got " ++ value.inspect
  | badHeaderHash hash => "Header " ++ Text.ofString hash.name ++ " must be 32 bytes"
  | malformedAnchor cause => cause.appended "Malformed bitcoin genesis params:"
  | confirmationNotPositive => "Confirmation number must be positive"
  | headerHashMismatch computed declared =>
    "Header hash " ++ Hex.displayHash computed ++ " does not match declared hash " ++
      Hex.displayHash declared
  | bitsAboveLimit bits limit =>
    "Header bits " ++ Text.ofIntHex bits ++ " exceed max bits " ++ Text.ofIntHex limit
  | targetNotMet declared => "Header " ++ Hex.displayHash declared ++ " does not meet its target"
  | wrongBitcoinNetwork network anchored =>
    Text.ofString network.name ++ " genesis cannot anchor bitcoin " ++ Text.ofString anchored.name
  | retargetMismatch => "Anchor retargeting parameters differ from the profile's"
  | badTrusteeKey about key =>
    "Trustee " ++ Text.ofChars (Utf8.decodeLossy about) ++ " has an invalid " ++ Text.ofString key.name
  | malformedTrustees cause => cause.appended "Malformed trustee candidates:"
  | tooFewTrustees chain count least =>
    Text.ofString chain.name ++ " has " ++ Text.ofNat count ++ " trustees, at least " ++
      Text.ofInt least ++ " required"
  | tooManyTrustees chain count greatest =>
    Text.ofString chain.name ++ " has " ++ Text.ofNat count ++ " trustees, at most " ++
      Text.ofInt greatest ++ " allowed"
  | noTrustees chain => "No trustee candidates configured for " ++ Text.ofString chain.name
  | adminKeyRequired profile => "Profile " ++ Text.ofString profile.name ++ " requires an admin key"
  | adminKeyForbidden profile =>
    "Profile " ++ Text.ofString profile.name ++ " must not have an admin key"
  | unknownProfile given => "Unknown profile " ++ given.inspect
  | noSnapshot profile => "Profile " ++ Text.ofString profile.name ++ " has no frozen snapshot"
  | unknownSpec id => "Unknown chain spec " ++ id.quoted
  | notFrozen id => id.quoted ++ " is not a frozen chain spec"
  | imageNotConfigured runtime => "No code image configured for the " ++ runtime ++ " runtime"
  | imageNotFound runtime path => runtime ++ " wasm binary not available at " ++ path.display
  | imageInvalid runtime path => runtime ++ " code image at " ++ path.display ++ " is not valid wasm:"
  | duplicateKey key => "Duplicate key " ++ key.quoted
  | inexactNumber literal => "Non-integer number " ++ literal
  | malformedSnapshot => "Chain spec is not valid JSON:"
  | snapshotNotObject => "Chain spec must be a JSON object"
  | snapshotLacks fields => "Chain spec is missing fields: " ++ Text.joinWith ", " fields
  | unsupportedFormat version => "Unsupported chain spec format version " ++ version.inspect
  | unknownChainType given => "Unknown chain type " ++ given.inspect
  | snapshotWithoutGenesis => "Chain spec genesis must hold a 'raw' or 'runtime' section"
  | malformedTelemetry => "Malformed telemetry endpoints:"
  | malformedBootNodes => "bootNodes must be a list of multiaddr strings"
  | snapshotMismatch name id expectedName expectedId =>
    "Frozen spec is '" ++ name.display ++ "' (" ++ id.display ++ "), expected '" ++
      expectedName.display ++ "' (" ++ expectedId.display ++ ")"
  | unreadableSpec path => "Cannot read chain spec " ++ path ++ ":"
  | resourceNotFound name directory => "Resource " ++ name ++ " not found in " ++ directory
  | malformedResource name => "Resource " ++ name ++ " is not valid JSON:"
  | resourceNotObject name => "Resource " ++ name ++ " is not a JSON object"
  | resourceVersion name version =>
    "Resource " ++ name ++ " has unsupported version " ++ version.inspect
  | resourceSection name key => "Resource " ++ name ++ " has no '" ++ key ++ "' section"
  | noAdminKey network name => "No admin key for " ++ network ++ " in " ++ name
  | unreadableConfiguration path => "Cannot load builder configuration " ++ path ++ ":"

/-- The values that the text of an error shows, counts and positions apart. -/
def shown : GenesisError → List Json
  | duplicateAsset id | restrictionOnUnknownAsset id | endowmentOfUnknownAsset id => [.int id]
  | amountNotInteger holding amount => holding.ids ++ [amount]
  | negativeEndowment holding amount _ => holding.ids ++ [.int amount]
  | duplicateEndowment holding _ => holding.ids
  | windowNotMultiple timespan spacing => [.int timespan, .int spacing]
  | tooFewTrustees _ _ bound | tooManyTrustees _ _ bound => [.int bound]
  | invalidSeed v | reservedAsset v | malformedAuthority v _ | badHeaderWord _ v | unknownProfile v
  | imageNotFound _ v | imageInvalid _ v | unsupportedFormat v | unknownChainType v
  | resourceVersion _ v => [v]
  | snapshotMismatch name id expectedName expectedId => [name, id, expectedName, expectedId]
  | _ => []

/-- Whether the text of an error can be shown. -/
def isShowable (e : GenesisError) : Bool := e.shown.all Json.isShowable

end GenesisError

inductive Error where
  | fault (f : Fault)
  | genesis (e : GenesisError)
  deriving DecidableEq

/-- A genesis error as it is raised. -/
def GenesisError.raised (e : GenesisError) : Error :=
  if e.isShowable then .genesis e else .fault .longNumeral

/-- The outcome of a check whose errors are raised. -/
def raising {α : Type} : Except GenesisError α → Except Error α := Except.mapError GenesisError.raised

/-- Values are reported in a text, which needs them to be showable. -/
def Json.report (vs : List Json) : Except Fault Unit :=
  if vs.all isShowable then .ok () else .error .longNumeral

instance : MonadLift (Except Fault) (Except Error) := ⟨Except.mapError .fault⟩

/-- For errors about names, keys and what was read from texts, which can always be shown. -/
instance : MonadLift (Except GenesisError) (Except Error) := ⟨Except.mapError .genesis⟩

/-- Reports the faults of some families as one genesis error and lets all other errors pass. -/
def reporting {α : Type} (families : List Fault.Family) (report : Fault → GenesisError) :
    Except Error α → Except Error α
  | .error (.fault f) =>
    if f.family ∈ families then .error (report f).raised else .error (.fault f)
  | r => r

end LedgerGenesis
