import LedgerGenesis.Asset.Registry
import LedgerGenesis.Asset.Restrictions
import LedgerGenesis.Authority
import LedgerGenesis.Bitcoin.Anchor
import LedgerGenesis.Bitcoin.Difficulty
import LedgerGenesis.Bitcoin.Header
import LedgerGenesis.Bitcoin.Retarget
import LedgerGenesis.Bytes.Basic
import LedgerGenesis.Bytes.Hex
import LedgerGenesis.Cache
import LedgerGenesis.CommandLine.Invocation
import LedgerGenesis.CommandLine.Outcome
import LedgerGenesis.Curve.Ed25519
import LedgerGenesis.Curve.Modular
import LedgerGenesis.Curve.Secp256k1
import LedgerGenesis.Endowment
import LedgerGenesis.Error
import LedgerGenesis.Files.Basic
import LedgerGenesis.Files.Path
import LedgerGenesis.Genesis.Assembly
import LedgerGenesis.Genesis.State
import LedgerGenesis.Hash.Blake2b
import LedgerGenesis.Hash.Keccak
import LedgerGenesis.Hash.Sha2
import LedgerGenesis.Image.Module
import LedgerGenesis.Image.Store
import LedgerGenesis.Json.Access
import LedgerGenesis.Json.Basic
import LedgerGenesis.Json.Display
import LedgerGenesis.Json.MessagePack
import LedgerGenesis.Json.Printer
import LedgerGenesis.Json.Reader
import LedgerGenesis.Main
import LedgerGenesis.Number.Binary64
import LedgerGenesis.Number.Hexadecimal
import LedgerGenesis.Number.Numeral
import LedgerGenesis.Number.Shortest
import LedgerGenesis.Parameters
import LedgerGenesis.Proofs.Asset.Registration
import LedgerGenesis.Proofs.Asset.Registry
import LedgerGenesis.Proofs.Asset.Restrictions
import LedgerGenesis.Proofs.Authority
import LedgerGenesis.Proofs.Bitcoin.Difficulty
import LedgerGenesis.Proofs.Bitcoin.DisplayedHash
import LedgerGenesis.Proofs.Bitcoin.Header
import LedgerGenesis.Proofs.Bitcoin.ProofOfWork
import LedgerGenesis.Proofs.Bitcoin.Retarget
import LedgerGenesis.Proofs.Bitcoin.TargetWidth
import LedgerGenesis.Proofs.Bitcoin.Verification
import LedgerGenesis.Proofs.Bytes
import LedgerGenesis.Proofs.CommandLine.FailedBuilds
import LedgerGenesis.Proofs.CommandLine.Status
import LedgerGenesis.Proofs.CommandLine.WrittenFiles
import LedgerGenesis.Proofs.Concurrence
import LedgerGenesis.Proofs.Derivation
import LedgerGenesis.Proofs.Endowment
import LedgerGenesis.Proofs.Endowment.Amounts
import LedgerGenesis.Proofs.Endowment.Assets
import LedgerGenesis.Proofs.Endowment.Native
import LedgerGenesis.Proofs.Entries.Faults
import LedgerGenesis.Proofs.Entries.Fields
import LedgerGenesis.Proofs.Entries.Integers
import LedgerGenesis.Proofs.Escape
import LedgerGenesis.Proofs.Files
import LedgerGenesis.Proofs.Genesis.Acceptance
import LedgerGenesis.Proofs.Genesis.Accounts
import LedgerGenesis.Proofs.Genesis.Assembly
import LedgerGenesis.Proofs.Genesis.Balances
import LedgerGenesis.Proofs.Genesis.Binding
import LedgerGenesis.Proofs.Genesis.Candidates
import LedgerGenesis.Proofs.Genesis.Checks
import LedgerGenesis.Proofs.Genesis.Committee
import LedgerGenesis.Proofs.Genesis.Digest
import LedgerGenesis.Proofs.Genesis.Document
import LedgerGenesis.Proofs.Genesis.Governance
import LedgerGenesis.Proofs.Genesis.KeyOrder
import LedgerGenesis.Proofs.Genesis.Publication
import LedgerGenesis.Proofs.Genesis.References
import LedgerGenesis.Proofs.Genesis.Rendering
import LedgerGenesis.Proofs.Genesis.SessionKeys
import LedgerGenesis.Proofs.Genesis.Validators
import LedgerGenesis.Proofs.Hexadecimal
import LedgerGenesis.Proofs.Json.Grammar
import LedgerGenesis.Proofs.Json.Integer
import LedgerGenesis.Proofs.Json.Labels
import LedgerGenesis.Proofs.Json.Merging
import LedgerGenesis.Proofs.Json.Packable
import LedgerGenesis.Proofs.Json.Packing
import LedgerGenesis.Proofs.Json.Parts
import LedgerGenesis.Proofs.Json.Path
import LedgerGenesis.Proofs.Json.Portable
import LedgerGenesis.Proofs.Json.Printing
import LedgerGenesis.Proofs.Json.Reading
import LedgerGenesis.Proofs.Json.Reordering
import LedgerGenesis.Proofs.Json.Scanning
import LedgerGenesis.Proofs.Json.Showable
import LedgerGenesis.Proofs.Number.Interchange
import LedgerGenesis.Proofs.Number.Rendering
import LedgerGenesis.Proofs.Outcome
import LedgerGenesis.Proofs.Screening
import LedgerGenesis.Proofs.Seed
import LedgerGenesis.Proofs.Settings
import LedgerGenesis.Proofs.Spec.Acceptance
import LedgerGenesis.Proofs.Spec.Building
import LedgerGenesis.Proofs.Spec.Codec
import LedgerGenesis.Proofs.Spec.Envelope
import LedgerGenesis.Proofs.Spec.Leaks
import LedgerGenesis.Proofs.Spec.MainRebuild
import LedgerGenesis.Proofs.Spec.Rereading
import LedgerGenesis.Proofs.Spec.Selection
import LedgerGenesis.Proofs.Spec.SnapshotAlone
import LedgerGenesis.Proofs.Spec.VerifiedAnchor
import LedgerGenesis.Proofs.Stores
import LedgerGenesis.Proofs.Table
import LedgerGenesis.Proofs.Text.Spelling
import LedgerGenesis.Proofs.Text.Utf8
import LedgerGenesis.Proofs.Trustee
import LedgerGenesis.Proofs.Usage
import LedgerGenesis.Proofs.Vocabulary
import LedgerGenesis.Published.Anchors
import LedgerGenesis.Published.Catalog
import LedgerGenesis.Published.Economy
import LedgerGenesis.Published.Governance
import LedgerGenesis.Published.Layout
import LedgerGenesis.Published.Snapshots
import LedgerGenesis.Published.Trustees
import LedgerGenesis.Seed
import LedgerGenesis.Settings
import LedgerGenesis.Spec.Basic
import LedgerGenesis.Spec.Document
import LedgerGenesis.Spec.Preset
import LedgerGenesis.Spec.Snapshot
import LedgerGenesis.Spec.Sources
import LedgerGenesis.Table
import LedgerGenesis.Text.CodePoint
import LedgerGenesis.Text.DecimalDigit
import LedgerGenesis.Text.Printable
import LedgerGenesis.Text.Quoted
import LedgerGenesis.Text.Utf8
import LedgerGenesis.Trustee
import LedgerGenesis.Vocabulary
