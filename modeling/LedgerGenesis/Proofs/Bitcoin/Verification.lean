import LedgerGenesis.Bitcoin.Anchor
import LedgerGenesis.Proofs.Bitcoin.Header
import LedgerGenesis.Proofs.Json.Showable
import Mathlib.Data.Set.Function

/-! # What the verification of an anchor demands

An anchor is accepted when its declared hash is that of its header, and the hash is within the target of
the header, which is within the limit of the network. The declared hash then stands for the whole header:
unless the hash function collides, no other header goes with it.
-/
namespace LedgerGenesis.Anchor

variable {a b : Anchor} {h : Header}

/-- The hash of a header is within the header's own target, and that target is within the given limit. -/
def HasWork (h : Header) (maxBits : Int) : Prop :=
  ∃ target limit, CompactTarget.expand h.bits.toNat = .ok target ∧
    CompactTarget.expand maxBits = .ok limit ∧
      Bytes.ofLittleEndian (doubleSha256 h.serialize) ≤ target ∧ target ≤ limit

theorem verifyWork_of_hash_ne (h : a.header.hash ≠ a.declaredHash) :
    a.verifyWork = .error (.headerHashMismatch a.header.hash a.declaredHash) := by
  unfold verifyWork
  rw [if_pos h]
  rfl

theorem verifyWork_eq_ok_iff : a.verifyWork = .ok () ↔
    a.header.hash = a.declaredHash ∧ HasWork a.header a.retarget.maxBits := by
  by_cases hd : a.header.hash = a.declaredHash
  · rw [and_iff_right hd]
    unfold verifyWork
    rw [if_neg (not_not_intro hd)]
    simp only [bind_eq_ok_iff]
    constructor
    · rintro ⟨target, ht, limit, hl, hchecks⟩
      split_ifs at hchecks with hlimit hwork hwork
      · cases hchecks
      · cases hchecks
      · exact ⟨target, limit, ht, hl, not_lt.mp hwork, not_lt.mp hlimit⟩
    · rintro ⟨target, limit, ht, hl, hwork, hlimit⟩
      have hmet : ¬ target < Bytes.ofLittleEndian a.header.hash := not_lt.mpr hwork
      refine ⟨target, ht, limit, hl, ?_⟩
      rw [if_neg (not_lt.mpr hlimit), if_neg hmet]
      rfl
  · rw [verifyWork_of_hash_ne hd]
    simp [hd]

theorem headerHash_eq_ok_iff_verifyWork :
    Verifier.headerHash a = .ok () ↔ a.verifyWork = .ok () ∧ HasNumeral a.height := by
  simp only [Verifier.headerHash, bind_eq_ok_iff, liftGenesis_eq_ok_iff, liftFault_eq_ok_iff,
    Json.report_eq_ok_iff, List.forall_mem_singleton, Json.isShowable_int_iff]
  constructor
  · rintro ⟨⟨⟩, h⟩
    exact h
  · exact fun h => ⟨(), h⟩

/-- What the work lacks is an error of the genesis, and only after that the height counts. -/
theorem headerHash_eq_error_iff {x : Error} : Verifier.headerHash a = .error x ↔
    (∃ e, a.verifyWork = .error e ∧ .genesis e = x) ∨
      a.verifyWork = .ok () ∧ ¬ HasNumeral a.height ∧ x = .fault .longNumeral := by
  simp only [Verifier.headerHash, bind_eq_error_iff, liftGenesis_eq_error_iff, liftGenesis_eq_ok_iff,
    liftReport_eq_error_iff, List.forall_mem_singleton, Json.isShowable_int_iff]
  refine or_congr_right ⟨?_, fun h => ⟨(), h⟩⟩
  rintro ⟨⟨⟩, h⟩
  exact h

theorem headerHash_eq_ok_iff : Verifier.headerHash a = .ok () ↔
    (a.header.hash = a.declaredHash ∧ HasWork a.header a.retarget.maxBits) ∧ HasNumeral a.height :=
  headerHash_eq_ok_iff_verifyWork.trans (and_congr_left fun _ => verifyWork_eq_ok_iff)

theorem hash_of_headerHash (h : Verifier.headerHash a = .ok ()) :
    doubleSha256 a.header.serialize = a.declaredHash := (headerHash_eq_ok_iff.mp h).1.1

/-- An anchor whose header has another hash than the declared one is invalid. -/
theorem headerHash_of_hash_ne (h : a.header.hash ≠ a.declaredHash) :
    ∃ e, Verifier.headerHash a = .error (.genesis e) ∧ e.kind = .invalidAnchor := by
  refine ⟨.headerHashMismatch a.header.hash a.declaredHash, ?_, rfl⟩
  rw [Verifier.headerHash, verifyWork_of_hash_ne h]
  rfl

/-! ## The declared hash stands for the header -/

section NoCollision

variable {forms : Set Bytes} (hinj : Set.InjOn doubleSha256 forms)
include hinj

theorem header_eq_of_hash_eq {g h : Header} (hg : g.serialize ∈ forms) (hh : h.serialize ∈ forms)
    (heq : g.hash = h.hash) : g = h :=
  Header.serialize_injective (hinj hg hh heq)

theorem header_eq_of_declaredHash_eq (ha : a.header.serialize ∈ forms)
    (hb : b.header.serialize ∈ forms) (hva : Verifier.headerHash a = .ok ())
    (hvb : Verifier.headerHash b = .ok ()) (heq : a.declaredHash = b.declaredHash) :
    a.header = b.header := by
  refine header_eq_of_hash_eq hinj ha hb ?_
  calc a.header.hash = a.declaredHash := hash_of_headerHash hva
    _ = b.declaredHash := heq
    _ = b.header.hash := (hash_of_headerHash hvb).symm

/-- An accepted anchor is invalid with any other header. -/
theorem headerHash_withHeader (ha : a.header.serialize ∈ forms) (hh : h.serialize ∈ forms)
    (hva : Verifier.headerHash a = .ok ()) (hne : h ≠ a.header) :
    ∃ e, Verifier.headerHash { a with header := h } = .error (.genesis e) ∧ e.kind = .invalidAnchor := by
  refine headerHash_of_hash_ne fun heq => hne ?_
  exact header_eq_of_hash_eq hinj hh ha (heq.trans (hash_of_headerHash hva).symm)

end NoCollision

/-- What a header is made of is what it holds, and its wire form has eighty bytes and shows all of it. Among
wire forms on which double SHA-256 has no collision, anchors that are accepted with one declared hash have
one header, and an accepted anchor becomes invalid when any part of its header is changed. -/
theorem declaredHash_binds_header :
    (∀ version previous merkleRoot time bits nonce h,
      Header.make version previous merkleRoot time bits nonce = .ok h ↔
        version = .int h.version.toNat ∧ previous = h.previous ∧ merkleRoot = h.merkleRoot ∧
          time = .int h.time.toNat ∧ bits = .int h.bits.toNat ∧ nonce = .int h.nonce.toNat) ∧
    (∀ h : Header, h.serialize.length = 80) ∧ Function.Injective Header.serialize ∧
    ∀ forms : Set Bytes, Set.InjOn doubleSha256 forms →
      (∀ a b : Anchor, a.header.serialize ∈ forms → b.header.serialize ∈ forms →
        Verifier.headerHash a = .ok () → Verifier.headerHash b = .ok () →
          a.declaredHash = b.declaredHash → a.header = b.header) ∧
      ∀ (a : Anchor) (h : Header), a.header.serialize ∈ forms → h.serialize ∈ forms →
        Verifier.headerHash a = .ok () → h ≠ a.header →
          ∃ e, Verifier.headerHash { a with header := h } = .error (.genesis e) ∧
            e.kind = .invalidAnchor :=
  ⟨fun _ _ _ _ _ _ _ => Header.make_eq_ok_iff, Header.length_serialize, Header.serialize_injective,
    fun _ hinj => ⟨fun _ _ => header_eq_of_declaredHash_eq hinj, fun _ _ => headerHash_withHeader hinj⟩⟩

/-! ## The first block -/

/-- The header of the first block of the main network. -/
def firstHeader : Header where
  version := 1
  previous := List.replicate 32 0
  merkleRoot := [
    0x3b, 0xa3, 0xed, 0xfd, 0x7a, 0x7b, 0x12, 0xb2, 0x7a, 0xc7, 0x2c, 0x3e, 0x67, 0x76, 0x8f, 0x61,
    0x7f, 0xc8, 0x1b, 0xc3, 0x88, 0x8a, 0x51, 0x32, 0x3a, 0x9f, 0xb8, 0xaa, 0x4b, 0x1e, 0x5e, 0x4a]
  time := 1231006505
  bits := 486604799
  nonce := 2083236893
  previous_length := rfl
  merkleRoot_length := rfl

def firstAnchor : Anchor where
  network := .mainnet
  confirmations := 4
  height := 0
  declaredHash := [
    0x6f, 0xe2, 0x8c, 0x0a, 0xb6, 0xf1, 0xb3, 0x72, 0xc1, 0xa6, 0xa2, 0x46, 0xae, 0x63, 0xf7, 0x4f,
    0x93, 0x1e, 0x83, 0x65, 0xe1, 0x5a, 0x08, 0x9c, 0x68, 0xd6, 0x19, 0x00, 0x00, 0x00, 0x00, 0x00]
  header := firstHeader
  retarget := .mainnet

/-- The first block is accepted, and with another nonce it is not. -/
theorem firstAnchor_binds_header : ∃ forms : Set Bytes, Set.InjOn doubleSha256 forms ∧
    firstAnchor.header.serialize ∈ forms ∧ Header.serialize { firstHeader with nonce := 0 } ∈ forms ∧
      Verifier.headerHash firstAnchor = .ok () ∧
        ∃ e, Verifier.headerHash { firstAnchor with header := { firstHeader with nonce := 0 } } =
          .error (.genesis e) ∧ e.kind = .invalidAnchor := by
  have hne : doubleSha256 firstHeader.serialize ≠
      doubleSha256 (Header.serialize { firstHeader with nonce := 0 }) := by decide +kernel
  have hinj : Set.InjOn doubleSha256
      {firstHeader.serialize, Header.serialize { firstHeader with nonce := 0 }} := by
    rw [Set.injOn_pair]
    exact fun heq => absurd heq hne
  have hverified : Verifier.headerHash firstAnchor = .ok () := by decide +kernel
  refine ⟨_, hinj, Set.mem_insert _ _, Set.mem_insert_of_mem _ rfl, hverified, ?_⟩
  exact (declaredHash_binds_header.2.2.2 _ hinj).2 firstAnchor { firstHeader with nonce := 0 }
    (Set.mem_insert _ _) (Set.mem_insert_of_mem _ rfl) hverified (by decide)

end LedgerGenesis.Anchor
