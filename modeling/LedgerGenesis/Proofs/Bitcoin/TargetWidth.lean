import LedgerGenesis.Parameters
import LedgerGenesis.Proofs.Bitcoin.ProofOfWork

/-! # Targets that are wider than any hash

A target with more than 256 bits admits every hash. Expansion does not refuse such words, so only the limit
of the network keeps out an anchor that has one. The limits of all profiles do, but a limit is any
integer, and one that is itself that wide lets it in.
-/
namespace LedgerGenesis.Anchor
open CompactTarget (expand target)

variable {r : Retarget}

/-- Every hash, read as a number of 256 bits, is within the target. -/
def AdmitsEveryHash (t : Nat) : Prop :=
  ∀ hash : Bytes, hash.length = 32 → Bytes.ofLittleEndian hash ≤ t

/-- The target of a word that admits every hash has more than 256 bits. -/
theorem admitsEveryHash_target_iff {bits : Int} : AdmitsEveryHash (target bits) ↔ 2 ^ 256 ≤ target bits := by
  have hwidth : 2 ^ 256 = 256 ^ 32 := by decide
  have hne := CompactTarget.target_succ_ne bits
  rw [hwidth] at hne ⊢
  constructor
  · intro h
    have hlast := Bytes.ofLittleEndian_replicate_succ 32
    have hle := h (List.replicate 32 255) List.length_replicate
    omega
  · intro h hash hlength
    have hlt := Bytes.ofLittleEndian_lt hash
    rw [hlength] at hlt
    omega

/-- The header of the first block with the least word whose target has more than 256 bits. -/
def wideHeader : Header := { firstHeader with bits := 0x21010000 }

/-- An anchor with the wide header and its hash. -/
def wideAnchor (r : Retarget) : Anchor where
  network := .mainnet
  confirmations := 4
  height := 0
  declaredHash := wideHeader.hash
  header := wideHeader
  retarget := r

theorem wideHeader_unsigned : wideHeader.bits.toNat.testBit 23 = false := by decide

theorem target_wideHeader : target wideHeader.bits.toNat = 2 ^ 256 := by decide +kernel

theorem provesWork_wideAnchor (hsign : r.maxBits.testBit 23 = false) (h : 2 ^ 256 ≤ target r.maxBits) :
    (wideAnchor r).ProvesWork where
  hash_eq := rfl
  bits_unsigned := wideHeader_unsigned
  limit_unsigned := hsign
  hash_le := by
    have hwidth : 2 ^ 256 = 256 ^ 32 := by decide
    have hlt := Bytes.ofLittleEndian_lt wideHeader.hash
    rw [Header.length_hash, ← hwidth] at hlt
    exact hlt.le.trans target_wideHeader.ge
  target_le := target_wideHeader.le.trans h

/-- A limit with so wide a target lets in the anchor, whose height is that of the first block. -/
theorem headerHash_wideAnchor (hsign : r.maxBits.testBit 23 = false) (h : 2 ^ 256 ≤ target r.maxBits) :
    Verifier.headerHash (wideAnchor r) = .ok () :=
  headerHash_eq_ok_iff_provesWork.mpr ⟨provesWork_wideAnchor hsign h, Nat.pow_pos (by decide)⟩

theorem target_lt_of_profile (p : Profile) : target p.parameters.retarget.maxBits < 2 ^ 256 := by
  cases p <;> decide +kernel

/-- Exactly which words are refused and which have a target of more than 256 bits, and exactly which limits
let in an anchor that every hash would do for. The limits of the profiles do not. -/
theorem wide_target_iff (bits : UInt32) (r : Retarget) :
    (bits.toNat.testBit 23 = true ∧
        (∃ e, expand bits.toNat = .error e ∧ e.kind = .invalidAnchor) ∨
      bits.toNat.testBit 23 = false ∧ ∃ t, expand bits.toNat = .ok t ∧
        (t < 2 ^ 256 ↔ bits.toNat % 2 ^ 23 < 256 ^ (35 - bits.toNat / 2 ^ 24))) ∧
    ((∃ a : Anchor, a.retarget = r ∧ Verifier.headerHash a = .ok () ∧
        AdmitsEveryHash (target a.header.bits.toNat)) ↔
      r.maxBits.testBit 23 = false ∧ 2 ^ 256 ≤ target r.maxBits) ∧
    ∀ (p : Profile) (a : Anchor), a.retarget = p.parameters.retarget → Verifier.headerHash a = .ok () →
      target a.header.bits.toNat < 2 ^ 256 := by
  refine ⟨?_, ⟨?_, ?_⟩, fun p a hretarget h => ?_⟩
  · cases hsign : bits.toNat.testBit 23 with
    | true => exact Or.inl ⟨rfl, _, CompactTarget.expand_of_negative hsign, rfl⟩
    | false =>
      refine Or.inr ⟨rfl, _, CompactTarget.expand_of_unsigned hsign, ?_⟩
      rw [CompactTarget.target_lt_iff, CompactTarget.mantissa_natCast, CompactTarget.toNat_exponent_natCast]
  · rintro ⟨a, rfl, h, hadmits⟩
    have hwork := (headerHash_eq_ok_iff_provesWork.mp h).1
    exact ⟨hwork.limit_unsigned, (admitsEveryHash_target_iff.mp hadmits).trans hwork.target_le⟩
  · rintro ⟨hsign, hwide⟩
    exact ⟨wideAnchor r, rfl, headerHash_wideAnchor hsign hwide,
      admitsEveryHash_target_iff.mpr target_wideHeader.ge⟩
  · have hlimit := target_lt_of_profile p
    rw [← hretarget] at hlimit
    exact (headerHash_eq_ok_iff_provesWork.mp h).1.target_le.trans_lt hlimit

/-- The target of the first block has at most 256 bits, as that of any anchor for the main network. -/
theorem firstAnchor_target_lt : firstAnchor.retarget = Profile.main.parameters.retarget ∧
    Verifier.headerHash firstAnchor = .ok () ∧ target firstAnchor.header.bits.toNat < 2 ^ 256 :=
  ⟨rfl, headerHash_firstAnchor,
    (wide_target_iff firstHeader.bits .mainnet).2.2 .main firstAnchor rfl headerHash_firstAnchor⟩

/-- The wide word expands, and where it is the limit an anchor is accepted that any hash would do for. -/
theorem wideAnchor_accepted : expand wideHeader.bits.toNat = .ok (2 ^ 256) ∧
    Verifier.headerHash (wideAnchor (.biweekly 0x21010000)) = .ok () ∧
      AdmitsEveryHash (target (wideAnchor (.biweekly 0x21010000)).header.bits.toNat) := by
  have hwide : 2 ^ 256 ≤ target (Retarget.biweekly 0x21010000).maxBits := target_wideHeader.ge
  exact ⟨CompactTarget.expand_eq_ok_iff.mpr ⟨wideHeader_unsigned, target_wideHeader⟩,
    headerHash_wideAnchor (by decide) hwide, admitsEveryHash_target_iff.mpr target_wideHeader.ge⟩

end LedgerGenesis.Anchor
