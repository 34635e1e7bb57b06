import LedgerGenesis.Proofs.Bitcoin.Difficulty
import LedgerGenesis.Proofs.Bitcoin.Verification

/-! # The proof of work of an anchor

The verifier accepts the anchors whose declared hash is the header's and within the header's target, which
is within the network's limit, and calls all others invalid; the height of those that it accepts is reported.
Between normalized words the limit on targets is a limit on the words themselves.
-/
namespace LedgerGenesis.Anchor
open CompactTarget (expand exponent target Normalized)

variable {a : Anchor} {r : Retarget}

/-- The declared hash is that of the header and within its target, which is within the limit. Neither of
the two words has the sign bit. -/
structure ProvesWork (a : Anchor) : Prop where
  hash_eq : a.declaredHash = doubleSha256 a.header.serialize
  bits_unsigned : a.header.bits.toNat.testBit 23 = false
  limit_unsigned : a.retarget.maxBits.testBit 23 = false
  hash_le : Bytes.ofLittleEndian a.declaredHash ≤ target a.header.bits.toNat
  target_le : target a.header.bits.toNat ≤ target a.retarget.maxBits

/-! ## Each outcome of the verification -/

/-- Once the hash is the header's, the two words are expanded and compared, and then the hash. -/
theorem verifyWork_of_hash_eq (hhash : a.header.hash = a.declaredHash) :
    a.verifyWork = expand a.header.bits.toNat >>= fun own => expand a.retarget.maxBits >>= fun limit =>
      if limit < own then .error (.bitsAboveLimit a.header.bits.toNat a.retarget.maxBits)
      else if own < Bytes.ofLittleEndian a.declaredHash then .error (.targetNotMet a.declaredHash)
      else .ok () := by
  unfold verifyWork
  rw [if_neg (not_not_intro hhash), ← hhash]
  rfl

theorem verifyWork_of_unsigned (hhash : a.header.hash = a.declaredHash)
    (hbits : a.header.bits.toNat.testBit 23 = false) (hlimit : a.retarget.maxBits.testBit 23 = false) :
    a.verifyWork =
      if target a.retarget.maxBits < target a.header.bits.toNat then
        .error (.bitsAboveLimit a.header.bits.toNat a.retarget.maxBits)
      else if target a.header.bits.toNat < Bytes.ofLittleEndian a.declaredHash then
        .error (.targetNotMet a.declaredHash)
      else .ok () := by
  have hexpand : expand a.header.bits.toNat = .ok (target a.header.bits.toNat) :=
    CompactTarget.expand_of_unsigned hbits
  rw [verifyWork_of_hash_eq hhash, hexpand, CompactTarget.expand_of_unsigned hlimit]
  rfl

theorem kind_of_verifyWork {e : GenesisError} (h : a.verifyWork = .error e) : e.kind = .invalidAnchor := by
  by_cases hhash : a.header.hash = a.declaredHash
  · simp only [verifyWork_of_hash_eq hhash, bind_eq_error_iff, CompactTarget.expand_eq_error_iff] at h
    rcases h with ⟨-, rfl⟩ | ⟨own, -, ⟨-, rfl⟩ | ⟨limit, -, hchecks⟩⟩
    · rfl
    · rfl
    · split_ifs at hchecks
      · cases hchecks
        rfl
      · cases hchecks
        rfl
  · rw [verifyWork_of_hash_ne hhash] at h
    cases h
    rfl

theorem verifyWork_eq_ok_iff_provesWork : a.verifyWork = .ok () ↔ a.ProvesWork := by
  rw [verifyWork_eq_ok_iff]
  simp only [HasWork, CompactTarget.expand_eq_ok_iff]
  constructor
  · rintro ⟨hhash, _, _, ⟨hbits, rfl⟩, ⟨hlimit, rfl⟩, hwork, hle⟩
    rw [← Header.hash, hhash] at hwork
    exact ⟨hhash.symm, hbits, hlimit, hwork, hle⟩
  · rintro ⟨hhash, hbits, hlimit, hwork, hle⟩
    rw [hhash] at hwork
    exact ⟨hhash.symm, _, _, ⟨hbits, rfl⟩, ⟨hlimit, rfl⟩, hwork, hle⟩

theorem headerHash_eq_ok_iff_provesWork :
    Verifier.headerHash a = .ok () ↔ a.ProvesWork ∧ HasNumeral a.height :=
  headerHash_eq_ok_iff_verifyWork.trans (and_congr_left fun _ => verifyWork_eq_ok_iff_provesWork)

/-- An anchor without proof of work is invalid, and nothing else is wrong with it. -/
theorem invalid_iff : (∃ e, Verifier.headerHash a = .error (.genesis e) ∧ e.kind = .invalidAnchor) ↔
    ¬ a.ProvesWork := by
  rw [← verifyWork_eq_ok_iff_provesWork]
  constructor
  · rintro ⟨e, he, -⟩ hok
    obtain ⟨g, hg, -⟩ | ⟨-, -, hfault⟩ := headerHash_eq_error_iff.mp he
    · cases hg.symm.trans hok
    · cases hfault
  · intro hne
    obtain ⟨e, he⟩ := exists_error_of_ne_ok fun _ => hne
    exact ⟨e, headerHash_eq_error_iff.mpr (Or.inl ⟨e, he, rfl⟩), kind_of_verifyWork he⟩

/-- The only other failure is that of the report of the height. -/
theorem headerHash_eq_fault_iff {f : Fault} : Verifier.headerHash a = .error (.fault f) ↔
    a.ProvesWork ∧ ¬ HasNumeral a.height ∧ f = .longNumeral := by
  rw [headerHash_eq_error_iff, verifyWork_eq_ok_iff_provesWork]
  simp

/-! ## Acceptance -/

/-- A wider limit keeps what was accepted. -/
theorem ProvesWork.withRetarget (h : a.ProvesWork) (hsign : r.maxBits.testBit 23 = false)
    (hle : target a.retarget.maxBits ≤ target r.maxBits) : ProvesWork { a with retarget := r } where
  hash_eq := h.hash_eq
  bits_unsigned := h.bits_unsigned
  limit_unsigned := hsign
  hash_le := h.hash_le
  target_le := h.target_le.trans hle

theorem headerHash_firstAnchor : Verifier.headerHash firstAnchor = .ok () := by decide +kernel

section Exact

variable (hbits : Normalized a.header.bits.toNat) (hlimit : Normalized a.retarget.maxBits)
  (hexact : 3 ≤ exponent a.retarget.maxBits)
include hbits hlimit hexact

theorem bitsAboveLimit_iff :
    Verifier.headerHash a =
        .error (.genesis (.bitsAboveLimit a.header.bits.toNat a.retarget.maxBits)) ↔
      a.header.hash = a.declaredHash ∧ a.retarget.maxBits < a.header.bits.toNat := by
  rw [← CompactTarget.target_lt_target_iff hlimit hbits hexact, headerHash_eq_error_iff]
  by_cases hhash : a.header.hash = a.declaredHash
  · rw [verifyWork_of_unsigned hhash hbits.unsigned hlimit.unsigned, and_iff_right hhash]
    split_ifs with habove hunmet <;> simp [habove]
  · rw [verifyWork_of_hash_ne hhash]
    simp [hhash]

theorem headerHash_eq_ok_iff_of_normalized :
    Verifier.headerHash a = .ok () ↔ a.header.hash = a.declaredHash ∧
      (a.header.bits.toNat : Int) ≤ a.retarget.maxBits ∧
        Bytes.ofLittleEndian a.declaredHash ≤ target a.header.bits.toNat ∧ HasNumeral a.height := by
  have hword : target a.header.bits.toNat ≤ target a.retarget.maxBits ↔
      (a.header.bits.toNat : Int) ≤ a.retarget.maxBits := by
    rw [← not_lt, CompactTarget.target_lt_target_iff hlimit hbits hexact, not_lt]
  rw [headerHash_eq_ok_iff_provesWork]
  constructor
  · rintro ⟨h, hheight⟩
    exact ⟨h.hash_eq.symm, hword.mp h.target_le, h.hash_le, hheight⟩
  · rintro ⟨hhash, hle, hwork, hheight⟩
    exact ⟨⟨hhash.symm, hbits.unsigned, hlimit.unsigned, hwork, hword.mpr hle⟩, hheight⟩

end Exact

/-- A word without the sign bit expands to its mantissa times a power of 256, rounded down. Targets of
normalized words are in the order of the words, strictly where nothing is rounded away, and there the
verifier compares with the limit as if it compared the words. -/
theorem expand_exact_and_ordered :
    (∀ bits : UInt32, bits.toNat.testBit 23 = false →
      expand bits.toNat = .ok (bits.toNat % 2 ^ 23 * 256 ^ (bits.toNat / 2 ^ 24) / 256 ^ 3)) ∧
    (∀ b c : Int, Normalized b → Normalized c → b ≤ c →
      ∃ s t, expand b = .ok s ∧ expand c = .ok t ∧ s ≤ t ∧ (b < c → 3 ≤ exponent b → s < t)) ∧
    ∀ a : Anchor, Normalized a.header.bits.toNat → Normalized a.retarget.maxBits →
      3 ≤ exponent a.retarget.maxBits →
      (Verifier.headerHash a =
          .error (.genesis (.bitsAboveLimit a.header.bits.toNat a.retarget.maxBits)) ↔
        a.header.hash = a.declaredHash ∧ a.retarget.maxBits < a.header.bits.toNat) ∧
      (Verifier.headerHash a = .ok () ↔ a.header.hash = a.declaredHash ∧
        (a.header.bits.toNat : Int) ≤ a.retarget.maxBits ∧
          Bytes.ofLittleEndian a.declaredHash ≤ target a.header.bits.toNat ∧ HasNumeral a.height) := by
  refine ⟨fun bits hsign => ?_, fun b c hb hc hle => ?_, fun a hbits hlimit hexact => ?_⟩
  · exact CompactTarget.expand_eq_ok_iff.mpr ⟨hsign, CompactTarget.target_natCast _⟩
  · exact ⟨_, _, CompactTarget.expand_of_unsigned hb.unsigned, CompactTarget.expand_of_unsigned hc.unsigned,
      CompactTarget.target_mono hb hc hle, CompactTarget.target_strictMono hb hc⟩
  · exact ⟨bitsAboveLimit_iff hbits hlimit hexact, headerHash_eq_ok_iff_of_normalized hbits hlimit hexact⟩

/-- The word of the first block is above the limit that has one byte less. -/
theorem firstAnchor_above_limit :
    expand firstHeader.bits.toNat =
      .ok (firstHeader.bits.toNat % 2 ^ 23 * 256 ^ (firstHeader.bits.toNat / 2 ^ 24) / 256 ^ 3) ∧
    (∃ s t, expand 0x1c00ffff = .ok s ∧ expand firstHeader.bits.toNat = .ok t ∧ s < t) ∧
    Verifier.headerHash { firstAnchor with retarget := .biweekly 0x1c00ffff } =
      .error (.genesis (.bitsAboveLimit firstHeader.bits.toNat 0x1c00ffff)) := by
  have hword : Normalized firstHeader.bits.toNat := ⟨by decide, by decide⟩
  have hlimit : Normalized 0x1c00ffff := ⟨by decide, by decide⟩
  have hhash := (headerHash_eq_ok_iff_provesWork.mp headerHash_firstAnchor).1.hash_eq
  obtain ⟨s, t, hs, ht, -, hlt⟩ :=
    expand_exact_and_ordered.2.1 0x1c00ffff firstHeader.bits.toNat hlimit hword (by decide)
  refine ⟨expand_exact_and_ordered.1 firstHeader.bits (by decide),
    ⟨s, t, hs, ht, hlt (by decide) (by decide)⟩, ?_⟩
  exact (expand_exact_and_ordered.2.2 { firstAnchor with retarget := .biweekly 0x1c00ffff } hword hlimit
    (by decide)).1.mpr ⟨hhash.symm, by decide⟩

end LedgerGenesis.Anchor
