import LedgerGenesis.Bitcoin.Header
import LedgerGenesis.Proofs.Bytes
import LedgerGenesis.Proofs.Outcome

/-! # The wire form of a header

A header holds exactly the values that it was made of, and words are only made of integers that fit in
thirty-two bits. Its wire form has eighty bytes and is that of no other header.
-/
namespace LedgerGenesis

namespace Header

variable {version time bits nonce v : Json} {previous merkleRoot : Bytes} {g h : Header} {w : UInt32}
  {name : HeaderWord}

theorem readWord_eq_ok_iff : readWord name v = .ok w ↔ v = .int w.toNat := by
  have hlt := w.toNat_lt
  cases v with
  | int n =>
    simp only [readWord, Json.int.injEq]
    split
    next hn =>
      have hfits : n.toNat < UInt32.size := by
        unfold UInt32.size
        omega
      have hnat : n.toNat.toUInt32.toNat = n.toNat := UInt32.toNat_ofNat_of_lt hfits
      rw [Except.ok.injEq, ← UInt32.toNat_inj, hnat]
      omega
    next hn =>
      constructor
      · intro h
        cases h
      · intro h
        omega
  | _ => simp [readWord]

/-- A header is made of its own words and hashes, and of nothing else. -/
theorem make_eq_ok_iff : make version previous merkleRoot time bits nonce = .ok h ↔
    version = .int h.version.toNat ∧ previous = h.previous ∧ merkleRoot = h.merkleRoot ∧
      time = .int h.time.toNat ∧ bits = .int h.bits.toNat ∧ nonce = .int h.nonce.toNat := by
  simp only [make, bind_eq_ok_iff, raising_eq_ok_iff, readWord_eq_ok_iff]
  constructor
  · rintro ⟨_, rfl, _, rfl, _, rfl, _, rfl, hmake⟩
    split_ifs at hmake with hp hm
    cases hmake
    exact ⟨rfl, rfl, rfl, rfl, rfl, rfl⟩
  · rintro ⟨rfl, rfl, rfl, rfl, rfl, rfl⟩
    refine ⟨_, rfl, _, rfl, _, rfl, _, rfl, ?_⟩
    rw [dif_pos h.previous_length, dif_pos h.merkleRoot_length]
    rfl

@[simp] theorem length_word (w : UInt32) : (word w).length = 4 := Bytes.length_littleEndian 4 _

theorem ofLittleEndian_word (w : UInt32) : Bytes.ofLittleEndian (word w) = w.toNat := by
  rw [word, Bytes.ofLittleEndian_littleEndian]
  exact Nat.mod_eq_of_lt w.toNat_lt

theorem word_injective : Function.Injective word := by
  intro v w h
  have hn := congrArg Bytes.ofLittleEndian h
  rw [ofLittleEndian_word, ofLittleEndian_word] at hn
  exact UInt32.toNat_inj.mp hn

theorem length_serialize (h : Header) : h.serialize.length = 80 := by
  simp only [serialize, List.length_append, length_word, h.previous_length, h.merkleRoot_length]

theorem length_hash (h : Header) : h.hash.length = 32 := by
  simp [hash, doubleSha256, sha256, Sha2.digest, Sha2.Work.toList]

/-- The six parts of a wire form have fixed lengths, so each can be cut out of it. -/
theorem serialize_injective : Function.Injective serialize := by
  intro g h hgh
  obtain ⟨hrest, hnonce⟩ := List.append_inj' hgh (by simp)
  obtain ⟨hrest, hbits⟩ := List.append_inj' hrest (by simp)
  obtain ⟨hrest, htime⟩ := List.append_inj' hrest (by simp)
  obtain ⟨hrest, hroot⟩ := List.append_inj' hrest (by rw [g.merkleRoot_length, h.merkleRoot_length])
  obtain ⟨hversion, hprevious⟩ := List.append_inj hrest (by simp)
  have hv := word_injective hversion
  have ht := word_injective htime
  have hb := word_injective hbits
  have hn := word_injective hnonce
  cases g
  cases h
  simp_all only

end Header

end LedgerGenesis
