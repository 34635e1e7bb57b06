import LedgerGenesis.Bitcoin.Anchor
import LedgerGenesis.Proofs.Hexadecimal

/-! # Texts of bytes and of hashes

A field of bytes is any spelling of them. A hash is spelled in display order, its most significant byte first, and
is displayed by the digits of its spelling.
-/
namespace LedgerGenesis

theorem Json.toBytes_text_eq_ok_iff {t : Text} {bs : Bytes} :
    (text t).toBytes = .ok bs ↔ Hex.decode t = some bs := by
  cases h : Hex.decode t <;> simp [toBytes, h]

theorem Anchor.readHash_eq_ok_iff {v : Json} {bs : Bytes} : readHash v = .ok bs ↔
    ∃ t raw, v = .text t ∧ Hex.decode t = some raw ∧ raw.length = 32 ∧ raw.reverse = bs := by
  cases v with
  | text t =>
    cases hraw : Hex.decode t with
    | some raw =>
      by_cases hlength : raw.length = 32
      · simp [readHash, Json.toBytes, hraw, hlength, bind, Except.bind, pure, Except.pure]
      · simp [readHash, Json.toBytes, hraw, hlength, bind, Except.bind, throw, throwThe, MonadExceptOf.throw]
    | none => simp [readHash, Json.toBytes, hraw, bind, Except.bind]
  | _ => simp [readHash, Json.toBytes, bind, Except.bind]

theorem Anchor.readHash_text_eq_ok_iff {t : Text} {h : Bytes} : readHash (.text t) = .ok h ↔
    ∃ bs, (Json.text t).toBytes = .ok bs ∧ bs.length = 32 ∧ bs.reverse = h := by
  simp only [readHash_eq_ok_iff, Json.toBytes_text_eq_ok_iff, Json.text.injEq, exists_and_left,
    exists_eq_left']

namespace Hex

variable {t : Text} {bs : Bytes}

theorem toBytes_eq_badHex (h : ∀ bs, ¬ Spells t bs) : (Json.text t).toBytes = .error .badHex := by
  have hdecode : decode t = none := by
    apply Option.eq_none_iff_forall_ne_some.mpr
    intro bs hbs
    exact h bs (decode_eq_some_iff.mp hbs)
  rw [Json.toBytes, hdecode]

theorem readHash_displayHash (h : bs.length = 32) : Anchor.readHash (.text (displayHash bs)) = .ok bs := by
  have hread : decode (displayHash bs) = some bs.reverse :=
    decode_eq_some_iff.mpr ⟨[], List.mem_cons_self, _, rfl, pairs_digits bs.reverse⟩
  exact Anchor.readHash_eq_ok_iff.mpr ⟨_, _, rfl, hread, List.length_reverse.trans h, List.reverse_reverse bs⟩

/-- Bytes are read from their spellings, and every other text is refused. One spelling is in the form that bytes
are written in. A hash is read from the spellings of its reversed bytes, and is displayed by the bare digits. -/
theorem spellings_read_back :
    (∀ bs, (Json.text (encode bs)).toBytes = .ok bs) ∧
    (∀ t, (∀ bs, (Json.text t).toBytes = .ok bs ↔ Spells t bs) ∧
      ((∀ bs, ¬ Spells t bs) → (Json.text t).toBytes = .error .badHex)) ∧
    (∀ t bs, (Json.text t).toBytes = .ok bs → encode bs = Text.ofChars ['0', 'x'] ++ bareDigits t ∧
      ∀ u, IsLowerForm u ∧ (Json.text u).toBytes = .ok bs ↔ u = encode bs) ∧
    (∀ h : Bytes, h.length = 32 → Anchor.readHash (.text (displayHash h)) = .ok h) ∧
    (∀ t h, Anchor.readHash (.text t) = .ok h ↔
      ∃ bs, (Json.text t).toBytes = .ok bs ∧ bs.length = 32 ∧ bs.reverse = h) ∧
    ∀ t h, Anchor.readHash (.text t) = .ok h → displayHash h = bareDigits t := by
  refine ⟨?_, ?_, ?_, fun _ => readHash_displayHash, fun _ _ => Anchor.readHash_text_eq_ok_iff, ?_⟩
  · intro bs
    exact Json.toBytes_text_eq_ok_iff.mpr (decode_encode bs)
  · intro t
    exact ⟨fun bs => Json.toBytes_text_eq_ok_iff.trans decode_eq_some_iff, toBytes_eq_badHex⟩
  · intro t bs h
    have hread := Json.toBytes_text_eq_ok_iff.mp h
    refine ⟨encode_eq_bareDigits hread, fun u => ?_⟩
    rw [Json.toBytes_text_eq_ok_iff]
    constructor
    · rintro ⟨hlower, hu⟩
      exact (isLowerForm_iff_of_decode hu).mp hlower
    · rintro rfl
      exact ⟨isLowerForm_encode bs, decode_encode bs⟩
  · intro t h hread
    obtain ⟨u, raw, hu, hraw, -, rfl⟩ := Anchor.readHash_eq_ok_iff.mp hread
    cases hu
    rw [bareDigits_of_decode hraw, displayHash, List.reverse_reverse]

/-- A hash with a mark and blanks, and with letters of both cases. -/
def looseHash : Text := "0X \nAb" ++ Text.ofChars (digits (List.replicate 30 0x1C)) ++ "\tcD "

theorem looseHash_read_back :
    Anchor.readHash (.text looseHash) = .ok (0xCD :: List.replicate 30 0x1C ++ [0xAB]) ∧
    displayHash (0xCD :: List.replicate 30 0x1C ++ [0xAB]) = bareDigits looseHash ∧
    encode (0xAB :: List.replicate 30 0x1C ++ [0xCD]) = Text.ofChars ['0', 'x'] ++ bareDigits looseHash ∧
    (Json.text (.char ' ' :: looseHash)).toBytes = .error .badHex := by
  obtain ⟨-, hspells, hform, -, hhash, hdisplay⟩ := spellings_read_back
  have hbytes : (Json.text looseHash).toBytes = .ok (0xAB :: List.replicate 30 0x1C ++ [0xCD]) := by
    decide +kernel
  have hread := (hhash looseHash (0xCD :: List.replicate 30 0x1C ++ [0xAB])).mpr ⟨_, hbytes, rfl, rfl⟩
  have hblank : decode (.char ' ' :: looseHash) = none := by decide +kernel
  refine ⟨hread, hdisplay _ _ hread, (hform _ _ hbytes).1, (hspells _).2 fun bs h => ?_⟩
  rw [decode_eq_some_iff.mpr h] at hblank
  cases hblank

end Hex

end LedgerGenesis
