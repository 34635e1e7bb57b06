import LedgerGenesis.Proofs.Text.Spelling
import LedgerGenesis.Text.Utf8
import Mathlib.Data.Char
import Mathlib.Tactic.IntervalCases

/-! # UTF-8 is read back as it was written

Each character has one form, and the machine that reads bytes accepts just the forms of characters in a
row. A text has a form exactly when it is well formed, that is, when no half of a pair stands alone in it.
-/
namespace LedgerGenesis.Utf8

variable {b : UInt8} {n v k low high : Nat} {r bs : Bytes} {c : Char} {cs : List Char} {g : Begun}

theorem toNat_toUInt8 (h : n < 256) : n.toUInt8.toNat = n := by
  simp only [Nat.toUInt8, UInt8.toNat_ofNat']
  omega

theorem toUInt8_eq (h : n = b.toNat) : n.toUInt8 = b := by
  rw [h]
  simp

theorem toNat_ofNat (h : n.isValidChar) : (Char.ofNat n).toNat = n := by
  rw [Char.ofNat, dif_pos h]
  rfl

/-! ## Steps of the machine -/

section

attribute [local simp] decodeFrom

theorem decodeFrom_whole (h : lead b.toNat = .whole c) :
    decodeFrom none (b :: r) = (decodeFrom none r).map (c :: ·) := by
  simp only [decodeFrom, h]

theorem decodeFrom_begun (h : lead b.toNat = .begun g) :
    decodeFrom none (b :: r) = decodeFrom (some g) r := by
  rw [decodeFrom]
  simp only [h]

theorem decodeFrom_invalid (h : lead b.toNat = .invalid) : decodeFrom none (b :: r) = none := by
  simp only [decodeFrom, h]

theorem decodeFrom_last (hl : low ≤ b.toNat) (hh : b.toNat ≤ high) :
    decodeFrom (some ⟨v, 0, low, high⟩) (b :: r) =
      (decodeFrom none r).map (Char.ofNat (v * 64 + (b.toNat - 0x80)) :: ·) := by
  simp only [decodeFrom, Begun.step, if_pos (And.intro hl hh)]

theorem decodeFrom_more (hl : low ≤ b.toNat) (hh : b.toNat ≤ high) :
    decodeFrom (some ⟨v, k + 1, low, high⟩) (b :: r) =
      decodeFrom (some ⟨v * 64 + (b.toNat - 0x80), k, 0x80, 0xBF⟩) r := by
  rw [decodeFrom]
  simp only [Begun.step, if_pos (And.intro hl hh)]

/-- A character begun is only completed by a byte within its bounds. -/
theorem exists_of_decodeFrom_begun (h : decodeFrom (some g) bs = some cs) :
    ∃ b r, bs = b :: r ∧ g.low ≤ b.toNat ∧ b.toNat ≤ g.high := by
  cases bs with
  | nil => simp [decodeFrom] at h
  | cons b r =>
    by_cases hb : g.low ≤ b.toNat ∧ b.toNat ≤ g.high
    · exact ⟨b, r, rfl, hb⟩
    · simp [decodeFrom, Begun.step, if_neg hb] at h

end

theorem lead_one (h : n < 0x80) : lead n = .whole (Char.ofNat n) := by
  rw [lead, if_pos h]

theorem lead_two (hl : 2 ≤ v) (hh : v < 32) : lead (0xC0 + v) = .begun ⟨v, 0, 0x80, 0xBF⟩ := by
  have hv : 0xC0 + v - 0xC0 = v := by omega
  rw [lead, if_neg (by omega), if_neg (by omega), if_pos (by omega), hv]

/-- The bounds on the second byte keep out what has a shorter form and what is no character. -/
theorem lead_three (h : v < 16) : lead (0xE0 + v) =
    .begun ⟨v, 1, if v = 0 then 0xA0 else 0x80, if v = 13 then 0x9F else 0xBF⟩ := by
  interval_cases v <;> rfl

theorem lead_four (h : v < 5) : lead (0xF0 + v) =
    .begun ⟨v, 2, if v = 0 then 0x90 else 0x80, if v = 4 then 0x8F else 0xBF⟩ := by
  interval_cases v <;> rfl

/-- A first byte announces one to four bytes, or nothing. -/
theorem lead_cases (n : Nat) : n < 0x80 ∨ (∃ v, n = 0xC0 + v ∧ 2 ≤ v ∧ v < 32) ∨
    (∃ v, n = 0xE0 + v ∧ v < 16) ∨ (∃ v, n = 0xF0 + v ∧ v < 5) ∨ lead n = .invalid := by
  by_cases h1 : n < 0x80
  · exact Or.inl h1
  by_cases h2 : n < 0xC2
  · exact Or.inr (Or.inr (Or.inr (Or.inr (by rw [lead, if_neg h1, if_pos h2]))))
  by_cases h3 : n < 0xE0
  · exact Or.inr (Or.inl ⟨n - 0xC0, by omega, by omega, by omega⟩)
  by_cases h4 : n < 0xF0
  · exact Or.inr (Or.inr (Or.inl ⟨n - 0xE0, by omega, by omega⟩))
  by_cases h5 : n < 0xF5
  · exact Or.inr (Or.inr (Or.inr (Or.inl ⟨n - 0xF0, by omega, by omega⟩)))
  · refine Or.inr (Or.inr (Or.inr (Or.inr ?_)))
    simp only [lead]
    repeat rw [if_neg (by omega)]

/-! ## The form of one character -/

theorem encodeChar_ofNat_one (h : n < 0x80) : encodeChar (Char.ofNat n) = [n.toUInt8] := by
  rw [encodeChar, toNat_ofNat (Or.inl (by omega)), if_pos h]

theorem encodeChar_ofNat_two (hl : 0x80 ≤ n) (hh : n < 0x800) : encodeChar (Char.ofNat n) =
    [(0xC0 + n / 64).toUInt8, (0x80 + n % 64).toUInt8] := by
  rw [encodeChar, toNat_ofNat (Or.inl (by omega)), if_neg (by omega), if_pos hh]

theorem encodeChar_ofNat_three (hl : 0x800 ≤ n) (hh : n < 0x10000) (hv : n.isValidChar) :
    encodeChar (Char.ofNat n) =
      [(0xE0 + n / 4096).toUInt8, (0x80 + n / 64 % 64).toUInt8, (0x80 + n % 64).toUInt8] := by
  rw [encodeChar, toNat_ofNat hv, if_neg (by omega), if_neg (by omega), if_pos hh]

theorem encodeChar_ofNat_four (hl : 0x10000 ≤ n) (hv : n.isValidChar) :
    encodeChar (Char.ofNat n) =
      [(0xF0 + n / 262144).toUInt8, (0x80 + n / 4096 % 64).toUInt8, (0x80 + n / 64 % 64).toUInt8,
        (0x80 + n % 64).toUInt8] := by
  rw [encodeChar, toNat_ofNat hv, if_neg (by omega), if_neg (by omega), if_neg (by omega)]

theorem exists_of_decodeFrom_two (hl : 2 ≤ v) (hh : v < 32)
    (h : decodeFrom (some ⟨v, 0, 0x80, 0xBF⟩) bs = some (c :: cs)) :
    ∃ r, (0xC0 + v).toUInt8 :: bs = encodeChar c ++ r ∧ decodeFrom none r = some cs := by
  obtain ⟨b1, r, rfl, hl1, hh1⟩ := exists_of_decodeFrom_begun h
  rw [decodeFrom_last hl1 hh1, Option.map_eq_some_iff] at h
  obtain ⟨cs, h, hc⟩ := h
  obtain ⟨rfl, rfl⟩ := List.cons.inj hc
  dsimp only at hl1 hh1
  obtain ⟨n, hn⟩ : ∃ n, n = v * 64 + (b1.toNat - 0x80) := ⟨_, rfl⟩
  have e : 0xC0 + n / 64 = 0xC0 + v := by omega
  have e1 : (0x80 + n % 64).toUInt8 = b1 := toUInt8_eq (by omega)
  refine ⟨r, ?_, h⟩
  rw [← hn, encodeChar_ofNat_two (by omega) (by omega), e, e1]
  rfl

theorem exists_of_decodeFrom_three (hv : v < 16)
    (h : decodeFrom (some ⟨v, 1, if v = 0 then 0xA0 else 0x80, if v = 13 then 0x9F else 0xBF⟩) bs =
      some (c :: cs)) :
    ∃ r, (0xE0 + v).toUInt8 :: bs = encodeChar c ++ r ∧ decodeFrom none r = some cs := by
  obtain ⟨b1, r, rfl, hl1, hh1⟩ := exists_of_decodeFrom_begun h
  rw [decodeFrom_more hl1 hh1] at h
  obtain ⟨b2, r, rfl, hl2, hh2⟩ := exists_of_decodeFrom_begun h
  rw [decodeFrom_last hl2 hh2, Option.map_eq_some_iff] at h
  obtain ⟨cs, h, hc⟩ := h
  obtain ⟨rfl, rfl⟩ := List.cons.inj hc
  dsimp only at hl1 hh1 hl2 hh2
  obtain ⟨n, hn⟩ : ∃ n, n = (v * 64 + (b1.toNat - 0x80)) * 64 + (b2.toNat - 0x80) := ⟨_, rfl⟩
  have hlow : 0x80 ≤ b1.toNat := by split at hl1 <;> omega
  have hhigh : b1.toNat ≤ 0xBF := by split at hh1 <;> omega
  have hlong : 0x800 ≤ n := by split at hl1 <;> omega
  have hvalid : n.isValidChar := by
    unfold Nat.isValidChar
    split at hh1 <;> omega
  have e : 0xE0 + n / 4096 = 0xE0 + v := by omega
  have e1 : (0x80 + n / 64 % 64).toUInt8 = b1 := toUInt8_eq (by omega)
  have e2 : (0x80 + n % 64).toUInt8 = b2 := toUInt8_eq (by omega)
  refine ⟨r, ?_, h⟩
  rw [← hn, encodeChar_ofNat_three hlong (by omega) hvalid, e, e1, e2]
  rfl

theorem exists_of_decodeFrom_four (hv : v < 5)
    (h : decodeFrom (some ⟨v, 2, if v = 0 then 0x90 else 0x80, if v = 4 then 0x8F else 0xBF⟩) bs =
      some (c :: cs)) :
    ∃ r, (0xF0 + v).toUInt8 :: bs = encodeChar c ++ r ∧ decodeFrom none r = some cs := by
  obtain ⟨b1, r, rfl, hl1, hh1⟩ := exists_of_decodeFrom_begun h
  rw [decodeFrom_more hl1 hh1] at h
  obtain ⟨b2, r, rfl, hl2, hh2⟩ := exists_of_decodeFrom_begun h
  rw [decodeFrom_more hl2 hh2] at h
  obtain ⟨b3, r, rfl, hl3, hh3⟩ := exists_of_decodeFrom_begun h
  rw [decodeFrom_last hl3 hh3, Option.map_eq_some_iff] at h
  obtain ⟨cs, h, hc⟩ := h
  obtain ⟨rfl, rfl⟩ := List.cons.inj hc
  dsimp only at hl1 hh1 hl2 hh2 hl3 hh3
  obtain ⟨n, hn⟩ : ∃ n, n = ((v * 64 + (b1.toNat - 0x80)) * 64 + (b2.toNat - 0x80)) * 64 +
    (b3.toNat - 0x80) := ⟨_, rfl⟩
  have hlow : 0x80 ≤ b1.toNat := by split at hl1 <;> omega
  have hhigh : b1.toNat ≤ 0xBF := by split at hh1 <;> omega
  have hlong : 0x10000 ≤ n := by split at hl1 <;> omega
  have hvalid : n.isValidChar := by
    unfold Nat.isValidChar
    split at hh1 <;> omega
  have e : 0xF0 + n / 262144 = 0xF0 + v := by omega
  have e1 : (0x80 + n / 4096 % 64).toUInt8 = b1 := toUInt8_eq (by omega)
  have e2 : (0x80 + n / 64 % 64).toUInt8 = b2 := toUInt8_eq (by omega)
  have e3 : (0x80 + n % 64).toUInt8 = b3 := toUInt8_eq (by omega)
  refine ⟨r, ?_, h⟩
  rw [← hn, encodeChar_ofNat_four hlong hvalid, e, e1, e2, e3]
  rfl

/-- Where a character is read, the bytes start with its form. -/
theorem exists_of_decodeFrom_eq_cons (h : decodeFrom none bs = some (c :: cs)) :
    ∃ r, bs = encodeChar c ++ r ∧ decodeFrom none r = some cs := by
  cases bs with
  | nil => simp [decodeFrom] at h
  | cons b r =>
    rcases lead_cases b.toNat with h1 | ⟨v, hv, hl, hh⟩ | ⟨v, hv, hh⟩ | ⟨v, hv, hh⟩ | h5
    · rw [decodeFrom_whole (lead_one h1), Option.map_eq_some_iff] at h
      obtain ⟨cs, h, hc⟩ := h
      obtain ⟨rfl, rfl⟩ := List.cons.inj hc
      refine ⟨r, ?_, h⟩
      rw [encodeChar_ofNat_one h1, toUInt8_eq rfl]
      rfl
    · have hb := lead_two hl hh
      rw [← hv] at hb
      rw [decodeFrom_begun hb] at h
      exact toUInt8_eq hv.symm ▸ exists_of_decodeFrom_two hl hh h
    · have hb := lead_three hh
      rw [← hv] at hb
      rw [decodeFrom_begun hb] at h
      exact toUInt8_eq hv.symm ▸ exists_of_decodeFrom_three hh h
    · have hb := lead_four hh
      rw [← hv] at hb
      rw [decodeFrom_begun hb] at h
      exact toUInt8_eq hv.symm ▸ exists_of_decodeFrom_four hh h
    · rw [decodeFrom_invalid h5] at h
      cases h

theorem decodeFrom_begun_ne_nil : decodeFrom (some g) bs ≠ some [] := by
  induction bs generalizing g with
  | nil => simp [decodeFrom]
  | cons b r ih =>
    rw [decodeFrom]
    cases g.step b.toNat with
    | whole c => simp
    | begun g => exact ih
    | invalid => simp

theorem decodeFrom_eq_nil (h : decodeFrom none bs = some []) : bs = [] := by
  cases bs with
  | nil => rfl
  | cons b r =>
    cases hb : lead b.toNat with
    | whole c => simp [decodeFrom_whole hb] at h
    | begun g => exact absurd (decodeFrom_begun hb ▸ h) decodeFrom_begun_ne_nil
    | invalid => simp [decodeFrom_invalid hb] at h

theorem decodeFrom_encodeChar_two (hl : 0x80 ≤ n) (hh : n < 0x800) :
    decodeFrom none (encodeChar (Char.ofNat n) ++ r) = (decodeFrom none r).map (Char.ofNat n :: ·) := by
  have hb : lead (0xC0 + n / 64).toUInt8.toNat = .begun ⟨n / 64, 0, 0x80, 0xBF⟩ := by
    rw [toNat_toUInt8 (by omega), lead_two (by omega) (by omega)]
  have b1 : (0x80 + n % 64).toUInt8.toNat = 0x80 + n % 64 := toNat_toUInt8 (by omega)
  have e : n / 64 * 64 + (0x80 + n % 64 - 0x80) = n := by omega
  rw [encodeChar_ofNat_two hl hh]
  simp only [List.cons_append, List.nil_append]
  rw [decodeFrom_begun hb, decodeFrom_last (by omega) (by omega), b1, e]

theorem decodeFrom_encodeChar_three (hl : 0x800 ≤ n) (hh : n < 0x10000) (hv : n.isValidChar) :
    decodeFrom none (encodeChar (Char.ofNat n) ++ r) = (decodeFrom none r).map (Char.ofNat n :: ·) := by
  have hv' : n < 0xD800 ∨ 0xDFFF < n ∧ n < 0x110000 := hv
  have hb : lead (0xE0 + n / 4096).toUInt8.toNat = .begun ⟨n / 4096, 1,
      if n / 4096 = 0 then 0xA0 else 0x80, if n / 4096 = 13 then 0x9F else 0xBF⟩ := by
    rw [toNat_toUInt8 (by omega), lead_three (by omega)]
  have b1 : (0x80 + n / 64 % 64).toUInt8.toNat = 0x80 + n / 64 % 64 := toNat_toUInt8 (by omega)
  have b2 : (0x80 + n % 64).toUInt8.toNat = 0x80 + n % 64 := toNat_toUInt8 (by omega)
  have e : (n / 4096 * 64 + (0x80 + n / 64 % 64 - 0x80)) * 64 + (0x80 + n % 64 - 0x80) = n := by
    omega
  rw [encodeChar_ofNat_three hl hh hv]
  simp only [List.cons_append, List.nil_append]
  rw [decodeFrom_begun hb, decodeFrom_more (by split <;> omega) (by split <;> omega),
    decodeFrom_last (by omega) (by omega), b1, b2, e]

theorem decodeFrom_encodeChar_four (hl : 0x10000 ≤ n) (hv : n.isValidChar) :
    decodeFrom none (encodeChar (Char.ofNat n) ++ r) = (decodeFrom none r).map (Char.ofNat n :: ·) := by
  have hv' : n < 0xD800 ∨ 0xDFFF < n ∧ n < 0x110000 := hv
  have hb : lead (0xF0 + n / 262144).toUInt8.toNat = .begun ⟨n / 262144, 2,
      if n / 262144 = 0 then 0x90 else 0x80, if n / 262144 = 4 then 0x8F else 0xBF⟩ := by
    rw [toNat_toUInt8 (by omega), lead_four (by omega)]
  have b1 : (0x80 + n / 4096 % 64).toUInt8.toNat = 0x80 + n / 4096 % 64 := toNat_toUInt8 (by omega)
  have b2 : (0x80 + n / 64 % 64).toUInt8.toNat = 0x80 + n / 64 % 64 := toNat_toUInt8 (by omega)
  have b3 : (0x80 + n % 64).toUInt8.toNat = 0x80 + n % 64 := toNat_toUInt8 (by omega)
  have e : ((n / 262144 * 64 + (0x80 + n / 4096 % 64 - 0x80)) * 64 +
      (0x80 + n / 64 % 64 - 0x80)) * 64 + (0x80 + n % 64 - 0x80) = n := by
    omega
  rw [encodeChar_ofNat_four hl hv]
  simp only [List.cons_append, List.nil_append]
  rw [decodeFrom_begun hb, decodeFrom_more (by split <;> omega) (by split <;> omega),
    decodeFrom_more (by omega) (by omega), decodeFrom_last (by omega) (by omega), b1, b2, b3, e]

/-- The form of a character is read as that character. -/
theorem decodeFrom_encodeChar (c : Char) (r : Bytes) :
    decodeFrom none (encodeChar c ++ r) = (decodeFrom none r).map (c :: ·) := by
  obtain ⟨n, hn⟩ : ∃ n, n = c.toNat := ⟨_, rfl⟩
  have hv : n.isValidChar := hn ▸ c.valid
  obtain rfl : Char.ofNat n = c := hn ▸ Char.ofNat_toNat c
  by_cases h1 : n < 0x80
  · have hb : lead n.toUInt8.toNat = .whole (Char.ofNat n) := by
      rw [toNat_toUInt8 (by omega), lead_one h1]
    rw [encodeChar_ofNat_one h1]
    exact decodeFrom_whole hb
  by_cases h2 : n < 0x800
  · exact decodeFrom_encodeChar_two (by omega) h2
  by_cases h3 : n < 0x10000
  · exact decodeFrom_encodeChar_three (by omega) h3 hv
  · exact decodeFrom_encodeChar_four (by omega) hv

/-- Bytes are read as characters exactly when they are what is written for them. -/
theorem decode_eq_some_iff : decode bs = some cs ↔ bs = encode cs := by
  unfold decode encode
  constructor
  · intro h
    induction cs generalizing bs with
    | nil => exact decodeFrom_eq_nil h
    | cons c cs ih =>
      obtain ⟨r, rfl, hr⟩ := exists_of_decodeFrom_eq_cons h
      rw [ih hr, List.flatMap_cons]
  · rintro rfl
    induction cs with
    | nil => rfl
    | cons c cs ih => rw [List.flatMap_cons, decodeFrom_encodeChar, ih, Option.map_some]

theorem encode_injective {ds : List Char} (h : encode cs = encode ds) : cs = ds := by
  have hread := decode_eq_some_iff.mpr h
  rw [decode_eq_some_iff.mpr rfl] at hread
  exact Option.some.inj hread

end LedgerGenesis.Utf8

namespace LedgerGenesis.Text

variable {t u : Text} {bs : Bytes} {cs : List Char}

/-- Every code point is a character. -/
def WellFormed (t : Text) : Prop := ∀ p ∈ t, p.char?.isSome

instance : Decidable t.WellFormed := inferInstanceAs (Decidable (∀ p ∈ t, p.char?.isSome))

@[simp] theorem wellFormed_append : WellFormed (t ++ u) ↔ t.WellFormed ∧ u.WellFormed := by
  simp only [WellFormed, List.forall_mem_append]

@[simp] theorem wellFormed_char_cons {c : Char} : WellFormed (.char c :: t) ↔ t.WellFormed := by
  simp [WellFormed, CodePoint.char?]

@[simp] theorem not_wellFormed_surrogate_cons {h : Fin 2048} : ¬ WellFormed (.surrogate h :: t) := by
  simp [WellFormed, CodePoint.char?]

@[simp] theorem wellFormed_ofChars : WellFormed (ofChars cs) := by
  simp [WellFormed, ofChars, CodePoint.char?]

theorem ofChars_append {ds : List Char} : ofChars (cs ++ ds) = ofChars cs ++ ofChars ds :=
  List.map_append

theorem wellFormed_iff_exists : t.WellFormed ↔ ∃ cs, t = ofChars cs := by
  constructor
  · intro h
    induction t with
    | nil => exact ⟨[], rfl⟩
    | cons p t ih =>
      cases p with
      | char c =>
        obtain ⟨cs, rfl⟩ := ih (wellFormed_char_cons.mp h)
        exact ⟨c :: cs, rfl⟩
      | surrogate u => exact absurd h not_wellFormed_surrogate_cons
  · rintro ⟨cs, rfl⟩
    exact wellFormed_ofChars

theorem chars?_eq_some_iff : t.chars? = some cs ↔ t = ofChars cs := by
  induction t generalizing cs with
  | nil => simp [chars?, ofChars, eq_comm]
  | cons p t ih =>
    cases p with
    | char c =>
      simp only [chars?, Option.map_eq_some_iff, ih]
      constructor
      · rintro ⟨ds, rfl, rfl⟩
        rfl
      · intro h
        cases cs with
        | nil => cases h
        | cons d ds =>
          obtain ⟨hc, ht⟩ := List.cons.inj h
          exact ⟨ds, ht, by rw [CodePoint.char.inj hc]⟩
    | surrogate u => cases cs <;> simp [chars?, ofChars]

theorem utf8?_eq_some_iff : t.utf8? = some bs ↔ ∃ cs, t = ofChars cs ∧ bs = Utf8.encode cs := by
  simp only [utf8?, Option.map_eq_some_iff, chars?_eq_some_iff]
  exact exists_congr fun cs => and_congr_right fun _ => eq_comm

@[simp] theorem utf8?_ofChars : (ofChars cs).utf8? = some (Utf8.encode cs) :=
  utf8?_eq_some_iff.mpr ⟨cs, rfl, rfl⟩

theorem exists_utf8?_iff : (∃ bs, t.utf8? = some bs) ↔ t.WellFormed := by
  simp only [utf8?_eq_some_iff, wellFormed_iff_exists]
  exact ⟨fun ⟨_, cs, ht, _⟩ => ⟨cs, ht⟩, fun ⟨cs, ht⟩ => ⟨_, cs, ht, rfl⟩⟩

theorem utf8?_eq_none_iff : t.utf8? = none ↔ ¬ t.WellFormed := by
  rw [← exists_utf8?_iff, ← Option.isSome_iff_exists, Option.not_isSome_iff_eq_none]

theorem ofUtf8?_eq_some_iff : ofUtf8? bs = some t ↔ t.utf8? = some bs := by
  simp only [ofUtf8?, Option.map_eq_some_iff, Utf8.decode_eq_some_iff, utf8?_eq_some_iff]
  exact exists_congr fun cs => ⟨fun ⟨hb, ht⟩ => ⟨ht.symm, hb⟩, fun ⟨ht, hb⟩ => ⟨hb, ht.symm⟩⟩

theorem utf8?_injective {bs : Bytes} (ht : t.utf8? = some bs) (hu : u.utf8? = some bs) : t = u := by
  rw [← ofUtf8?_eq_some_iff] at ht hu
  exact Option.some.inj (ht.symm.trans hu)

end LedgerGenesis.Text
