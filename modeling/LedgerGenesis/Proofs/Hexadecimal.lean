import LedgerGenesis.Bytes.Hex
import LedgerGenesis.Proofs.Text.Spelling
import Mathlib.Tactic.IntervalCases

/-! # Spellings of byte strings

A byte string has many spellings: with or without a mark, in letters of either case, with blanks around its
pairs of digits. The reader takes these spellings and no other text. Bytes are written in the one that has a mark
and digits in lower case, so that they are read back.
-/
namespace LedgerGenesis

theorem exists_ofNat_of_le {c lo hi : Char} (h : lo ≤ c ∧ c ≤ hi) :
    ∃ k ≤ hi.toNat - lo.toNat, c = Char.ofNat (lo.toNat + k) := by
  have hlow : lo.toNat ≤ c.toNat := h.1
  have hhigh : c.toNat ≤ hi.toNat := h.2
  refine ⟨c.toNat - lo.toNat, by omega, ?_⟩
  rw [Nat.add_sub_cancel' hlow, Char.ofNat_toNat]

theorem hexValue?_eq_some_iff {c : Char} {n : Nat} :
    hexValue? c = some n ↔ n < 16 ∧ (c = Nat.digitChar n ∨ c = (Nat.digitChar n).toUpper) := by
  constructor
  · intro h
    unfold hexValue? at h
    split_ifs at h with hdigit hlower hupper <;> cases h
    · obtain ⟨k, hk, rfl⟩ := exists_ofNat_of_le hdigit
      simp only [Char.reduceToNat] at hk
      interval_cases k <;> decide
    · obtain ⟨k, hk, rfl⟩ := exists_ofNat_of_le hlower
      simp only [Char.reduceToNat] at hk
      interval_cases k <;> decide
    · obtain ⟨k, hk, rfl⟩ := exists_ofNat_of_le hupper
      simp only [Char.reduceToNat] at hk
      interval_cases k <;> decide
  · rintro ⟨hn, rfl | rfl⟩ <;> interval_cases n <;> rfl

theorem hexValue?_digitChar {n : Nat} (h : n < 16) : hexValue? (Nat.digitChar n) = some n :=
  hexValue?_eq_some_iff.mpr ⟨h, Or.inl rfl⟩

namespace Hex

variable {p : CodePoint} {n : Nat} {t : Text} {bs : Bytes}

/-- A hexadecimal digit of a value, in either case. -/
def IsDigit (p : CodePoint) (n : Nat) : Prop :=
  p = .char (Nat.digitChar n) ∨ p = .char (Nat.digitChar n).toUpper

/-- Two digits for each byte, and blanks before, between and after the pairs. -/
inductive Pairs : Text → Bytes → Prop where
  | nil : Pairs [] []
  | blank {p : CodePoint} {t : Text} {bs : Bytes} :
      isBlank p = true → Pairs t bs → Pairs (p :: t) bs
  | pair {p q : CodePoint} {t : Text} {b : UInt8} {bs : Bytes} :
      IsDigit p (b.toNat / 16) → IsDigit q (b.toNat % 16) → Pairs t bs → Pairs (p :: q :: t) (b :: bs)

/-- What may stand before the pairs. -/
def marks : List Text := [[], "0x", "0X"]

/-- A text with at most one mark, and pairs of digits after it. -/
def Spells (t : Text) (bs : Bytes) : Prop := ∃ mark ∈ marks, ∃ u, t = mark ++ u ∧ Pairs u bs

def lower : CodePoint → CodePoint
  | .char c => .char c.toLower
  | p => p

/-- The digits of a text in lower case, without its mark and its blanks. -/
def bareDigits (t : Text) : Text := ((withoutMark t).filter fun p => !isBlank p).map lower

/-- A text of the form that bytes are written in: a mark and digits in lower case. -/
def IsLowerForm (t : Text) : Prop :=
  ∃ ds : List Char, t = Text.ofChars ('0' :: 'x' :: ds) ∧ ∀ d ∈ ds, ∃ n < 16, d = Nat.digitChar n

/-! ## Digits -/

theorem digit?_eq_some_iff : digit? p = some n ↔ n < 16 ∧ IsDigit p n := by
  cases p with
  | char c =>
    have hchar : digit? (.char c) = hexValue? c := rfl
    rw [hchar, hexValue?_eq_some_iff]
    simp only [IsDigit, CodePoint.char.injEq]
  | surrogate u => simp [digit?, CodePoint.char?, IsDigit]

theorem isBlank_of_isDigit (hn : n < 16) (h : IsDigit p n) : isBlank p = false := by
  rcases h with rfl | rfl <;> interval_cases n <;> rfl

theorem lower_of_isDigit (hn : n < 16) (h : IsDigit p n) : lower p = .char (Nat.digitChar n) := by
  rcases h with rfl | rfl <;> interval_cases n <;> rfl

/-! ## Pairs -/

theorem decodePairs_cons_of_blank (hp : isBlank p = true) : decodePairs (p :: t) = decodePairs t := by
  cases t with
  | nil => simp only [decodePairs, hp, if_true]
  | cons q t => simp only [decodePairs, hp, if_true]

theorem Pairs.of_decodePairs (h : decodePairs t = some bs) : Pairs t bs := by
  fun_induction decodePairs t generalizing bs with
  | case1 =>
    cases h
    exact .nil
  | case2 p hp =>
    cases h
    exact .blank hp .nil
  | case3 p hp => cases h
  | case4 p q t hp ih => exact .blank hp (ih h)
  | case5 p q t _ a b hb ha ih =>
    obtain ⟨cs, hcs, rfl⟩ := Option.map_eq_some_iff.mp h
    obtain ⟨hhigh, hp⟩ := digit?_eq_some_iff.mp ha
    obtain ⟨hlow, hq⟩ := digit?_eq_some_iff.mp hb
    have hbyte : (a * 16 + b).toUInt8.toNat = a * 16 + b :=
      UInt8.toNat_ofNat_of_lt' (by simp only [UInt8.size]; omega)
    refine .pair ?_ ?_ (ih hcs)
    · rwa [hbyte, show (a * 16 + b) / 16 = a by omega]
    · rwa [hbyte, show (a * 16 + b) % 16 = b by omega]
  | case6 p q t hp hdigits => cases h

theorem Pairs.decodePairs_eq (h : Pairs t bs) : decodePairs t = some bs := by
  induction h with
  | nil => rw [decodePairs]
  | blank hp _ ih => rw [decodePairs_cons_of_blank hp, ih]
  | @pair p q t b bs hp hq _ ih =>
    have hb := b.toNat_lt
    have hhigh : b.toNat / 16 < 16 := by omega
    have hlow : b.toNat % 16 < 16 := by omega
    have hbyte : (b.toNat / 16 * 16 + b.toNat % 16).toUInt8 = b := by
      rw [Nat.div_add_mod' b.toNat 16]
      exact UInt8.ofNat_toNat
    simp only [decodePairs, isBlank_of_isDigit hhigh hp, Bool.false_eq_true, if_false,
      digit?_eq_some_iff.mpr ⟨hhigh, hp⟩, digit?_eq_some_iff.mpr ⟨hlow, hq⟩, ih, Option.map_some, hbyte]

theorem decodePairs_eq_some_iff : decodePairs t = some bs ↔ Pairs t bs :=
  ⟨.of_decodePairs, Pairs.decodePairs_eq⟩

theorem digits_cons (b : UInt8) (bs : Bytes) : digits (b :: bs) =
    Nat.digitChar (b.toNat / 16 % 16) :: Nat.digitChar (b.toNat % 16) :: digits bs := rfl

theorem pairs_digits (bs : Bytes) : Pairs (Text.ofChars (digits bs)) bs := by
  induction bs with
  | nil => exact .nil
  | cons b bs ih =>
    have hb := b.toNat_lt
    have hhigh : b.toNat / 16 % 16 = b.toNat / 16 := by omega
    rw [digits_cons, hhigh]
    exact .pair (Or.inl rfl) (Or.inl rfl) ih

/-- The digits of the pairs in lower case are those that the bytes are written in. -/
theorem Pairs.digits_eq (h : Pairs t bs) :
    (t.filter fun p => !isBlank p).map lower = Text.ofChars (digits bs) := by
  induction h with
  | nil => rfl
  | blank hp _ ih => rw [List.filter_cons_of_neg (by simp [hp]), ih]
  | @pair p q t b bs hp hq _ ih =>
    have hb := b.toNat_lt
    have hhigh : b.toNat / 16 < 16 := by omega
    have hlow : b.toNat % 16 < 16 := by omega
    rw [List.filter_cons_of_pos (by simp [isBlank_of_isDigit hhigh hp]),
      List.filter_cons_of_pos (by simp [isBlank_of_isDigit hlow hq]), List.map_cons, List.map_cons,
      lower_of_isDigit hhigh hp, lower_of_isDigit hlow hq, ih, digits_cons, Nat.mod_eq_of_lt hhigh]
    rfl

/-! ## Marks -/

/-- Pairs of digits do not begin with a mark. -/
theorem Pairs.withoutMark_eq (h : Pairs t bs) : withoutMark t = t := by
  unfold withoutMark
  split
  next u => cases h.decodePairs_eq
  next u => cases h.decodePairs_eq
  next => rfl

theorem exists_mark (t : Text) : ∃ mark ∈ marks, t = mark ++ withoutMark t := by
  unfold withoutMark
  split
  next u => exact ⟨"0x", by decide, rfl⟩
  next u => exact ⟨"0X", by decide, rfl⟩
  next => exact ⟨[], by decide, rfl⟩

/-- The texts that are read are the spellings of byte strings. -/
theorem decode_eq_some_iff : decode t = some bs ↔ Spells t bs := by
  rw [decode, decodePairs_eq_some_iff]
  constructor
  · intro h
    obtain ⟨mark, hmark, ht⟩ := exists_mark t
    exact ⟨mark, hmark, withoutMark t, ht, h⟩
  · rintro ⟨mark, hmark, u, rfl, h⟩
    simp only [marks, List.mem_cons, List.not_mem_nil, or_false] at hmark
    rcases hmark with rfl | rfl | rfl
    · rw [List.nil_append, h.withoutMark_eq]
      exact h
    · exact h
    · exact h

theorem bareDigits_of_decode (h : decode t = some bs) : bareDigits t = Text.ofChars (digits bs) :=
  (decodePairs_eq_some_iff.mp h).digits_eq

/-! ## The form in lower case -/

theorem exists_of_mem_digits {d : Char} (h : d ∈ digits bs) : ∃ n < 16, d = Nat.digitChar n := by
  induction bs with
  | nil => cases h
  | cons b bs ih =>
    have hhigh : b.toNat / 16 % 16 < 16 := Nat.mod_lt _ (by decide)
    have hlow : b.toNat % 16 < 16 := Nat.mod_lt _ (by decide)
    rw [digits_cons] at h
    rcases List.mem_cons.mp h with rfl | h
    · exact ⟨_, hhigh, rfl⟩
    · rcases List.mem_cons.mp h with rfl | h
      · exact ⟨_, hlow, rfl⟩
      · exact ih h

/-- Bytes are read back from their hexadecimal form. -/
@[simp] theorem decode_encode (bs : Bytes) : decode (encode bs) = some bs := (pairs_digits bs).decodePairs_eq

theorem encode_injective : Function.Injective encode := by
  intro bs cs h
  have hdecode := congrArg decode h
  rw [decode_encode, decode_encode] at hdecode
  exact Option.some.inj hdecode

@[simp] theorem encode_inj {bs cs : Bytes} : encode bs = encode cs ↔ bs = cs :=
  encode_injective.eq_iff

theorem isLowerForm_encode (bs : Bytes) : IsLowerForm (encode bs) :=
  ⟨digits bs, rfl, fun _ h => exists_of_mem_digits h⟩

/-- In lower case and without blanks the digits are bare already. -/
theorem IsLowerForm.eq_bareDigits (h : IsLowerForm t) : t = Text.ofChars ['0', 'x'] ++ bareDigits t := by
  obtain ⟨ds, rfl, hds⟩ := h
  have hbare : bareDigits (Text.ofChars ('0' :: 'x' :: ds)) = Text.ofChars ds := by
    change ((Text.ofChars ds).filter fun p => !isBlank p).map lower = _
    induction ds with
    | nil => rfl
    | cons d ds ih =>
      obtain ⟨n, hn, rfl⟩ := hds d List.mem_cons_self
      have hdigit : IsDigit (.char (Nat.digitChar n)) n := Or.inl rfl
      have hrest := ih fun d hd => hds d (List.mem_cons_of_mem _ hd)
      change ((CodePoint.char (Nat.digitChar n) :: Text.ofChars ds).filter _).map lower = _
      rw [List.filter_cons_of_pos (by simp [isBlank_of_isDigit hn hdigit]), List.map_cons,
        lower_of_isDigit hn hdigit, hrest]
      rfl
  rw [hbare]
  rfl

theorem encode_eq_bareDigits (h : decode t = some bs) :
    encode bs = Text.ofChars ['0', 'x'] ++ bareDigits t := by
  rw [bareDigits_of_decode h]
  rfl

theorem isLowerForm_iff_of_decode (h : decode t = some bs) : IsLowerForm t ↔ t = encode bs := by
  constructor
  · intro hlower
    exact hlower.eq_bareDigits.trans (encode_eq_bareDigits h).symm
  · rintro rfl
    exact isLowerForm_encode bs

end Hex

end LedgerGenesis
