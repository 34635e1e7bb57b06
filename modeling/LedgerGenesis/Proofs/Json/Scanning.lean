import LedgerGenesis.Proofs.Json.Grammar
import LedgerGenesis.Proofs.Json.Portable
import LedgerGenesis.Proofs.Outcome
import Mathlib.Data.List.Induction

/-! # Scanners and the grammar

Each scanner takes from a text what the rule of its part of the grammar spells there. A number ends where
the text goes on with a blank or a mark, so that no scanner stops short of its end.
-/
namespace LedgerGenesis.Json

variable {s r : List Char} {n : Nat} {c : Char}

/-! ## Blanks -/

theorem isBlank_iff : isBlank c = true ↔ c = ' ' ∨ c = '\t' ∨ c = '\n' ∨ c = '\r' := by
  simp [isBlank, or_assoc]

theorem skipBlanks_cons (hc : isBlank c = false) : skipBlanks (c :: r) = c :: r := by
  rw [skipBlanks, List.dropWhile_cons_of_neg]
  simp [hc]

theorem blanks_skipBlanks (s : List Char) : Blanks s (skipBlanks s) := by
  induction s with
  | nil => exact .none
  | cons c s ih =>
    by_cases hc : isBlank c = true
    · rw [skipBlanks, List.dropWhile_cons_of_pos hc]
      exact .more (isBlank_iff.mp hc) ih
    · rw [skipBlanks_cons (by simpa using hc)]
      exact .none

theorem Blanks.skipBlanks_eq (h : Blanks s r) : skipBlanks s = skipBlanks r := by
  induction h with
  | none => rfl
  | more hc _ ih => exact (List.dropWhile_cons_of_pos (isBlank_iff.mpr hc)).trans ih

theorem Blanks.skipBlanks_eq_cons (h : Blanks s (c :: r)) (hc : isBlank c = false) :
    skipBlanks s = c :: r := h.skipBlanks_eq.trans (skipBlanks_cons hc)

theorem Blanks.length_le (h : Blanks s r) : r.length ≤ s.length := by
  induction h with
  | none => exact le_rfl
  | more _ _ ih => exact Nat.le_succ_of_le ih

/-- A value ends before a blank or a mark, and at the end of the text. -/
def Ends (r : List Char) : Prop :=
  ∀ c ∈ r.head?, isBlank c = true ∨ c = ',' ∨ c = ':' ∨ c = ']' ∨ c = '\x7d'

theorem Blanks.ends (h : Blanks s r) (hr : Ends r) : Ends s := by
  cases h with
  | none => exact hr
  | more hc _ =>
    rintro c ⟨⟩
    exact Or.inl (isBlank_iff.mpr hc)

theorem ends_nil : Ends [] := by
  rintro c ⟨⟩

theorem ends_cons (hc : c = ',' ∨ c = ':' ∨ c = ']' ∨ c = '\x7d') : Ends (c :: r) := by
  rintro d ⟨⟩
  exact Or.inr hc

/-! ## Digits -/

theorem exists_digitChar (h : c.isDigit = true) : ∃ d < 10, c = Nat.digitChar d := by
  have hbounds : 48 ≤ c.toNat ∧ c.toNat ≤ 57 := by
    simpa [Char.isDigit, UInt32.le_iff_toNat_le] using h
  have hvalue : ∀ d < 10, (Nat.digitChar d).toNat = 48 + d := by decide
  refine ⟨c.toNat - 48, by omega, Char.toNat_inj.mp ?_⟩
  rw [hvalue _ (by omega)]
  omega

theorem isDigit_of_mem_toDigits (h : c ∈ Nat.toDigits 10 n) : c.isDigit = true :=
  Nat.isDigit_of_mem_toDigits (by omega) (by omega) h

theorem isDigits_toDigits : IsDigits (Nat.toDigits 10 n) :=
  ⟨Nat.toDigits_ne_nil, fun _ => isDigit_of_mem_toDigits⟩

theorem ofDigits_toDigits : ofDigits (Nat.toDigits 10 n) = n := by
  rw [ofDigits, Numeral.ofDigits, List.foldl_map]
  exact (Nat.ofDigitChars_eq_foldl ..).symm.trans Nat.ofDigitChars_ten_toDigits

theorem toDigits_ne_zero_cons {ds : List Char} (hn : 0 < n) : Nat.toDigits 10 n ≠ '0' :: ds := by
  induction n using Nat.strong_induction_on generalizing ds with
  | _ n ih =>
    intro h
    by_cases hlt : n < 10
    · rw [Nat.toDigits_of_lt_base hlt] at h
      have hchar : ∀ d < 10, Nat.digitChar d = '0' → d = 0 := by decide
      exact absurd (hchar n hlt (List.cons.inj h).1) (by omega)
    · -- the digits before the last are those of a tenth
      rw [Nat.toDigits_of_base_le (by omega) (by omega)] at h
      cases hd : Nat.toDigits 10 (n / 10) with
      | nil => exact Nat.toDigits_ne_nil hd
      | cons e es =>
        rw [hd] at h
        obtain ⟨rfl, -⟩ := List.cons.inj h
        exact ih (n / 10) (by omega) (by omega) hd

/-- Digits that start with no zero are those of a positive number. -/
theorem exists_toDigits {ds : List Char} (hd : IsDigits ds) (h0 : ds.head? ≠ some '0') :
    ∃ n, 0 < n ∧ ds = Nat.toDigits 10 n := by
  induction ds using List.reverseRecOn with
  | nil => exact absurd rfl hd.1
  | append_singleton ds c ih =>
    obtain ⟨d, hlt, rfl⟩ := exists_digitChar (hd.2 c (by simp))
    rcases List.eq_nil_or_concat ds with rfl | ⟨es, e, rfl⟩
    · have hpos : d ≠ 0 := by
        rintro rfl
        exact h0 rfl
      exact ⟨d, by omega, (Nat.toDigits_of_lt_base hlt).symm⟩
    · obtain ⟨m, hm, heq⟩ := ih ⟨by simp, fun c hc => hd.2 c (List.mem_append_left _ hc)⟩
        (by simpa [List.head?_append] using h0)
      refine ⟨10 * m + d, by omega, ?_⟩
      rw [heq, ← Nat.toDigits_append_toDigits (by omega) hm hlt, Nat.toDigits_of_lt_base hlt]

theorem takeWhile_isDigit_append {ds : List Char} (hd : ∀ c ∈ ds, c.isDigit = true)
    (hr : ∀ c ∈ r.head?, c.isDigit = false) :
    (ds ++ r).takeWhile Char.isDigit = ds ∧ (ds ++ r).dropWhile Char.isDigit = r := by
  have hstop : r.takeWhile Char.isDigit = [] ∧ r.dropWhile Char.isDigit = r := by
    cases r with
    | nil => exact ⟨rfl, rfl⟩
    | cons c r => simp [hr c rfl]
  rw [List.takeWhile_append_of_pos hd, List.dropWhile_append_of_pos hd, hstop.1, hstop.2,
    List.append_nil]
  exact ⟨rfl, rfl⟩

theorem isDigits_takeWhile (h : (s.takeWhile Char.isDigit).isEmpty = false) :
    IsDigits (s.takeWhile Char.isDigit) :=
  ⟨by simpa using h, List.all_eq_true.mp List.all_takeWhile⟩

/-! ## Numbers -/

theorem scanWhole_toDigits (hr : ∀ c ∈ r.head?, c.isDigit = false) :
    scanWhole (Nat.toDigits 10 n ++ r) = some (Nat.toDigits 10 n, r) := by
  obtain ⟨htake, hdrop⟩ := takeWhile_isDigit_append (fun c => isDigit_of_mem_toDigits (n := n)) hr
  rcases Nat.eq_zero_or_pos n with rfl | hn
  · rfl
  · cases hd : Nat.toDigits 10 n with
    | nil => exact absurd hd Nat.toDigits_ne_nil
    | cons d ds =>
      have hdigit : d.isDigit = true := isDigit_of_mem_toDigits (hd ▸ List.mem_cons_self)
      rw [hd, List.cons_append] at htake hdrop
      rw [List.cons_append, scanWhole]
      · rw [if_pos hdigit, htake, hdrop]
      · rintro rfl
        exact toDigits_ne_zero_cons hn hd

theorem exists_toDigits_of_scanWhole {ds : List Char} (h : scanWhole s = some (ds, r)) :
    s = ds ++ r ∧ ∃ n, ds = Nat.toDigits 10 n := by
  unfold scanWhole at h
  split at h
  · cases h
    exact ⟨rfl, 0, rfl⟩
  next c t hzero =>
    split at h
    next hc =>
      cases h
      have hd : IsDigits ((c :: t).takeWhile Char.isDigit) := isDigits_takeWhile (by simp [hc])
      have hhead : ((c :: t).takeWhile Char.isDigit).head? ≠ some '0' := by
        simpa [hc] using hzero
      obtain ⟨n, -, hn⟩ := exists_toDigits hd hhead
      exact ⟨List.takeWhile_append_dropWhile.symm, n, hn⟩
    next => cases h
  · cases h

theorem scanFraction_append {f : List Char} (hf : f = [] ∨ ∃ ds, IsDigits ds ∧ f = '.' :: ds)
    (hr : ∀ c ∈ r.head?, c.isDigit = false ∧ c ≠ '.') : scanFraction (f ++ r) = (f, r) := by
  rcases hf with rfl | ⟨ds, hd, rfl⟩
  · rw [List.nil_append]
    unfold scanFraction
    split
    · exact absurd rfl (hr '.' rfl).2
    · rfl
  · obtain ⟨htake, hdrop⟩ := takeWhile_isDigit_append hd.2 fun c hc => (hr c hc).1
    rw [List.cons_append, scanFraction, htake, hdrop, if_neg (by simpa using hd.1)]

theorem eq_of_scanFraction {f : List Char} (h : scanFraction s = (f, r)) :
    s = f ++ r ∧ (f = [] ∨ ∃ ds, IsDigits ds ∧ f = '.' :: ds) := by
  unfold scanFraction at h
  split at h
  next t =>
    split at h
    next =>
      cases h
      exact ⟨rfl, Or.inl rfl⟩
    next hne =>
      cases h
      exact ⟨by rw [List.cons_append, List.takeWhile_append_dropWhile],
        Or.inr ⟨_, isDigits_takeWhile (by simpa using hne), rfl⟩⟩
  next =>
    cases h
    exact ⟨rfl, Or.inl rfl⟩

theorem scanSign_append {sign ds : List Char} (hs : IsSign sign) (hd : IsDigits ds) :
    scanSign (sign ++ (ds ++ r)) = (sign, ds ++ r) := by
  obtain ⟨d, ds, rfl⟩ := List.exists_cons_of_ne_nil hd.1
  have hdigit : d.isDigit = true := hd.2 d List.mem_cons_self
  rcases hs with rfl | rfl | rfl
  · unfold scanSign
    split
    next heq =>
      rw [(List.cons.inj heq).1] at hdigit
      cases hdigit
    next heq =>
      rw [(List.cons.inj heq).1] at hdigit
      cases hdigit
    next => rfl
  · rfl
  · rfl

theorem eq_of_scanSign {sign : List Char} (h : scanSign s = (sign, r)) :
    s = sign ++ r ∧ IsSign sign := by
  unfold scanSign at h
  split at h <;> cases h
  · exact ⟨rfl, Or.inr (Or.inl rfl)⟩
  · exact ⟨rfl, Or.inr (Or.inr rfl)⟩
  · exact ⟨rfl, Or.inl rfl⟩

theorem Ends.not_isDigit (h : Ends r) : ∀ c ∈ r.head?, c.isDigit = false := by
  intro c hc
  rcases h c hc with hb | rfl | rfl | rfl | rfl
  · rcases isBlank_iff.mp hb with rfl | rfl | rfl | rfl <;> rfl
  all_goals rfl

theorem Ends.ne (h : Ends r) : ∀ c ∈ r.head?, c ≠ '.' ∧ c ≠ 'e' ∧ c ≠ 'E' := by
  intro c hc
  rcases h c hc with hb | rfl | rfl | rfl | rfl
  · rcases isBlank_iff.mp hb with rfl | rfl | rfl | rfl <;> decide
  all_goals decide

theorem scanExponent_append {e : List Char}
    (he : e = [] ∨ ∃ m sign ds, (m = 'e' ∨ m = 'E') ∧ IsSign sign ∧ IsDigits ds ∧
      e = m :: (sign ++ ds)) (hr : Ends r) : scanExponent (e ++ r) = (e, r) := by
  rcases he with rfl | ⟨m, sign, ds, hm, hs, hd, rfl⟩
  · cases r with
    | nil => rfl
    | cons c r => exact if_neg (not_or.mpr (hr.ne c rfl).2)
  · obtain ⟨htake, hdrop⟩ := takeWhile_isDigit_append hd.2 hr.not_isDigit
    rw [List.cons_append, List.append_assoc, scanExponent, if_pos hm, scanSign_append hs hd]
    simp only [htake, hdrop]
    rw [if_neg (by simpa using hd.1)]
    rfl

theorem eq_of_scanExponent {e : List Char} (h : scanExponent s = (e, r)) :
    s = e ++ r ∧ (e = [] ∨ ∃ m sign ds, (m = 'e' ∨ m = 'E') ∧ IsSign sign ∧ IsDigits ds ∧
      e = m :: (sign ++ ds)) := by
  unfold scanExponent at h
  split at h
  next m t =>
    split at h
    next hm =>
      obtain ⟨⟨sign, t'⟩, hx⟩ : ∃ x, scanSign t = x := ⟨_, rfl⟩
      obtain ⟨rfl, hs⟩ := eq_of_scanSign hx
      simp only [hx] at h
      split at h
      next =>
        cases h
        exact ⟨rfl, Or.inl rfl⟩
      next hne =>
        cases h
        refine ⟨?_, Or.inr ⟨m, _, _, hm, hs, isDigits_takeWhile (by simpa using hne), rfl⟩⟩
        simp only [List.cons_append, List.append_assoc, List.takeWhile_append_dropWhile]
    next =>
      cases h
      exact ⟨rfl, Or.inl rfl⟩
  next =>
    cases h
    exact ⟨rfl, Or.inl rfl⟩

variable {l : Literal}

theorem isNumber_toDigits : Literal.IsNumber ⟨Nat.toDigits 10 n, [], []⟩ :=
  ⟨⟨n, Or.inl rfl⟩, Or.inl rfl, Or.inl rfl⟩

theorem isNumber_minus_toDigits : Literal.IsNumber ⟨'-' :: Nat.toDigits 10 n, [], []⟩ :=
  ⟨⟨n, Or.inr rfl⟩, Or.inl rfl, Or.inl rfl⟩

/-- A number starts with a digit, or with a sign and a digit. -/
theorem Literal.IsNumber.exists_cons (h : l.IsNumber) : ∃ d ds, d.isDigit = true ∧
    (l.whole = d :: ds ∨ l.whole = '-' :: d :: ds) := by
  obtain ⟨n, hn⟩ := h.whole
  obtain ⟨d, ds, hd⟩ := List.exists_cons_of_ne_nil (Nat.toDigits_ne_nil (n := n) (b := 10))
  rw [hd] at hn
  exact ⟨d, ds, isDigit_of_mem_toDigits (hd ▸ List.mem_cons_self), hn⟩

/-- No digit or point follows the fraction of a number. -/
theorem Literal.IsNumber.head?_exponent (h : l.IsNumber) (hr : Ends r) :
    ∀ c ∈ (l.exponent ++ r).head?, c.isDigit = false ∧ c ≠ '.' := by
  intro c hc
  rcases h.exponent with he | ⟨m, sign, ds, hm, -, -, he⟩
  · rw [he, List.nil_append] at hc
    exact ⟨hr.not_isDigit c hc, (hr.ne c hc).1⟩
  · rw [he] at hc
    cases hc
    rcases hm with rfl | rfl <;> decide

/-- No digit follows the whole part of a number. -/
theorem Literal.IsNumber.head?_fraction (h : l.IsNumber) (hr : Ends r) :
    ∀ c ∈ (l.fraction ++ (l.exponent ++ r)).head?, c.isDigit = false := by
  intro c hc
  rcases h.fraction with hf | ⟨ds, -, hf⟩
  · rw [hf, List.nil_append] at hc
    exact (h.head?_exponent hr c hc).1
  · rw [hf] at hc
    cases hc
    rfl

theorem scanLiteral_append (h : l.IsNumber) (hr : Ends r) :
    scanLiteral (l.chars ++ r) = some (l, r) := by
  have hexponent := scanExponent_append h.exponent hr
  have hfraction := scanFraction_append h.fraction (h.head?_exponent hr)
  have hends := h.head?_fraction hr
  obtain ⟨whole, fraction, exponent⟩ := l
  obtain ⟨n, hn⟩ := h.whole
  have hwhole := scanWhole_toDigits (n := n) hends
  simp only [Literal.chars, List.append_assoc] at hn ⊢
  rcases hn with rfl | rfl
  · obtain ⟨d, ds, hd⟩ := List.exists_cons_of_ne_nil (Nat.toDigits_ne_nil (n := n) (b := 10))
    have hminus : d ≠ '-' := by
      rintro rfl
      cases isDigit_of_mem_toDigits (n := n) (hd ▸ List.mem_cons_self)
    unfold scanLiteral
    split
    next minus t heq =>
      split at heq
      next hcons =>
        rw [hd] at hcons
        exact absurd (List.cons.inj hcons).1 hminus
      next =>
        cases heq
        simp only [hwhole, hfraction, hexponent, List.nil_append]
  · simp only [scanLiteral, List.cons_append, hwhole, hfraction, hexponent, List.nil_append]

theorem isNumber_of_scanLiteral (h : scanLiteral s = some (l, r)) :
    s = l.chars ++ r ∧ l.IsNumber := by
  unfold scanLiteral at h
  split at h
  next minus t heq =>
    split at h
    next => cases h
    next ds t' hw =>
      obtain ⟨rfl, n, hn⟩ := exists_toDigits_of_scanWhole hw
      obtain ⟨⟨fraction, u⟩, hf⟩ : ∃ x, scanFraction t' = x := ⟨_, rfl⟩
      obtain ⟨⟨exponent, w⟩, he⟩ : ∃ x, scanExponent u = x := ⟨_, rfl⟩
      obtain ⟨rfl, hfraction⟩ := eq_of_scanFraction hf
      obtain ⟨rfl, hexponent⟩ := eq_of_scanExponent he
      simp only [hf, he] at h
      cases h
      split at heq <;> cases heq
      · exact ⟨by simp [Literal.chars], ⟨n, Or.inr (by rw [hn]; rfl)⟩, hfraction, hexponent⟩
      · exact ⟨by simp [Literal.chars], ⟨n, Or.inl hn⟩, hfraction, hexponent⟩

/-! ## Strings -/

theorem units_of_scanString {t : Text} (h : scanString s = some (t, r)) : Units t s r := by
  fun_induction scanString s generalizing t r with
  | case1 => cases h
  | case2 r' =>
    cases h
    exact .close
  | case3 a b c d r' n hn ih =>
    obtain ⟨⟨u, r''⟩, hu, heq⟩ := Option.map_eq_some_iff.mp h
    cases heq
    exact .number hn (ih hu)
  | case4 => cases h
  | case5 c r' _ e he ih =>
    obtain ⟨⟨u, r''⟩, hu, heq⟩ := Option.map_eq_some_iff.mp h
    cases heq
    exact .escape he (ih hu)
  | case6 => cases h
  | case7 => cases h
  | case8 c r' hquote _ _ hc ih =>
    obtain ⟨⟨u, r''⟩, hu, heq⟩ := Option.map_eq_some_iff.mp h
    cases heq
    rw [not_or, Nat.not_lt] at hc
    exact .plain hc.1 hquote hc.2 (ih hu)

theorem scanString_of_units {t : Text} (h : Units t s r) : scanString s = some (t, r) := by
  induction h with
  | close => rfl
  | plain hc hquote hslash _ ih =>
    rw [scanString]
    · rw [if_neg (not_or.mpr ⟨Nat.not_lt.mpr hc, hslash⟩), ih, Option.map_some]
    · exact hquote
    · rintro a b c d t rfl
      contradiction
    · rintro d t rfl
      contradiction
  | escape he _ ih =>
    rw [scanString]
    · simp only [he, ih, Option.map_some]
    · rintro a b c d t rfl
      cases he
  | number hn _ ih => simp only [scanString, hn, ih, Option.map_some]

theorem quoted_of_readString {t : Text} (h : readString s = .ok (t, r)) :
    Quoted t ('"' :: s) r := by
  unfold readString at h
  split at h
  next hs =>
    cases h
    exact .mk (units_of_scanString hs)
  next => cases h

theorem readString_of_quoted {t : Text} (h : Quoted t s r) :
    ∃ s', s = '"' :: s' ∧ readString s' = .ok (t, r) := by
  cases h with
  | mk hu => exact ⟨_, rfl, by rw [readString, scanString_of_units hu]⟩

/-! ## Words -/

theorem eq_append_of_afterWord {w : List Char} (h : afterWord w s = some r) : s = w ++ r := by
  induction w generalizing s with
  | nil => exact Option.some.inj h
  | cons c w ih =>
    cases s with
    | nil => cases h
    | cons d s =>
      rw [afterWord] at h
      split at h
      next heq => rw [← heq, ih h, List.cons_append]
      next => cases h

theorem afterWord_eq_none {d : Char} {w : List Char} (h : c ≠ d) :
    afterWord (c :: w) (d :: s) = none := if_neg h

theorem mem_of_firstWord {α : Type} {words : List (List Char × α)} {w : List Char} {a : α}
    (h : firstWord s words = some (w, a, r)) : (w, a) ∈ words ∧ s = w ++ r := by
  induction words with
  | nil => cases h
  | cons p words ih =>
    obtain ⟨u, b⟩ := p
    rw [firstWord] at h
    split at h
    next hu =>
      cases h
      exact ⟨List.mem_cons_self, eq_append_of_afterWord hu⟩
    next => exact ⟨List.mem_cons_of_mem _ (ih h).1, (ih h).2⟩

/-- A word that is no sign before a digit does not start a number. -/
theorem Literal.IsNumber.afterWord_eq_none {l : Literal} (h : l.IsNumber) {d : Char} {w : List Char}
    (hc : c.isDigit = false) (hd : c = '-' → d.isDigit = false) :
    afterWord (c :: d :: w) (l.chars ++ r) = none := by
  have hne : ∀ {a b : Char}, a.isDigit = false → b.isDigit = true → a ≠ b := by
    rintro a _ ha hb rfl
    rw [ha] at hb
    cases hb
  obtain ⟨e, es, he, hw | hw⟩ := h.exists_cons
  · rw [Literal.chars, hw]
    exact Json.afterWord_eq_none (hne hc he)
  · rw [Literal.chars, hw]
    by_cases hm : c = '-'
    · rw [List.cons_append, List.cons_append, List.cons_append, afterWord, if_pos hm]
      exact Json.afterWord_eq_none (hne (hd hm) he)
    · exact Json.afterWord_eq_none hm

/-! ## Values without parts -/

theorem readScalar_number {l : Literal} (h : l.IsNumber) (hr : Ends r) (d : Dialect) :
    readScalar d (l.chars ++ r) = (if l.isInexact then d.inexact l else l.toInt).map (·, r) := by
  have hnames : firstWord (l.chars ++ r) names = none := by
    simp [firstWord, names, h.afterWord_eq_none]
  have hconstants : firstWord (l.chars ++ r) constants = none := by
    simp [firstWord, constants, h.afterWord_eq_none]
  simp only [readScalar, hnames, hconstants, scanLiteral_append h hr]

theorem isExact_int_iff : IsExact (int n) ↔ (Nat.toDigits 10 n).length ≤ Numeral.maxDigits := Iff.rfl

theorem isExact_neg_int_iff :
    IsExact (int (-n)) ↔ (Nat.toDigits 10 n).length ≤ Numeral.maxDigits := by
  rw [IsExact, Int.natAbs_neg, Int.natAbs_natCast]

theorem signed_of_isDigits {ds : List Char} (hd : IsDigits ds) : signed ds = (false, ds) := by
  unfold signed
  split
  · cases hd.2 _ List.mem_cons_self
  · cases hd.2 _ List.mem_cons_self
  · rfl

theorem toInt_natural : Literal.toInt ⟨Nat.toDigits 10 n, [], []⟩ =
    if IsExact (int n) then .ok (int n) else .error .longNumeral := by
  simp only [Literal.toInt, signed_of_isDigits isDigits_toDigits, ofDigits_toDigits,
    isExact_int_iff, ← Nat.not_lt, ite_not]
  rfl

theorem toInt_negative : Literal.toInt ⟨'-' :: Nat.toDigits 10 n, [], []⟩ =
    if IsExact (int (-n)) then .ok (int (-n)) else .error .longNumeral := by
  simp only [Literal.toInt, signed, ofDigits_toDigits, isExact_neg_int_iff, ← Nat.not_lt, ite_not]
  rfl

/-- A number without a fraction and an exponent spells the integer that is taken for it. -/
theorem Literal.IsNumber.spells_of_toInt {l : Literal} {v : Json} (h : l.IsNumber)
    (hx : l.isInexact = false) (hv : l.toInt = .ok v) :
    ∃ n, v = int n ∧ IsExact (int n) ∧ ∀ r, Spells (.value (int n)) (l.chars ++ r) r := by
  obtain ⟨whole, fraction, exponent⟩ := l
  obtain ⟨rfl, rfl⟩ : fraction = [] ∧ exponent = [] := by simpa [Literal.isInexact] using hx
  have hexact : ∀ {n : Int}, (if IsExact (int n) then .ok (int n) else .error .longNumeral) =
      (.ok v : Except ReadError Json) → v = int n ∧ IsExact (int n) := by
    intro n hn
    split at hn
    next he =>
      cases hn
      exact ⟨rfl, he⟩
    next => cases hn
  obtain ⟨n, hn | hn⟩ := h.whole
  · obtain rfl : whole = Nat.toDigits 10 n := hn
    obtain ⟨rfl, hn⟩ := hexact (toInt_natural ▸ hv)
    exact ⟨_, rfl, hn, fun r => by simpa [Literal.chars] using Spells.natural⟩
  · obtain rfl : whole = '-' :: Nat.toDigits 10 n := hn
    obtain ⟨rfl, hn⟩ := hexact (toInt_negative ▸ hv)
    exact ⟨_, rfl, hn, fun r => by simpa [Literal.chars] using Spells.negative⟩

end LedgerGenesis.Json
