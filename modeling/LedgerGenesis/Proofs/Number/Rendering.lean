import LedgerGenesis.Number.Shortest
import LedgerGenesis.Proofs.Json.Scanning
import Mathlib.Data.List.DropRight

/-! # Doubles in documents

A document shows a finite double as a number with a fraction or an exponent, and any other by its name. So
the text of a double never reads as an integer.
-/
namespace LedgerGenesis.Binary64

open Json (Literal IsDigits)

variable {i : Interval} {m n c fuel : Nat} {e g places : Int} {ds sign : List Char} {place : Int}

/-! ## Digits -/

theorem Interval.holds_zero (num : Nat) {den : Nat} (h : 0 < i.low * i.quarter.1 * den) :
    i.holds num den 0 = false := by
  simp only [Interval.holds, Nat.zero_mul]
  split
  · simp only [Bool.and_eq_false_imp, decide_eq_true_eq]
    omega
  · simp

/-- No grid takes a positive double for zero. -/
theorem Interval.ne_zero_of_onGrid? (h : 0 < i.low * i.quarter.1) (hg : i.onGrid? g = some c) :
    c ≠ 0 := by
  rintro rfl
  unfold Interval.onGrid? at hg
  -- the fraction that the grid compares with has a positive denominator on both sides of the point
  obtain ⟨⟨num, den⟩, hden⟩ : ∃ p : Nat × Nat, p =
    if g < 0 then (1, Nat.pow 10 (-g).toNat) else (Nat.pow 10 g.toNat, 1) := ⟨_, rfl⟩
  have hpos : 0 < den := by
    split at hden <;> cases hden
    · exact Nat.pow_pos (by omega)
    · omega
  have hzero := Interval.holds_zero num (Nat.mul_pos h hpos)
  simp only [← hden] at hg
  split at hg
  next hbelow =>
    rw [Option.some.inj hg, hzero] at hbelow
    simp at hbelow
  next =>
    split at hg <;> simp at hg

theorem search_eq (h : search i places n fuel = (c, g)) :
    c = 0 ∧ g = 0 ∨ i.onGrid? g = some c := by
  induction fuel generalizing n with
  | zero =>
    cases h
    exact Or.inl ⟨rfl, rfl⟩
  | succ fuel ih =>
    rw [search] at h
    split at h
    next hc =>
      cases h
      exact Or.inr hc
    next => exact ih h

theorem interval_low_pos (hm : m ≠ 0) : 0 < (interval m e).low * (interval m e).quarter.1 := by
  refine Nat.mul_pos ?_ ?_
  · simp only [interval]
    split <;> omega
  · simp only [interval]
    split
    · exact Nat.one_pos
    · exact Nat.pow_pos (by omega)

theorem stripZeros_eq (cs : List Char) : stripZeros cs = cs.rdropWhile (· == '0') := rfl

theorem isDigits_stripZeros (hn : n ≠ 0) : IsDigits (stripZeros (Nat.toDigits 10 n)) ∧
    (stripZeros (Nat.toDigits 10 n)).head? ≠ some '0' := by
  have hstart := List.rdropWhile_prefix (· == '0') (Nat.toDigits 10 n)
  rw [← stripZeros_eq] at hstart
  obtain ⟨d, ds, hd⟩ := List.exists_cons_of_ne_nil (Nat.toDigits_ne_nil (n := n) (b := 10))
  have hd0 : d ≠ '0' := by
    rintro rfl
    exact Json.toDigits_ne_zero_cons (Nat.pos_of_ne_zero hn) hd
  have hne : stripZeros (Nat.toDigits 10 n) ≠ [] := by
    rw [stripZeros_eq, Ne, List.rdropWhile_eq_nil_iff, hd]
    intro hall
    exact hd0 (by simpa using hall d List.mem_cons_self)
  refine ⟨⟨hne, fun c hc => Json.isDigit_of_mem_toDigits (hstart.mem hc)⟩, ?_⟩
  obtain ⟨rest, hrest⟩ := hstart
  obtain ⟨b, bs, hb⟩ := List.exists_cons_of_ne_nil hne
  rw [hb, hd, List.cons_append] at hrest
  rw [hb, List.head?_cons, (List.cons.inj hrest).1]
  exact fun h => hd0 (Option.some.inj h)

/-- A double that is not zero has digits that start with no zero, unless the search fails. -/
theorem shortest_cases (hm : m ≠ 0) (h : shortest m e = (ds, place)) :
    ds = [] ∧ place = 1 ∨ IsDigits ds ∧ ds.head? ≠ some '0' := by
  unfold shortest at h
  obtain ⟨⟨c, g⟩, hs⟩ : ∃ p, search (interval m e)
    (decimalPlaces ((interval m e).value * (interval m e).quarter.1) (interval m e).quarter.2) 1 18 =
      p := ⟨_, rfl⟩
  simp only [hs] at h
  cases h
  rcases search_eq hs with ⟨rfl, rfl⟩ | hgrid
  · exact Or.inl ⟨rfl, rfl⟩
  · exact Or.inr (isDigits_stripZeros (Interval.ne_zero_of_onGrid? (interval_low_pos hm) hgrid))

/-! ## Layout -/

/-- A text that starts as a numeral does and has a fraction or an exponent after it. -/
def ShowsInexact (cs : List Char) : Prop :=
  ∃ l : Literal, l.IsNumber ∧ l.isInexact = true ∧ l.chars = cs

theorem showsInexact_of (hs : sign = [] ∨ sign = ['-']) (whole : List Char)
    {fraction exponent : List Char}
    (hw : ∃ n, whole = Nat.toDigits 10 n)
    (hf : fraction = [] ∨ ∃ ds, IsDigits ds ∧ fraction = '.' :: ds)
    (he : exponent = [] ∨ ∃ e sign ds, (e = 'e' ∨ e = 'E') ∧ Json.IsSign sign ∧ IsDigits ds ∧
      exponent = e :: (sign ++ ds))
    (hx : fraction ≠ [] ∨ exponent ≠ []) : ShowsInexact (sign ++ (whole ++ fraction ++ exponent)) := by
  obtain ⟨n, rfl⟩ := hw
  refine ⟨⟨sign ++ Nat.toDigits 10 n, fraction, exponent⟩, ⟨⟨n, ?_⟩, hf, he⟩, ?_, ?_⟩
  · rcases hs with rfl | rfl
    · exact Or.inl rfl
    · exact Or.inr rfl
  · simpa [Literal.isInexact] using hx
  · simp [Literal.chars]

theorem showsInexact_fraction (hs : sign = [] ∨ sign = ['-']) (whole : List Char)
    (hw : ∃ n, whole = Nat.toDigits 10 n) (hd : IsDigits ds) :
    ShowsInexact (sign ++ (whole ++ '.' :: ds)) := by
  simpa using showsInexact_of hs whole hw (Or.inr ⟨ds, hd, rfl⟩) (Or.inl rfl)
    (Or.inl (List.cons_ne_nil '.' ds))

theorem showsInexact_point_zero (hs : sign = [] ∨ sign = ['-']) (whole : List Char)
    (hw : ∃ n, whole = Nat.toDigits 10 n) : ShowsInexact (sign ++ (whole ++ ['.', '0'])) :=
  showsInexact_fraction hs whole hw ⟨by simp, by simp⟩

theorem isDigits_padded (n : Nat) : IsDigits
    (if (Nat.toDigits 10 n).length < 2 then '0' :: Nat.toDigits 10 n else Nat.toDigits 10 n) := by
  split
  · refine ⟨by simp, List.forall_mem_cons.mpr ⟨rfl, fun c => Json.isDigit_of_mem_toDigits⟩⟩
  · exact Json.isDigits_toDigits

theorem forall_isDigit_append_replicate {k : Nat} (h : ∀ c ∈ ds, c.isDigit = true) :
    (∀ c ∈ ds ++ List.replicate k '0', c.isDigit = true) ∧
      ∀ c ∈ List.replicate k '0' ++ ds, c.isDigit = true := by
  have hzeros : ∀ c ∈ List.replicate k '0', c.isDigit = true := by
    intro c hc
    rw [List.eq_of_mem_replicate hc]
    rfl
  exact ⟨List.forall_mem_append.mpr ⟨h, hzeros⟩, List.forall_mem_append.mpr ⟨hzeros, h⟩⟩

theorem showsInexact_exponent (hs : sign = [] ∨ sign = ['-']) {d : Char} {t : List Char}
    (hw : ∃ n, [d] = Nat.toDigits 10 n) (ht : ∀ c ∈ t, c.isDigit = true) (shift : Int) :
    ShowsInexact (sign ++ ([d] ++ (if t.isEmpty then [] else '.' :: t) ++
      'e' :: ([if shift < 0 then '-' else '+'] ++ if (Nat.toDigits 10 shift.natAbs).length < 2 then
        '0' :: Nat.toDigits 10 shift.natAbs else Nat.toDigits 10 shift.natAbs))) := by
  have hsign : Json.IsSign [if shift < 0 then '-' else '+'] := by
    split
    · exact Or.inr (Or.inr rfl)
    · exact Or.inr (Or.inl rfl)
  have hfraction : ∀ f, f = (if t.isEmpty then [] else '.' :: t) →
      f = [] ∨ ∃ ds, IsDigits ds ∧ f = '.' :: ds := by
    rintro f rfl
    split
    next => exact Or.inl rfl
    next hne => exact Or.inr ⟨t, ⟨by simpa using hne, ht⟩, rfl⟩
  exact showsInexact_of hs [d] hw (hfraction _ rfl)
    (Or.inr ⟨'e', _, _, Or.inl rfl, hsign, isDigits_padded shift.natAbs, rfl⟩) (Or.inr (by simp))

theorem showsInexact_layOut (hs : sign = [] ∨ sign = ['-'])
    (hd : ds = [] ∧ place = 1 ∨ IsDigits ds ∧ ds.head? ≠ some '0') :
    ShowsInexact (sign ++ layOut documentLayout ds place) := by
  rcases hd with ⟨rfl, rfl⟩ | ⟨hd, h0⟩
  · exact showsInexact_point_zero hs ['0'] ⟨0, rfl⟩
  · obtain ⟨d, t, rfl⟩ := List.exists_cons_of_ne_nil hd.1
    have hd0 : d ≠ '0' := fun h => h0 (by rw [h]; rfl)
    have hwhole : ∀ cs : List Char, (∀ c ∈ d :: cs, c.isDigit = true) →
        ∃ n, d :: cs = Nat.toDigits 10 n := by
      intro cs hcs
      obtain ⟨n, -, hn⟩ := Json.exists_toDigits ⟨by simp, hcs⟩ (by simpa using hd0)
      exact ⟨n, hn⟩
    obtain ⟨hdigit, ht⟩ := List.forall_mem_cons.mp hd.2
    unfold layOut
    split
    next =>
      split
      next =>
        have hzeros : IsDigits (List.replicate (-place).toNat '0' ++ d :: t) :=
          ⟨by simp, (forall_isDigit_append_replicate hd.2).2⟩
        exact showsInexact_fraction hs ['0'] ⟨0, rfl⟩ hzeros
      next =>
        split
        next =>
          have hw := hwhole _ (forall_isDigit_append_replicate (k := (place - (d :: t).length).toNat)
            hd.2).1
          simpa using showsInexact_point_zero hs _ hw
        next hpos hlen =>
          -- the point stands after the first digit and `k` more of them
          obtain ⟨k, hk⟩ := Int.eq_ofNat_of_zero_le (show 0 ≤ place - 1 by omega)
          have hk : place.toNat = k + 1 := by omega
          have hrest : IsDigits (t.drop k) :=
            ⟨by simp at hlen ⊢; omega, fun c hc => ht c (List.mem_of_mem_drop hc)⟩
          have hw := hwhole (t.take k) (List.forall_mem_cons.mpr
            ⟨hdigit, fun c hc => ht c (List.mem_of_mem_take hc)⟩)
          rw [hk]
          simpa using showsInexact_fraction hs _ hw hrest
    next =>
      have hw := hwhole [] (List.forall_mem_singleton.mpr hdigit)
      simpa using showsInexact_exponent hs hw ht (place - 1)

/-- A document shows a double by a number with a fraction or an exponent, or by its name. -/
theorem exists_render (x : Binary64) : ∃ cs, x.render documentLayout = Text.ofChars cs ∧
    (ShowsInexact cs ∨ ∃ y, (cs, y) ∈ Json.constants) := by
  cases x with
  | nan => exact ⟨_, rfl, Or.inr ⟨.nan, by decide⟩⟩
  | infinite negative =>
    cases negative
    · exact ⟨_, rfl, Or.inr ⟨.infinite false, by decide⟩⟩
    · exact ⟨_, rfl, Or.inr ⟨.infinite true, by decide⟩⟩
  | finite negative m e =>
    have hs : (if negative = true then ['-'] else []) = [] ∨
        (if negative = true then ['-'] else []) = ['-'] := by
      cases negative <;> simp
    refine ⟨(if negative = true then ['-'] else []) ++ (if m = 0 then ['0', '.', '0'] else
      layOut documentLayout (shortest m e).1 (shortest m e).2), rfl, Or.inl ?_⟩
    by_cases hm : m = 0
    · rw [if_pos hm]
      exact showsInexact_point_zero hs ['0'] ⟨0, rfl⟩
    · rw [if_neg hm]
      exact showsInexact_layOut hs (shortest_cases hm rfl)

end LedgerGenesis.Binary64
