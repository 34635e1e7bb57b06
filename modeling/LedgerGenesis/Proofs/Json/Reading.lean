import LedgerGenesis.Proofs.Json.Scanning

/-! # Readers and the grammar

A dialect may take some doubles and objects as they are spelled and refuse the others. Its reader then takes
from a text the value that the grammar spells there if the dialect takes all parts of it, and refuses a text
that spells any other value. So the strict reader reads the texts that denote exact values, and nothing else.
-/
namespace LedgerGenesis.Json

variable {d : Dialect} {p : Json → Prop} {fuel : Nat} {ph : Phrase} {v : Json} {vs : List Json}
  {fs : List (Text × Json)} {s t u w z r : List Char} {c : Char}

attribute [local simp] readValue readItems readFields

/-! ## Readers that decide -/

section Decides

variable {α β : Type} {x : Except ReadError α} {p q : Prop} {a : α}

/-- A reader gives a result where something holds, and an error where it does not. -/
structure Decides (x : Except ReadError α) (p : Prop) (a : α) : Prop where
  ok : p → x = .ok a
  error : ¬ p → ∃ e, x = .error e

theorem decides_ok (h : p) (hx : x = .ok a) : Decides x p a := ⟨fun _ => hx, fun hn => absurd h hn⟩

theorem decides_error (h : ¬ p) (hx : ∃ e, x = .error e) : Decides x p a :=
  ⟨fun hp => absurd hp h, fun _ => hx⟩

theorem Decides.map (h : Decides x p a) (f : α → β) : Decides (x.map f) p (f a) where
  ok hp := by rw [h.ok hp, Except.map]
  error hn := by
    obtain ⟨e, he⟩ := h.error hn
    exact ⟨e, by rw [he, Except.map]⟩

theorem Decides.congr (h : Decides x p a) (hpq : p ↔ q) : Decides x q a :=
  ⟨fun hq => h.ok (hpq.mpr hq), fun hn => h.error fun hp => hn (hpq.mp hp)⟩

theorem Decides.eq_ok_iff {b : α} (h : Decides x p a) : x = .ok b ↔ p ∧ b = a := by
  constructor
  · intro hb
    by_cases hp : p
    · rw [h.ok hp] at hb
      exact ⟨hp, (Except.ok.inj hb).symm⟩
    · obtain ⟨e, he⟩ := h.error hp
      rw [he] at hb
      cases hb
  · rintro ⟨hp, rfl⟩
    exact h.ok hp

/-- A reader that goes on from what another one gave, and stops with its error, decides as it does. -/
theorem Decides.followed {y : Except ReadError β} {b : β} (h : Decides x p a)
    (hok : x = .ok a → y = .ok b) (herror : ∀ e, x = .error e → y = .error e) : Decides y p b where
  ok hp := hok (h.ok hp)
  error hn := by
    obtain ⟨e, he⟩ := h.error hn
    exact ⟨e, herror e he⟩

theorem Decides.and {y : Except ReadError β} {b : β} (h : Decides x p a)
    (hok : x = .ok a → Decides y q b) (herror : ∀ e, x = .error e → y = .error e) :
    Decides y (p ∧ q) b where
  ok hpq := (hok (h.ok hpq.1)).ok hpq.2
  error hn := by
    by_cases hp : p
    · exact (hok (h.ok hp)).error fun hq => hn ⟨hp, hq⟩
    · obtain ⟨e, he⟩ := h.error hp
      exact ⟨e, herror e he⟩

end Decides

/-- A dialect takes as they are spelled the values with a property, and refuses the others. Only doubles and
objects, and integers without a numeral, can be refused. -/
structure Dialect.Takes (d : Dialect) (p : Json → Prop) : Prop where
  null : p .null
  bool : ∀ b, p (.bool b)
  text : ∀ t, p (.text t)
  list : ∀ vs, p (.list vs)
  int : ∀ n, p (.int n) ↔ IsExact (.int n)
  inexact : ∀ l, Decides (d.inexact l) (p (.float l.toBinary64)) (.float l.toBinary64)
  constant : ∀ w x, (w, x) ∈ constants → Decides (d.constant w x) (p (.float x)) (.float x)
  object : ∀ fs, Decides (d.object fs) (p (.object fs)) (.object fs)

theorem firstRepeated_eq_none {seen ks : List Text} :
    firstRepeated seen ks = none ↔ ks.Nodup ∧ ∀ k ∈ ks, k ∉ seen := by
  induction ks generalizing seen with
  | nil => simp [firstRepeated]
  | cons k ks ih =>
    simp only [firstRepeated, List.nodup_cons, List.forall_mem_cons]
    split
    · simp [*]
    · rw [ih]
      simp only [List.mem_cons, not_or]
      grind

theorem decides_strict_object : Decides (Dialect.strict.object fs) (keys fs).Nodup (object fs) := by
  have hnone : firstRepeated [] (keys fs) = none ↔ (keys fs).Nodup := by
    simp [firstRepeated_eq_none]
  cases hf : firstRepeated [] (keys fs) with
  | none => exact decides_ok (hnone.mp hf) (by simp only [Dialect.strict, hf])
  | some k =>
    refine decides_error (fun hn => ?_) ⟨.duplicateKey k, by simp only [Dialect.strict, hf]⟩
    rw [hnone.mpr hn] at hf
    cases hf

theorem takes_strict : Dialect.strict.Takes IsExact where
  null := trivial
  bool _ := trivial
  text _ := trivial
  list _ := trivial
  int _ := Iff.rfl
  inexact _ := decides_error id ⟨_, rfl⟩
  constant _ _ _ := decides_error id ⟨_, rfl⟩
  object _ := decides_strict_object

/-! ## Where phrases start and end -/

theorem Units.length_lt {u : Text} (h : Units u s r) : r.length < s.length := by
  induction h with
  | close => simp
  | plain _ _ _ _ ih | escape _ _ ih | number _ _ ih =>
    simp only [List.length_cons]
    omega

theorem Quoted.length_lt {k : Text} (h : Quoted k s r) : r.length < s.length := by
  cases h with
  | mk hu => exact Nat.lt_succ_of_lt hu.length_lt

theorem Marked.length_lt (h : Marked c s r) : r.length < s.length := by
  obtain ⟨hs, ht⟩ := h
  have hs := hs.length_le
  have ht := ht.length_le
  rw [List.length_cons] at hs
  omega

theorem Spells.length_le (h : Spells ph s r) : r.length ≤ s.length := by
  induction h with
  | null | «true» | «false» | natural | inexact | constant =>
    rw [List.length_append]
    omega
  | negative =>
    rw [List.length_append]
    omega
  | text h => exact h.length_lt.le
  | emptyList h | emptyObject h =>
    have := h.length_le
    simp only [List.length_cons] at this ⊢
    omega
  | list hb _ ih | object hb _ ih =>
    have := hb.length_le
    simp only [List.length_cons]
    omega
  | lastItem _ hb ih =>
    have := hb.length_le
    simp only [List.length_cons] at this
    omega
  | item _ hm _ ih ih' =>
    have := hm.length_lt
    omega
  | lastField hk hc _ hb ih =>
    have := hk.length_lt
    have := hc.length_lt
    have := hb.length_le
    simp only [List.length_cons] at this
    omega
  | field hk hc _ hm _ ih ih' =>
    have := hk.length_lt
    have := hc.length_lt
    have := hm.length_lt
    omega

/-- The text goes on with something other than a blank or what closes a list or an object. -/
def Starts (s : List Char) : Prop := ∃ c r, s = c :: r ∧ isBlank c = false ∧ c ≠ ']' ∧ c ≠ '\x7d'

theorem Starts.skipBlanks (h : Starts s) : skipBlanks s = s := by
  obtain ⟨c, s, rfl, hc, -⟩ := h
  exact skipBlanks_cons hc

theorem starts_of_isDigit {ds : List Char} (hc : c.isDigit = true) : Starts (c :: ds) := by
  have hne : ∀ {b : Char}, b.isDigit = false → c ≠ b := by
    rintro b hb rfl
    rw [hc] at hb
    cases hb
  refine ⟨c, ds, rfl, ?_, hne rfl, hne rfl⟩
  rw [← Bool.not_eq_true, isBlank_iff]
  simp [hne]

theorem Literal.IsNumber.starts {l : Literal} (h : l.IsNumber) : Starts (l.chars ++ r) := by
  obtain ⟨d, ds, hd, hw | hw⟩ := h.exists_cons
  · rw [Literal.chars, hw]
    exact starts_of_isDigit hd
  · rw [Literal.chars, hw]
    exact ⟨_, _, rfl, rfl, by decide⟩

theorem Spells.starts (h : Spells ph s r) : Starts s := by
  induction h with
  | null | «true» | «false» => exact ⟨_, _, rfl, rfl, by decide⟩
  | natural => simpa [Literal.chars] using isNumber_toDigits.starts
  | negative => simpa [Literal.chars] using isNumber_minus_toDigits.starts
  | inexact hl _ => exact hl.starts
  | constant h =>
    simp only [constants, List.mem_cons, Prod.mk.injEq, List.not_mem_nil, or_false] at h
    rcases h with ⟨rfl, -⟩ | ⟨rfl, -⟩ | ⟨rfl, -⟩ <;> exact ⟨_, _, rfl, rfl, by decide⟩
  | text h =>
    obtain ⟨hu⟩ := h
    exact ⟨_, _, rfl, rfl, by decide⟩
  | emptyList _ | list _ _ | emptyObject _ | object _ _ => exact ⟨_, _, rfl, rfl, by decide⟩
  | lastItem _ _ ih => exact ih
  | item _ _ _ ih => exact ih
  | lastField hk _ _ _ _ | field hk _ _ _ _ _ _ =>
    obtain ⟨hu⟩ := hk
    exact ⟨_, _, rfl, rfl, by decide⟩

theorem Marked.exists_skipBlanks (h : Marked c s r) (hc : isBlank c = false) (hr : Starts r) :
    ∃ t, skipBlanks s = c :: t ∧ skipBlanks t = r := by
  obtain ⟨hs, ht⟩ := h
  exact ⟨_, hs.skipBlanks_eq_cons hc, ht.skipBlanks_eq.trans hr.skipBlanks⟩

theorem Marked.ends (h : Marked c s r) (hc : c = ',' ∨ c = ':' ∨ c = ']' ∨ c = '\x7d') : Ends s := by
  obtain ⟨hs, -⟩ := h
  exact hs.ends (ends_cons hc)

/-! ## What is spelled is read if the dialect takes it, and refused if not -/

theorem readValue_scalar (hq : c ≠ '"') (hl : c ≠ '[') (ho : c ≠ '\x7b') :
    readValue d (fuel + 1) (c :: r) = readScalar d (c :: r) := by
  rw [readValue]
  · rintro s ⟨⟩
    contradiction
  · rintro s ⟨⟩
    contradiction
  · rintro s ⟨⟩
    contradiction

theorem readValue_number (d : Dialect) (fuel : Nat) {l : Literal} (h : l.IsNumber) (hr : Ends r) :
    readValue d (fuel + 1) (l.chars ++ r) =
      (if l.isInexact then d.inexact l else l.toInt).map (·, r) := by
  rw [← readScalar_number h hr d]
  obtain ⟨e, es, he, hw | hw⟩ := h.exists_cons
  · have hne : ∀ {b : Char}, b.isDigit = false → e ≠ b := by
      rintro b hb rfl
      rw [he] at hb
      cases hb
    rw [Literal.chars, hw]
    exact readValue_scalar (hne rfl) (hne rfl) (hne rfl)
  · rw [Literal.chars, hw]
    exact readValue_scalar (by decide) (by decide) (by decide)

section Takes

variable (hp : d.Takes p)
include hp

theorem decides_number (fuel : Nat) {n : Int} {l : Literal} (h : l.IsNumber) (hx : l.isInexact = false)
    (hn : l.toInt = if IsExact (int n) then .ok (int n) else .error .longNumeral) (hr : Ends r) :
    Decides (readValue d (fuel + 1) (l.chars ++ r)) ((int n).Throughout p) (int n, r) := by
  rw [readValue_number d fuel h hr, hx, Throughout.int_iff, hp.int]
  refine Decides.map (a := int n) ?_ (·, r)
  rw [if_neg Bool.false_ne_true, hn]
  by_cases he : IsExact (int n)
  · exact decides_ok he (if_pos he)
  · exact decides_error he ⟨_, if_neg he⟩

theorem decides_list (hb : Blanks s t) (hs : Starts t)
    (h : Decides (readItems d fuel t) (∀ v ∈ vs, v.Throughout p) (vs, r)) :
    Decides (readValue d (fuel + 1) ('[' :: s)) ((list vs).Throughout p) (list vs, r) := by
  have hskip := hb.skipBlanks_eq.trans hs.skipBlanks
  obtain ⟨c, u, rfl, -, hc, -⟩ := hs
  rw [readValue, hskip]
  split
  next heq => exact absurd (List.cons.inj heq).1 hc
  next =>
    refine (h.map fun x : List Json × List Char => (list x.1, x.2)).congr ?_
    rw [Throughout.list_iff, and_iff_right (hp.list vs)]

theorem decides_object (hb : Blanks s t) (hs : Starts t)
    (h : Decides (readFields d fuel t) (∀ f ∈ fs, f.2.Throughout p) (fs, r)) :
    Decides (readValue d (fuel + 1) ('\x7b' :: s)) ((object fs).Throughout p)
      (object fs, r) := by
  have hskip := hb.skipBlanks_eq.trans hs.skipBlanks
  obtain ⟨c, u, rfl, -, -, hc⟩ := hs
  rw [readValue, hskip, Throughout.object_iff, and_comm]
  split
  next heq => exact absurd (List.cons.inj heq).1 hc
  next =>
    refine h.and (fun hok => ?_) fun e he => by rw [he]
    rw [hok]
    exact (hp.object fs).map (·, r)

omit hp

theorem decides_lastItem (hv : Decides (readValue d fuel s) (v.Throughout p) (v, t))
    (hb : Blanks t (']' :: r)) :
    Decides (readItems d (fuel + 1) s) (∀ w ∈ [v], w.Throughout p) ([v], r) := by
  rw [List.forall_mem_singleton, readItems]
  refine hv.followed (fun hok => ?_) fun e he => by rw [he]
  simp only [hok, hb.skipBlanks_eq_cons (c := ']') rfl]

theorem decides_item (hv : Decides (readValue d fuel s) (v.Throughout p) (v, t)) (hm : Marked ',' t u)
    (hu : Starts u) (hvs : Decides (readItems d fuel u) (∀ w ∈ vs, w.Throughout p) (vs, r)) :
    Decides (readItems d (fuel + 1) s) (∀ w ∈ v :: vs, w.Throughout p) (v :: vs, r) := by
  obtain ⟨w, hcomma, hnext⟩ := hm.exists_skipBlanks rfl hu
  rw [List.forall_mem_cons, readItems]
  refine hv.and (fun hok => ?_) fun e he => by rw [he]
  simp only [hok, hcomma, hnext]
  exact hvs.map _

theorem decides_lastField {k : Text} (hk : Quoted k s t) (hc : Marked ':' t u) (hu : Starts u)
    (hv : Decides (readValue d fuel u) (v.Throughout p) (v, w)) (hb : Blanks w ('\x7d' :: r)) :
    Decides (readFields d (fuel + 1) s) (∀ f ∈ [(k, v)], f.2.Throughout p) ([(k, v)], r) := by
  obtain ⟨s, rfl, hread⟩ := readString_of_quoted hk
  obtain ⟨z, hcolon, hvalue⟩ := hc.exists_skipBlanks rfl hu
  rw [List.forall_mem_singleton, readFields]
  simp only [hread, hcolon, hvalue]
  refine hv.followed (fun hok => ?_) fun e he => by rw [he]
  simp only [hok, hb.skipBlanks_eq_cons (c := '\x7d') rfl]

theorem decides_field {k : Text} (hk : Quoted k s t) (hc : Marked ':' t u) (hu : Starts u)
    (hv : Decides (readValue d fuel u) (v.Throughout p) (v, w)) (hm : Marked ',' w z) (hz : Starts z)
    (hfs : Decides (readFields d fuel z) (∀ f ∈ fs, f.2.Throughout p) (fs, r)) :
    Decides (readFields d (fuel + 1) s) (∀ f ∈ (k, v) :: fs, f.2.Throughout p)
      ((k, v) :: fs, r) := by
  obtain ⟨s, rfl, hread⟩ := readString_of_quoted hk
  obtain ⟨y, hcolon, hvalue⟩ := hc.exists_skipBlanks rfl hu
  obtain ⟨y', hcomma, hnext⟩ := hm.exists_skipBlanks rfl hz
  rw [List.forall_mem_cons, readFields]
  simp only [hread, hcolon, hvalue]
  refine hv.and (fun hok => ?_) fun e he => by rw [he]
  simp only [hok, hcomma, hnext]
  exact hfs.map _

/-- What the readers of a dialect do with a text that spells a phrase. -/
def Phrase.Read (d : Dialect) (p : Json → Prop) (fuel : Nat) (s r : List Char) : Phrase → Prop
  | value v => 2 * s.length ≤ fuel → Ends r →
    Decides (readValue d fuel s) (v.Throughout p) (v, r)
  | items vs => 2 * s.length + 1 ≤ fuel →
    Decides (readItems d fuel s) (∀ v ∈ vs, v.Throughout p) (vs, r)
  | fields fs => 2 * s.length + 1 ≤ fuel →
    Decides (readFields d fuel s) (∀ f ∈ fs, f.2.Throughout p) (fs, r)

/-- A text that starts a value is not empty, so its reader has fuel for a step. -/
theorem Phrase.read_value (hs : Starts s) (h : ∀ fuel, 2 * s.length ≤ fuel + 1 → Ends r →
    Decides (readValue d (fuel + 1) s) (v.Throughout p) (v, r)) (fuel : Nat) :
    (value v).Read d p fuel s r := by
  obtain ⟨c, t, rfl, -⟩ := hs
  intro hf hr
  rw [List.length_cons] at hf h
  obtain ⟨fuel, rfl⟩ := Nat.exists_eq_succ_of_ne_zero (n := fuel) (by omega)
  exact h fuel hf hr

include hp

theorem Spells.read (h : Spells ph s r) (fuel : Nat) : ph.Read d p fuel s r := by
  -- on the grammar and not on the fuel: each rule takes one step, and its parts are shorter by the marks
  induction h generalizing fuel with
  | null | «true» | «false» =>
    refine Phrase.read_value (Spells.starts (by constructor)) (fun fuel _ _ => ?_) fuel
    exact decides_ok (by simp [hp.null, hp.bool]) rfl
  | natural =>
    refine Phrase.read_value Spells.natural.starts (fun fuel _ hr => ?_) fuel
    simpa [Literal.chars] using decides_number hp fuel isNumber_toDigits rfl toInt_natural hr
  | negative =>
    refine Phrase.read_value Spells.negative.starts (fun fuel _ hr => ?_) fuel
    simpa [Literal.chars] using
      decides_number hp fuel isNumber_minus_toDigits rfl toInt_negative hr
  | inexact hl hx =>
    refine Phrase.read_value (Spells.inexact hl hx).starts (fun fuel _ hr => ?_) fuel
    rw [readValue_number d fuel hl hr, if_pos hx, Throughout.float_iff]
    exact (hp.inexact _).map (·, _)
  | @constant w x r h =>
    refine Phrase.read_value (Spells.constant h).starts (fun fuel _ _ => ?_) fuel
    have hread := (hp.constant _ _ h).map fun v => (v, r)
    rw [Throughout.float_iff]
    simp only [constants, List.mem_cons, Prod.mk.injEq, List.not_mem_nil, or_false] at h
    rcases h with ⟨rfl, rfl⟩ | ⟨rfl, rfl⟩ | ⟨rfl, rfl⟩ <;> exact hread
  | text h =>
    refine Phrase.read_value (Spells.text h).starts (fun fuel _ _ => ?_) fuel
    obtain ⟨s, rfl, hread⟩ := readString_of_quoted h
    refine decides_ok (Throughout.text_iff.mpr (hp.text _)) ?_
    rw [readValue, hread]
    rfl
  | emptyList hb =>
    refine Phrase.read_value (Spells.emptyList hb).starts (fun fuel _ _ => ?_) fuel
    refine decides_ok (by simp [hp.list]) ?_
    simp only [readValue, hb.skipBlanks_eq_cons (c := ']') rfl]
  | emptyObject hb =>
    refine Phrase.read_value (Spells.emptyObject hb).starts (fun fuel _ _ => ?_) fuel
    simp only [readValue, hb.skipBlanks_eq_cons (c := '\x7d') rfl, Throughout.object_iff,
      List.not_mem_nil, false_imp_iff, implies_true, and_true]
    exact (hp.object []).map (·, _)
  | list hb hi ih =>
    refine Phrase.read_value (Spells.list hb hi).starts (fun fuel hf _ => ?_) fuel
    have hlen := hb.length_le
    rw [List.length_cons] at hf
    exact decides_list hp hb hi.starts (ih fuel (by omega))
  | object hb hi ih =>
    refine Phrase.read_value (Spells.object hb hi).starts (fun fuel hf _ => ?_) fuel
    have hlen := hb.length_le
    rw [List.length_cons] at hf
    exact decides_object hp hb hi.starts (ih fuel (by omega))
  | lastItem hv hb ih =>
    intro hf
    obtain ⟨fuel, rfl⟩ := Nat.exists_eq_succ_of_ne_zero (n := fuel) (by omega)
    exact decides_lastItem (ih fuel (by omega) (hb.ends (ends_cons (by simp)))) hb
  | item hv hm hi ih ih' =>
    intro hf
    obtain ⟨fuel, rfl⟩ := Nat.exists_eq_succ_of_ne_zero (n := fuel) (by omega)
    have hvalue := hv.length_le
    have hcomma := hm.length_lt
    exact decides_item (ih fuel (by omega) (hm.ends (by simp))) hm hi.starts (ih' fuel (by omega))
  | lastField hk hc hv hb ih =>
    intro hf
    obtain ⟨fuel, rfl⟩ := Nat.exists_eq_succ_of_ne_zero (n := fuel) (by omega)
    have hkey := hk.length_lt
    have hcolon := hc.length_lt
    exact decides_lastField hk hc hv.starts (ih fuel (by omega) (hb.ends (ends_cons (by simp)))) hb
  | field hk hc hv hm hi ih ih' =>
    intro hf
    obtain ⟨fuel, rfl⟩ := Nat.exists_eq_succ_of_ne_zero (n := fuel) (by omega)
    have hkey := hk.length_lt
    have hcolon := hc.length_lt
    have hvalue := hv.length_le
    have hcomma := hm.length_lt
    exact decides_field hk hc hv.starts (ih fuel (by omega) (hm.ends (by simp))) hm hi.starts
      (ih' fuel (by omega))

/-! ## What is read is spelled and exact -/

/-- What a reader takes for a value without parts is spelled there. -/
theorem spells_of_readScalar (h : readScalar d s = .ok (v, r)) :
    Spells (.value v) s r ∧ v.Throughout p := by
  unfold readScalar at h
  split at h
  next w x t hw =>
    cases h
    obtain ⟨hmem, rfl⟩ := mem_of_firstWord hw
    simp only [names, List.mem_cons, Prod.mk.injEq, List.not_mem_nil, or_false] at hmem
    rcases hmem with ⟨rfl, rfl⟩ | ⟨rfl, rfl⟩ | ⟨rfl, rfl⟩
    · exact ⟨.null, Throughout.null_iff.mpr hp.null⟩
    · exact ⟨.true, Throughout.bool_iff.mpr (hp.bool true)⟩
    · exact ⟨.false, Throughout.bool_iff.mpr (hp.bool false)⟩
  next =>
    split at h
    next w x t hw =>
      obtain ⟨hmem, rfl⟩ := mem_of_firstWord hw
      obtain ⟨v', hv, heq⟩ := map_eq_ok_iff.mp h
      cases heq
      obtain ⟨hx, rfl⟩ := (hp.constant w x hmem).eq_ok_iff.mp hv
      exact ⟨.constant hmem, Throughout.float_iff.mpr hx⟩
    next =>
      split at h
      next l t hl =>
        obtain ⟨rfl, hnumber⟩ := isNumber_of_scanLiteral hl
        obtain ⟨v', hv, heq⟩ := map_eq_ok_iff.mp h
        cases heq
        split at hv
        next hx =>
          obtain ⟨hfloat, rfl⟩ := (hp.inexact l).eq_ok_iff.mp hv
          exact ⟨.inexact hnumber hx, Throughout.float_iff.mpr hfloat⟩
        next hx =>
          obtain ⟨n, rfl, hn, hspells⟩ := hnumber.spells_of_toInt (by simpa using hx) hv
          exact ⟨hspells _, Throughout.int_iff.mpr ((hp.int n).mpr hn)⟩
      next => cases h

omit hp in
/-- With so much fuel, whatever the reader takes from a text is spelled there, and the dialect takes it. -/
structure ReadsSpelled (d : Dialect) (p : Json → Prop) (fuel : Nat) : Prop where
  value : ∀ {s v r}, readValue d fuel s = .ok (v, r) →
    Spells (.value v) s r ∧ v.Throughout p
  items : ∀ {s vs r}, readItems d fuel s = .ok (vs, r) →
    Spells (.items vs) s r ∧ ∀ v ∈ vs, v.Throughout p
  fields : ∀ {s fs r}, readFields d fuel s = .ok (fs, r) →
    Spells (.fields fs) s r ∧ ∀ f ∈ fs, f.2.Throughout p

omit hp in
theorem blanks_of_skipBlanks (h : skipBlanks s = t) : Blanks s t := h ▸ blanks_skipBlanks s

omit hp in
theorem marked_of_skipBlanks (h : skipBlanks s = c :: t) : Marked c s (skipBlanks t) :=
  ⟨blanks_of_skipBlanks h, blanks_skipBlanks t⟩

theorem ReadsSpelled.value_succ (ih : ReadsSpelled d p fuel)
    (h : readValue d (fuel + 1) s = .ok (v, r)) :
    Spells (.value v) s r ∧ v.Throughout p := by
  unfold readValue at h
  split at h
  next =>
    obtain ⟨⟨t, u⟩, ht, heq⟩ := map_eq_ok_iff.mp h
    cases heq
    exact ⟨.text (quoted_of_readString ht), Throughout.text_iff.mpr (hp.text _)⟩
  next =>
    split at h
    next hskip =>
      cases h
      exact ⟨.emptyList (blanks_of_skipBlanks hskip), by simp [hp.list]⟩
    next =>
      obtain ⟨⟨vs, u⟩, hvs, heq⟩ := map_eq_ok_iff.mp h
      cases heq
      obtain ⟨hspell, hexact⟩ := ih.items hvs
      exact ⟨.list (blanks_skipBlanks _) hspell, Throughout.list_iff.mpr ⟨hp.list _, hexact⟩⟩
  next =>
    split at h
    next hskip =>
      obtain ⟨w, hw, heq⟩ := map_eq_ok_iff.mp h
      cases heq
      obtain ⟨hn, rfl⟩ := (hp.object []).eq_ok_iff.mp hw
      exact ⟨.emptyObject (blanks_of_skipBlanks hskip), by simpa using hn⟩
    next =>
      split at h
      next fs u hfs =>
        obtain ⟨w, hw, heq⟩ := map_eq_ok_iff.mp h
        cases heq
        obtain ⟨hn, rfl⟩ := (hp.object fs).eq_ok_iff.mp hw
        obtain ⟨hspell, hexact⟩ := ih.fields hfs
        exact ⟨.object (blanks_skipBlanks _) hspell, Throughout.object_iff.mpr ⟨hn, hexact⟩⟩
      next => cases h
  next => exact spells_of_readScalar hp h

omit hp in
theorem ReadsSpelled.items_succ (ih : ReadsSpelled d p fuel)
    (h : readItems d (fuel + 1) s = .ok (vs, r)) :
    Spells (.items vs) s r ∧ ∀ v ∈ vs, v.Throughout p := by
  unfold readItems at h
  split at h
  next => cases h
  next w u hw =>
    obtain ⟨hspell, hexact⟩ := ih.value hw
    split at h
    next hskip =>
      cases h
      exact ⟨.lastItem hspell (blanks_of_skipBlanks hskip), List.forall_mem_singleton.mpr hexact⟩
    next hskip =>
      obtain ⟨⟨ws, t⟩, hws, heq⟩ := map_eq_ok_iff.mp h
      cases heq
      obtain ⟨hspells, hexacts⟩ := ih.items hws
      exact ⟨.item hspell (marked_of_skipBlanks hskip) hspells,
        List.forall_mem_cons.mpr ⟨hexact, hexacts⟩⟩
    next => cases h

omit hp in
theorem ReadsSpelled.fields_succ (ih : ReadsSpelled d p fuel)
    (h : readFields d (fuel + 1) s = .ok (fs, r)) :
    Spells (.fields fs) s r ∧ ∀ f ∈ fs, f.2.Throughout p := by
  unfold readFields at h
  split at h
  next =>
    split at h
    next => cases h
    next hk =>
      have hkey := quoted_of_readString hk
      split at h
      next hcolon =>
        have hmark := marked_of_skipBlanks hcolon
        split at h
        next => cases h
        next w u hw =>
          obtain ⟨hspell, hexact⟩ := ih.value hw
          split at h
          next hskip =>
            cases h
            exact ⟨.lastField hkey hmark hspell (blanks_of_skipBlanks hskip),
              List.forall_mem_singleton.mpr hexact⟩
          next hskip =>
            obtain ⟨⟨fs, t⟩, hfs, heq⟩ := map_eq_ok_iff.mp h
            cases heq
            obtain ⟨hspells, hexacts⟩ := ih.fields hfs
            exact ⟨.field hkey hmark hspell (marked_of_skipBlanks hskip) hspells,
              List.forall_mem_cons.mpr ⟨hexact, hexacts⟩⟩
          next => cases h
      next => cases h
  next => cases h

theorem readsSpelled (fuel : Nat) : ReadsSpelled d p fuel := by
  induction fuel with
  | zero =>
    constructor
    · intro s v r h
      rw [readValue] at h
      cases h
    · intro s vs r h
      rw [readItems] at h
      cases h
    · intro s fs r h
      rw [readFields] at h
      cases h
  | succ fuel ih => exact ⟨ih.value_succ hp, ih.items_succ, ih.fields_succ⟩

/-! ## Whole texts -/

theorem Denotes.decides (h : Denotes s v) : Decides (read d s) (v.Throughout p) v := by
  obtain @⟨v, s, t, r, hs, hv, hr⟩ := h
  have hskip : skipBlanks s = t := hs.skipBlanks_eq.trans hv.starts.skipBlanks
  have hlen := hs.length_le
  have hvalue := hv.read hp (2 * s.length + 2) (by omega) (hr.ends ends_nil)
  have hend : (skipBlanks r).isEmpty = true := by
    rw [hr.skipBlanks_eq]
    rfl
  rw [Json.read, hskip]
  refine hvalue.followed (fun hok => ?_) fun e he => by rw [he]
  simp only [hok, hend, if_true]

/-- A reader reads the texts that denote values of which its dialect takes every part, and gives these values. -/
theorem read_eq_ok_iff : read d s = .ok v ↔ Denotes s v ∧ v.Throughout p := by
  constructor
  · intro h
    unfold Json.read at h
    split at h
    next => cases h
    next w u hw =>
      obtain ⟨hspell, hexact⟩ := (readsSpelled hp _).value hw
      split at h
      next hend =>
        cases h
        exact ⟨.mk (blanks_skipBlanks s) hspell (blanks_of_skipBlanks (List.isEmpty_iff.mp hend)),
          hexact⟩
      next => cases h
  · rintro ⟨h, hx⟩
    exact (h.decides hp).ok hx

end Takes

/-- The strict reader reads the texts that denote exact values, and gives these values. -/
theorem read_strict_eq_ok_iff : read .strict s = .ok v ↔ Denotes s v ∧ v.Throughout IsExact :=
  read_eq_ok_iff takes_strict

end LedgerGenesis.Json
