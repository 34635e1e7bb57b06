import LedgerGenesis.Proofs.Hexadecimal
import LedgerGenesis.Proofs.Json.Labels
import LedgerGenesis.Proofs.Json.Reading
import LedgerGenesis.Proofs.Number.Rendering

/-! # What is printed and the grammar

Both styles print a text so that it is read back, halves of pairs or not. The printed form of a value with
well-formed texts spells a value. A double in it may spell another double, and an object shows the labels of a
mapping, but an exact value is spelled as it is and nothing else is spelled exact.
-/
namespace LedgerGenesis.Json

variable {style : Style} {v w : Json} {vs ws : List Json} {fs : List (Text × Json)} {t : Text} {r : List Char}
  {n depth : Nat}

/-! ## Strings -/

theorem hexUnit?_digits (h : n < 0x10000) :
    hexUnit? (Nat.digitChar (n / 16 / 16 / 16 % 16)) (Nat.digitChar (n / 16 / 16 % 16))
      (Nat.digitChar (n / 16 % 16)) (Nat.digitChar (n % 16)) = some n := by
  have hmod : ∀ m, hexValue? (Nat.digitChar (m % 16)) = some (m % 16) := fun m =>
    hexValue?_digitChar (Nat.mod_lt m (by omega))
  have hsum : n / 16 / 16 / 16 % 16 * 4096 + n / 16 / 16 % 16 * 256 + n / 16 % 16 * 16 + n % 16 = n := by
    omega
  simp only [hexUnit?, hmod, hsum]

theorem toNat_lt (c : Char) : c.toNat < 0x110000 := by
  rcases c.valid with h | h
  · exact Nat.lt_trans h (by decide)
  · exact h.2

theorem ofNumber_toNat (c : Char) : CodePoint.ofNumber c.toNat = .char c := by
  have hvalid : ¬ (0xD800 ≤ c.toNat ∧ c.toNat < 0xE000) := by
    rcases c.valid with h | h
    · exact fun hs => absurd hs.1 (Nat.not_le_of_lt h)
    · exact fun hs => absurd hs.2 (Nat.not_lt_of_le h.1)
  rw [CodePoint.ofNumber, dif_neg hvalid, Char.ofNat_toNat]

theorem joinHalves_char_cons {c : Char} {u : Text} :
    Text.joinHalves (.char c :: u) = .char c :: u.joinHalves := by
  cases u <;> rfl

/-- In a string the characters denote the given one. -/
def IsSpelling (c : Char) (cs : List Char) : Prop := ∀ u s r, Units u s r →
  ∃ u', Units u' (cs ++ s) r ∧ u'.joinHalves = .char c :: u.joinHalves

theorem isSpelling_of_units {c : Char} {cs : List Char}
    (h : ∀ u s r, Units u s r → Units (.char c :: u) (cs ++ s) r) : IsSpelling c cs :=
  fun u s r hu => ⟨_, h u s r hu, joinHalves_char_cons⟩

theorem isSpelling_shortEscape {c : Char} (ht : shortEscape? (.char c) = some t) :
    ∃ cs, t = Text.ofChars cs ∧ IsSpelling c cs := by
  simp only [shortEscape?, CodePoint.char.injEq] at ht
  have hescape : ∀ e, simpleEscape? e = some c → IsSpelling c ['\\', e] := fun e he =>
    isSpelling_of_units fun u s r => .escape he
  split_ifs at ht <;> cases ht <;> subst c
  · exact ⟨_, rfl, hescape '"' rfl⟩
  · exact ⟨_, rfl, hescape '\\' rfl⟩
  · exact ⟨_, rfl, hescape 'n' rfl⟩
  · exact ⟨_, rfl, hescape 'r' rfl⟩
  · exact ⟨_, rfl, hescape 't' rfl⟩
  · exact ⟨_, rfl, hescape 'b' rfl⟩
  · exact ⟨_, rfl, hescape 'f' rfl⟩

/-- A character without a short escape is no quote and no backslash. -/
theorem isSpelling_self {c : Char} (hs : shortEscape? (.char c) = none) (hc : 0x20 ≤ c.toNat) :
    IsSpelling c [c] := by
  refine isSpelling_of_units fun u s r => .plain hc ?_ ?_
  · rintro rfl
    cases hs
  · rintro rfl
    cases hs

theorem units_unitEscape {u : Text} {s : List Char} (hn : n < 0x10000) (h : Units u s r) :
    Units (CodePoint.ofNumber n :: u) (('\\' :: 'u' :: hexDigits 4 n) ++ s) r :=
  .number (hexUnit?_digits hn) h

theorem isSpelling_unitEscape {c : Char} (hc : c.toNat < 0x10000) :
    IsSpelling c ('\\' :: 'u' :: hexDigits 4 c.toNat) :=
  isSpelling_of_units fun _ _ _ h => ofNumber_toNat c ▸ units_unitEscape hc h

theorem ofNumber_half {u : Nat} (hu : u < 2048) : CodePoint.ofNumber (0xD800 + u) = .surrogate ⟨u, hu⟩ := by
  rw [CodePoint.ofNumber, dif_pos (by omega)]
  exact congrArg CodePoint.surrogate (Fin.ext (Nat.add_sub_cancel_left 0xD800 u))

/-- The characters of two halves denote the character that these make together. -/
theorem isSpelling_halves {c : Char} {h l : Nat} (hh : h < 1024) (hl : l < 1024)
    (hc : c.toNat = 0x10000 + h * 1024 + l) : IsSpelling c
      (('\\' :: 'u' :: hexDigits 4 (0xD800 + h)) ++ ('\\' :: 'u' :: hexDigits 4 (0xDC00 + l))) := by
  intro u s r hu
  have hlow : 0xDC00 + l = 0xD800 + (1024 + l) := by omega
  have hjoin : (CodePoint.ofNumber (0xD800 + h)).join? (CodePoint.ofNumber (0xDC00 + l)) = some c := by
    rw [hlow, ofNumber_half (by omega), ofNumber_half (by omega), CodePoint.join?,
      if_pos ⟨hh, Nat.le_add_right 1024 l⟩, Nat.add_sub_cancel_left, ← hc, Char.ofNat_toNat]
  have hunits := units_unitEscape (n := 0xD800 + h) (by omega)
    (units_unitEscape (n := 0xDC00 + l) (by omega) hu)
  rw [← List.append_assoc] at hunits
  refine ⟨_, hunits, ?_⟩
  rw [Text.joinHalves, hjoin]

/-- A style prints every character as characters that denote it in a string. -/
def Style.Faithful (style : Style) : Prop :=
  ∀ c, ∃ cs, style (.char c) = Text.ofChars cs ∧ IsSpelling c cs

theorem faithful_plainStyle : Style.Faithful plainStyle := by
  intro c
  cases hs : shortEscape? (.char c) with
  | some t => simpa only [plainStyle, hs] using isSpelling_shortEscape hs
  | none =>
    have hstyle : plainStyle (.char c) = if c.toNat < 0x20 then unitEscape c.toNat else [.char c] := by
      simp only [plainStyle, hs]
      rfl
    rw [hstyle]
    split
    next hc => exact ⟨_, rfl, isSpelling_unitEscape (by omega)⟩
    next hc => exact ⟨[c], rfl, isSpelling_self hs (by omega)⟩

theorem faithful_asciiStyle : Style.Faithful asciiStyle := by
  intro c
  cases hs : shortEscape? (.char c) with
  | some t => simpa only [asciiStyle, hs] using isSpelling_shortEscape hs
  | none =>
    have hstyle : asciiStyle (.char c) = if 0x20 ≤ c.toNat ∧ c.toNat < 0x7F then [.char c]
        else if c.toNat < 0x10000 then unitEscape c.toNat
        else unitEscape (0xD800 + (c.toNat - 0x10000) / 0x400) ++
          unitEscape (0xDC00 + (c.toNat - 0x10000) % 0x400) := by
      simp only [asciiStyle, hs]
      rfl
    rw [hstyle]
    split_ifs with hplain hc
    · exact ⟨[c], rfl, isSpelling_self hs hplain.1⟩
    · exact ⟨_, rfl, isSpelling_unitEscape hc⟩
    · have hlt := toNat_lt c
      exact ⟨_, Text.ofChars_append.symm, isSpelling_halves (by omega) (by omega) (by omega)⟩

theorem exists_units (hstyle : style.Faithful) (ts : List Char) : ∃ cs,
    (Text.ofChars ts).flatMap style = Text.ofChars cs ∧
      ∀ r, ∃ u, Units u (cs ++ '"' :: r) r ∧ u.joinHalves = Text.ofChars ts := by
  induction ts with
  | nil => exact ⟨[], rfl, fun r => ⟨[], .close, rfl⟩⟩
  | cons c ts ih =>
    obtain ⟨ds, hd, hunit⟩ := hstyle c
    obtain ⟨cs, hc, ih⟩ := ih
    refine ⟨ds ++ cs, ?_, fun r => ?_⟩
    · rw [Text.ofChars, List.map_cons, List.flatMap_cons, hd]
      exact (congrArg _ hc).trans Text.ofChars_append.symm
    · obtain ⟨u, hu, hjoin⟩ := ih r
      obtain ⟨u', hu', hjoin'⟩ := hunit u _ r hu
      refine ⟨u', by rwa [List.append_assoc], ?_⟩
      rw [hjoin', hjoin]
      rfl

theorem exists_quoted (hstyle : style.Faithful) (ht : t.WellFormed) : ∃ cs,
    renderText style t = Text.ofChars cs ∧ ∀ r, Quoted t (cs ++ r) r := by
  obtain ⟨ts, rfl⟩ := Text.wellFormed_iff_exists.mp ht
  obtain ⟨cs, hc, hunits⟩ := exists_units hstyle ts
  refine ⟨'"' :: cs ++ ['"'], ?_, fun r => ?_⟩
  · rw [renderText, hc]
    simp [Text.ofChars]
  · obtain ⟨u, hu, hjoin⟩ := hunits r
    have hquoted := Quoted.mk hu
    rw [hjoin] at hquoted
    simpa using hquoted

/-! ## Line breaks -/

def newLine (depth : Nat) : List Char := '\n' :: List.replicate (2 * depth) ' '

theorem lineBreak_eq (depth : Nat) : lineBreak depth = Text.ofChars (newLine depth) := by
  simp [lineBreak, newLine, Text.ofChars]

theorem blanks_replicate (n : Nat) : Blanks (List.replicate n ' ' ++ r) r := by
  induction n with
  | zero => exact .none
  | succ n ih => exact .more (Or.inl rfl) ih

theorem blanks_newLine (depth : Nat) : Blanks (newLine depth ++ r) r :=
  .more (by simp) (blanks_replicate (2 * depth))

/-! ## Values -/

/-- One stands for the other: they are the same as soon as either is as it should be. -/
def StandsFor {α : Type} (p : α → Prop) (b a : α) : Prop := p a ∨ p b → b = a

abbrev StandsForAll {α : Type} (p : α → Prop) (bs as : List α) : Prop :=
  StandsFor (fun as => ∀ a ∈ as, p a) bs as

theorem StandsFor.cons {α : Type} {p : α → Prop} {a b : α} {as bs : List α} (h : StandsFor p b a)
    (hs : StandsForAll p bs as) : StandsForAll p (b :: bs) (a :: as) := by
  intro hp
  simp only [List.forall_mem_cons] at hp
  rw [h (hp.imp And.left And.left), hs (hp.imp And.right And.right)]

/-- A style prints the value as what the grammar reads as it, or as something inexact in place of it. -/
def Printed (style : Style) (v : Json) : Prop := ∀ depth, ∃ cs w, render style depth v = Text.ofChars cs ∧
  (∀ r, Spells (.value w) (cs ++ r) r) ∧ StandsFor (Throughout IsExact) w v

theorem printed_of_spells (cs : List Char) (h : ∀ depth, render style depth v = Text.ofChars cs)
    (hs : ∀ r, Spells (.value v) (cs ++ r) r) : Printed style v :=
  fun depth => ⟨cs, v, h depth, hs, fun _ => rfl⟩

theorem printed_int (n : Int) : Printed style (int n) := by
  cases n with
  | ofNat n => exact printed_of_spells _ (fun _ => rfl) fun r => Spells.natural
  | negSucc n => exact printed_of_spells _ (fun _ => rfl) fun r => Spells.negative (n := n + 1)

theorem printed_float (x : Binary64) : Printed style (float x) := by
  have hstands : ∀ y, StandsFor (Throughout IsExact) (float y) (float x) := by
    rintro y (h | h)
    · exact absurd (Throughout.float_iff.mp h) id
    · exact absurd (Throughout.float_iff.mp h) id
  intro depth
  obtain ⟨cs, hcs, ⟨l, hl, hx, rfl⟩ | ⟨y, hy⟩⟩ := x.exists_render
  · exact ⟨l.chars, _, hcs, fun r => .inexact hl hx, hstands _⟩
  · exact ⟨cs, _, hcs, fun r => .constant hy, hstands _⟩

theorem printed_text (hstyle : style.Faithful) (ht : t.WellFormed) : Printed style (text t) := by
  obtain ⟨cs, hc, hquoted⟩ := exists_quoted hstyle ht
  exact printed_of_spells _ (fun _ => hc) fun r => .text (hquoted r)

/-- Items are printed so that they are spelled up to a bracket after blanks. -/
theorem exists_items (depth : Nat) (hv : Printed style v) (hvs : ∀ u ∈ vs, Printed style u) : ∃ cs ws,
    render style depth v ++ renderItems style depth vs = Text.ofChars cs ∧
      (∀ z r, Blanks z (']' :: r) → Spells (.items ws) (cs ++ z) r) ∧
      StandsForAll (Throughout IsExact) ws (v :: vs) := by
  induction vs generalizing v with
  | nil =>
    obtain ⟨cs, w, hc, hspell, hw⟩ := hv depth
    refine ⟨cs, [w], by rw [renderItems, List.append_nil, hc], fun z r hz => .lastItem (hspell z) hz,
      hw.cons fun _ => rfl⟩
  | cons v' vs ih =>
    obtain ⟨cs, w, hc, hspell, hw⟩ := hv depth
    obtain ⟨ds, ws, hd, hspells, hws⟩ := ih (hvs v' List.mem_cons_self)
      fun u hu => hvs u (List.mem_cons_of_mem v' hu)
    refine ⟨cs ++ ',' :: (newLine depth ++ ds), w :: ws, ?_, fun z r hz => ?_, hw.cons hws⟩
    · rw [renderItems, hc, Text.ofChars_append, lineBreak_eq]
      simp only [List.append_assoc, hd, List.cons_append]
      simp [Text.ofChars]
    · simp only [List.append_assoc, List.cons_append]
      exact .item (hspell _) ⟨.none, blanks_newLine depth⟩ (hspells z r hz)

theorem printed_list (hvs : ∀ v ∈ vs, Printed style v) : Printed style (list vs) := by
  cases vs with
  | nil => exact printed_of_spells ['[', ']'] (fun _ => rfl) fun r => .emptyList .none
  | cons v vs =>
    intro depth
    obtain ⟨cs, ws, hc, hspells, hws⟩ := exists_items (depth + 1) (hvs v List.mem_cons_self)
      fun u hu => hvs u (List.mem_cons_of_mem v hu)
    refine ⟨'[' :: (newLine (depth + 1) ++ (cs ++ (newLine depth ++ [']']))), list ws, ?_,
      fun r => ?_, fun h => ?_⟩
    · rw [render, lineBreak_eq, lineBreak_eq, List.append_assoc _ _ (renderItems ..), hc]
      simp [Text.ofChars, Text.ofString]
    · simp only [List.append_assoc, List.cons_append]
      exact .list (blanks_newLine _) (hspells _ _ (blanks_newLine depth))
    · rw [Throughout.list_iff, Throughout.list_iff] at h
      rw [hws (h.imp And.right And.right)]

theorem StandsFor.snd {k : Text} {w : Json} (h : StandsFor (Throughout IsExact) w v) :
    StandsFor (fun f : Text × Json => f.2.Throughout IsExact) (k, w) (k, v) :=
  fun hp => by rw [h hp]

/-- Fields are printed so that they are spelled up to a brace after blanks. -/
theorem exists_fields (hstyle : style.Faithful) (depth : Nat) {f : Text × Json}
    (hf : f.1.WellFormed ∧ Printed style f.2)
    (hfs : ∀ g ∈ fs, g.1.WellFormed ∧ Printed style g.2) : ∃ cs gs,
    renderText style f.1 ++ (": " : Text) ++ render style depth f.2 ++
        renderFields style depth fs = Text.ofChars cs ∧
      (∀ z r, Blanks z ('\x7d' :: r) → Spells (.fields gs) (cs ++ z) r) ∧
      StandsForAll (fun g => g.2.Throughout IsExact) gs (f :: fs) := by
  induction fs generalizing f with
  | nil =>
    obtain ⟨ks, hk, hquoted⟩ := exists_quoted hstyle hf.1
    obtain ⟨cs, w, hc, hspell, hw⟩ := hf.2 depth
    refine ⟨ks ++ ':' :: ' ' :: cs, [(f.1, w)], ?_, fun z r hz => ?_, hw.snd.cons fun _ => rfl⟩
    · rw [renderFields, hk, hc]
      simp [Text.ofChars, Text.ofString]
    · simp only [List.append_assoc, List.cons_append]
      exact .lastField (hquoted _) ⟨.none, .more (Or.inl rfl) .none⟩ (hspell z) hz
  | cons g fs ih =>
    obtain ⟨ks, hk, hquoted⟩ := exists_quoted hstyle hf.1
    obtain ⟨cs, w, hc, hspell, hw⟩ := hf.2 depth
    obtain ⟨ds, gs, hd, hspells, hgs⟩ := ih (hfs g List.mem_cons_self)
      fun u hu => hfs u (List.mem_cons_of_mem g hu)
    refine ⟨ks ++ ':' :: ' ' :: (cs ++ ',' :: (newLine depth ++ ds)), (f.1, w) :: gs, ?_,
      fun z r hz => ?_, hw.snd.cons hgs⟩
    · rw [renderFields, hk, hc, lineBreak_eq]
      simp only [List.append_assoc, List.cons_append] at hd ⊢
      rw [hd]
      simp [Text.ofChars, Text.ofString]
    · simp only [List.append_assoc, List.cons_append]
      exact .field (hquoted _) ⟨.none, .more (Or.inl rfl) .none⟩ (hspell _)
        ⟨.none, blanks_newLine depth⟩ (hspells z r hz)

theorem printed_object (hstyle : style.Faithful)
    (hfs : ∀ f ∈ fs, f.1.WellFormed ∧ Printed style f.2) : Printed style (object fs) := by
  cases fs with
  | nil => exact printed_of_spells ['\x7b', '\x7d'] (fun _ => rfl) fun r => .emptyObject .none
  | cons f fs =>
    intro depth
    obtain ⟨cs, gs, hc, hspells, hgs⟩ := exists_fields hstyle (depth + 1) (hfs f List.mem_cons_self)
      fun g hg => hfs g (List.mem_cons_of_mem f hg)
    refine ⟨'\x7b' :: (newLine (depth + 1) ++ (cs ++ (newLine depth ++ ['\x7d']))), object gs, ?_,
      fun r => ?_, fun h => ?_⟩
    · have hshape : render style depth (object (f :: fs)) =
          .char '\x7b' :: lineBreak (depth + 1) ++ (renderText style f.1 ++ (": " : Text) ++
            render style (depth + 1) f.2 ++ renderFields style (depth + 1) fs) ++
              (lineBreak depth ++ ("\x7d" : Text)) := by
        simp only [render, List.append_assoc, List.cons_append]
      rw [hshape, hc, lineBreak_eq, lineBreak_eq]
      simp [Text.ofChars, Text.ofString]
    · simp only [List.append_assoc, List.cons_append]
      exact .object (blanks_newLine _) (hspells _ _ (blanks_newLine depth))
    · rw [Throughout.object_iff, Throughout.object_iff] at h
      rw [hgs (h.imp And.right And.right)]

theorem printed_labelled (hstyle : style.Faithful) (h : v.labelled.Throughout IsWellFormed) :
    Printed style v.labelled := by
  induction v using Json.induct with
  | null => exact printed_of_spells _ (fun _ => rfl) fun r => .null
  | bool b =>
    cases b
    · exact printed_of_spells _ (fun _ => rfl) fun r => .false
    · exact printed_of_spells _ (fun _ => rfl) fun r => .true
  | int n => exact printed_int n
  | float x => exact printed_float x
  | text t => exact printed_text hstyle (Throughout.text_iff.mp h)
  | list vs ih =>
    rw [labelled_list] at h ⊢
    have hvs := (Throughout.list_iff.mp h).2
    rw [List.forall_mem_map] at hvs
    exact printed_list (List.forall_mem_map.mpr fun v hv => ih v hv (hvs v hv))
  | object fields ih =>
    rw [labelled_object] at h ⊢
    obtain ⟨hkeys, hfs⟩ := Throughout.object_iff.mp h
    rw [List.forall_mem_map] at hfs
    refine printed_object hstyle (List.forall_mem_map.mpr fun f hf => ⟨?_, ih f hf (hfs f hf)⟩)
    exact hkeys f.1 (List.mem_map.mpr ⟨_, List.mem_map_of_mem hf, rfl⟩)
  | table rows ih =>
    rw [labelled_table] at h ⊢
    obtain ⟨hkeys, hrs⟩ := Throughout.object_iff.mp h
    rw [List.forall_mem_map] at hrs
    refine printed_object hstyle (List.forall_mem_map.mpr fun r hr => ⟨?_, (ih r hr).2 (hrs r hr)⟩)
    exact hkeys (keyLabel r.1) (List.mem_map.mpr ⟨_, List.mem_map_of_mem hr, rfl⟩)

/-- What a style prints for a portable value denotes it. -/
theorem exists_denotes (hstyle : style.Faithful) (h : v.Portable) :
    ∃ cs, render style 0 v = Text.ofChars cs ∧ Denotes cs v := by
  have hself := labelled_of_exact h.exact
  obtain ⟨cs, w, hc, hspell, hw⟩ := printed_labelled hstyle (hself.symm ▸ h.wellFormed) 0
  obtain rfl := hw (.inl (hself.symm ▸ h.exact))
  rw [hself] at hc hspell
  have hdenotes : Denotes (cs ++ []) v := .mk .none (hspell []) .none
  exact ⟨cs, hc, by simpa using hdenotes⟩

theorem wellFormed_render_iff :
    (render plainStyle depth v).WellFormed ↔ v.labelled.Throughout IsWellFormed := by
  refine ⟨wellFormed_of_render, fun h => ?_⟩
  obtain ⟨cs, -, hc, -⟩ := printed_labelled faithful_plainStyle h depth
  rw [← render_labelled, hc]
  exact Text.wellFormed_ofChars

/-- The strict reader takes the printed form of a value if and only if the value is exact once its mappings
are labelled, and then gives that value. -/
theorem exists_read_iff (h : v.labelled.Throughout IsWellFormed) : ∃ cs,
    render plainStyle 0 v ++ ("\n" : Text) = Text.ofChars cs ∧
      ∀ w, read .strict cs = .ok w ↔ v.labelled.Throughout IsExact ∧ w = v.labelled := by
  obtain ⟨cs, w, hc, hspell, hw⟩ := printed_labelled faithful_plainStyle h 0
  have hdenotes : Denotes (cs ++ ['\n']) w := .mk .none (hspell ['\n']) (.more (by simp) .none)
  rw [render_labelled] at hc
  refine ⟨cs ++ ['\n'], by rw [hc, Text.ofChars_append]; rfl, fun u => ?_⟩
  rw [(hdenotes.decides takes_strict).eq_ok_iff]
  constructor
  · rintro ⟨hx, rfl⟩
    obtain rfl := hw (Or.inr hx)
    exact ⟨hx, rfl⟩
  · rintro ⟨hx, rfl⟩
    obtain rfl := hw (Or.inl hx)
    exact ⟨hx, rfl⟩

end LedgerGenesis.Json
