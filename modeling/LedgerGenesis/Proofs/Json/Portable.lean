import LedgerGenesis.Json.Printer
import LedgerGenesis.Proofs.Json.Showable
import LedgerGenesis.Proofs.Text.Utf8

/-! # Values that a document can carry

A strict value has no doubles, no mapping of it is a table, and no object repeats a key. An exact one has
also only integers with a numeral, and all texts of a portable one are well formed besides. A value that is
printed without stray halves of pairs has well-formed texts.
-/
namespace LedgerGenesis.Json

variable {v : Json} {t : Text} {vs : List Json} {fields : List (Text × Json)} {depth : Nat}

attribute [local simp] render renderItems renderFields

/-- No double, no mapping with other keys than texts, and no repeated key. -/
def IsStrict : Json → Prop
  | float _ => False
  | table _ => False
  | object fields => (keys fields).Nodup
  | _ => True

/-- No double, no integer beyond the length of numerals, and no repeated key. -/
def IsExact : Json → Prop
  | float _ => False
  | table _ => False
  | int n => (Nat.toDigits 10 n.natAbs).length ≤ Numeral.maxDigits
  | object fields => (keys fields).Nodup
  | _ => True

def IsWellFormed : Json → Prop
  | text t => t.WellFormed
  | object fields => ∀ k ∈ keys fields, k.WellFormed
  | _ => True

structure Portable (v : Json) : Prop where
  exact : v.Throughout IsExact
  wellFormed : v.Throughout IsWellFormed

instance : DecidablePred IsExact
  | float _ | table _ => .isFalse id
  | int n => inferInstanceAs (Decidable ((Nat.toDigits 10 n.natAbs).length ≤ Numeral.maxDigits))
  | object fields => inferInstanceAs (Decidable (keys fields).Nodup)
  | null | bool _ | text _ | list _ => .isTrue trivial

instance : DecidablePred IsWellFormed
  | text t => inferInstanceAs (Decidable t.WellFormed)
  | object fields => inferInstanceAs (Decidable (∀ k ∈ keys fields, k.WellFormed))
  | null | bool _ | int _ | float _ | list _ | table _ => .isTrue trivial

instance : Decidable v.Portable :=
  decidable_of_iff (v.Throughout IsExact ∧ v.Throughout IsWellFormed)
    ⟨fun h => ⟨h.1, h.2⟩, fun h => ⟨h.exact, h.wellFormed⟩⟩

theorem Portable.mem_object {f : Text × Json} (h : Portable (object fields)) (hf : f ∈ fields) :
    f.1.WellFormed ∧ f.2.Portable :=
  ⟨(Throughout.object_iff.mp h.wellFormed).1 f.1 (List.mem_map_of_mem hf),
    (Throughout.object_iff.mp h.exact).2 f hf, (Throughout.object_iff.mp h.wellFormed).2 f hf⟩

theorem portable_object_iff : Portable (object fields) ↔
    (keys fields).Nodup ∧ ∀ f ∈ fields, f.1.WellFormed ∧ f.2.Portable := by
  constructor
  · exact fun h => ⟨(Throughout.object_iff.mp h.exact).1, fun f hf => h.mem_object hf⟩
  · rintro ⟨hn, h⟩
    refine ⟨Throughout.object_iff.mpr ⟨hn, fun f hf => (h f hf).2.exact⟩,
      Throughout.object_iff.mpr ⟨fun k hk => ?_, fun f hf => (h f hf).2.wellFormed⟩⟩
    obtain ⟨f, hf, rfl⟩ := List.mem_map.mp hk
    exact (h f hf).1

theorem portable_object_map {α : Type} {xs : List α} {key : α → Text} {value : α → Json}
    (hn : (xs.map key).Nodup) (h : ∀ x ∈ xs, (key x).WellFormed ∧ (value x).Portable) :
    Portable (object (xs.map fun x => (key x, value x))) := by
  refine portable_object_iff.mpr ⟨?_, List.forall_mem_map.mpr h⟩
  rw [keys, List.map_map]
  exact hn

@[simp] theorem portable_text_iff : Portable (text t) ↔ t.WellFormed := by
  constructor
  · exact fun h => Throughout.text_iff.mp h.wellFormed
  · exact fun h => ⟨Throughout.text_iff.mpr trivial, Throughout.text_iff.mpr h⟩

theorem isExact_iff : IsExact v ↔ IsStrict v ∧ v.hasNumeral = true := by
  cases v <;> simp [IsExact, IsStrict, hasNumeral]

/-- The exact values are the strict ones whose integers have numerals. -/
theorem exact_iff : v.Throughout IsExact ↔ v.Throughout IsStrict ∧ v.isShowable = true := by
  simp only [isShowable_iff, Throughout, isExact_iff, forall₂_and]

theorem isShowable_of_exact (h : v.Throughout IsExact) : v.isShowable = true := (exact_iff.mp h).2

theorem portable_iff : v.Portable ↔
    v.Throughout IsStrict ∧ v.isShowable = true ∧ v.Throughout IsWellFormed := by
  rw [← and_assoc, ← exact_iff]
  exact ⟨fun h => ⟨h.exact, h.wellFormed⟩, fun h => ⟨h.1, h.2⟩⟩

/-! ## Texts that are printed without stray halves -/

theorem wellFormed_of_plainStyle {p : CodePoint} (h : Text.WellFormed (plainStyle p)) :
    p.char?.isSome := by
  cases p with
  | char c => rfl
  | surrogate u =>
    have hs : plainStyle (.surrogate u) = [.surrogate u] := by
      have hn : ¬ 0xD800 + u.val < 0x20 := by omega
      simp [plainStyle, shortEscape?, CodePoint.number, hn]
    exact absurd (hs ▸ h) Text.not_wellFormed_surrogate_cons

theorem wellFormed_of_renderText (h : (renderText plainStyle t).WellFormed) : t.WellFormed := by
  simp only [renderText, Text.wellFormed_append, Text.wellFormed_char_cons] at h
  intro p hp
  exact wellFormed_of_plainStyle fun q hq => h.1 q (List.mem_flatMap.mpr ⟨p, hp, hq⟩)

theorem wellFormed_of_renderItems (h : (renderItems plainStyle depth vs).WellFormed) :
    ∀ v ∈ vs, (render plainStyle depth v).WellFormed := by
  induction vs with
  | nil => simp
  | cons v vs ih =>
    simp only [renderItems, Text.wellFormed_append] at h
    exact List.forall_mem_cons.mpr ⟨h.1.2, ih h.2⟩

theorem wellFormed_of_renderFields (h : (renderFields plainStyle depth fields).WellFormed) :
    ∀ f ∈ fields, f.1.WellFormed ∧ (render plainStyle depth f.2).WellFormed := by
  induction fields with
  | nil => simp
  | cons f fields ih =>
    simp only [renderFields, Text.wellFormed_append] at h
    exact List.forall_mem_cons.mpr ⟨⟨wellFormed_of_renderText h.1.1.1.2, h.1.2⟩, ih h.2⟩

end LedgerGenesis.Json
