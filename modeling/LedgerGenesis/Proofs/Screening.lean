import Mathlib.Data.List.Nodup

/-! # Screening a list item by item

Several checks walk a list and refuse the first item that has a defect of its own or the key of an item
before it. A screening states such a check without its walk. It passes exactly the lists without defects
whose keys are distinct, and otherwise reports the fault of the first item that cannot follow the items
before it.
-/
namespace LedgerGenesis

structure Screening (α κ ε : Type) where
  /-- What is wrong with an item by itself, given its position. -/
  defect : α → Option (Nat → ε)
  key : α → κ
  /-- The fault of an item whose key an earlier one has. -/
  repeated : α → ε

namespace Screening

variable {α κ ε : Type} [DecidableEq κ] (c : Screening α κ ε) {earlier xs : List α} {x : α} {e : ε}

/-- The fault of an item that follows the given ones. A defect goes before a repeated key. -/
def faultAfter (earlier : List α) (x : α) : Option ε :=
  match c.defect x with
  | some fault => some (fault earlier.length)
  | none => if (earlier.map c.key).contains (c.key x) then some (c.repeated x) else none

/-- The fault of the first of the items that cannot follow those before it. -/
def firstFault : List α → List α → Option ε
  | _, [] => none
  | earlier, x :: xs =>
    match c.faultAfter earlier x with
    | some e => some e
    | none => firstFault (earlier ++ [x]) xs

/-- No item has a defect, and no two have one key. -/
structure Clean (xs : List α) : Prop where
  defect_eq_none : ∀ x ∈ xs, c.defect x = none
  keys_nodup : (xs.map c.key).Nodup

omit [DecidableEq κ] in
theorem clean_nil : c.Clean [] := ⟨by simp, by simp⟩

theorem faultAfter_eq_none_iff :
    c.faultAfter earlier x = none ↔ c.defect x = none ∧ c.key x ∉ earlier.map c.key := by
  unfold faultAfter
  cases h : c.defect x <;> simp

theorem faultAfter_eq_some_iff : c.faultAfter earlier x = some e ↔
    (∃ fault, c.defect x = some fault ∧ fault earlier.length = e) ∨
      c.defect x = none ∧ c.key x ∈ earlier.map c.key ∧ c.repeated x = e := by
  unfold faultAfter
  cases h : c.defect x <;> simp

theorem clean_append_singleton_iff :
    c.Clean (earlier ++ [x]) ↔ c.Clean earlier ∧ c.faultAfter earlier x = none := by
  rw [faultAfter_eq_none_iff]
  constructor
  · rintro ⟨hd, hk⟩
    rw [List.map_append, List.map_singleton, List.nodup_append] at hk
    refine ⟨⟨fun y hy => hd y (by simp [hy]), hk.1⟩, hd x (by simp), fun hx => ?_⟩
    exact hk.2.2 _ hx _ (by simp) rfl
  · rintro ⟨⟨hd, hk⟩, hx, hne⟩
    constructor
    · intro y hy
      rcases List.mem_append.mp hy with hy | hy
      · exact hd y hy
      · exact List.mem_singleton.mp hy ▸ hx
    · rw [List.map_append, List.map_singleton]
      refine hk.append (List.nodup_singleton _) ?_
      simpa [List.disjoint_singleton] using hne

omit [DecidableEq κ] in
theorem Clean.of_append {ys : List α} (h : c.Clean (xs ++ ys)) : c.Clean xs :=
  ⟨fun x hx => h.1 x (List.mem_append_left _ hx), (List.map_append ▸ h.2).of_append_left⟩

omit [DecidableEq κ] in
/-- Whether a list is clean does not depend on its order. -/
theorem Clean.perm {ys : List α} (h : c.Clean xs) (hp : ys.Perm xs) : c.Clean ys :=
  ⟨fun y hy => h.1 y (hp.mem_iff.mp hy), (hp.map c.key).nodup_iff.mpr h.2⟩

/-- Items that follow a clean list have no fault exactly when the whole is clean. -/
theorem firstFault_eq_none_iff (h : c.Clean earlier) :
    c.firstFault earlier xs = none ↔ c.Clean (earlier ++ xs) := by
  induction xs generalizing earlier with
  | nil => simpa [firstFault] using h
  | cons x xs ih =>
    rw [List.append_cons, firstFault]
    cases hx : c.faultAfter earlier x with
    | none => exact ih (c.clean_append_singleton_iff.mpr ⟨h, hx⟩)
    | some e =>
      constructor
      · intro he
        cases he
      · intro hc
        have hn := (c.clean_append_singleton_iff.mp hc.of_append).2
        rw [hx] at hn
        cases hn

/-- The fault reported is that of the first item that cannot follow the clean items before it. -/
theorem firstFault_eq_some_iff (h : c.Clean earlier) : c.firstFault earlier xs = some e ↔
    ∃ before x after, xs = before ++ x :: after ∧ c.Clean (earlier ++ before) ∧
      c.faultAfter (earlier ++ before) x = some e := by
  induction xs generalizing earlier with
  | nil => simp [firstFault]
  | cons x xs ih =>
    rw [firstFault]
    cases hx : c.faultAfter earlier x with
    | some d =>
      constructor
      · intro he
        exact ⟨[], x, xs, rfl, by simpa using h, by simpa [hx] using he⟩
      · rintro ⟨before, y, after, hxs, hc, hy⟩
        cases before with
        | nil =>
          obtain ⟨rfl, -⟩ := List.cons.inj hxs
          rwa [List.append_nil, hx] at hy
        | cons z before =>
          obtain ⟨rfl, -⟩ := List.cons.inj hxs
          rw [List.append_cons] at hc
          have hn := (c.clean_append_singleton_iff.mp hc.of_append).2
          rw [hx] at hn
          cases hn
    | none =>
      have hc' := c.clean_append_singleton_iff.mpr ⟨h, hx⟩
      rw [ih hc']
      constructor
      · rintro ⟨before, y, after, rfl, hc, hy⟩
        exact ⟨x :: before, y, after, rfl, by rwa [List.append_cons], by rwa [List.append_cons]⟩
      · rintro ⟨before, y, after, hxs, hc, hy⟩
        cases before with
        | nil =>
          obtain ⟨rfl, -⟩ := List.cons.inj hxs
          rw [List.append_nil, hx] at hy
          cases hy
        | cons z before =>
          obtain ⟨rfl, rfl⟩ := List.cons.inj hxs
          rw [List.append_cons] at hc hy
          exact ⟨before, y, after, rfl, hc, hy⟩

section Classes

variable {β : Type} {f : ε → β} {k defective duplicate : β} {bad : α → Prop}

/-- Where all defects are of one class and all repetitions of another, the class of an item's fault tells
which of the two it has. -/
theorem exists_faultAfter_iff (hbad : ∀ x, c.defect x = none ↔ ¬ bad x)
    (hdefect : ∀ x fault n, c.defect x = some fault → f (fault n) = defective)
    (hrepeated : ∀ x, f (c.repeated x) = duplicate) :
    (∃ d, c.faultAfter earlier x = some d ∧ f d = k) ↔
      bad x ∧ k = defective ∨ ¬ bad x ∧ (∃ y ∈ earlier, c.key y = c.key x) ∧ k = duplicate := by
  simp only [faultAfter_eq_some_iff, hbad, List.mem_map]
  constructor
  · rintro ⟨d, ⟨fault, hx, rfl⟩ | ⟨hn, hy, rfl⟩, rfl⟩
    · have hb : bad x := by
        by_contra hn
        rw [(hbad x).mpr hn] at hx
        cases hx
      exact Or.inl ⟨hb, hdefect x fault _ hx⟩
    · exact Or.inr ⟨hn, hy, hrepeated x⟩
  · rintro (⟨hb, rfl⟩ | ⟨hn, hy, rfl⟩)
    · cases hx : c.defect x with
      | none => exact absurd hb ((hbad x).mp hx)
      | some fault => exact ⟨_, Or.inl ⟨fault, rfl, rfl⟩, hdefect x fault _ hx⟩
    · exact ⟨_, Or.inr ⟨hn, hy, rfl⟩, hrepeated x⟩

/-- The class of the fault of a list is that of the one item that cannot follow the clean items before
it. -/
theorem eq_class_iff (hbad : ∀ x, c.defect x = none ↔ ¬ bad x)
    (hdefect : ∀ x fault n, c.defect x = some fault → f (fault n) = defective)
    (hrepeated : ∀ x, f (c.repeated x) = duplicate) (h : c.firstFault [] xs = some e) :
    (∃ before x after, xs = before ++ x :: after ∧ c.Clean before ∧
      (bad x ∧ k = defective ∨ ¬ bad x ∧ (∃ y ∈ before, c.key y = c.key x) ∧ k = duplicate)) ↔
        k = f e := by
  simp only [← c.exists_faultAfter_iff hbad hdefect hrepeated]
  constructor
  · rintro ⟨before, x, after, hxs, hc, d, hd, rfl⟩
    have hf := (c.firstFault_eq_some_iff c.clean_nil).mpr ⟨before, x, after, hxs, hc, hd⟩
    rw [Option.some.inj (h.symm.trans hf)]
  · rintro rfl
    obtain ⟨before, x, after, hxs, hc, hd⟩ := (c.firstFault_eq_some_iff c.clean_nil).mp h
    exact ⟨before, x, after, hxs, hc, e, hd, rfl⟩

end Classes

end Screening

end LedgerGenesis
