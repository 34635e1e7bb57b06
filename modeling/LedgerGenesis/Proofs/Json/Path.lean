import LedgerGenesis.Json.Basic

/-! # Values inside a document

A path names a value by the keys that lead to it. `at?` looks a path up and `put` sets the value there,
leaving everything off the path as it was.
-/
namespace LedgerGenesis

namespace Json

variable {fields rest : List (Text × Json)} {k : Text} {v : Json}

attribute [local simp] lookup setField

/-- The value at the end of a path. -/
def at? : Json → List Text → Option Json
  | v, [] => some v
  | object fields, k :: path => (lookup k fields).bind fun v => v.at? path
  | _, _ :: _ => none

/-- A document with another value at the end of a path. -/
def put : Json → List Text → Json → Json
  | _, [], w => w
  | object fields, k :: path, w =>
    object (setField k (((lookup k fields).getD null).put path w) fields)
  | v, _ :: _, _ => v

def item? (n : Nat) : Json → Option Json
  | list items => items[n]?
  | _ => none

/-- The items at one place of the rows of a list. -/
def column (n : Nat) : Json → List Json
  | list rows => rows.filterMap (item? n)
  | _ => []

def items : Json → List Json
  | list items => items
  | _ => []

/-- The items of the list at the end of a path. -/
def itemsAt (doc : Json) (path : List Text) : List Json := (doc.at? path).elim [] items

/-- The items at one place of the rows of the list at the end of a path. -/
def columnAt (doc : Json) (path : List Text) (n : Nat) : List Json :=
  (doc.at? path).elim [] (column n)

theorem column_list_map {α : Type} {row : α → List Json} {n : Nat} {cell : α → Json} {xs : List α}
    (h : ∀ x, (row x)[n]? = some (cell x)) :
    column n (list (xs.map fun x => list (row x))) = xs.map cell := by
  have hrow : (item? n ∘ fun x => list (row x)) = some ∘ cell := funext h
  rw [column, List.filterMap_map, hrow, List.filterMap_eq_map]

theorem columnAt_eq {doc : Json} {path : List Text} {n : Nat} (h : doc.at? path = some v) :
    doc.columnAt path n = column n v := by
  rw [columnAt, h]
  rfl

theorem itemsAt_eq {doc : Json} {path : List Text} {vs : List Json} (h : doc.at? path = some (list vs)) :
    doc.itemsAt path = vs := by
  rw [itemsAt, h]
  rfl

theorem mem_of_lookup (h : lookup k fields = some v) : (k, v) ∈ fields := by
  induction fields with
  | nil => cases h
  | cons f fields ih =>
    obtain ⟨l, w⟩ := f
    rw [lookup] at h
    split at h
    next heq =>
      cases h
      rw [heq]
      exact List.mem_cons_self
    next => exact List.mem_cons_of_mem _ (ih h)

theorem exists_lookup_iff : (∃ v, lookup k fields = some v) ↔ k ∈ keys fields := by
  constructor
  · rintro ⟨v, hv⟩
    exact List.mem_map_of_mem (mem_of_lookup hv)
  · intro hk
    induction fields with
    | nil => cases hk
    | cons f fields ih =>
      obtain ⟨l, w⟩ := f
      rw [lookup]
      split
      next => exact ⟨w, rfl⟩
      next hne => exact ih (List.mem_of_ne_of_mem (Ne.symm hne) hk)

theorem lookup_append_of_notMem (h : k ∉ keys fields) :
    lookup k (fields ++ rest) = lookup k rest := by
  induction fields with
  | nil => rfl
  | cons f fields ih =>
    simp only [keys, List.map_cons, List.mem_cons, not_or] at h
    rw [List.cons_append, lookup, if_neg (Ne.symm h.1)]
    exact ih h.2

theorem setField_append_of_notMem (h : k ∉ keys fields) :
    setField k v (fields ++ rest) = fields ++ setField k v rest := by
  induction fields with
  | nil => rfl
  | cons f fields ih =>
    simp only [keys, List.map_cons, List.mem_cons, not_or] at h
    rw [List.cons_append, setField, if_neg (Ne.symm h.1), List.cons_append, ← ih h.2]

theorem lookup_setField {l : Text} :
    lookup l (setField k v fields) = if k = l then some v else lookup l fields := by
  induction fields with
  | nil => rfl
  | cons f fields ih =>
    obtain ⟨j, w⟩ := f
    by_cases hj : j = k
    · subst hj
      by_cases hl : j = l <;> simp [setField, lookup, hl]
    · by_cases hl : k = l
      · subst hl
        simp [setField, lookup, hj, ih]
      · simp [setField, lookup, hj, ih, hl]

theorem mem_of_mem_setField {f : Text × Json} (h : f ∈ setField k v fields) : f = (k, v) ∨ f ∈ fields := by
  induction fields with
  | nil => exact .inl (List.mem_singleton.mp h)
  | cons g fields ih =>
    rw [setField] at h
    split at h
    next hk =>
      rcases List.mem_cons.mp h with rfl | h
      · exact .inl (by rw [hk])
      · exact .inr (List.mem_cons_of_mem g h)
    next =>
      rcases List.mem_cons.mp h with rfl | h
      · exact .inr List.mem_cons_self
      · exact (ih h).imp_right (List.mem_cons_of_mem g)

theorem nodup_keys_setField (h : (keys fields).Nodup) : (keys (setField k v fields)).Nodup := by
  induction fields with
  | nil => simp [setField, keys]
  | cons g fields ih =>
    obtain ⟨hg, hn⟩ := List.nodup_cons.mp h
    rw [setField]
    split
    next hk =>
      subst hk
      exact h
    next hk =>
      refine List.nodup_cons.mpr ⟨fun hmem => ?_, ih hn⟩
      obtain ⟨f, hf, hkey⟩ := List.mem_map.mp hmem
      rcases mem_of_mem_setField hf with rfl | hf
      · exact hk hkey.symm
      · exact hg (hkey ▸ List.mem_map_of_mem hf)

theorem lookup_map {g : Json → Json} :
    lookup k (fields.map fun f => (f.1, g f.2)) = (lookup k fields).map g := by
  induction fields with
  | nil => rfl
  | cons f fields ih =>
    rw [List.map_cons, lookup, lookup, ih]
    split <;> rfl

theorem lookup_filter {keep : Text → Bool} :
    lookup k (fields.filter fun f => keep f.1) = if keep k then lookup k fields else none := by
  induction fields with
  | nil => simp [lookup]
  | cons f fields ih =>
    obtain ⟨l, w⟩ := f
    by_cases hl : l = k
    · subst hl
      by_cases hk : keep l = true <;> simp [lookup, hk, ih]
    · by_cases hk : keep l = true <;> simp [lookup, hk, hl, ih]

end Json

end LedgerGenesis
