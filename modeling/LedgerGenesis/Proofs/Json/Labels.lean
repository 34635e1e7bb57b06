import LedgerGenesis.Proofs.Json.Portable

/-! # Mappings as a document shows them

A document shows every mapping as an object, its keys by their labels. Printing does not tell a value from
the one that is labelled so, and a value without mappings is labelled already.
-/
namespace LedgerGenesis.Json

variable {v w : Json} {vs : List Json} {fields : List (Text × Json)} {rows : List (Json × Json)}
  {style : Style} {depth : Nat}

mutual

/-- The value with an object of labels for every mapping in it. -/
def labelled : Json → Json
  | list vs => list (labelledItems vs)
  | object fields => object (labelledFields fields)
  | table rows => object (labelledRows rows)
  | null => null
  | bool b => bool b
  | int n => int n
  | float x => float x
  | text t => text t

def labelledItems : List Json → List Json
  | [] => []
  | v :: vs => labelled v :: labelledItems vs

def labelledFields : List (Text × Json) → List (Text × Json)
  | [] => []
  | (k, v) :: fields => (k, labelled v) :: labelledFields fields

def labelledRows : List (Json × Json) → List (Text × Json)
  | [] => []
  | (k, v) :: rows => (keyLabel k, labelled v) :: labelledRows rows

end

attribute [local simp] labelled labelledItems labelledFields labelledRows

theorem labelledItems_eq : labelledItems vs = vs.map labelled := by
  induction vs with
  | nil => rfl
  | cons v vs ih => rw [labelledItems, ih, List.map_cons]

theorem labelledFields_eq : labelledFields fields = fields.map fun f => (f.1, f.2.labelled) := by
  induction fields with
  | nil => rfl
  | cons f fields ih => rw [labelledFields, ih, List.map_cons]

theorem labelledRows_eq : labelledRows rows = rows.map fun r => (keyLabel r.1, r.2.labelled) := by
  induction rows with
  | nil => rfl
  | cons r rows ih => rw [labelledRows, ih, List.map_cons]

theorem labelled_list : (list vs).labelled = list (vs.map labelled) := by
  rw [labelled, labelledItems_eq]

theorem labelled_object :
    (object fields).labelled = object (fields.map fun f => (f.1, f.2.labelled)) := by
  rw [labelled, labelledFields_eq]

theorem labelled_table :
    (table rows).labelled = object (rows.map fun r => (keyLabel r.1, r.2.labelled)) := by
  rw [labelled, labelledRows_eq]

theorem labelled_of_strict (h : v.Throughout IsStrict) : v.labelled = v := by
  induction v using Json.induct with
  | null | bool | int | float | text => rfl
  | list vs ih =>
    have hx := (Throughout.list_iff.mp h).2
    rw [labelled_list, List.map_congr_left fun v hv => ih v hv (hx v hv), List.map_id']
  | object fields ih =>
    have hx := (Throughout.object_iff.mp h).2
    rw [labelled_object, List.map_congr_left fun f hf => congrArg (Prod.mk f.1) (ih f hf (hx f hf)),
      List.map_id']
  | table rows => exact absurd (Throughout.table_iff.mp h).1 id

theorem labelled_of_exact (h : v.Throughout IsExact) : v.labelled = v :=
  labelled_of_strict (exact_iff.mp h).1

/-! ## Printing -/

theorem renderItems_labelled
    (h : ∀ v ∈ vs, ∀ depth, render style depth v.labelled = render style depth v) :
    renderItems style depth (vs.map labelled) = renderItems style depth vs := by
  induction vs with
  | nil => rfl
  | cons v vs ih =>
    obtain ⟨hv, hvs⟩ := List.forall_mem_cons.mp h
    rw [List.map_cons, renderItems, renderItems, hv, ih hvs]

theorem renderFields_labelled
    (h : ∀ f ∈ fields, ∀ depth, render style depth f.2.labelled = render style depth f.2) :
    renderFields style depth (fields.map fun f => (f.1, f.2.labelled)) =
      renderFields style depth fields := by
  induction fields with
  | nil => rfl
  | cons f fields ih =>
    obtain ⟨hf, hfs⟩ := List.forall_mem_cons.mp h
    rw [List.map_cons, renderFields, renderFields, hf, ih hfs]

theorem renderRows_labelled
    (h : ∀ r ∈ rows, ∀ depth, render style depth r.2.labelled = render style depth r.2) :
    renderFields style depth (rows.map fun r => (keyLabel r.1, r.2.labelled)) =
      renderRows style depth rows := by
  induction rows with
  | nil => rfl
  | cons r rows ih =>
    obtain ⟨hr, hrs⟩ := List.forall_mem_cons.mp h
    rw [List.map_cons, renderFields, renderRows, hr, ih hrs]

theorem render_labelled : render style depth v.labelled = render style depth v := by
  induction v using Json.induct generalizing depth with
  | null | bool | int | float | text => rfl
  | list vs ih =>
    have ih : ∀ v ∈ vs, ∀ depth, render style depth v.labelled = render style depth v :=
      fun v hv _ => ih v hv
    rw [labelled_list]
    cases vs with
    | nil => rfl
    | cons v vs =>
      obtain ⟨hv, hvs⟩ := List.forall_mem_cons.mp ih
      rw [List.map_cons, render, render, hv, renderItems_labelled hvs]
  | object fields ih =>
    have ih : ∀ f ∈ fields, ∀ depth, render style depth f.2.labelled = render style depth f.2 :=
      fun f hf _ => ih f hf
    rw [labelled_object]
    cases fields with
    | nil => rfl
    | cons f fields =>
      obtain ⟨hf, hfs⟩ := List.forall_mem_cons.mp ih
      rw [List.map_cons, render, render, hf, renderFields_labelled hfs]
  | table rows ih =>
    have ih : ∀ r ∈ rows, ∀ depth, render style depth r.2.labelled = render style depth r.2 :=
      fun r hr _ => (ih r hr).2
    rw [labelled_table]
    cases rows with
    | nil => rfl
    | cons r rows =>
      obtain ⟨hr, hrs⟩ := List.forall_mem_cons.mp ih
      rw [List.map_cons, render, render, hr, renderRows_labelled hrs]

/-! ## Texts that are printed without stray halves -/

theorem wellFormed_object_of_render
    (ih : ∀ f ∈ fields, ∀ depth, (render plainStyle depth f.2).WellFormed →
      f.2.Throughout IsWellFormed)
    (h : (render plainStyle depth (object fields)).WellFormed) :
    (object fields).Throughout IsWellFormed := by
  have hall : ∀ f ∈ fields, f.1.WellFormed ∧ (render plainStyle (depth + 1) f.2).WellFormed := by
    cases fields with
    | nil => simp
    | cons f fields =>
      simp only [render, Text.wellFormed_append] at h
      exact List.forall_mem_cons.mpr ⟨⟨wellFormed_of_renderText h.1.1.1.1.1.2, h.1.1.1.2⟩,
        wellFormed_of_renderFields h.1.1.2⟩
  refine Throughout.object_iff.mpr ⟨fun k hk => ?_, fun f hf => ih f hf _ (hall f hf).2⟩
  obtain ⟨f, hf, rfl⟩ := List.mem_map.mp hk
  exact (hall f hf).1

theorem wellFormed_of_render (h : (render plainStyle depth v).WellFormed) :
    v.labelled.Throughout IsWellFormed := by
  induction v using Json.induct generalizing depth with
  | null | bool | int | float => simp [labelled, IsWellFormed]
  | text t => simpa [labelled, IsWellFormed] using wellFormed_of_renderText h
  | list vs ih =>
    rw [labelled_list, Throughout.list_iff, List.forall_mem_map]
    refine ⟨trivial, ?_⟩
    cases vs with
    | nil => simp
    | cons v vs =>
      simp only [render, Text.wellFormed_append] at h
      intro w hw
      have hform : (render plainStyle (depth + 1) w).WellFormed := by
        rcases List.mem_cons.mp hw with rfl | hw
        · exact h.1.1.1.2
        · exact wellFormed_of_renderItems h.1.1.2 w hw
      exact ih w hw hform
  | object fields ih =>
    rw [← render_labelled, labelled_object] at h
    rw [labelled_object]
    refine wellFormed_object_of_render (List.forall_mem_map.mpr fun f hf depth hform => ?_) h
    exact ih f hf (render_labelled ▸ hform)
  | table rows ih =>
    rw [← render_labelled, labelled_table] at h
    rw [labelled_table]
    refine wellFormed_object_of_render (List.forall_mem_map.mpr fun r hr depth hform => ?_) h
    exact (ih r hr).2 (render_labelled ▸ hform)

end LedgerGenesis.Json
