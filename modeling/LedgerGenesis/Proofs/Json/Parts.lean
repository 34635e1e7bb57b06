import LedgerGenesis.Json.Basic

/-! # Properties of all values inside a value

A property holds throughout a value when each of its parts has it. Induction over values goes through the
items of lists, the fields of objects and the rows of tables.
-/
namespace LedgerGenesis.Json

variable {p : Json → Prop} {v w : Json} {vs : List Json} {fields : List (Text × Json)}
  {rows : List (Json × Json)}

attribute [local simp] parts partsOfItems partsOfFields partsOfRows

theorem mem_partsOfItems : w ∈ partsOfItems vs ↔ ∃ v ∈ vs, w ∈ parts v := by
  induction vs with
  | nil => simp [partsOfItems]
  | cons v vs ih => simp [partsOfItems, ih]

theorem mem_partsOfFields : w ∈ partsOfFields fields ↔ ∃ f ∈ fields, w ∈ parts f.2 := by
  induction fields with
  | nil => simp [partsOfFields]
  | cons f fields ih => simp [partsOfFields, ih]

theorem mem_partsOfRows : w ∈ partsOfRows rows ↔ ∃ r ∈ rows, w ∈ parts r.1 ∨ w ∈ parts r.2 := by
  induction rows with
  | nil => simp [partsOfRows]
  | cons r rows ih => simp [partsOfRows, ih, or_assoc]

/-- A value and all the values inside it have a property. -/
def Throughout (p : Json → Prop) (v : Json) : Prop := ∀ w ∈ v.parts, p w

instance [DecidablePred p] : Decidable (v.Throughout p) :=
  inferInstanceAs (Decidable (∀ w ∈ v.parts, p w))

namespace Throughout

theorem self (h : Throughout p v) : p v := by
  refine h v ?_
  cases v <;> simp [parts]

@[simp] theorem null_iff : Throughout p null ↔ p null := by simp [Throughout, parts]

@[simp] theorem bool_iff {b : Bool} : Throughout p (bool b) ↔ p (bool b) := by
  simp [Throughout, parts]

@[simp] theorem int_iff {n : Int} : Throughout p (int n) ↔ p (int n) := by simp [Throughout, parts]

@[simp] theorem float_iff {x : Binary64} : Throughout p (float x) ↔ p (float x) := by
  simp [Throughout, parts]

@[simp] theorem text_iff {t : Text} : Throughout p (text t) ↔ p (text t) := by
  simp [Throughout, parts]

@[simp] theorem list_iff : Throughout p (list vs) ↔ p (list vs) ∧ ∀ v ∈ vs, Throughout p v := by
  simp only [Throughout, parts, List.forall_mem_cons, mem_partsOfItems]
  exact and_congr_right fun _ =>
    ⟨fun h v hv w hw => h w ⟨v, hv, hw⟩, fun h w ⟨v, hv, hw⟩ => h v hv w hw⟩

@[simp] theorem object_iff :
    Throughout p (object fields) ↔ p (object fields) ∧ ∀ f ∈ fields, Throughout p f.2 := by
  simp only [Throughout, parts, List.forall_mem_cons, mem_partsOfFields]
  exact and_congr_right fun _ =>
    ⟨fun h f hf w hw => h w ⟨f, hf, hw⟩, fun h w ⟨f, hf, hw⟩ => h f hf w hw⟩

@[simp] theorem table_iff : Throughout p (table rows) ↔
    p (table rows) ∧ ∀ r ∈ rows, Throughout p r.1 ∧ Throughout p r.2 := by
  simp only [Throughout, parts, List.forall_mem_cons, mem_partsOfRows]
  refine and_congr_right fun _ => ⟨fun h r hr => ⟨?_, ?_⟩, ?_⟩
  · exact fun w hw => h w ⟨r, hr, Or.inl hw⟩
  · exact fun w hw => h w ⟨r, hr, Or.inr hw⟩
  · rintro h w ⟨r, hr, hw | hw⟩
    · exact (h r hr).1 w hw
    · exact (h r hr).2 w hw

end Throughout

theorem sizeOf_pair {α β : Type} [SizeOf α] [SizeOf β] (r : α × β) :
    sizeOf r = 1 + sizeOf r.1 + sizeOf r.2 := by
  cases r
  rfl

/-- A property of values follows for each from its items, its fields or its rows. -/
@[elab_as_elim] theorem induct {motive : Json → Prop} (null : motive null)
    (bool : ∀ b, motive (bool b)) (int : ∀ n, motive (int n)) (float : ∀ x, motive (float x))
    (text : ∀ t, motive (text t)) (list : ∀ vs, (∀ v ∈ vs, motive v) → motive (list vs))
    (object : ∀ fields : List (Text × Json), (∀ f ∈ fields, motive f.2) → motive (object fields))
    (table : ∀ rows : List (Json × Json), (∀ r ∈ rows, motive r.1 ∧ motive r.2) →
      motive (table rows)) (v : Json) : motive v := by
  cases v with
  | null => exact null
  | bool b => exact bool b
  | int n => exact int n
  | float x => exact float x
  | text t => exact text t
  | list vs =>
    exact list vs fun v hv => induct null bool int float text list object table v
  | object fields =>
    exact object fields fun f hf => induct null bool int float text list object table f.2
  | table rows =>
    exact table rows fun r hr => ⟨induct null bool int float text list object table r.1,
      induct null bool int float text list object table r.2⟩
termination_by sizeOf v
decreasing_by
  · have hlt := List.sizeOf_lt_of_mem hv
    simp only [Json.list.sizeOf_spec]
    omega
  · have hlt := List.sizeOf_lt_of_mem hf
    rw [sizeOf_pair] at hlt
    simp only [Json.object.sizeOf_spec]
    omega
  all_goals
    have hlt := List.sizeOf_lt_of_mem hr
    rw [sizeOf_pair] at hlt
    simp only [Json.table.sizeOf_spec]
    omega

end LedgerGenesis.Json
