import LedgerGenesis.Proofs.Json.Path
import LedgerGenesis.Proofs.Json.Reading

/-! # Repeated keys in the lenient dialect

The lenient reader reads a text as it is spelled and then leaves one field for each key: the last value, at the
place of the first. Whatever is looked up in what it gives is the last of its name in the text.
-/
namespace LedgerGenesis.Json

variable {v w : Json} {vs : List Json} {fields : List (Text × Json)} {k : Text} {s : List Char}

/-- The dialect that takes doubles and objects as they are spelled. -/
def Dialect.verbatim : Dialect where
  inexact l := .ok (.float l.toBinary64)
  constant _ x := .ok (.float x)
  object fields := .ok (.object fields)

/-- A value that some text denotes: no mapping but objects, and an integer that has a numeral. -/
def IsReadable : Json → Prop
  | table _ => False
  | int n => IsExact (int n)
  | _ => True

/-- A value other than a double. -/
def IsNoDouble : Json → Prop
  | float _ => False
  | _ => True

instance : DecidablePred IsNoDouble
  | float _ => .isFalse id
  | null | bool _ | int _ | text _ | list _ | object _ | table _ => .isTrue trivial

theorem takes_verbatim : Dialect.verbatim.Takes IsReadable where
  null := trivial
  bool _ := trivial
  text _ := trivial
  list _ := trivial
  int _ := Iff.rfl
  inexact _ := decides_ok trivial rfl
  constant _ _ _ := decides_ok trivial rfl
  object _ := decides_ok trivial rfl

mutual

/-- The value in which every object has one field for each key. -/
def merged : Json → Json
  | list vs => list (mergedItems vs)
  | object fields => object (mergeFields (mergedFields fields))
  | table rows => table rows
  | null => null
  | bool b => bool b
  | int n => int n
  | float x => float x
  | text t => text t

def mergedItems : List Json → List Json
  | [] => []
  | v :: vs => merged v :: mergedItems vs

def mergedFields : List (Text × Json) → List (Text × Json)
  | [] => []
  | (k, v) :: fields => (k, merged v) :: mergedFields fields

end

attribute [local simp] merged mergedItems mergedFields

theorem mergedItems_eq : mergedItems vs = vs.map merged := by
  induction vs with
  | nil => rfl
  | cons v vs ih => rw [mergedItems, ih, List.map_cons]

theorem mergedFields_eq : mergedFields fields = fields.map fun f => (f.1, f.2.merged) := by
  induction fields with
  | nil => rfl
  | cons f fields ih => rw [mergedFields, ih, List.map_cons]

theorem merged_list : (list vs).merged = list (vs.map merged) := by
  rw [merged, mergedItems_eq]

theorem merged_object :
    (object fields).merged = object (mergeFields (fields.map fun f => (f.1, f.2.merged))) := by
  rw [merged, mergedFields_eq]

/-! ## One field for each key -/

theorem mergeFields_concat {f : Text × Json} :
    mergeFields (fields ++ [f]) = setField f.1 f.2 (mergeFields fields) := by
  simp [mergeFields]

theorem mem_of_mem_mergeFields {f : Text × Json} (h : f ∈ mergeFields fields) : f ∈ fields := by
  induction fields using List.reverseRecOn with
  | nil => exact h
  | append_singleton fields g ih =>
    rw [mergeFields_concat] at h
    rcases mem_of_mem_setField h with rfl | h
    · exact List.mem_append_right _ List.mem_cons_self
    · exact List.mem_append_left _ (ih h)

theorem nodup_keys_mergeFields : (keys (mergeFields fields)).Nodup := by
  induction fields using List.reverseRecOn with
  | nil => exact List.nodup_nil
  | append_singleton fields g ih =>
    rw [mergeFields_concat]
    exact nodup_keys_setField ih

theorem mergeFields_of_nodup (h : (keys fields).Nodup) : mergeFields fields = fields := by
  induction fields using List.reverseRecOn with
  | nil => rfl
  | append_singleton fields g ih =>
    have hkeys : keys (fields ++ [g]) = keys fields ++ [g.1] := List.map_append
    rw [hkeys, List.nodup_append] at h
    have hg : g.1 ∉ keys fields := fun hmem => h.2.2 _ hmem _ List.mem_cons_self rfl
    have hset : setField g.1 g.2 (fields ++ []) = fields ++ setField g.1 g.2 [] :=
      setField_append_of_notMem hg
    rw [List.append_nil] at hset
    rw [mergeFields_concat, ih h.1, hset]
    rfl

/-- The value of a key is the last one that is given for it. -/
theorem lookup_mergeFields : lookup k (mergeFields fields) = lookup k fields.reverse := by
  induction fields using List.reverseRecOn with
  | nil => rfl
  | append_singleton fields g ih =>
    rw [mergeFields_concat, lookup_setField, ih, List.reverse_append]
    rfl

/-! ## Merged values -/

theorem exact_merged (hr : v.Throughout IsReadable) (hd : v.Throughout IsNoDouble) :
    v.merged.Throughout IsExact := by
  induction v using Json.induct with
  | null | bool | text => simp [merged, IsExact]
  | int n =>
    have hn : IsReadable (int n) := Throughout.int_iff.mp hr
    exact Throughout.int_iff.mpr hn
  | float x => exact absurd (Throughout.float_iff.mp hd) id
  | table rows => exact absurd (Throughout.table_iff.mp hr).1 id
  | list vs ih =>
    rw [merged_list, Throughout.list_iff, List.forall_mem_map]
    exact ⟨trivial, fun v hv => ih v hv ((Throughout.list_iff.mp hr).2 v hv)
      ((Throughout.list_iff.mp hd).2 v hv)⟩
  | object fields ih =>
    rw [merged_object, Throughout.object_iff]
    refine ⟨nodup_keys_mergeFields, fun f hf => ?_⟩
    obtain ⟨g, hg, rfl⟩ := List.mem_map.mp (mem_of_mem_mergeFields hf)
    exact ih g hg ((Throughout.object_iff.mp hr).2 g hg) ((Throughout.object_iff.mp hd).2 g hg)

theorem wellFormed_merged (h : v.Throughout IsWellFormed) : v.merged.Throughout IsWellFormed := by
  induction v using Json.induct with
  | null | bool | int | float => simp [merged, IsWellFormed]
  | text t => exact h
  | table rows => exact h
  | list vs ih =>
    rw [merged_list, Throughout.list_iff, List.forall_mem_map]
    exact ⟨trivial, fun v hv => ih v hv ((Throughout.list_iff.mp h).2 v hv)⟩
  | object fields ih =>
    obtain ⟨hkeys, hfields⟩ := Throughout.object_iff.mp h
    have hmem : ∀ f ∈ mergeFields (fields.map fun f => (f.1, f.2.merged)),
        ∃ g ∈ fields, (g.1, g.2.merged) = f := fun f hf => List.mem_map.mp (mem_of_mem_mergeFields hf)
    rw [merged_object, Throughout.object_iff]
    refine ⟨fun k hk => ?_, fun f hf => ?_⟩
    · obtain ⟨f, hf, rfl⟩ := List.mem_map.mp hk
      obtain ⟨g, hg, rfl⟩ := hmem f hf
      exact hkeys g.1 (List.mem_map_of_mem hg)
    · obtain ⟨g, hg, rfl⟩ := hmem f hf
      exact ih g hg (hfields g hg)

theorem merged_of_exact (h : v.Throughout IsExact) : v.merged = v := by
  induction v using Json.induct with
  | null | bool | int | float | text | table => rfl
  | list vs ih =>
    have hvs := (Throughout.list_iff.mp h).2
    rw [merged_list, List.map_congr_left fun v hv => ih v hv (hvs v hv), List.map_id']
  | object fields ih =>
    obtain ⟨hn, hfields⟩ := Throughout.object_iff.mp h
    rw [merged_object,
      List.map_congr_left fun f hf => congrArg (Prod.mk f.1) (ih f hf (hfields f hf)), List.map_id',
      mergeFields_of_nodup hn]

/-- The value at the end of a path, where of the fields with one key the last counts. -/
def last? : Json → List Text → Option Json
  | v, [] => some v
  | object fields, k :: path => (lookup k fields.reverse).bind fun v => v.last? path
  | _, _ :: _ => none

theorem at?_merged {path : List Text} : v.merged.at? path = (v.last? path).map merged := by
  induction path generalizing v with
  | nil => cases v <;> rfl
  | cons k path ih =>
    cases v with
    | object fields =>
      rw [merged_object, at?, last?, lookup_mergeFields, ← List.map_reverse, lookup_map]
      cases lookup k fields.reverse with
      | none => rfl
      | some w => exact ih
    | _ => rfl

/-! ## Reading -/

/-- With so much fuel the lenient reader gives what the verbatim one does, merged. -/
structure ReadsMerged (fuel : Nat) : Prop where
  value : ∀ s, readValue .lenient fuel s =
    (readValue .verbatim fuel s).map fun x => (x.1.merged, x.2)
  items : ∀ s, readItems .lenient fuel s =
    (readItems .verbatim fuel s).map fun x => (x.1.map merged, x.2)
  fields : ∀ s, readFields .lenient fuel s =
    (readFields .verbatim fuel s).map fun x => (x.1.map fun f => (f.1, f.2.merged), x.2)

variable {fuel : Nat}

theorem int_of_toInt {l : Literal} (h : l.toInt = .ok v) : ∃ n, v = int n := by
  simp only [Literal.toInt] at h
  split at h
  · cases h
  · cases h
    exact ⟨_, rfl⟩

theorem readScalar_lenient (s : List Char) :
    readScalar .lenient s = (readScalar .verbatim s).map fun x => (x.1.merged, x.2) := by
  unfold readScalar
  split
  next w v r hw =>
    obtain ⟨hmem, -⟩ := mem_of_firstWord hw
    simp only [names, List.mem_cons, Prod.mk.injEq, List.not_mem_nil, or_false] at hmem
    rcases hmem with ⟨-, rfl⟩ | ⟨-, rfl⟩ | ⟨-, rfl⟩ <;> rfl
  next =>
    split
    next => rfl
    next =>
      split
      next l r _ =>
        split
        next => rfl
        next =>
          cases hl : l.toInt with
          | error e => rfl
          | ok v =>
            obtain ⟨n, rfl⟩ := int_of_toInt hl
            rfl
      next => rfl

theorem ReadsMerged.value_succ (ih : ReadsMerged fuel) (s : List Char) :
    readValue .lenient (fuel + 1) s = (readValue .verbatim (fuel + 1) s).map fun x => (x.1.merged, x.2) := by
  unfold readValue
  split
  next r =>
    cases readString r <;> rfl
  next r =>
    split
    next => rfl
    next =>
      rw [ih.items]
      cases readItems .verbatim fuel (skipBlanks r) with
      | error e => rfl
      | ok x => simp only [Except.map, merged_list]
  next r =>
    split
    next => rfl
    next =>
      rw [ih.fields]
      cases readFields .verbatim fuel (skipBlanks r) with
      | error e => rfl
      | ok x => simp only [Except.map, Dialect.lenient, Dialect.verbatim, merged_object]
  next => exact readScalar_lenient s

theorem ReadsMerged.items_succ (ih : ReadsMerged fuel) (s : List Char) :
    readItems .lenient (fuel + 1) s =
      (readItems .verbatim (fuel + 1) s).map fun x => (x.1.map merged, x.2) := by
  unfold readItems
  rw [ih.value]
  cases readValue .verbatim fuel s with
  | error e => rfl
  | ok x =>
    simp only [Except.map]
    split
    · rfl
    · rw [ih.items]
      cases readItems .verbatim fuel _ <;> rfl
    · rfl

theorem ReadsMerged.fields_succ (ih : ReadsMerged fuel) (s : List Char) :
    readFields .lenient (fuel + 1) s =
      (readFields .verbatim (fuel + 1) s).map fun x => (x.1.map fun f => (f.1, f.2.merged), x.2) := by
  unfold readFields
  split
  next r =>
    cases readString r with
    | error e => rfl
    | ok x =>
      simp only
      split
      next r' _ =>
        rw [ih.value]
        cases readValue .verbatim fuel _ with
        | error e => rfl
        | ok y =>
          simp only [Except.map]
          split
          · rfl
          · rw [ih.fields]
            cases readFields .verbatim fuel _ <;> rfl
          · rfl
      next => rfl
  next => rfl

theorem readsMerged (fuel : Nat) : ReadsMerged fuel := by
  induction fuel with
  | zero => exact ⟨fun _ => rfl, fun _ => rfl, fun _ => rfl⟩
  | succ fuel ih => exact ⟨ih.value_succ, ih.items_succ, ih.fields_succ⟩

theorem read_lenient (s : List Char) : read .lenient s = (read .verbatim s).map merged := by
  unfold read
  rw [(readsMerged _).value]
  cases readValue .verbatim _ _ with
  | error e => rfl
  | ok x =>
    simp only [Except.map]
    split <;> rfl

/-- The lenient reader reads the texts that denote values whose integers have numerals, and merges these values. -/
theorem read_lenient_eq_ok_iff :
    read .lenient s = .ok v ↔ ∃ w, Denotes s w ∧ w.Throughout IsReadable ∧ w.merged = v := by
  simp only [read_lenient, map_eq_ok_iff, read_eq_ok_iff takes_verbatim, and_assoc]

/-- A text that has a value in the lenient dialect denotes one value only. -/
theorem Denotes.unique (h : Denotes s v) (hv : v.Throughout IsReadable) (h' : Denotes s w) : w = v := by
  have hread := (read_eq_ok_iff takes_verbatim).mpr ⟨h, hv⟩
  exact ((h'.decides takes_verbatim).eq_ok_iff.mp hread).2.symm

theorem read_lenient_of_exact (h : Denotes s v) (hv : v.Throughout IsExact) : read .lenient s = .ok v := by
  refine read_lenient_eq_ok_iff.mpr ⟨v, h, fun w hw => ?_, merged_of_exact hv⟩
  have hexact := hv w hw
  cases w with
  | int n => exact hexact
  | table rows => exact hexact
  | _ => trivial

end LedgerGenesis.Json
