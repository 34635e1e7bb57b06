import LedgerGenesis.Asset.Restrictions
import LedgerGenesis.Proofs.Outcome
import LedgerGenesis.Proofs.Text.Spelling
import Mathlib.Data.Nat.Bitwise

/-! # Restrictions by the names of operations

A word of restrictions is known by what it allows, and a union allows what both of its parts do. So the word of a
list of names allows each operation that is not named, and neither order nor repetition shows in it.
-/
namespace LedgerGenesis.Restrictions

variable {r s op : Restrictions} {rs : List Restrictions} {names : List Json} {v : Json}

/-- The operations that can be disallowed, each with its bit. The first of all names stands for none. -/
def operations : List (String × Restrictions) := named.tail

/-- The name of an operation, or of none. -/
def IsKnown (v : Json) : Prop := ∃ p ∈ named, v = .text p.1

theorem allows_union : (r.union s).allows op = true ↔ r.allows op = true ∧ s.allows op = true := by
  simp only [allows, union, beq_iff_eq, Nat.and_or_distrib_right, Nat.or_eq_zero_iff]

theorem allows_empty : empty.allows op = true := by
  simp [allows, empty]

/-- A bit is set where the operation of that bit alone is not allowed, so words that allow the same are the same. -/
theorem eq_of_allows (h : ∀ op, r.allows op = s.allows op) : r = s := by
  obtain ⟨m⟩ := r
  obtain ⟨n⟩ := s
  congr 1
  refine Nat.eq_of_testBit_eq fun i => ?_
  have hbit := h ⟨2 ^ i⟩
  simp only [allows, Nat.and_two_pow] at hbit
  cases hm : m.testBit i <;> cases hn : n.testBit i <;> simp_all

theorem allows_foldl_union :
    (rs.foldl union s).allows op = true ↔ s.allows op = true ∧ ∀ t ∈ rs, t.allows op = true := by
  induction rs generalizing s with
  | nil => simp
  | cons t rs ih => rw [List.foldl_cons, ih, allows_union, List.forall_mem_cons, and_assoc]

/-! ## Names -/

theorem ofNameValue_of_mem {p : String × Restrictions} (h : p ∈ named) : ofNameValue (.text p.1) = .ok p.2 := by
  revert h p
  decide

/-- A value stands for the word of the name that it is. -/
theorem ofNameValue_eq_ok_iff : ofNameValue v = .ok r ↔ ∃ p ∈ named, v = .text p.1 ∧ r = p.2 := by
  constructor
  · intro h
    cases v with
    | text t =>
      simp only [ofNameValue] at h
      cases hname : ofName? t with
      | none => simp [hname] at h
      | some s =>
        obtain ⟨p, hfind, rfl⟩ := Option.map_eq_some_iff.mp hname
        have hp : Text.ofString p.1 = t := by simpa using List.find?_some hfind
        refine ⟨p, List.mem_of_find?_eq_some hfind, hp ▸ rfl, ?_⟩
        simpa [hname] using h.symm
    | _ => simp [ofNameValue, Json.isKey] at h
  · rintro ⟨p, hp, rfl, rfl⟩
    exact ofNameValue_of_mem hp

theorem foldlM_union_eq_ok_iff : names.foldlM (fun r v => (ofNameValue v).map r.union) s = .ok r ↔
    ∃ rs, names.mapM ofNameValue = .ok rs ∧ rs.foldl union s = r := by
  induction names generalizing s with
  | nil => simp [pure_eq_ok_iff]
  | cons v names ih =>
    simp only [List.foldlM_cons, List.mapM_cons, bind_eq_ok_iff, map_eq_ok_iff, pure_eq_ok_iff, ih]
    constructor
    · rintro ⟨_, ⟨t, ht, rfl⟩, rs, hrs, rfl⟩
      exact ⟨t :: rs, ⟨t, ht, rs, hrs, rfl⟩, rfl⟩
    · rintro ⟨_, ⟨t, ht, rs, hrs, rfl⟩, rfl⟩
      exact ⟨_, ⟨t, ht, rfl⟩, rs, hrs, rfl⟩

theorem ofNames_eq_ok_iff :
    ofNames names = .ok r ↔ ∃ rs, names.mapM ofNameValue = .ok rs ∧ rs.foldl union empty = r :=
  foldlM_union_eq_ok_iff

theorem exists_ofNames_iff : (∃ r, ofNames names = .ok r) ↔ ∀ v ∈ names, IsKnown v := by
  have hknown : ∀ v, (∃ r, ofNameValue v = .ok r) ↔ IsKnown v := by
    intro v
    simp only [ofNameValue_eq_ok_iff]
    exact ⟨fun ⟨_, p, hp, hv, _⟩ => ⟨p, hp, hv⟩, fun ⟨p, hp, hv⟩ => ⟨p.2, p, hp, hv, rfl⟩⟩
  simp only [← hknown, ← exists_mapM_eq_ok_iff, ofNames_eq_ok_iff]
  exact ⟨fun ⟨_, rs, hrs, _⟩ => ⟨rs, hrs⟩, fun ⟨rs, hrs⟩ => ⟨_, rs, hrs, rfl⟩⟩

/-- What is allowed is what every name of the list leaves allowed. -/
theorem allows_iff_of_ofNames (h : ofNames names = .ok r) :
    r.allows op = true ↔ ∀ p ∈ named, .text p.1 ∈ names → p.2.allows op = true := by
  obtain ⟨rs, hrs, rfl⟩ := ofNames_eq_ok_iff.mp h
  have hone : ∀ v t, ofNameValue v = .ok t →
      (t.allows op = true ↔ ∀ p ∈ named, v = .text p.1 → p.2.allows op = true) := by
    intro v t ht
    constructor
    · rintro hallows p hp rfl
      rw [ofNameValue_of_mem hp] at ht
      cases ht
      exact hallows
    · intro hallows
      obtain ⟨p, hp, rfl, rfl⟩ := ofNameValue_eq_ok_iff.mp ht
      exact hallows p hp rfl
  rw [allows_foldl_union, and_iff_right allows_empty, forall_mem_iff_of_mapM_eq_ok hone hrs]
  exact ⟨fun hall p hp hmem => hall _ hmem p hp rfl, fun hall v hv p hp hvp => hall p hp (hvp ▸ hv)⟩

/-- A name leaves each operation allowed but its own. -/
theorem allows_iff_ne {p o : String × Restrictions} (hp : p ∈ named) (ho : o ∈ operations) :
    p.2.allows o.2 = true ↔ p.1 ≠ o.1 := by
  have htable : ∀ p ∈ named, ∀ o ∈ operations, p.2.allows o.2 = true ↔ p.1 ≠ o.1 := by decide
  exact htable p hp o ho

/-- An operation is allowed exactly when it is not named. -/
theorem allows_operation_iff (h : ofNames names = .ok r) {o : String × Restrictions} (ho : o ∈ operations) :
    r.allows o.2 = true ↔ .text o.1 ∉ names := by
  rw [allows_iff_of_ofNames h]
  constructor
  · intro hall hmem
    have hself := hall o (List.mem_of_mem_tail ho) hmem
    exact (allows_iff_ne (List.mem_of_mem_tail ho) ho).mp hself rfl
  · intro hnot p hp hmem
    refine (allows_iff_ne hp ho).mpr fun hname => hnot ?_
    rwa [hname] at hmem

/-- Lists of the same names have the same word. -/
theorem ofNames_congr {names' : List Json} (h : ofNames names = .ok r) (hsame : ∀ v, v ∈ names' ↔ v ∈ names) :
    ofNames names' = .ok r := by
  have hknown : ∀ v ∈ names', IsKnown v := fun v hv => exists_ofNames_iff.mp ⟨r, h⟩ v ((hsame v).mp hv)
  obtain ⟨s, hs⟩ := exists_ofNames_iff.mpr hknown
  have hallows : ∀ op, s.allows op = r.allows op := by
    intro op
    rw [Bool.eq_iff_iff, allows_iff_of_ofNames hs, allows_iff_of_ofNames h]
    simp only [hsame]
  rw [hs, eq_of_allows hallows]

end LedgerGenesis.Restrictions
