import LedgerGenesis.Json.Access
import LedgerGenesis.Proofs.Json.Merging
import LedgerGenesis.Proofs.Number.Magnitude
import LedgerGenesis.Proofs.Outcome

/-! # Integers out of texts

Whatever integer a value of a JSON text is taken for has a numeral: an integer or a numeral of the text is not
longer than numerals are, and a double is not as large.
-/
namespace LedgerGenesis.Json

variable {v w : Json} {k : Text} {n : Int}

/-- The integer that a value is taken for, if it is taken for one, has a numeral. -/
def TakesNumeral (v : Json) : Prop := ∀ n, v.toInt = .ok n → HasNumeral n

/-- The same of a value and all the values inside it. -/
def Numbered (v : Json) : Prop := v.Throughout TakesNumeral

theorem takesNumeral_int_iff : (int n).TakesNumeral ↔ HasNumeral n := by
  simp [TakesNumeral, toInt]

theorem takesNumeral_bool (b : Bool) : (bool b).TakesNumeral := by
  rintro n ⟨⟩
  cases b <;> decide +kernel

theorem takesNumeral_text (t : Text) : (text t).TakesNumeral := by
  intro n h
  simp only [toInt] at h
  split at h
  next m hm =>
    cases h
    exact Numeral.hasNumeral_of_toInt? hm
  next => cases h

theorem takesNumeral_float {x : Binary64} (hx : x.IsBounded) : (float x).TakesNumeral := by
  intro n h
  cases x with
  | finite negative m e =>
    cases h
    exact Binary64.hasNumeral_truncate hx
  | _ => cases h

theorem takesNumeral_of_toInt_ne_ok (h : ∀ n, v.toInt ≠ .ok n) : v.TakesNumeral := fun n hn => absurd hn (h n)

theorem takes_numerals : Dialect.verbatim.Takes TakesNumeral where
  null := takesNumeral_of_toInt_ne_ok fun _ h => by cases h
  bool := takesNumeral_bool
  text := takesNumeral_text
  list _ := takesNumeral_of_toInt_ne_ok fun _ h => by cases h
  int n := takesNumeral_int_iff.trans (hasNumeral_int_iff.symm.trans decide_eq_true_iff)
  inexact l := decides_ok (takesNumeral_float (Binary64.isBounded_ofDecimal _ _)) rfl
  constant _ x hx := by
    refine decides_ok (takesNumeral_float ?_) rfl
    simp only [constants, List.mem_cons, Prod.mk.injEq, List.not_mem_nil, or_false] at hx
    rcases hx with ⟨-, rfl⟩ | ⟨-, rfl⟩ | ⟨-, rfl⟩ <;> exact trivial
  object _ := decides_ok (takesNumeral_of_toInt_ne_ok fun _ h => by cases h) rfl

theorem numbered_list_iff {vs : List Json} : (list vs).Numbered ↔ ∀ v ∈ vs, v.Numbered :=
  Throughout.list_iff.trans (and_iff_right (takesNumeral_of_toInt_ne_ok fun _ h => by cases h))

theorem numbered_object_iff {fields : List (Text × Json)} :
    (object fields).Numbered ↔ ∀ f ∈ fields, f.2.Numbered :=
  Throughout.object_iff.trans (and_iff_right (takesNumeral_of_toInt_ne_ok fun _ h => by cases h))

theorem numbered_text (t : Text) : (text t).Numbered := Throughout.text_iff.mpr (takesNumeral_text t)

theorem numbered_merged (h : v.Numbered) : v.merged.Numbered := by
  induction v using Json.induct with
  | null | bool | int | float | text | table => exact h
  | list vs ih =>
    rw [merged_list, numbered_list_iff, List.forall_mem_map]
    exact fun v hv => ih v hv (numbered_list_iff.mp h v hv)
  | object fields ih =>
    rw [merged_object, numbered_object_iff]
    intro f hf
    obtain ⟨g, hg, rfl⟩ := List.mem_map.mp (mem_of_mem_mergeFields hf)
    exact ih g hg (numbered_object_iff.mp h g hg)

/-- Values that are read from a text are numbered. -/
theorem numbered_of_parse {t : Text} (h : parse t = .ok v) : v.Numbered := by
  unfold parse at h
  split at h
  next s hs =>
    have hread := mapError_eq_ok_iff.mp h
    rw [read_lenient, map_eq_ok_iff] at hread
    obtain ⟨w, hw, rfl⟩ := hread
    exact numbered_merged ((read_eq_ok_iff takes_numerals).mp hw).2
  next => cases h

namespace Numbered

variable (h : v.Numbered)
include h

theorem hasNumeral (hn : v.toInt = .ok n) : HasNumeral n := Throughout.self h n hn

theorem isShowable : v.isShowable = true := by
  refine isShowable_iff.mpr fun w hw => ?_
  cases w with
  | int n => exact hasNumeral_int_iff.mpr (takesNumeral_int_iff.mp (h _ hw))
  | _ => rfl

theorem of_field (hw : v.field k = .ok w) : w.Numbered := by
  unfold field at hw
  split at hw
  next fields =>
    split at hw
    next u hu =>
      cases hw
      exact numbered_object_iff.mp h _ (mem_of_lookup hu)
    next => cases hw
  next => cases hw

theorem of_elements {vs : List Json} (hvs : v.elements = .ok vs) : ∀ w ∈ vs, w.Numbered := by
  cases v with
  | list vs =>
    cases hvs
    exact numbered_list_iff.mp h
  | object fields =>
    cases hvs
    exact List.forall_mem_map.mpr fun f _ => numbered_text f.1
  | table rows =>
    cases hvs
    exact List.forall_mem_map.mpr fun r hr => ((Throughout.table_iff.mp h).2 r hr).1
  | text t =>
    cases hvs
    exact List.forall_mem_map.mpr fun p _ => numbered_text [p]
  | _ => cases hvs

end Numbered

end LedgerGenesis.Json
