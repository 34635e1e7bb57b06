import LedgerGenesis.Proofs.Json.Path
import LedgerGenesis.Proofs.Table

/-! # Fields of entries under a report

An entry is read field by field, and each field is a step: it passes with some values, and with others it lets a
fault escape that the report of the entry does not cover.
-/
namespace LedgerGenesis

namespace Json

/-- A field as a step: what its value must be to pass, and what it is where it leaks. -/
def fieldStep (data : Json) (path : List Text) (good bad : Json → Prop) : Step where
  passes := ∃ v, data.at? path = some v ∧ good v
  leaks := ∃ v, data.at? path = some v ∧ bad v

/-- A field that may be absent. -/
def optionalStep (data : Json) (path : List Text) (good bad : Json → Prop) : Step where
  passes := ∀ v, data.at? path = some v → good v
  leaks := ∃ v, data.at? path = some v ∧ bad v

def IsText (v : Json) : Prop := ∃ t, v = .text t

/-- A text without lone surrogates. -/
def IsEncodable (v : Json) : Prop := ∃ t, v = .text t ∧ t.WellFormed

/-- A value that is taken for an integer. -/
def IsIntegral (v : Json) : Prop := ∃ n, v.toInt = .ok n

def IsInfinite (v : Json) : Prop := ∃ negative, v = .float (.infinite negative)

/-- The hexadecimal form of 32 bytes. -/
def IsHash (v : Json) : Prop := ∃ t bs, v = .text t ∧ Hex.decode t = some bs ∧ bs.length = 32

/-- An integer that fits in thirty-two bits. -/
def IsWord (v : Json) : Prop := ∃ w : UInt32, v = .int w.toNat

/-- What an anchor is read from: a value as it is, or what a text is the text of. -/
inductive Presents : Json → Json → Prop
  | value {v : Json} (h : ¬ v.IsText) : Presents v v
  | text {t : Text} {v : Json} (h : parse t = .ok v) : Presents (.text t) v

variable {α β : Type} {families : List Fault.Family} {report : Fault → GenesisError} {v data : Json} {key : Text}

theorem presents_text_iff {t : Text} : Presents (.text t) data ↔ parse t = .ok data := by
  constructor
  · rintro (⟨h⟩ | h)
    · exact absurd ⟨t, rfl⟩ h
    · exact h
  · exact .text

theorem presents_value_iff (h : ¬ v.IsText) : Presents v data ↔ data = v := by
  constructor
  · rintro (_ | _)
    · rfl
    · exact absurd ⟨_, rfl⟩ h
  · rintro rfl
    exact .value h

theorem field_eq_ok_iff : data.field key = .ok v ↔ data.at? [key] = some v := by
  cases data with
  | object fields =>
    simp only [field, at?]
    cases lookup key fields <;> simp
  | _ => simp [field, at?]

theorem at?_cons_eq_some_iff {path : List Text} :
    data.at? (key :: path) = some v ↔ ∃ w, data.at? [key] = some w ∧ w.at? path = some v := by
  cases data with
  | object fields =>
    simp only [at?]
    cases lookup key fields <;> simp
  | _ => simp [at?]

theorem exists_toUtf8_iff : (∃ bs, v.toUtf8 = .ok bs) ↔ v.IsEncodable := by
  cases v with
  | text t =>
    simp only [toUtf8, IsEncodable, Json.text.injEq, exists_eq_left', ← Text.exists_utf8?_iff]
    cases t.utf8? <;> simp
  | _ => simp [toUtf8, IsEncodable]

/-! ## Conversions under a report -/

theorem toBytes_eq_notText_iff : v.toBytes = .error .notText ↔ ¬ v.IsText := by
  cases v with
  | text t =>
    refine iff_of_false ?_ (not_not.mpr ⟨t, rfl⟩)
    simp only [toBytes]
    split <;> simp
  | _ => simp [toBytes, IsText]

theorem toUtf8_eq_notText_iff : v.toUtf8 = .error .notText ↔ ¬ v.IsText := by
  cases v with
  | text t =>
    refine iff_of_false ?_ (not_not.mpr ⟨t, rfl⟩)
    simp only [toUtf8]
    split <;> simp
  | _ => simp [toUtf8, IsText]

theorem toInt_eq_infinite_iff : v.toInt = .error .infinite ↔ v.IsInfinite := by
  cases v with
  | float x => cases x <;> simp [toInt, IsInfinite]
  | text t =>
    simp only [toInt, IsInfinite]
    split <;> simp
  | _ => simp [toInt, IsInfinite]

section Reports

variable (hreport : ∀ f, (report f).isShowable = true)
include hreport

theorem escapes_toBytes_iff (hcontent : .content ∈ families) (haccess : .access ∉ families) :
    Escapes (reporting families report (liftM v.toBytes)) ↔ ¬ v.IsText := by
  have hthrows : Throws (fun f => f.family ∈ families ∨ f = .notText) v.toBytes :=
    throws_toBytes.mono fun f hf => hf.imp_left fun h => by rwa [h]
  rw [← toBytes_eq_notText_iff]
  exact escapes_reporting_liftFault_iff hreport hthrows haccess

theorem escapes_toUtf8_iff (hcontent : .content ∈ families) (haccess : .access ∉ families) :
    Escapes (reporting families report (liftM v.toUtf8)) ↔ ¬ v.IsText := by
  have hthrows : Throws (fun f => f.family ∈ families ∨ f = .notText) v.toUtf8 :=
    throws_toUtf8.mono fun f hf => hf.imp_left fun h => by rwa [h]
  rw [← toUtf8_eq_notText_iff]
  exact escapes_reporting_liftFault_iff hreport hthrows haccess

theorem escapes_toInt_iff (hplain : [Fault.Family.key, .content, .shape] ⊆ families)
    (hmagnitude : .magnitude ∉ families) :
    Escapes (reporting families report (liftM v.toInt)) ↔ v.IsInfinite := by
  have hthrows : Throws (fun f => f.family ∈ families ∨ f = .infinite) v.toInt :=
    throws_toInt.mono fun f hf => hf.imp_left fun h => hplain h.family_mem
  rw [← toInt_eq_infinite_iff]
  exact escapes_reporting_liftFault_iff hreport hthrows hmagnitude

end Reports

/-! ## Fields -/

theorem throws_field_of_subset (hplain : [Fault.Family.key, .content, .shape] ⊆ families) :
    Throws (·.family ∈ families) (data.field key) :=
  throws_field.mono fun _ hf => hplain hf.family_mem

theorem throws_field_of_object {fields : List (Text × Json)} (hkey : .key ∈ families) :
    Throws (·.family ∈ families) ((object fields).field key) := by
  intro f h
  simp only [field] at h
  split at h <;> cases h
  exact hkey

section Fields

variable {conv : Json → Except Error α} {rest : α → Except Error β} {good bad : Json → Prop} {steps : List Step}

theorem exists_field_bind_iff (hgood : ∀ v, (∃ a, conv v = .ok a) ↔ good v) :
    (∃ a, liftM (data.field key) >>= conv = .ok a) ↔ (data.fieldStep [key] good bad).passes := by
  simp only [bind_eq_ok_iff, liftFault_eq_ok_iff, field_eq_ok_iff, fieldStep, ← hgood]
  exact ⟨fun ⟨a, v, hv, ha⟩ => ⟨v, hv, a, ha⟩, fun ⟨v, hv, a, ha⟩ => ⟨a, v, hv, ha⟩⟩

variable (hreport : ∀ f, (report f).isShowable = true)
include hreport

theorem escapes_field_bind_iff (hfield : Throws (·.family ∈ families) (data.field key))
    (hbad : ∀ v, Escapes (reporting families report (conv v)) ↔ bad v) :
    Escapes (reporting families report (liftM (data.field key) >>= conv)) ↔
      (data.fieldStep [key] good bad).leaks := by
  rw [reporting_bind, escapes_bind_iff, or_iff_right (not_escapes_reporting_liftFault hreport hfield)]
  simp only [reporting_eq_ok_iff, liftFault_eq_ok_iff, field_eq_ok_iff, hbad]
  rfl

/-- A field whose value is converted is a step, where it is reported that there is no such field. -/
theorem escapes_field_iff (hfield : Throws (·.family ∈ families) (data.field key))
    (hgood : ∀ v, (∃ a, conv v = .ok a) ↔ good v)
    (hbad : ∀ v, Escapes (reporting families report (conv v)) ↔ bad v)
    (hrest : ∀ a, Escapes (reporting families report (rest a)) ↔ StopsInLeak steps) :
    Escapes (reporting families report (liftM (data.field key) >>= fun v => conv v >>= rest)) ↔
      StopsInLeak (data.fieldStep [key] good bad :: steps) := by
  rw [← bind_assoc, reporting_bind]
  refine escapes_bind_iff_stopsInLeak ?_ (escapes_field_bind_iff hreport hfield hbad) fun a _ => hrest a
  simp only [reporting_eq_ok_iff]
  exact exists_field_bind_iff hgood

end Fields

section TypedFields

variable (hreport : ∀ f, (report f).isShowable = true)
include hreport

/-- A hexadecimal field, where a value that is no text is not reported. -/
theorem escapes_hexField_iff {rest : Bytes → Except Error β} {steps : List Step}
    (hfield : Throws (·.family ∈ families) (data.field key)) (hcontent : .content ∈ families)
    (haccess : .access ∉ families)
    (hrest : ∀ a, Escapes (reporting families report (rest a)) ↔ StopsInLeak steps) :
    Escapes (reporting families report (liftM (data.field key) >>= fun v => liftM v.toBytes >>= rest)) ↔
      StopsInLeak (data.fieldStep [key] IsHex (¬ IsText ·) :: steps) := by
  refine escapes_field_iff hreport hfield (fun v => ?_) (fun v => escapes_toBytes_iff hreport hcontent haccess)
    hrest
  simp only [liftFault_eq_ok_iff, exists_toBytes_iff]

/-- A field for a label, where a value that is no text is not reported. -/
theorem escapes_labelField_iff {rest : Bytes → Except Error β} {steps : List Step}
    (hfield : Throws (·.family ∈ families) (data.field key)) (hcontent : .content ∈ families)
    (haccess : .access ∉ families)
    (hrest : ∀ a, Escapes (reporting families report (rest a)) ↔ StopsInLeak steps) :
    Escapes (reporting families report (liftM (data.field key) >>= fun v => liftM v.toUtf8 >>= rest)) ↔
      StopsInLeak (data.fieldStep [key] IsEncodable (¬ IsText ·) :: steps) := by
  refine escapes_field_iff hreport hfield (fun v => ?_) (fun v => escapes_toUtf8_iff hreport hcontent haccess)
    hrest
  simp only [liftFault_eq_ok_iff, exists_toUtf8_iff]

/-- A field for an integer, where an infinite number is not reported. -/
theorem escapes_intField_iff {rest : Int → Except Error β} {steps : List Step}
    (hplain : [Fault.Family.key, .content, .shape] ⊆ families) (hmagnitude : .magnitude ∉ families)
    (hrest : ∀ n, Escapes (reporting families report (rest n)) ↔ StopsInLeak steps) :
    Escapes (reporting families report (liftM (data.field key) >>= fun v => liftM v.toInt >>= rest)) ↔
      StopsInLeak (data.fieldStep [key] IsIntegral IsInfinite :: steps) := by
  refine escapes_field_iff hreport (throws_field_of_subset hplain) (fun v => ?_)
    (fun v => escapes_toInt_iff hreport hplain hmagnitude) hrest
  simp only [liftFault_eq_ok_iff]
  rfl

omit hreport in
theorem fieldStep_cons {path : List Text} {good bad : Json → Prop} :
    data.fieldStep [key] (fun v => (v.fieldStep path good bad).passes) (fun v => (v.fieldStep path good bad).leaks) =
      data.fieldStep (key :: path) good bad := by
  have hpath : ∀ p : Json → Prop, (∃ v, data.at? [key] = some v ∧ ∃ w, v.at? path = some w ∧ p w) ↔
      ∃ w, data.at? (key :: path) = some w ∧ p w := by
    intro p
    constructor
    · rintro ⟨v, hv, w, hw, hp⟩
      exact ⟨w, at?_cons_eq_some_iff.mpr ⟨v, hv, hw⟩, hp⟩
    · rintro ⟨w, hw, hp⟩
      obtain ⟨v, hv, hw⟩ := at?_cons_eq_some_iff.mp hw
      exact ⟨v, hv, w, hw, hp⟩
  simp only [fieldStep, hpath]

/-- The same for a field of a field. -/
theorem escapes_nestedIntField_iff {key' : Text} {rest : Int → Except Error β} {steps : List Step}
    (hplain : [Fault.Family.key, .content, .shape] ⊆ families) (hmagnitude : .magnitude ∉ families)
    (hrest : ∀ n, Escapes (reporting families report (rest n)) ↔ StopsInLeak steps) :
    Escapes (reporting families report (liftM (data.field key) >>= fun v => liftM (v.field key') >>= fun w =>
      liftM w.toInt >>= rest)) ↔ StopsInLeak (data.fieldStep [key, key'] IsIntegral IsInfinite :: steps) := by
  have hgood : ∀ v : Json, (∃ n, v.toInt.mapError Error.fault = .ok n) ↔ v.IsIntegral := by
    simp only [mapError_eq_ok_iff, IsIntegral, implies_true]
  have hbad : ∀ v : Json, Escapes (reporting families report (liftM v.toInt)) ↔ v.IsInfinite :=
    fun v => escapes_toInt_iff hreport hplain hmagnitude
  have hassoc : (liftM (data.field key) >>= fun v => liftM (v.field key') >>= fun w => liftM w.toInt >>= rest) =
      liftM (data.field key) >>= fun v => (liftM (v.field key') >>= fun w => liftM w.toInt) >>= rest := by
    simp only [bind_assoc]
  rw [hassoc, ← fieldStep_cons]
  exact escapes_field_iff hreport (throws_field_of_subset hplain) (fun v => exists_field_bind_iff hgood)
    (fun v => escapes_field_bind_iff hreport (throws_field_of_subset hplain) hbad) hrest

end TypedFields

end Json

end LedgerGenesis
