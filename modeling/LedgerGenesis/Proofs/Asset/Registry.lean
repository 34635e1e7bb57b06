import LedgerGenesis.Asset.Registry
import LedgerGenesis.Proofs.Outcome
import LedgerGenesis.Proofs.Screening

/-! # Which definitions make a registry

Definitions are screened for the reserved id and for repeated ids. Those that pass are all registered, in
their order, and each has restrictions of its own.
-/
namespace LedgerGenesis

/-- A definition may not take the reserved id, nor that of an earlier one. -/
def AssetDefinition.screening : Screening AssetDefinition Int GenesisError where
  defect d := if d.id = nativeAsset then some fun _ => .reservedAsset d.info.token else none
  key := id
  repeated d := .duplicateAsset d.id

namespace AssetDefinition

variable {d : AssetDefinition}

theorem defect_eq_none_iff : screening.defect d = none ↔ d.id ≠ nativeAsset := by
  simp [screening]

theorem kind_of_defect {fault : Nat → GenesisError} (h : screening.defect d = some fault) (n : Nat) :
    (fault n).kind = .reservedAssetId := by
  simp only [screening] at h
  split at h
  · cases h; rfl
  · cases h

end AssetDefinition

namespace Registry

open AssetDefinition (screening defect_eq_none_iff)

variable {seen : List Int} {earlier ds : List AssetDefinition} {os : List (Int × Restrictions)}
  {r : Registry} {e : GenesisError} {x : Error}

theorem clean_iff : screening.Clean ds ↔
    (∀ d ∈ ds, d.id ≠ nativeAsset) ∧ (ds.map AssetDefinition.id).Nodup := by
  constructor
  · rintro ⟨hd, hk⟩
    exact ⟨fun d h => defect_eq_none_iff.mp (hd d h), hk⟩
  · rintro ⟨hd, hk⟩
    exact ⟨fun d h => defect_eq_none_iff.mpr (hd d h), hk⟩

/-- The walk over the ids is the screening of the definitions. -/
theorem checkIds_eq (hs : ∀ id, id ∈ seen ↔ id ∈ earlier.map AssetDefinition.id) :
    checkIds seen ds = match screening.firstFault earlier ds with
      | some e => .error e
      | none => .ok () := by
  induction ds generalizing seen earlier with
  | nil => rfl
  | cons d ds ih =>
    by_cases h0 : d.id = nativeAsset
    · simp [checkIds, Screening.firstFault, Screening.faultAfter, screening, h0]
    · by_cases hm : d.id ∈ seen
      · have hc : d.id ∈ earlier.map screening.key := (hs d.id).mp hm
        have hf : screening.faultAfter earlier d = some (.duplicateAsset d.id) :=
          screening.faultAfter_eq_some_iff.mpr (Or.inr ⟨by simp [screening, h0], hc, rfl⟩)
        simp only [checkIds, if_neg h0, if_pos hm, Screening.firstFault, hf]
      · have hc : d.id ∉ earlier.map screening.key := mt (hs d.id).mpr hm
        have hf : screening.faultAfter earlier d = none :=
          screening.faultAfter_eq_none_iff.mpr ⟨by simp [screening, h0], hc⟩
        simp only [checkIds, if_neg h0, if_neg hm, Screening.firstFault, hf]
        apply ih
        intro id
        simp [hs id, or_comm]

/-- Without overrides, the definitions that pass the screening are registered as they stand. -/
theorem split_eq : split ds [] = match screening.firstFault [] ds with
    | some e => .error e
    | none => .ok {
        entries := ds.map AssetDefinition.entry
        restrictions := ds.map fun d => (d.id, d.restrictions) } := by
  have h : checkIds [] ds = match screening.firstFault [] ds with
      | some e => .error e
      | none => .ok () := checkIds_eq (by simp)
  rw [split, h]
  cases screening.firstFault [] ds <;> rfl

theorem split_eq_ok_iff : split ds [] = .ok r ↔ screening.Clean ds ∧
    r = { entries := ds.map AssetDefinition.entry
          restrictions := ds.map fun d => (d.id, d.restrictions) } := by
  have hc : screening.firstFault [] ds = none ↔ screening.Clean ds :=
    screening.firstFault_eq_none_iff screening.clean_nil
  rw [split_eq, ← hc]
  cases screening.firstFault [] ds <;> simp [eq_comm]

theorem split_eq_error_iff : split ds [] = .error e ↔ screening.firstFault [] ds = some e := by
  rw [split_eq]
  cases screening.firstFault [] ds <;> simp

/-! ## The report of the tokens -/

/-- Every token of the definitions can be shown. -/
def ShowsTokens (ds : List AssetDefinition) : Prop := ∀ d ∈ ds, d.info.token.isShowable = true

theorem entries_of_split (h : split ds os = .ok r) : r.entries = ds.map AssetDefinition.entry := by
  simp only [split, bind_eq_ok_iff, pure_eq_ok_iff] at h
  obtain ⟨_, -, _, -, rfl⟩ := h
  rfl

theorem showsTokens_iff (h : split ds os = .ok r) :
    (∀ v ∈ r.entries.map fun e => e.info.token, v.isShowable = true) ↔ ShowsTokens ds := by
  rw [entries_of_split h, List.map_map, List.forall_mem_map]
  rfl

/-- A registry is made of definitions that are split, and whose tokens can be shown. -/
theorem ofDefinitions_eq_ok_iff_split :
    ofDefinitions ds os = .ok r ↔ split ds os = .ok r ∧ ShowsTokens ds := by
  simp only [ofDefinitions, bind_eq_ok_iff (x := raising _), raising_eq_ok_iff, report_bind_eq_ok_iff,
    pure_eq_ok_iff]
  constructor
  · rintro ⟨r, hr, htokens, rfl⟩
    exact ⟨hr, (showsTokens_iff hr).mp htokens⟩
  · rintro ⟨hr, htokens⟩
    exact ⟨r, hr, (showsTokens_iff hr).mpr htokens, rfl⟩

/-- Otherwise it is the splitting that fails, or the report after it. -/
theorem ofDefinitions_eq_error_iff_split : ofDefinitions ds os = .error x ↔
    (∃ e, split ds os = .error e ∧ e.raised = x) ∨
      (∃ r, split ds os = .ok r) ∧ ¬ ShowsTokens ds ∧ x = .fault .longNumeral := by
  simp only [ofDefinitions, bind_eq_error_iff (x := raising _), raising_eq_error_iff, raising_eq_ok_iff,
    report_bind_eq_error_iff, pure_ne_error, and_false, or_false]
  refine or_congr_right ⟨?_, ?_⟩
  · rintro ⟨r, hr, hn, hx⟩
    exact ⟨⟨r, hr⟩, mt (showsTokens_iff hr).mpr hn, hx⟩
  · rintro ⟨⟨r, hr⟩, hn, hx⟩
    exact ⟨r, hr, mt (showsTokens_iff hr).mp hn, hx⟩

theorem ofDefinitions_eq_ok_iff : ofDefinitions ds [] = .ok r ↔ screening.Clean ds ∧ ShowsTokens ds ∧
    r = { entries := ds.map AssetDefinition.entry
          restrictions := ds.map fun d => (d.id, d.restrictions) } := by
  rw [ofDefinitions_eq_ok_iff_split, split_eq_ok_iff, and_assoc, and_comm (b := ShowsTokens ds)]

/-- The ids of a registry are distinct, none of them is reserved, and each has its restrictions. -/
structure Sound (r : Registry) : Prop where
  ids_nodup : (r.entries.map AssetEntry.id).Nodup
  native_notMem : nativeAsset ∉ r.entries.map AssetEntry.id
  restrictions_keys : r.restrictions.map Prod.fst = r.entries.map AssetEntry.id

theorem sound_of_ofDefinitions (h : ofDefinitions ds [] = .ok r) : r.Sound := by
  obtain ⟨hc, -, rfl⟩ := ofDefinitions_eq_ok_iff.mp h
  obtain ⟨hn, hd⟩ := clean_iff.mp hc
  have hids : (ds.map AssetDefinition.entry).map AssetEntry.id = ds.map AssetDefinition.id := by
    rw [List.map_map]
    rfl
  refine ⟨hids ▸ hd, ?_, ?_⟩
  · intro hm
    rw [hids] at hm
    obtain ⟨d, hmem, h0⟩ := List.mem_map.mp hm
    exact hn d hmem h0
  · rw [hids, List.map_map]
    rfl

end Registry

end LedgerGenesis
