import LedgerGenesis.Proofs.Asset.Registry
import LedgerGenesis.Proofs.Asset.Restrictions
import Mathlib.Data.List.Induction

/-! # Registration of assets under overrides

Definitions are registered in their order as they stand, and each asset has the restrictions of the last override
that names it, or else its own. The first definition that cannot follow those before it is reported, and only where
there is none the first override that names no registered asset.
-/
namespace LedgerGenesis

/-- Overrides of restrictions, by the id that each names. -/
abbrev Overrides := List (Int × Restrictions)

namespace Registry

open AssetDefinition (screening)

variable {ds : List AssetDefinition} {os : Overrides} {m m' : RestrictionMap} {id : Int} {own s : Restrictions}
  {r : Registry} {e : GenesisError}

/-! ## Overrides in turn -/

/-- The restrictions that an asset ends with: the last override of its id decides, and else its own ones. -/
inductive Settles (os : Overrides) (id : Int) (own : Restrictions) : Restrictions → Prop
  | override {before s after} (h : os = before ++ (id, s) :: after) (hlast : id ∉ after.map Prod.fst) :
      Settles os id own s
  | own (h : id ∉ os.map Prod.fst) : Settles os id own own

/-- What is left of an asset's restrictions after each override in turn. -/
def settled (os : Overrides) (id : Int) (own : Restrictions) : Restrictions :=
  os.foldl (fun r o => if o.1 = id then o.2 else r) own

theorem Settles.append_of_ne {o : Int × Restrictions} (h : Settles os id own s) (ho : o.1 ≠ id) :
    Settles (os ++ [o]) id own s := by
  cases h with
  | @override before _ after hos hlast =>
    have hsplit : os ++ [o] = before ++ (id, s) :: (after ++ [o]) := by simp [hos]
    exact .override hsplit (by simpa [hlast] using Ne.symm ho)
  | own hid => exact .own (by simpa [hid] using Ne.symm ho)

theorem settled_append_singleton {o : Int × Restrictions} :
    settled (os ++ [o]) id own = if o.1 = id then o.2 else settled os id own := by
  simp [settled]

theorem settles_settled (os : Overrides) (id : Int) (own : Restrictions) :
    Settles os id own (settled os id own) := by
  -- the last override comes first here, since it is the one that decides
  induction os using List.reverseRecOn with
  | nil => exact .own List.not_mem_nil
  | append_singleton os o ih =>
    rw [settled_append_singleton]
    by_cases ho : o.1 = id
    · rw [if_pos ho]
      have hsplit : os ++ [o] = os ++ (id, o.2) :: [] := by rw [← ho]
      exact .override hsplit List.not_mem_nil
    · rw [if_neg ho]
      exact ih.append_of_ne ho

theorem settled_of_notMem (h : id ∉ os.map Prod.fst) : settled os id own = own := by
  induction os generalizing own with
  | nil => rfl
  | cons o os ih =>
    rw [List.map_cons, List.mem_cons, not_or] at h
    rw [settled, List.foldl_cons, if_neg (Ne.symm h.1)]
    exact ih h.2

theorem settles_iff : Settles os id own s ↔ s = settled os id own := by
  constructor
  · rintro (@⟨before, _, after, rfl, hlast⟩ | hid)
    · have hafter : settled after id s = s := settled_of_notMem hlast
      rw [settled, List.foldl_append, List.foldl_cons, if_pos rfl]
      exact hafter.symm
    · exact (settled_of_notMem hid).symm
  · rintro rfl
    exact settles_settled os id own

theorem keys_setRestrictions : (setRestrictions id s m).map Prod.fst = m.map Prod.fst := by
  rw [setRestrictions, List.map_map]
  refine List.map_congr_left fun p _ => ?_
  by_cases hp : p.1 = id <;> simp [hp]

theorem settled_setRestrictions (m : RestrictionMap) (os : Overrides) (o : Int × Restrictions) :
    ((setRestrictions o.1 o.2 m).map fun p => (p.1, settled os p.1 p.2)) =
      m.map fun p => (p.1, settled (o :: os) p.1 p.2) := by
  rw [setRestrictions, List.map_map]
  refine List.map_congr_left fun p _ => ?_
  by_cases hp : p.1 = o.1
  · simp [settled, hp]
  · simp [settled, hp, Ne.symm hp]

/-- Overrides pass when each names an asset of the map, and every asset is then settled by itself. -/
theorem override_eq_ok_iff : override m os = .ok m' ↔
    (∀ o ∈ os, o.1 ∈ m.map Prod.fst) ∧ m' = m.map fun p => (p.1, settled os p.1 p.2) := by
  induction os generalizing m with
  | nil => simp [override, settled, eq_comm]
  | cons o os ih =>
    rw [override, List.forall_mem_cons]
    by_cases ho : o.1 ∈ m.map Prod.fst
    · rw [if_pos ho, ih, keys_setRestrictions, settled_setRestrictions, and_iff_right ho]
    · rw [if_neg ho]
      simp [ho]

/-- What is reported is the first override that names no asset of the map. -/
theorem override_eq_error_iff : override m os = .error e ↔ ∃ before o after, os = before ++ o :: after ∧
    (∀ p ∈ before, p.1 ∈ m.map Prod.fst) ∧ o.1 ∉ m.map Prod.fst ∧ e = .restrictionOnUnknownAsset o.1 := by
  induction os generalizing m with
  | nil => simp [override]
  | cons o os ih =>
    rw [override]
    by_cases ho : o.1 ∈ m.map Prod.fst
    · rw [if_pos ho, ih, keys_setRestrictions]
      constructor
      · rintro ⟨before, p, after, rfl, hbefore, hp⟩
        exact ⟨o :: before, p, after, rfl, List.forall_mem_cons.mpr ⟨ho, hbefore⟩, hp⟩
      · rintro ⟨before, p, after, hos, hbefore, hp⟩
        cases before with
        | nil =>
          obtain ⟨rfl, -⟩ := List.cons.inj hos
          exact absurd ho hp.1
        | cons q before =>
          obtain ⟨rfl, rfl⟩ := List.cons.inj hos
          exact ⟨before, p, after, rfl, (List.forall_mem_cons.mp hbefore).2, hp⟩
    · rw [if_neg ho]
      constructor
      · rintro ⟨⟩
        exact ⟨[], o, os, rfl, List.forall_mem_nil _, ho, rfl⟩
      · rintro ⟨before, p, after, hos, hbefore, -, rfl⟩
        cases before with
        | nil =>
          obtain ⟨rfl, -⟩ := List.cons.inj hos
          rfl
        | cons q before =>
          obtain ⟨rfl, -⟩ := List.cons.inj hos
          exact absurd ((List.forall_mem_cons.mp hbefore).1) ho

/-! ## Definitions and overrides -/

/-- No definition takes the reserved id, and no two take the same. -/
structure Admissible (ds : List AssetDefinition) : Prop where
  ids_ne_native : ∀ d ∈ ds, d.id ≠ nativeAsset
  ids_nodup : (ds.map AssetDefinition.id).Nodup

/-- The definitions are registered as they are, in their order, and each asset has its settled restrictions. -/
structure Registers (ds : List AssetDefinition) (os : Overrides) (r : Registry) : Prop where
  entries : r.entries = ds.map fun d => ⟨d.id, d.info, d.isOnline, d.hasMiningRights⟩
  restrictions : List.Forall₂ (fun d p => p.1 = d.id ∧ Settles os d.id d.restrictions p.2) ds r.restrictions

/-- What stops a registration, and the class of that error: the first definition that cannot follow those before it,
for the reserved id rather than for a repeated one, or else the first override that names no definition. -/
inductive Offends (ds : List AssetDefinition) (os : Overrides) : GenesisError.Kind → GenesisError → Prop
  | reserved {before d after} (hds : ds = before ++ d :: after) (hbefore : Admissible before)
      (hid : d.id = nativeAsset) : Offends ds os .reservedAssetId (.reservedAsset d.info.token)
  | duplicate {before d after} (hds : ds = before ++ d :: after) (hbefore : Admissible before)
      (hid : d.id ≠ nativeAsset) (hmem : d.id ∈ before.map AssetDefinition.id) :
      Offends ds os .duplicateAssetId (.duplicateAsset d.id)
  | unknown {before o after} (hds : Admissible ds) (hos : os = before ++ o :: after)
      (hbefore : ∀ p ∈ before, p.1 ∈ ds.map AssetDefinition.id) (hid : o.1 ∉ ds.map AssetDefinition.id) :
      Offends ds os .unknownAssetReference (.restrictionOnUnknownAsset o.1)

theorem clean_iff_admissible : screening.Clean ds ↔ Admissible ds :=
  clean_iff.trans ⟨fun h => ⟨h.1, h.2⟩, fun h => ⟨h.1, h.2⟩⟩

theorem checkIds_eq_ok_iff : checkIds [] ds = .ok () ↔ Admissible ds := by
  have hclean : screening.firstFault [] ds = none ↔ screening.Clean ds :=
    screening.firstFault_eq_none_iff screening.clean_nil
  rw [← clean_iff_admissible, ← hclean, @checkIds_eq [] [] ds (by simp)]
  cases screening.firstFault [] ds <;> simp

theorem checkIds_eq_error_iff : checkIds [] ds = .error e ↔
    ∃ before d after, ds = before ++ d :: after ∧ Admissible before ∧ screening.faultAfter before d = some e := by
  have hfirst : screening.firstFault [] ds = some e ↔ ∃ before d after, ds = before ++ d :: after ∧
      screening.Clean before ∧ screening.faultAfter before d = some e :=
    screening.firstFault_eq_some_iff screening.clean_nil
  simp only [← clean_iff_admissible]
  rw [← hfirst, @checkIds_eq [] [] ds (by simp)]
  cases screening.firstFault [] ds <;> simp

theorem registers_iff : Registers ds os r ↔ r =
    { entries := ds.map AssetDefinition.entry
      restrictions := ds.map fun d => (d.id, settled os d.id d.restrictions) } := by
  have hone : ∀ (d : AssetDefinition) (p : Int × Restrictions),
      p.1 = d.id ∧ Settles os d.id d.restrictions p.2 ↔ (d.id, settled os d.id d.restrictions) = p := by
    intro d p
    rw [settles_iff, Prod.ext_iff, eq_comm, @eq_comm _ p.2]
  have hsettled : List.Forall₂ (fun d p => p.1 = d.id ∧ Settles os d.id d.restrictions p.2) ds r.restrictions ↔
      (ds.map fun d => (d.id, settled os d.id d.restrictions)) = r.restrictions := by
    simp only [hone]
    rw [← List.forall₂_map_left_iff, List.forall₂_eq_eq_eq]
  constructor
  · rintro ⟨hentries, hrestrictions⟩
    rw [hsettled.mp hrestrictions]
    exact congrArg (Registry.mk · r.restrictions) hentries
  · rintro rfl
    exact ⟨rfl, hsettled.mpr rfl⟩

theorem split_eq_ok_iff_registers : split ds os = .ok r ↔
    Admissible ds ∧ (∀ o ∈ os, o.1 ∈ ds.map AssetDefinition.id) ∧ Registers ds os r := by
  simp only [split, bind_eq_ok_iff, pure_eq_ok_iff, override_eq_ok_iff, List.map_map, registers_iff]
  constructor
  · rintro ⟨⟨⟩, hds, _, ⟨hos, rfl⟩, rfl⟩
    exact ⟨checkIds_eq_ok_iff.mp hds, hos, rfl⟩
  · rintro ⟨hds, hos, rfl⟩
    exact ⟨(), checkIds_eq_ok_iff.mpr hds, _, ⟨hos, rfl⟩, rfl⟩

/-- A definition that cannot follow those before it has the reserved id, or else that of an earlier one. -/
theorem faultAfter_eq_some_iff {earlier : List AssetDefinition} {d : AssetDefinition} :
    screening.faultAfter earlier d = some e ↔ d.id = nativeAsset ∧ e = .reservedAsset d.info.token ∨
      d.id ≠ nativeAsset ∧ d.id ∈ earlier.map AssetDefinition.id ∧ e = .duplicateAsset d.id := by
  rw [Screening.faultAfter_eq_some_iff, AssetDefinition.defect_eq_none_iff]
  by_cases hid : d.id = nativeAsset
  · simp [screening, hid, @eq_comm _ e]
  · simp [screening, hid, @eq_comm _ e]

theorem split_eq_error_iff_offends {k : GenesisError.Kind} :
    split ds os = .error e ∧ e.kind = k ↔ Offends ds os k e := by
  have hids : (ds.map fun d => (d.id, d.restrictions)).map Prod.fst = ds.map AssetDefinition.id := by
    rw [List.map_map]
    rfl
  simp only [split, bind_eq_error_iff, pure_ne_error, and_false, exists_false, or_false,
    checkIds_eq_error_iff, override_eq_error_iff, hids, faultAfter_eq_some_iff]
  constructor
  · rintro ⟨⟨before, d, after, hsplit, hbefore, ⟨hid, rfl⟩ | ⟨hid, hmem, rfl⟩⟩ |
      ⟨⟨⟩, hds, before, o, after, hsplit, hbefore, hid, rfl⟩, rfl⟩
    · exact .reserved hsplit hbefore hid
    · exact .duplicate hsplit hbefore hid hmem
    · exact .unknown (checkIds_eq_ok_iff.mp hds) hsplit hbefore hid
  · rintro (⟨hsplit, hbefore, hid⟩ | ⟨hsplit, hbefore, hid, hmem⟩ | ⟨hds, hsplit, hbefore, hid⟩)
    · exact ⟨Or.inl ⟨_, _, _, hsplit, hbefore, Or.inl ⟨hid, rfl⟩⟩, rfl⟩
    · exact ⟨Or.inl ⟨_, _, _, hsplit, hbefore, Or.inr ⟨hid, hmem, rfl⟩⟩, rfl⟩
    · exact ⟨Or.inr ⟨(), checkIds_eq_ok_iff.mpr hds, _, _, _, hsplit, hbefore, hid, rfl⟩, rfl⟩

theorem exists_split_iff : (∃ r, split ds os = .ok r) ↔
    Admissible ds ∧ ∀ o ∈ os, o.1 ∈ ds.map AssetDefinition.id := by
  constructor
  · rintro ⟨r, hr⟩
    obtain ⟨hds, hos, -⟩ := split_eq_ok_iff_registers.mp hr
    exact ⟨hds, hos⟩
  · rintro ⟨hds, hos⟩
    exact ⟨_, split_eq_ok_iff_registers.mpr ⟨hds, hos, registers_iff.mpr rfl⟩⟩

theorem exists_ofDefinitions_iff : (∃ r, ofDefinitions ds os = .ok r) ↔
    Admissible ds ∧ (∀ o ∈ os, o.1 ∈ ds.map AssetDefinition.id) ∧ ShowsTokens ds := by
  simp only [ofDefinitions_eq_ok_iff_split, exists_and_right, exists_split_iff, and_assoc]

/-- The first offence is raised, and where there is none the tokens are reported. -/
theorem ofDefinitions_eq_error_iff_offends {x : Error} : ofDefinitions ds os = .error x ↔
    (∃ k e, Offends ds os k e ∧ x = e.raised) ∨
      Admissible ds ∧ (∀ o ∈ os, o.1 ∈ ds.map AssetDefinition.id) ∧ ¬ ShowsTokens ds ∧
        x = .fault .longNumeral := by
  rw [ofDefinitions_eq_error_iff_split, exists_split_iff, and_assoc]
  refine or_congr_left ⟨?_, ?_⟩
  · rintro ⟨e, he, rfl⟩
    exact ⟨e.kind, e, split_eq_error_iff_offends.mp ⟨he, rfl⟩, rfl⟩
  · rintro ⟨k, e, hoffends, rfl⟩
    exact ⟨e, (split_eq_error_iff_offends.mpr hoffends).1, rfl⟩

def twoAssets : List AssetDefinition :=
  [⟨1, ⟨.text "BTC", .text "Bitcoin", .bitcoin, 8, .text "coin"⟩, ⟨0⟩, true, false⟩,
    ⟨7, ⟨.text "DOT", .text "Polkadot", .polkadot, 10, .text "dot"⟩, ⟨4⟩, false, true⟩]

/-- The second asset is overridden twice. -/
def threeOverrides : Overrides := [(7, ⟨1⟩), (1, ⟨2⟩), (7, ⟨3⟩)]

end Registry

end LedgerGenesis
