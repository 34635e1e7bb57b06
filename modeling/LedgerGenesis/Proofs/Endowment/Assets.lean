import LedgerGenesis.Proofs.Endowment
import LedgerGenesis.Proofs.Screening

/-! # Assets are endowed in the order of their ids

The grants of one asset are screened for their amounts and for repeated accounts. The assets are put in the
order of their ids before any of them is looked at, so neither what is endowed nor what is refused depends on
the order in which they are given: the refusal is about the smallest id whose grants do not pass.
-/
namespace LedgerGenesis

/-- Every grant is of a natural number, and no account has two. -/
structure Grants.Valid (gs : Grants) : Prop where
  amounts : ∀ g ∈ gs, ∃ n : Int, g.2 = .int n ∧ 0 ≤ n
  accounts_nodup : (gs.map Prod.fst).Nodup

/-- Why a grant cannot follow the earlier ones. An amount that is no integer goes before a negative one, and
this before an account that has a grant already. -/
inductive Grants.Refuses (holding : Holding) (earlier : Grants) : Bytes × Json → GenesisError → Prop
  | notInteger {account : Bytes} {amount : Json} (hamount : ∀ n, amount ≠ .int n) :
      Refuses holding earlier (account, amount) (.amountNotInteger holding amount)
  | negative {account : Bytes} {n : Int} (hn : n < 0) :
      Refuses holding earlier (account, .int n) (.negativeEndowment holding n account)
  | duplicate {account : Bytes} {n : Int} (hn : 0 ≤ n) (haccount : account ∈ earlier.map Prod.fst) :
      Refuses holding earlier (account, .int n) (.duplicateEndowment holding account)

/-- A grant is of a natural number, and to another account than the earlier ones. -/
def Grants.screening (holding : Holding) : Screening (Bytes × Json) Bytes GenesisError where
  defect g :=
    match g.2 with
    | .int n => if n < 0 then some fun _ => .negativeEndowment holding n g.1 else none
    | amount => some fun _ => .amountNotInteger holding amount
  key := Prod.fst
  repeated g := .duplicateEndowment holding g.1

namespace Endowment

open Grants (Valid Refuses screening)

variable {α : Type} {holding : Holding} {seen : List Bytes} {earlier gs : Grants} {g : Bytes × Json}
  {bs : Balances} {e : GenesisError} {ps qs : List (Int × α)} {grants : List (Int × Grants)}
  {assets : List (Int × Balances)} {id : Int} {x : Error}

/-! ## The grants of one asset -/

theorem defect_eq_none_iff :
    (screening holding).defect g = none ↔ ∃ n : Int, g.2 = .int n ∧ 0 ≤ n := by
  obtain ⟨account, amount⟩ := g
  cases amount with
  | int n => simp [screening]
  | _ => simp [screening]

theorem clean_iff_valid : (screening holding).Clean gs ↔ Valid gs := by
  constructor
  · rintro ⟨hdefects, hkeys⟩
    exact ⟨fun g hg => defect_eq_none_iff.mp (hdefects g hg), hkeys⟩
  · rintro ⟨hamounts, hnodup⟩
    exact ⟨fun g hg => defect_eq_none_iff.mpr (hamounts g hg), hnodup⟩

theorem faultAfter_eq_some_iff_refuses :
    (screening holding).faultAfter earlier g = some e ↔ Refuses holding earlier g e := by
  obtain ⟨account, amount⟩ := g
  rw [Screening.faultAfter_eq_some_iff]
  constructor
  · rintro (⟨fault, hdefect, rfl⟩ | ⟨hnone, haccount, rfl⟩)
    · cases amount with
      | int n =>
        obtain ⟨hn, hfault⟩ := Option.ite_none_right_eq_some.mp hdefect
        cases hfault
        exact .negative hn
      | _ =>
        cases hdefect
        exact .notInteger (by simp)
    · obtain ⟨n, rfl, hn⟩ := defect_eq_none_iff.mp hnone
      exact .duplicate hn haccount
  · rintro (hamount | hn | ⟨hn, haccount⟩)
    · cases amount with
      | int n => exact absurd rfl (hamount n)
      | _ => exact Or.inl ⟨_, rfl, rfl⟩
    · exact Or.inl ⟨_, if_pos hn, rfl⟩
    · exact Or.inr ⟨defect_eq_none_iff.mpr ⟨_, rfl, hn⟩, haccount, rfl⟩

theorem checkGrants_of_refuses (hs : ∀ a, a ∈ seen ↔ a ∈ earlier.map Prod.fst)
    (h : Refuses holding earlier g e) : checkGrants holding seen (g :: gs) = .error e := by
  cases h with
  | @notInteger account amount hamount =>
    cases amount with
    | int n => exact absurd rfl (hamount n)
    | _ => rfl
  | negative hn => exact if_pos hn
  | duplicate hn haccount =>
    have hseen := (hs _).mpr haccount
    rw [checkGrants, if_neg (not_lt.mpr hn), if_pos hseen]

theorem checkGrants_of_not_refuses (hs : ∀ a, a ∈ seen ↔ a ∈ earlier.map Prod.fst)
    (h : (screening holding).faultAfter earlier g = none) (gs : Grants) : ∃ n : Nat,
      checkGrants holding seen (g :: gs) =
        (checkGrants holding (g.1 :: seen) gs).map ((g.1, n) :: ·) := by
  obtain ⟨account, amount⟩ := g
  obtain ⟨hdefect, hkey⟩ := (screening holding).faultAfter_eq_none_iff.mp h
  obtain ⟨n, rfl, hn⟩ := defect_eq_none_iff.mp hdefect
  have hnew : account ∉ seen := mt (hs account).mp hkey
  refine ⟨n.toNat, ?_⟩
  rw [checkGrants, if_neg (not_lt.mpr hn), if_neg hnew]

/-- The walk over the grants is their screening. -/
theorem checkGrants_eq_error_iff_firstFault (hs : ∀ a, a ∈ seen ↔ a ∈ earlier.map Prod.fst) :
    checkGrants holding seen gs = .error e ↔
      (screening holding).firstFault earlier gs = some e := by
  -- the accounts seen are those of the earlier grants, to which each grant that passes is added
  induction gs generalizing seen earlier with
  | nil => simp [checkGrants, Screening.firstFault]
  | cons g gs ih =>
    rw [Screening.firstFault]
    cases hg : (screening holding).faultAfter earlier g with
    | some d =>
      rw [checkGrants_of_refuses hs (faultAfter_eq_some_iff_refuses.mp hg)]
      simp
    | none =>
      obtain ⟨n, hstep⟩ := checkGrants_of_not_refuses hs hg gs
      have hs' : ∀ a, a ∈ g.1 :: seen ↔ a ∈ (earlier ++ [g]).map Prod.fst := by
        intro a
        simp [hs a, or_comm]
      rw [hstep, ← ih hs']
      cases checkGrants holding (g.1 :: seen) gs <;> simp [Except.map]

/-- What is refused is the first grant that cannot follow those before it. -/
theorem checkGrants_eq_error_iff : checkGrants holding [] gs = .error e ↔
    ∃ before g after, gs = before ++ g :: after ∧ Valid before ∧ Refuses holding before g e := by
  have hstart : ∀ a : Bytes, a ∈ [] ↔ a ∈ ([] : Grants).map Prod.fst := by simp
  rw [checkGrants_eq_error_iff_firstFault hstart,
    (screening holding).firstFault_eq_some_iff (screening holding).clean_nil]
  simp only [List.nil_append, clean_iff_valid, faultAfter_eq_some_iff_refuses]

theorem exists_checkGrants_iff : (∃ bs, checkGrants holding [] gs = .ok bs) ↔ Valid gs := by
  have hclean : (screening holding).firstFault [] gs = none ↔ Valid gs := by
    rw [(screening holding).firstFault_eq_none_iff (screening holding).clean_nil, List.nil_append,
      clean_iff_valid]
  have herror : ∀ e, checkGrants holding [] gs = .error e ↔ (screening holding).firstFault [] gs = some e :=
    fun e => checkGrants_eq_error_iff_firstFault (by simp)
  rw [← hclean, Option.eq_none_iff_forall_ne_some]
  cases h : checkGrants holding [] gs with
  | ok bs =>
    refine iff_of_true ⟨bs, rfl⟩ fun e he => ?_
    rw [(herror e).mpr he] at h
    cases h
  | error e => exact iff_of_false (by simp) fun hne => hne e ((herror e).mp h)

/-! ## Ids in increasing order -/

theorem insertById_pairwise {p : Int × α} (hp : p.1 ∉ ps.map Prod.fst)
    (h : ps.Pairwise fun q r => q.1 < r.1) : (insertById p ps).Pairwise fun q r => q.1 < r.1 := by
  induction ps with
  | nil => exact List.pairwise_singleton _ _
  | cons q ps ih =>
    obtain ⟨hq, hps⟩ := List.pairwise_cons.mp h
    simp only [List.map_cons, List.mem_cons, not_or] at hp
    unfold insertById
    split
    next hle =>
      have hlt : p.1 < q.1 := lt_of_le_of_ne hle hp.1
      refine List.pairwise_cons.mpr ⟨List.forall_mem_cons.mpr ⟨hlt, fun r hr => ?_⟩, h⟩
      exact hlt.trans (hq r hr)
    next hle =>
      refine List.pairwise_cons.mpr ⟨fun r hr => ?_, ih hp.2 hps⟩
      rcases List.mem_cons.mp ((insertById_perm p ps).mem_iff.mp hr) with rfl | hr
      · exact not_le.mp hle
      · exact hq r hr

/-- Distinct ids are put in strictly increasing order. -/
theorem sortById_pairwise (h : (ps.map Prod.fst).Nodup) :
    (sortById ps).Pairwise fun p q => p.1 < q.1 := by
  induction ps with
  | nil => exact List.Pairwise.nil
  | cons p ps ih =>
    obtain ⟨hp, hps⟩ := List.nodup_cons.mp h
    have hids : p.1 ∉ (sortById ps).map Prod.fst :=
      mt (((sortById_perm ps).map Prod.fst).mem_iff.mp) hp
    exact insertById_pairwise hids (ih hps)

/-- The order in which distinct ids are given does not matter. -/
theorem sortById_eq_of_perm (h : (ps.map Prod.fst).Nodup) (hp : qs.Perm ps) :
    sortById qs = sortById ps := by
  have hqs : (qs.map Prod.fst).Nodup := (hp.map Prod.fst).nodup_iff.mpr h
  have hperm : (sortById qs).Perm (sortById ps) :=
    ((sortById_perm qs).trans hp).trans (sortById_perm ps).symm
  refine List.Perm.eq_of_pairwise (fun p q _ _ hpq hqp => ?_) (sortById_pairwise hqs)
    (sortById_pairwise h) hperm
  exact absurd hqp (not_lt.mpr hpq.le)

/-! ## All assets -/

/-- Why an asset is refused. Its id cannot be shown, or else a grant cannot follow those before it. -/
inductive RefusesAsset (id : Int) (gs : Grants) : Error → Prop
  | unnumbered (hid : ¬ HasNumeral id) : RefusesAsset id gs (.fault .longNumeral)
  | grant {before : Grants} {g : Bytes × Json} {after : Grants} {e : GenesisError} (hid : HasNumeral id)
      (hgs : gs = before ++ g :: after) (hbefore : Valid before) (hg : Refuses (.asset id) before g e) :
      RefusesAsset id gs e.raised

/-- The smallest id that is refused gives the error. -/
def RefusesFirst (grants : List (Int × Grants)) (x : Error) : Prop :=
  ∃ p ∈ grants, (∀ q ∈ grants, q.1 < p.1 → HasNumeral q.1 ∧ Valid q.2) ∧ RefusesAsset p.1 p.2 x

theorem exists_allocateAsset_iff : (∃ a, allocateAsset id gs = .ok a) ↔ HasNumeral id ∧ Valid gs := by
  have hvalid : (∃ bs, checkGrants (.asset id) [] gs = .ok bs) ↔ Valid gs := exists_checkGrants_iff
  simp only [allocateAsset_eq_ok_iff, exists_and_left, ← hvalid]
  exact and_congr_right fun _ => ⟨fun ⟨_, bs, hbs, _⟩ => ⟨bs, hbs⟩, fun ⟨bs, hbs⟩ => ⟨_, bs, hbs, rfl⟩⟩

theorem allocateAsset_eq_error_iff : allocateAsset id gs = .error x ↔ RefusesAsset id gs x := by
  simp only [allocateAsset, bind_eq_error_iff, liftReport_eq_error_iff, liftFault_eq_ok_iff,
    Json.report_eq_ok_iff, exists_and_left, exists_const, raising_eq_error_iff, pure_ne_error, and_false,
    or_false, checkGrants_eq_error_iff, Holding.ids, List.forall_mem_singleton,
    Json.isShowable_int_iff]
  constructor
  · rintro (⟨hid, rfl⟩ | ⟨hid, e, ⟨before, g, after, hgs, hbefore, hg⟩, rfl⟩)
    · exact .unnumbered hid
    · exact .grant hid hgs hbefore hg
  · rintro (hid | ⟨hid, hgs, hbefore, hg⟩)
    · exact Or.inl ⟨hid, rfl⟩
    · exact Or.inr ⟨hid, _, ⟨_, _, _, hgs, hbefore, hg⟩, rfl⟩

theorem exists_allocateAssets_iff : (∃ assets, allocateAssets grants = .ok assets) ↔
    (∀ p ∈ grants, Valid p.2) ∧ ∀ p ∈ grants, HasNumeral p.1 := by
  unfold allocateAssets
  rw [exists_mapM_eq_ok_iff]
  simp only [exists_allocateAsset_iff, (sortById_perm grants).mem_iff]
  exact forall₂_and.trans and_comm

theorem allocateAssets_eq_error_iff (h : (grants.map Prod.fst).Nodup) :
    allocateAssets grants = .error x ↔ RefusesFirst grants x := by
  have hmem : ∀ p, p ∈ sortById grants ↔ p ∈ grants := fun _ => (sortById_perm grants).mem_iff
  unfold allocateAssets
  simp only [mapM_eq_error_iff, exists_allocateAsset_iff, allocateAsset_eq_error_iff]
  constructor
  · rintro ⟨front, p, back, hsplit, hfront, hp⟩
    refine ⟨p, (hmem _).mp (by simp [hsplit]), fun q hq hlt => ?_, hp⟩
    -- ids grow along the list, so a smaller one stands in front
    have hsorted := sortById_pairwise h
    rw [hsplit] at hsorted
    have hback := (List.pairwise_cons.mp (List.pairwise_append.mp hsorted).2.1).1
    rw [← hmem, hsplit] at hq
    rcases List.mem_append.mp hq with hq | hq
    · exact hfront q hq
    · rcases List.mem_cons.mp hq with rfl | hq
      · exact absurd hlt (lt_irrefl _)
      · exact absurd hlt (not_lt.mpr (hback q hq).le)
  · rintro ⟨p, hp, hsmaller, hrefuses⟩
    obtain ⟨front, back, hsplit⟩ := List.append_of_mem ((hmem _).mpr hp)
    refine ⟨front, p, back, hsplit, fun q hq => ?_, hrefuses⟩
    have hsorted := sortById_pairwise h
    rw [hsplit] at hsorted
    have hlt := (List.pairwise_append.mp hsorted).2.2 q hq _ List.mem_cons_self
    exact hsmaller q ((hmem q).mp (by simp [hsplit, hq])) hlt

/-- Grants that pass are refused only under an id that cannot be shown. -/
theorem eq_longNumeral_of_valid (hgrants : ∀ p ∈ grants, Valid p.2) (h : allocateAssets grants = .error x) :
    x = .fault .longNumeral := by
  obtain ⟨p, hp, hx⟩ := exists_mem_of_mapM_eq_error h
  obtain hid | ⟨-, hgs, hbefore, hg⟩ := allocateAsset_eq_error_iff.mp hx
  · rfl
  · have hrefused := checkGrants_eq_error_iff.mpr ⟨_, _, _, hgs, hbefore, hg⟩
    obtain ⟨bs, hbs⟩ := exists_checkGrants_iff.mpr (hgrants p ((sortById_perm grants).mem_iff.mp hp))
    cases hrefused.symm.trans hbs

/-- What is endowed has the ids of the mapping in strictly increasing order. -/
theorem ids_of_allocateAssets (h : (grants.map Prod.fst).Nodup)
    (ha : allocateAssets grants = .ok assets) : (assets.map Prod.fst).Pairwise (· < ·) := by
  have hsorted := sortById_pairwise h
  rw [(allocateAssets_eq_ok_iff.mp ha).1, List.pairwise_map] at hsorted
  exact List.pairwise_map.mpr hsorted

theorem allocateAssets_eq_of_perm {grants' : List (Int × Grants)} (h : (grants.map Prod.fst).Nodup)
    (hp : grants'.Perm grants) : allocateAssets grants' = allocateAssets grants := by
  unfold allocateAssets
  rw [sortById_eq_of_perm h hp]

theorem allocate_eq_of_perm {grants' : List (Int × Grants)} (h : (grants.map Prod.fst).Nodup)
    (hp : grants'.Perm grants) (accounts : List Bytes) (amount : Json) (stake : Int) :
    allocate accounts amount stake grants' = allocate accounts amount stake grants := by
  unfold allocate
  rw [allocateAssets_eq_of_perm h hp]

/-- The last grant of the smaller id is of a negative amount, and the account has a grant already. -/
def crossedGrants : List (Int × Grants) :=
  [(7, [([1], .text "x")]), (-3, [([1], .int 5), ([2], .int 6), ([1], .int (-2))])]

end Endowment

end LedgerGenesis
