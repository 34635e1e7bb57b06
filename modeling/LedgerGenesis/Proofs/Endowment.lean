import LedgerGenesis.Endowment
import LedgerGenesis.Proofs.Json.Showable
import LedgerGenesis.Proofs.Outcome
import Mathlib

/-! # What an allocation returns

Grants that pass are the balances they name, with distinct accounts. The native allocation gives each
account the one amount, so its total is that amount for each of them, and the assets keep their grants in
the order of their ids. The checks come in this order, and the report of the amount and the total is the last.
-/
namespace LedgerGenesis.Endowment

variable {α : Type} {holding : Holding} {seen accounts : List Bytes} {gs : Grants} {bs : Balances}
  {amount : Json} {stake : Int} {grants : List (Int × Grants)} {assets : List (Int × Balances)}
  {e : Endowment}

attribute [local simp] checkGrants insertById sortById

/-- Balances as the grants of their amounts. -/
def asGrants (bs : Balances) : Grants := bs.map fun b => (b.1, .int b.2)

/-- A grant passes when it is of a natural number to a new account. -/
theorem checkGrants_cons_eq_ok_iff {account : Bytes} :
    checkGrants holding seen ((account, amount) :: gs) = .ok bs ↔
      ∃ (n : Nat) (rest : Balances), amount = .int n ∧ account ∉ seen ∧
        checkGrants holding (account :: seen) gs = .ok rest ∧ bs = (account, n) :: rest := by
  cases amount with
  | int z =>
    by_cases hz : z < 0
    · have hn : ∀ n : Nat, z ≠ n := by
        intro n
        omega
      simp [checkGrants, hz, hn]
    · obtain ⟨n, rfl⟩ := Int.eq_ofNat_of_zero_le (Int.not_lt.mp hz)
      by_cases hs : account ∈ seen
      · rw [checkGrants, if_neg hz, if_pos hs]
        simp [hs]
      · rw [checkGrants, if_neg hz, if_neg hs, map_eq_ok_iff]
        constructor
        · rintro ⟨rest, hrest, rfl⟩
          exact ⟨n, rest, rfl, hs, hrest, rfl⟩
        · rintro ⟨m, rest, hm, -, hrest, rfl⟩
          obtain rfl : n = m := Int.ofNat.inj (Json.int.inj hm)
          exact ⟨rest, hrest, rfl⟩
  | _ => simp [checkGrants]

/-- Grants pass exactly when they are those of balances whose accounts are distinct and new. -/
theorem checkGrants_eq_ok_iff : checkGrants holding seen gs = .ok bs ↔
    gs = asGrants bs ∧ (bs.map Prod.fst).Nodup ∧ ∀ b ∈ bs, b.1 ∉ seen := by
  -- each account passed is seen by the rest of the walk, so the claim is for any accounts seen
  induction gs generalizing seen bs with
  | nil => cases bs <;> simp [checkGrants, asGrants]
  | cons g gs ih =>
    obtain ⟨account, amount⟩ := g
    rw [checkGrants_cons_eq_ok_iff]
    constructor
    · rintro ⟨n, rest, rfl, hnew, hrest, rfl⟩
      obtain ⟨rfl, hnodup, hseen⟩ := ih.mp hrest
      have haccount : account ∉ rest.map Prod.fst := by
        intro hm
        obtain ⟨b, hb, rfl⟩ := List.mem_map.mp hm
        exact hseen b hb List.mem_cons_self
      refine ⟨rfl, List.nodup_cons.mpr ⟨haccount, hnodup⟩, fun b hb => ?_⟩
      rcases List.mem_cons.mp hb with rfl | hb
      · exact hnew
      · exact fun hm => hseen b hb (List.mem_cons_of_mem _ hm)
    · rintro ⟨hgs, hnodup, hseen⟩
      cases bs with
      | nil => cases hgs
      | cons b rest =>
        obtain ⟨hg, rfl⟩ := List.cons.inj hgs
        cases hg
        obtain ⟨haccount, hnodup⟩ := List.nodup_cons.mp hnodup
        refine ⟨b.2, rest, rfl, hseen b List.mem_cons_self, ih.mpr ⟨rfl, hnodup, ?_⟩, rfl⟩
        intro c hc hm
        rcases List.mem_cons.mp hm with hcb | hm
        · exact haccount (List.mem_map.mpr ⟨c, hc, hcb⟩)
        · exact hseen c (List.mem_cons_of_mem _ hc) hm

/-! ## Assets in the order of their ids -/

theorem insertById_perm (p : Int × α) (ps : List (Int × α)) : (insertById p ps).Perm (p :: ps) := by
  induction ps with
  | nil => exact List.Perm.refl _
  | cons q ps ih =>
    unfold insertById
    split
    · exact List.Perm.refl _
    · exact (ih.cons q).trans (List.Perm.swap p q ps)

theorem sortById_perm (ps : List (Int × α)) : (sortById ps).Perm ps := by
  induction ps with
  | nil => exact List.Perm.refl _
  | cons p ps ih => exact (insertById_perm p (sortById ps)).trans (ih.cons p)

/-- An asset is allocated when its id can be shown and its grants pass. -/
theorem allocateAsset_eq_ok_iff {id : Int} {a : Int × Balances} : allocateAsset id gs = .ok a ↔
    HasNumeral id ∧ ∃ bs, checkGrants (.asset id) [] gs = .ok bs ∧ (id, bs) = a := by
  simp only [allocateAsset, bind_eq_ok_iff, liftFault_eq_ok_iff, Json.report_eq_ok_iff, exists_and_left,
    exists_const, raising_eq_ok_iff, pure_eq_ok_iff, Holding.ids, List.forall_mem_singleton,
    Json.isShowable_int_iff]

/-- The assets keep their ids and grants, and no account is granted one asset twice. -/
theorem allocateAssets_eq_ok_iff : allocateAssets grants = .ok assets ↔
    sortById grants = (assets.map fun a => (a.1, asGrants a.2)) ∧
      ∀ a ∈ assets, HasNumeral a.1 ∧ (a.2.map Prod.fst).Nodup := by
  refine mapM_eq_ok_iff_eq_map fun g a => ?_
  rw [allocateAsset_eq_ok_iff]
  constructor
  · rintro ⟨hid, bs, hbs, rfl⟩
    obtain ⟨hg, hn, -⟩ := checkGrants_eq_ok_iff.mp hbs
    exact ⟨Prod.ext rfl hg, hid, hn⟩
  · rintro ⟨rfl, hid, hn⟩
    exact ⟨hid, a.2, checkGrants_eq_ok_iff.mpr ⟨rfl, hn, by simp⟩, rfl⟩

/-! ## The native allocation -/

/-- Each account has the amount, once and in their order, and the total is what they have together. -/
structure Allocates (accounts : List Bytes) (n : Int) (e : Endowment) : Prop where
  accounts_nodup : accounts.Nodup
  native : (e.native.map fun b => (b.1, (b.2 : Int))) = accounts.map (·, n)
  total : e.total = (e.native.map Prod.snd).sum

/-- Equal amounts add up to the amount for each of the accounts. -/
theorem sum_of_uniform {n : Int} (h : (bs.map fun b => (b.1, (b.2 : Int))) = accounts.map (·, n)) :
    ((bs.map Prod.snd).sum : Int) = accounts.length * n := by
  induction bs generalizing accounts with
  | nil =>
    cases accounts with
    | nil => simp
    | cons a as => cases h
  | cons b bs ih =>
    cases accounts with
    | nil => cases h
    | cons a as =>
      obtain ⟨hb, hbs⟩ := List.cons.inj h
      have hn : (b.2 : Int) = n := congrArg Prod.snd hb
      have hsum := ih hbs
      rw [List.map_cons, List.sum_cons, List.length_cons, Int.natCast_add, Int.natCast_add, hsum, hn,
        Int.add_mul]
      omega

theorem Allocates.total_eq {n : Int} (h : e.Allocates accounts n) :
    (e.total : Int) = accounts.length * n := by
  rw [h.total]
  exact sum_of_uniform h.native

theorem native_of_asGrants {n : Int} (h : (accounts.map fun a => (a, Json.int n)) = asGrants bs) :
    (bs.map fun b => (b.1, (b.2 : Int))) = accounts.map (·, n) := by
  have hinj : Function.Injective fun p : Bytes × Int => (p.1, Json.int p.2) := by
    intro p q hpq
    obtain ⟨hfst, hsnd⟩ := Prod.mk.inj hpq
    exact Prod.ext hfst (Json.int.inj hsnd)
  refine List.map_injective_iff.mpr hinj ?_
  rw [List.map_map, List.map_map]
  exact h.symm

/-- The amount and the total of an allocation to so many accounts have numerals. -/
def IsReportable (count amount : Nat) : Prop :=
  amount < 10 ^ Numeral.maxDigits ∧ count * amount < 10 ^ Numeral.maxDigits

/-- The balances of the accounts and their total, with the seats that go with them. -/
def ofNative (native : Balances) (stake : Int) (assets : List (Int × Balances)) : Endowment where
  native
  total := (native.map Prod.snd).sum
  technicalMembers := (native.map Prod.fst).take (seats native.length)
  electionsMembers := ((native.map Prod.fst).take (seats native.length)).map (·, stake)
  assets

theorem allocates_ofNative {n : Int} {native : Balances}
    (h : checkGrants .native [] (accounts.map (·, .int n)) = .ok native) :
    (ofNative native stake assets).Allocates accounts n := by
  obtain ⟨hg, hnodup, -⟩ := checkGrants_eq_ok_iff.mp h
  have hnative := native_of_asGrants hg
  have haccounts : native.map Prod.fst = accounts := by
    simpa [Function.comp_def] using congrArg (List.map Prod.fst) hnative
  exact ⟨haccounts ▸ hnodup, hnative, rfl⟩

/-- Whether an allocation can be reported depends on how many accounts have which amount. -/
theorem isReportable_iff {n : Int} {native : Balances}
    (h : checkGrants .native [] (accounts.map (·, .int n)) = .ok native) :
    (∀ v ∈ [Json.int n, .int ((native.map Prod.snd).sum : Nat)], v.isShowable = true) ↔
      IsReportable accounts.length n.natAbs := by
  have htotal : (native.map Prod.snd).sum = accounts.length * n.natAbs := by
    have hallocates : (ofNative native 0 []).Allocates accounts n := allocates_ofNative h
    have habs := congrArg Int.natAbs hallocates.total_eq
    rwa [Int.natAbs_mul, Int.natAbs_natCast, Int.natAbs_natCast] at habs
  rw [htotal, List.forall_mem_cons, List.forall_mem_singleton, Json.isShowable_int_iff, Json.isShowable_int_iff]
  rfl

/-- An allocation checks the native grants, then those of the assets, and reports what it made. -/
theorem allocate_eq_ok_iff : allocate accounts amount stake grants = .ok e ↔
    ∃ n native assets, amount = .int n ∧
      checkGrants .native [] (accounts.map (·, .int n)) = .ok native ∧
        allocateAssets grants = .ok assets ∧ IsReportable accounts.length n.natAbs ∧
          ofNative native stake assets = e := by
  cases amount with
  | int n =>
    simp only [allocate, isInteger, Bool.not_true, Bool.false_eq_true, if_false, bind_eq_ok_iff,
      raising_eq_ok_iff, liftFault_eq_ok_iff, Json.report_eq_ok_iff, exists_const, pure_eq_ok_iff]
    constructor
    · rintro ⟨native, hn, assets, ha, hreport, rfl⟩
      exact ⟨n, native, assets, rfl, hn, ha, (isReportable_iff hn).mp hreport, rfl⟩
    · rintro ⟨m, native, assets, hm, hn, ha, hreport, rfl⟩
      obtain rfl : n = m := Json.int.inj hm
      exact ⟨native, hn, assets, ha, (isReportable_iff hn).mpr hreport, rfl⟩
  | _ => simp [allocate, isInteger, bind, Except.bind]

/-- What fails with an integer is a check of the native grants, then one of the assets, then the report. -/
theorem allocate_int_eq_error_iff {n : Int} {x : Error} :
    allocate accounts (.int n) stake grants = .error x ↔
      (∃ g, checkGrants .native [] (accounts.map (·, .int n)) = .error g ∧ g.raised = x) ∨
        (∃ native, checkGrants .native [] (accounts.map (·, .int n)) = .ok native) ∧
          (allocateAssets grants = .error x ∨ (∃ assets, allocateAssets grants = .ok assets) ∧
            ¬ IsReportable accounts.length n.natAbs ∧ x = .fault .longNumeral) := by
  simp only [allocate, isInteger, Bool.not_true, Bool.false_eq_true, if_false, bind_eq_error_iff,
    raising_eq_ok_iff, raising_eq_error_iff, liftReport_eq_error_iff, pure_ne_error, and_false,
    exists_false, or_false]
  refine or_congr_right ⟨?_, ?_⟩
  · rintro ⟨native, hn, ha | ⟨assets, ha, hreport, rfl⟩⟩
    · exact ⟨⟨native, hn⟩, Or.inl ha⟩
    · exact ⟨⟨native, hn⟩, Or.inr ⟨⟨assets, ha⟩, mt (isReportable_iff hn).mpr hreport, rfl⟩⟩
  · rintro ⟨⟨native, hn⟩, ha | ⟨⟨assets, ha⟩, hreport, rfl⟩⟩
    · exact ⟨native, hn, Or.inl ha⟩
    · exact ⟨native, hn, Or.inr ⟨assets, ha, mt (isReportable_iff hn).mp hreport, rfl⟩⟩

theorem allocate_eq_ok (h : allocate accounts amount stake grants = .ok e) :
    (∃ n, amount = .int n ∧ e.Allocates accounts n) ∧ allocateAssets grants = .ok e.assets := by
  obtain ⟨n, native, assets, rfl, hn, ha, -, rfl⟩ := allocate_eq_ok_iff.mp h
  exact ⟨⟨n, rfl, allocates_ofNative hn⟩, ha⟩

/-- What is allocated has been reported. -/
theorem hasNumeral_of_allocate (h : allocate accounts amount stake grants = .ok e) :
    HasNumeral e.total ∧ ∀ a ∈ e.assets, HasNumeral a.1 := by
  obtain ⟨n, native, assets, rfl, hn, ha, hreport, rfl⟩ := allocate_eq_ok_iff.mp h
  have htotal := (isReportable_iff hn).mpr hreport _ (List.mem_cons_of_mem _ List.mem_cons_self)
  exact ⟨Json.isShowable_int_iff.mp htotal, fun a hm => ((allocateAssets_eq_ok_iff.mp ha).2 a hm).1⟩

theorem Allocates.accounts_eq {n : Int} (h : e.Allocates accounts n) : e.accounts = accounts := by
  simpa [Endowment.accounts, Function.comp_def] using congrArg (List.map Prod.fst) h.native

/-- The first accounts get the seats of the technical committee, and the same ones those of the council. -/
theorem seats_of_allocate (h : allocate accounts amount stake grants = .ok e) :
    e.accounts = accounts ∧ e.technicalMembers = accounts.take (seats accounts.length) ∧
      e.electionsMembers = e.technicalMembers.map (·, stake) := by
  obtain ⟨⟨n, -, hallocates⟩, -⟩ := allocate_eq_ok h
  have haccounts := hallocates.accounts_eq
  obtain ⟨n, native, assets, -, -, -, -, rfl⟩ := allocate_eq_ok_iff.mp h
  refine ⟨haccounts, ?_, rfl⟩
  rw [← haccounts, Endowment.accounts, List.length_map]
  rfl

/-- The seats of the technical committee are for endowed accounts, and the council has the same ones. -/
theorem members_of_allocate (h : allocate accounts amount stake grants = .ok e) :
    e.technicalMembers <+: e.accounts ∧ e.electionsMembers.map Prod.fst = e.technicalMembers := by
  obtain ⟨haccounts, htechnical, helected⟩ := seats_of_allocate h
  refine ⟨?_, ?_⟩
  · rw [haccounts, htechnical]
    exact List.take_prefix _ _
  · rw [helected, List.map_map]
    exact List.map_id _

/-- Another stake is reserved by each seat of the council, and nothing else changes. -/
theorem allocate_withStake (h : allocate accounts amount stake grants = .ok e) (stake' : Int) :
    allocate accounts amount stake' grants =
      .ok { e with electionsMembers := e.technicalMembers.map (·, stake') } := by
  obtain ⟨n, native, assets, hamount, hn, ha, hreport, rfl⟩ := allocate_eq_ok_iff.mp h
  exact allocate_eq_ok_iff.mpr ⟨n, native, assets, hamount, hn, ha, hreport, rfl⟩

/-! ## Refusals -/

theorem checkGrants_uniform_eq_error {n : Nat} {g : GenesisError}
    (h : checkGrants holding seen (accounts.map fun a => (a, .int n)) = .error g) :
    ∃ a, g = .duplicateEndowment holding a := by
  induction accounts generalizing seen with
  | nil => cases h
  | cons a accounts ih =>
    rw [List.map_cons, checkGrants, if_neg (Int.not_lt.mpr (Int.natCast_nonneg n))] at h
    by_cases ha : a ∈ seen
    · rw [if_pos ha] at h
      cases h
      exact ⟨a, rfl⟩
    · rw [if_neg ha, map_eq_error_iff] at h
      exact ih h

/-- Without assets, the checks of the native grants come before the report and nothing is between them. -/
theorem allocate_nil_eq_error_iff {n : Int} {x : Error} : allocate accounts (.int n) stake [] = .error x ↔
    (∃ g, checkGrants .native [] (accounts.map (·, .int n)) = .error g ∧ g.raised = x) ∨
      (∃ native, checkGrants .native [] (accounts.map (·, .int n)) = .ok native) ∧
        ¬ IsReportable accounts.length n.natAbs ∧ x = .fault .longNumeral := by
  have hok : allocateAssets [] = .ok [] := rfl
  simp only [allocate_int_eq_error_iff, hok, reduceCtorEq, false_or, Except.ok.injEq, exists_eq', true_and]

/-- Where the report has its numerals and there are no assets, what fails is about a repeated account. -/
theorem allocate_eq_error_of_isReportable {n : Nat} {x : Error} (h : IsReportable accounts.length n)
    (hx : allocate accounts (.int n) stake [] = .error x) : ∃ g, x = .genesis g := by
  obtain ⟨g, hg, rfl⟩ | ⟨-, hreport, -⟩ := allocate_nil_eq_error_iff.mp hx
  · -- the text about a repeated account has no numeral
    obtain ⟨a, rfl⟩ := checkGrants_uniform_eq_error hg
    exact ⟨_, GenesisError.raised_of_isShowable rfl⟩
  · exact absurd h hreport

end LedgerGenesis.Endowment
