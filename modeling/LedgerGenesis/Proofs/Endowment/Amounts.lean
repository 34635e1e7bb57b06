import LedgerGenesis.Proofs.Endowment.Assets

/-! # Which amounts a native allocation refuses

An amount that is no integer is refused whatever the accounts are. A negative one is refused at the first account,
so that it passes where there is none, and a repeated account is refused under the other amounts only. What passes
is endowed. Where the report or the text of a refusal lacks a numeral, neither is made.
-/
namespace LedgerGenesis.Endowment

open Grants (Valid Refuses)

variable {accounts : List Bytes} {amount : Json} {n stake : Int} {g : GenesisError} {k : GenesisError.Kind}
  {r : Except Error Endowment}

/-- The accounts are distinct, and where there is one the amount is not negative. -/
structure Endowable (accounts : List Bytes) (n : Int) : Prop where
  accounts_nodup : accounts.Nodup
  nonneg : accounts ≠ [] → 0 ≤ n

/-- An allocation ends in an error of the class. -/
def Refused (r : Except Error Endowment) (k : GenesisError.Kind) : Prop :=
  ∃ g, r = .error (.genesis g) ∧ g.kind = k

/-- Each class of error has its condition, and so has a success. What is left are the faults: a report of a passing
amount, or a refusal that shows its amount, lacks a numeral. -/
structure Decides (accounts : List Bytes) (amount : Json) (r : Except Error Endowment) : Prop where
  invalid_iff : Refused r .invalidEndowmentAmount ↔ (∀ n, amount ≠ .int n) ∧ amount.isShowable = true
  negative_iff : Refused r .negativeEndowment ↔
    accounts ≠ [] ∧ ∃ n < 0, amount = .int n ∧ amount.isShowable = true
  duplicate_iff : Refused r .duplicateEndowment ↔ ¬ accounts.Nodup ∧ ∃ n ≥ 0, amount = .int n
  ok_iff : (∃ e, r = .ok e) ↔
    ∃ n, amount = .int n ∧ Endowable accounts n ∧ IsReportable accounts.length n.natAbs
  fault_iff : (∃ f, r = .error (.fault f)) ↔
    (∃ n, amount = .int n ∧ Endowable accounts n ∧ ¬ IsReportable accounts.length n.natAbs) ∨
      (∀ n, amount = .int n → n < 0 ∧ accounts ≠ []) ∧ ¬ amount.isShowable = true

theorem valid_uniform_iff : Valid (accounts.map fun a => (a, .int n)) ↔ Endowable accounts n := by
  have haccounts : (accounts.map fun a => (a, Json.int n)).map Prod.fst = accounts := by
    simp [Function.comp_def]
  constructor
  · rintro ⟨hamounts, hnodup⟩
    refine ⟨haccounts ▸ hnodup, fun hne => ?_⟩
    obtain ⟨a, ha⟩ := List.exists_mem_of_ne_nil _ hne
    obtain ⟨m, hm, hm0⟩ := hamounts (a, .int n) (List.mem_map_of_mem ha)
    obtain rfl : n = m := Json.int.inj hm
    exact hm0
  · rintro ⟨hnodup, hn⟩
    refine ⟨List.forall_mem_map.mpr fun a ha => ?_, haccounts.symm ▸ hnodup⟩
    exact ⟨n, rfl, hn (List.ne_nil_of_mem ha)⟩

theorem exists_native_iff :
    (∃ native, checkGrants .native [] (accounts.map (·, .int n)) = .ok native) ↔ Endowable accounts n :=
  exists_checkGrants_iff.trans valid_uniform_iff

theorem endowable_iff_of_neg (hn : n < 0) : Endowable accounts n ↔ accounts = [] := by
  constructor
  · intro h
    by_contra hne
    exact absurd (h.nonneg hne) (not_le.mpr hn)
  · rintro rfl
    exact ⟨List.nodup_nil, fun hne => absurd rfl hne⟩

theorem endowable_iff_of_nonneg (hn : 0 ≤ n) : Endowable accounts n ↔ accounts.Nodup :=
  ⟨fun h => h.accounts_nodup, fun h => ⟨h, fun _ => hn⟩⟩

/-! ## The ways to end -/

theorem allocate_of_endowable (h : Endowable accounts n) (hreport : IsReportable accounts.length n.natAbs) :
    ∃ e, allocate accounts (.int n) stake [] = .ok e := by
  obtain ⟨native, hn⟩ := exists_native_iff.mpr h
  exact ⟨_, allocate_eq_ok_iff.mpr ⟨n, native, [], rfl, hn, rfl, hreport, rfl⟩⟩

theorem allocate_of_not_isReportable (h : Endowable accounts n)
    (hreport : ¬ IsReportable accounts.length n.natAbs) :
    allocate accounts (.int n) stake [] = .error (.fault .longNumeral) :=
  allocate_nil_eq_error_iff.mpr (Or.inr ⟨exists_native_iff.mpr h, hreport, rfl⟩)

theorem allocate_of_not_integer (h : ∀ n, amount ≠ .int n) :
    allocate accounts amount stake [] = .error (GenesisError.amountNotInteger .native amount).raised := by
  cases amount with
  | int n => exact absurd rfl (h n)
  | _ => rfl

/-- The first account is refused a negative amount, and any other amount is refused to a repeated account. -/
theorem allocate_of_not_endowable (h : ¬ Endowable accounts n) :
    ∃ a, allocate accounts (.int n) stake [] = .error (GenesisError.raised
      (if n < 0 then .negativeEndowment .native n a else .duplicateEndowment .native a)) := by
  obtain ⟨g, hg⟩ := exists_error_of_ne_ok (not_exists.mp (mt exists_native_iff.mp h))
  obtain ⟨before, grant, after, hsplit, -, hrefuses⟩ := checkGrants_eq_error_iff.mp hg
  have hmem : grant ∈ accounts.map fun a => (a, Json.int n) := by
    rw [hsplit]
    simp
  obtain ⟨a, -, rfl⟩ := List.mem_map.mp hmem
  refine ⟨a, allocate_nil_eq_error_iff.mpr (Or.inl ⟨g, hg, ?_⟩)⟩
  cases hrefuses with
  | notInteger hamount => exact absurd rfl (hamount n)
  | negative hn => rw [if_pos hn]
  | duplicate hn _ => rw [if_neg (not_lt.mpr hn)]

/-! ## Which of them it is -/

theorem refused_raised_iff (hr : r = .error g.raised) : Refused r k ↔ g.kind = k ∧ g.isShowable = true := by
  subst hr
  simp [Refused, GenesisError.raised_eq_genesis_iff, and_comm]

theorem fault_raised_iff (hr : r = .error g.raised) :
    (∃ f, r = .error (.fault f)) ↔ ¬ g.isShowable = true := by
  subst hr
  simp [GenesisError.raised_eq_fault_iff]

theorem not_ok_raised (hr : r = .error g.raised) : ¬ ∃ e, r = .ok e := by
  subst hr
  simp

theorem isShowable_amountNotInteger :
    (GenesisError.amountNotInteger .native amount).isShowable = amount.isShowable := Bool.and_true _

theorem isShowable_negativeEndowment {a : Bytes} :
    (GenesisError.negativeEndowment .native n a).isShowable = (Json.int n).isShowable := Bool.and_true _

theorem decides_of_not_integer (h : ∀ n, amount ≠ .int n)
    (hr : r = .error (GenesisError.amountNotInteger .native amount).raised) : Decides accounts amount r where
  invalid_iff := by
    rw [refused_raised_iff hr, isShowable_amountNotInteger]
    exact and_congr_left fun _ => iff_of_true rfl h
  negative_iff := iff_of_false (by simp [refused_raised_iff hr, GenesisError.kind])
    fun ⟨_, n, _, hn, _⟩ => h n hn
  duplicate_iff := iff_of_false (by simp [refused_raised_iff hr, GenesisError.kind]) fun ⟨_, n, _, hn⟩ => h n hn
  ok_iff := iff_of_false (not_ok_raised hr) fun ⟨n, hn, _⟩ => h n hn
  fault_iff := by
    rw [fault_raised_iff hr, isShowable_amountNotInteger]
    constructor
    · exact fun hnot => Or.inr ⟨fun n hn => absurd hn (h n), hnot⟩
    · rintro (⟨n, hn, -⟩ | ⟨-, hnot⟩)
      · exact absurd hn (h n)
      · exact hnot

theorem decides_of_negative {a : Bytes} (hn : n < 0) (hne : accounts ≠ [])
    (hr : r = .error (GenesisError.negativeEndowment .native n a).raised) : Decides accounts (.int n) r where
  invalid_iff := iff_of_false (by simp [refused_raised_iff hr, GenesisError.kind]) (by simp)
  negative_iff := by
    rw [refused_raised_iff hr, isShowable_negativeEndowment]
    exact ⟨fun ⟨_, hw⟩ => ⟨hne, n, hn, rfl, hw⟩, fun ⟨_, _, _, _, hw⟩ => ⟨rfl, hw⟩⟩
  duplicate_iff := iff_of_false (by simp [refused_raised_iff hr, GenesisError.kind]) (by simp [hn])
  ok_iff := iff_of_false (not_ok_raised hr) (by simp [endowable_iff_of_neg hn, hne])
  fault_iff := by
    rw [fault_raised_iff hr, isShowable_negativeEndowment]
    constructor
    · exact fun hnot => Or.inr ⟨fun m hm => Json.int.inj hm ▸ ⟨hn, hne⟩, hnot⟩
    · rintro (⟨m, hm, hendowable, -⟩ | ⟨-, hnot⟩)
      · obtain rfl : n = m := Json.int.inj hm
        exact absurd ((endowable_iff_of_neg hn).mp hendowable) hne
      · exact hnot

theorem decides_of_repeated {a : Bytes} (hn : 0 ≤ n) (hdup : ¬ accounts.Nodup)
    (hr : r = .error (GenesisError.duplicateEndowment .native a).raised) : Decides accounts (.int n) r where
  invalid_iff := iff_of_false (by simp [refused_raised_iff hr, GenesisError.kind]) (by simp)
  negative_iff := iff_of_false (by simp [refused_raised_iff hr, GenesisError.kind]) (by simp [hn])
  duplicate_iff := (refused_raised_iff hr).trans (iff_of_true ⟨rfl, rfl⟩ ⟨hdup, n, hn, rfl⟩)
  ok_iff := iff_of_false (not_ok_raised hr) (by simp [endowable_iff_of_nonneg hn, hdup])
  fault_iff := iff_of_false (fun h => (fault_raised_iff hr).mp h rfl)
    (by simp [endowable_iff_of_nonneg hn, hdup, hn])

theorem decides_of_endowable (h : Endowable accounts n) (hr : ∀ g, r ≠ .error (.genesis g))
    (hok : (∃ e, r = .ok e) ↔ IsReportable accounts.length n.natAbs)
    (hfault : (∃ f, r = .error (.fault f)) ↔ ¬ IsReportable accounts.length n.natAbs) :
    Decides accounts (.int n) r where
  invalid_iff := iff_of_false (fun ⟨g, hg, _⟩ => hr g hg) (by simp)
  negative_iff := by
    refine iff_of_false (fun ⟨g, hg, _⟩ => hr g hg) ?_
    rintro ⟨hne, m, hm, hamount, -⟩
    obtain rfl : n = m := Json.int.inj hamount
    exact absurd (h.nonneg hne) (not_le.mpr hm)
  duplicate_iff := iff_of_false (fun ⟨g, hg, _⟩ => hr g hg) (by simp [h.accounts_nodup])
  ok_iff := by simp [hok, h]
  fault_iff := by
    have hnot : ¬ (n < 0 ∧ accounts ≠ []) := fun ⟨hn, hne⟩ => absurd (h.nonneg hne) (not_le.mpr hn)
    simp [hfault, h, hnot]

/-- Without assets, an allocation refuses an amount that is no integer, a negative amount where there is an account,
and a repeated account under the other amounts. It is made in all other cases, unless a numeral is lacking. -/
theorem allocate_decides (accounts : List Bytes) (amount : Json) (stake : Int) :
    Decides accounts amount (allocate accounts amount stake []) := by
  by_cases hamount : ∀ n, amount ≠ .int n
  · exact decides_of_not_integer hamount (allocate_of_not_integer hamount)
  obtain ⟨n, rfl⟩ : ∃ n, amount = .int n := by simpa using hamount
  by_cases h : Endowable accounts n
  · by_cases hreport : IsReportable accounts.length n.natAbs
    · obtain ⟨e, he⟩ : ∃ e, allocate accounts (.int n) stake [] = .ok e := allocate_of_endowable h hreport
      rw [he]
      exact decides_of_endowable h (by simp) (by simp [hreport]) (by simp [hreport])
    · rw [allocate_of_not_isReportable h hreport]
      exact decides_of_endowable h (by simp) (by simp [hreport]) (by simp [hreport])
  · obtain ⟨a, ha⟩ : ∃ a, allocate accounts (.int n) stake [] =
        .error (GenesisError.raised
          (if n < 0 then .negativeEndowment .native n a else .duplicateEndowment .native a)) :=
      allocate_of_not_endowable h
    by_cases hn : n < 0
    · rw [if_pos hn] at ha
      exact decides_of_negative hn (mt (endowable_iff_of_neg hn).mpr h) ha
    · rw [if_neg hn] at ha
      exact decides_of_repeated (not_lt.mp hn) (mt (endowable_iff_of_nonneg (not_lt.mp hn)).mpr h) ha

/-- Where there is no account, a negative amount is not refused. -/
theorem debt_of_nobody_passes : allocate [] (.int (-1)) 50 [] = .ok ⟨[], 0, [], [], []⟩ ∧
    ¬ Refused (allocate [] (.int (-1)) 50 []) .negativeEndowment := by
  have hempty : allocate [] (.int (-1)) 50 [] = .ok ⟨[], 0, [], [], []⟩ := by decide
  refine ⟨hempty, ?_⟩
  rintro ⟨g, hg, -⟩
  rw [hempty] at hg
  cases hg

end LedgerGenesis.Endowment
