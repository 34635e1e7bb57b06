import LedgerGenesis.Proofs.Endowment.Assets

/-! # Native balances and the seats that come with them

Distinct accounts get the one amount each, in their order, and the first half of them, rounded up, the seats of
governance. More accounts after the first ones leave their balances and seats where they are. Such an allocation
is never refused, but it ends in a fault where the amount, the total or the id of an asset has no numeral.
-/
namespace LedgerGenesis.Endowment

open Grants (Valid)

variable {accounts more : List Bytes} {n : Nat} {stake : Int} {grants : List (Int × Grants)}
  {assets : List (Int × Balances)} {e e' : Endowment}

/-- Half of a number, rounded up. -/
theorem seats_eq_ceilDiv : seats n = n ⌈/⌉ 2 := (Nat.ceilDiv_eq_add_pred_div n 2).symm

theorem seats_mono {m : Nat} (h : m ≤ n) : seats m ≤ seats n := Nat.div_le_div_right (by omega)

theorem seats_le (n : Nat) : seats n ≤ n := by
  unfold seats
  omega

/-- The endowment of accounts with an amount each. -/
def uniform (accounts : List Bytes) (n : Nat) (stake : Int) (assets : List (Int × Balances)) : Endowment where
  native := accounts.map (·, n)
  total := accounts.length * n
  technicalMembers := accounts.take (accounts.length ⌈/⌉ 2)
  electionsMembers := (accounts.take (accounts.length ⌈/⌉ 2)).map (·, stake)
  assets

theorem checkGrants_uniform {holding : Holding} (h : accounts.Nodup) :
    checkGrants holding [] (accounts.map fun a => (a, .int n)) = .ok (accounts.map (·, n)) := by
  refine checkGrants_eq_ok_iff.mpr ⟨?_, ?_, by simp⟩
  · simp [asGrants, Function.comp_def]
  · simpa [Function.comp_def] using h

theorem ofNative_eq_uniform : ofNative (accounts.map (·, n)) stake assets = uniform accounts n stake assets := by
  have haccounts : (accounts.map (·, n)).map Prod.fst = accounts := by simp [Function.comp_def]
  have htotal : ((accounts.map (·, n)).map Prod.snd).sum = accounts.length * n := by
    simp [Function.comp_def]
  rw [ofNative, uniform, haccounts, htotal, List.length_map, seats_eq_ceilDiv]

/-- Distinct accounts are allocated the amount when the assets are and the report can be made. -/
theorem allocate_eq_uniform (h : accounts.Nodup) (ha : allocateAssets grants = .ok assets)
    (hreport : IsReportable accounts.length n) :
    allocate accounts (.int n) stake grants = .ok (uniform accounts n stake assets) :=
  allocate_eq_ok_iff.mpr ⟨n, _, assets, rfl, checkGrants_uniform h, ha, hreport, ofNative_eq_uniform⟩

/-- The accounts are distinct and have the amount each, in their order. The first half of them, rounded up, are
members of the technical committee and of the council, each seat of which reserves the stake. -/
structure EndowsEach (accounts : List Bytes) (n : Nat) (stake : Int) (e : Endowment) : Prop where
  native : e.native = accounts.map (·, n)
  total : e.total = accounts.length * n
  technicalMembers : e.technicalMembers = accounts.take (accounts.length ⌈/⌉ 2)
  electionsMembers : e.electionsMembers = e.technicalMembers.map (·, stake)
  members_nodup : e.technicalMembers.Nodup
  members_endowed : ∀ m ∈ e.technicalMembers, (m, n) ∈ e.native

theorem endowsEach_uniform (h : accounts.Nodup) :
    (uniform accounts n stake assets).EndowsEach accounts n stake where
  native := rfl
  total := rfl
  technicalMembers := rfl
  electionsMembers := rfl
  members_nodup := (List.take_sublist _ _).nodup h
  members_endowed _ hm := List.mem_map_of_mem (List.mem_of_mem_take hm)

/-- The balances and the seats of one endowment are the first ones of another. -/
structure Precedes (e e' : Endowment) : Prop where
  native : e.native <+: e'.native
  technicalMembers : e.technicalMembers <+: e'.technicalMembers
  electionsMembers : e.electionsMembers <+: e'.electionsMembers

/-- More accounts get more seats, and the first accounts keep theirs. -/
theorem take_seats_prefix :
    accounts.take (seats accounts.length) <+: (accounts ++ more).take (seats (accounts ++ more).length) := by
  have hfirst : accounts.take (seats accounts.length) = (accounts ++ more).take (seats accounts.length) :=
    (List.take_append_of_le_length (seats_le _)).symm
  rw [hfirst]
  exact List.take_prefix_take_left (seats_mono (by simp))

theorem EndowsEach.precedes (h : e.EndowsEach accounts n stake)
    (h' : e'.EndowsEach (accounts ++ more) n stake) : e.Precedes e' := by
  have hseats : e.technicalMembers <+: e'.technicalMembers := by
    rw [h.technicalMembers, h'.technicalMembers, ← seats_eq_ceilDiv, ← seats_eq_ceilDiv]
    exact take_seats_prefix
  refine ⟨?_, hseats, ?_⟩
  · rw [h.native, h'.native, List.map_append]
    exact List.prefix_append _ _
  · rw [h.electionsMembers, h'.electionsMembers]
    exact hseats.map _

theorem endowsEach_of_allocate (h : allocate accounts (.int n) stake grants = .ok e) :
    e.EndowsEach accounts n stake ∧ allocateAssets grants = .ok e.assets ∧ IsReportable accounts.length n := by
  obtain ⟨m, native, assets, hm, hn, ha, hreport, rfl⟩ := allocate_eq_ok_iff.mp h
  obtain rfl : (n : Int) = m := Json.int.inj hm
  have hallocates : (ofNative native stake assets).Allocates accounts n := allocates_ofNative hn
  have hnodup := hallocates.accounts_nodup
  rw [checkGrants_uniform hnodup, Except.ok.injEq] at hn
  rw [← hn, ofNative_eq_uniform]
  exact ⟨endowsEach_uniform hnodup, ha, hreport⟩

/-- An allocation to distinct accounts with grants that pass is refused only for want of a numeral. -/
theorem allocate_eq_longNumeral {x : Error} (haccounts : accounts.Nodup) (hgrants : ∀ p ∈ grants, Valid p.2)
    (h : allocate accounts (.int n) stake grants = .error x) : x = .fault .longNumeral := by
  obtain ⟨g, hg, -⟩ | ⟨-, ha | ⟨-, -, rfl⟩⟩ := allocate_int_eq_error_iff.mp h
  · cases hg.symm.trans (checkGrants_uniform haccounts)
  · exact eq_longNumeral_of_valid hgrants ha
  · rfl

/-- Distinct accounts and valid grants are allocated exactly when the amount, the total and the ids have numerals,
and otherwise this is what fails. Every account then has the amount and nothing else is counted, half of the
accounts have seats, and an allocation to more accounts continues this one. -/
theorem allocate_exact (haccounts : accounts.Nodup) (hgrants : ∀ p ∈ grants, Valid p.2) :
    ((∃ e, allocate accounts (.int n) stake grants = .ok e) ↔
      IsReportable accounts.length n ∧ ∀ p ∈ grants, HasNumeral p.1) ∧
      (∀ x, allocate accounts (.int n) stake grants = .error x → x = .fault .longNumeral) ∧
      ∀ e, allocate accounts (.int n) stake grants = .ok e →
        e.EndowsEach accounts n stake ∧ allocateAssets grants = .ok e.assets ∧
          ∀ more e', allocate (accounts ++ more) (.int n) stake grants = .ok e' → e.Precedes e' := by
  refine ⟨⟨?_, ?_⟩, fun x => allocate_eq_longNumeral haccounts hgrants, fun e he => ?_⟩
  · rintro ⟨e, he⟩
    obtain ⟨-, ha, hreport⟩ := endowsEach_of_allocate he
    exact ⟨hreport, (exists_allocateAssets_iff.mp ⟨_, ha⟩).2⟩
  · rintro ⟨hreport, hids⟩
    obtain ⟨assets, ha⟩ := exists_allocateAssets_iff.mpr ⟨hgrants, hids⟩
    exact ⟨_, allocate_eq_uniform haccounts ha hreport⟩
  · obtain ⟨heach, hassets, -⟩ := endowsEach_of_allocate he
    exact ⟨heach, hassets, fun more e' he' => heach.precedes (endowsEach_of_allocate he').1⟩

/-- Three accounts get two seats, and a fourth one leaves it at that. -/
theorem threeAccounts_endowed :
    let accounts : List Bytes := [[1], [2], [3]]
    let grants : List (Int × Grants) := [(2, [([9], .int 4)]), (1, [([9], .int 5), ([1], .int 0)])]
    accounts.Nodup ∧ (∀ p ∈ grants, Valid p.2) ∧ ∃ e e', allocate accounts (.int 7) 50 grants = .ok e ∧
      allocate (accounts ++ [[4]]) (.int 7) 50 grants = .ok e' ∧ e.EndowsEach accounts 7 50 ∧
        e.technicalMembers = [[1], [2]] ∧ e'.technicalMembers = [[1], [2]] ∧ e.Precedes e' := by
  intro accounts grants
  have haccounts : accounts.Nodup ∧ (accounts ++ [[4]]).Nodup := by decide
  have hgrants : ∀ p ∈ grants, Valid p.2 := by
    simp only [grants, List.forall_mem_cons, List.not_mem_nil, false_implies, implies_true, and_true]
    exact ⟨⟨by simp, by decide⟩, ⟨by simp, by decide⟩⟩
  have hids : ∀ p ∈ grants, HasNumeral p.1 := by decide +kernel
  have hreport : ∀ count ≤ 4, IsReportable count 7 := by
    intro count hcount
    have hlimit : 10 ^ 2 ≤ 10 ^ Numeral.maxDigits := Nat.pow_le_pow_right (by decide) (by decide)
    exact ⟨by omega, by omega⟩
  obtain ⟨hexists, -, hexact⟩ := @allocate_exact accounts 7 50 grants haccounts.1 hgrants
  obtain ⟨e, he⟩ := hexists.mpr ⟨hreport 3 (by decide), hids⟩
  obtain ⟨heach, hassets, hmore⟩ := hexact e he
  have he' : allocate (accounts ++ [[4]]) (.int 7) 50 grants =
      .ok (uniform (accounts ++ [[4]]) 7 50 e.assets) :=
    allocate_eq_uniform haccounts.2 hassets (hreport 4 (by decide))
  obtain ⟨heach', -⟩ := endowsEach_of_allocate he'
  have hseats : e.technicalMembers = [[1], [2]] := by
    rw [heach.technicalMembers, ← seats_eq_ceilDiv]
    simp [accounts, seats]
  have hseats' : (uniform (accounts ++ [[4]]) 7 50 e.assets).technicalMembers = [[1], [2]] := by
    rw [heach'.technicalMembers, ← seats_eq_ceilDiv]
    simp [accounts, seats]
  exact ⟨haccounts.1, hgrants, e, _, he, he', heach, hseats, hseats', hmore _ _ he'⟩

/-- An amount with the greatest number of digits, of which two have one more. -/
def highAmount : Nat := 5 * 10 ^ (Numeral.maxDigits - 1)

theorem two_mul_highAmount : 2 * highAmount = 10 ^ Numeral.maxDigits := by
  obtain ⟨d, hd⟩ : ∃ d, Numeral.maxDigits = d + 1 := ⟨4299, rfl⟩
  rw [highAmount, hd, Nat.add_sub_cancel]
  ring

theorem highAmount_pos : 0 < highAmount := by
  unfold highAmount
  positivity

/-- Two accounts cannot have the amount, though it has a numeral. -/
theorem highAmount_not_endowed : ([[1], [2]] : List Bytes).Nodup ∧ highAmount < 10 ^ Numeral.maxDigits ∧
    allocate [[1], [2]] (.int highAmount) 50 [] = .error (.fault .longNumeral) := by
  have haccounts : ([[1], [2]] : List Bytes).Nodup := by decide
  have hamount : highAmount < 10 ^ Numeral.maxDigits := by
    have hpos := highAmount_pos
    rw [← two_mul_highAmount]
    omega
  have htotal : ¬ IsReportable ([[1], [2]] : List Bytes).length highAmount := by
    intro h
    have hlt := h.2
    rw [List.length_cons, List.length_singleton, ← two_mul_highAmount] at hlt
    omega
  have hnative : ∃ native, checkGrants .native [] ([[1], [2]].map (·, .int highAmount)) = .ok native :=
    ⟨_, checkGrants_uniform haccounts⟩
  exact ⟨haccounts, hamount, allocate_nil_eq_error_iff.mpr (Or.inr ⟨hnative, htotal, rfl⟩)⟩

end LedgerGenesis.Endowment
