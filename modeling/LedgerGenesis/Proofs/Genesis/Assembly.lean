import LedgerGenesis.Proofs.Genesis.Checks

/-! # What an assembly does

`Yields` says which check each part of a state comes from. It holds of a state exactly when the inputs
assemble to it, so later arguments about states need not follow the assembly again.
-/
namespace LedgerGenesis.Inputs

/-- A state has what the checks of its inputs give, and everything else from the inputs themselves. -/
structure Yields (i : Inputs) (s : State) : Prop where
  profile : Profile.ofJson i.profile = .ok s.profile
  validators : bindValidators i.authorities = .ok s.validators
  registry : Registry.ofDefinitions i.assets [] = .ok s.registry
  assetsEndowed : checkEndowedAssets s.registry i.endowment.assets = .ok s.assetsEndowed
  stashes : checkStashes i.endowment s.validators = .ok ()
  adminKey_checked : checkAdminKey s.profile i.governance.adminKey = .ok ()
  anchor_checked : checkAnchor s.parameters i.anchor = .ok ()
  committee : TrusteeSet.committee i.trusteeSets (some i.anchor) .bitcoin = .ok s.bridge.committee
  builderParams : builderMapping i.builderParams = .ok s.builderParams
  total_reported : HasNumeral i.endowment.total
  code : s.code = i.code
  adminKey : s.adminKey = i.governance.adminKey
  balances : s.balances = i.endowment.native
  totalEndowed : s.totalEndowed = i.endowment.total
  technicalMembers : s.technicalMembers = (seats s.parameters i.endowment i.governance).1
  electionsMembers : s.electionsMembers = (seats s.parameters i.endowment i.governance).2
  trusteeSets : s.trusteeSets = i.trusteeSets
  anchor : s.bridge.anchor = i.anchor
  withdrawalFee : s.bridge.withdrawalFee = s.parameters.withdrawalFee
  maxWithdrawalCount : s.bridge.maxWithdrawalCount = s.parameters.maxWithdrawalCount

variable {i : Inputs} {s : State}

theorem reports_total_iff {n : Nat} :
    (∀ v ∈ [Json.int n], v.isShowable = true) ↔ HasNumeral n := by
  rw [List.forall_mem_singleton, Json.isShowable_int_iff]

theorem assemble_eq_ok_iff : i.assemble = .ok s ↔ i.Yields s := by
  simp only [assemble, bind_eq_ok_iff, raising_eq_ok_iff, liftGenesis_eq_ok_iff, liftFault_eq_ok_iff,
    Json.report_eq_ok_iff, reports_total_iff, pure_eq_ok_iff]
  constructor
  · rintro ⟨profile, hp, vs, hv, registry, hr, others, ho, ⟨⟩, hs, ⟨⟩, hk, ⟨⟩, ha, committee, hc,
      params, hb, ⟨⟩, ht, rfl⟩
    exact ⟨hp, hv, hr, ho, hs, hk, ha, hc, hb, ht, rfl, rfl, rfl, rfl, rfl, rfl, rfl, rfl, rfl, rfl⟩
  · intro h
    refine ⟨_, h.profile, _, h.validators, _, h.registry, _, h.assetsEndowed, (), h.stashes, (),
      h.adminKey_checked, (), h.anchor_checked, _, h.committee, _, h.builderParams, (), h.total_reported, ?_⟩
    obtain ⟨-, -, -, -, -, -, -, -, -, -, hcode, hkey, hbal, htot, htech, helec, hsets, hanc, hfee,
      hmax⟩ := h
    rcases s with ⟨profile, code, vs, key, bal, tot, registry, others, tech, elec, sets,
      ⟨committee, anchor, fee, most⟩, params⟩
    simp_all only [State.parameters]

/-- Which check an assembly stops at: the first whose result is an error, the others having passed. -/
theorem assemble_eq_error_iff {x : Error} : i.assemble = .error x ↔
    Profile.ofJson i.profile = .error x ∨ ∃ p, Profile.ofJson i.profile = .ok p ∧
    ((∃ e, bindValidators i.authorities = .error e ∧ .genesis e = x) ∨
      ∃ vs, bindValidators i.authorities = .ok vs ∧
    (Registry.ofDefinitions i.assets [] = .error x ∨ ∃ r, Registry.ofDefinitions i.assets [] = .ok r ∧
    ((∃ e, checkEndowedAssets r i.endowment.assets = .error e ∧ e.raised = x) ∨
      (∃ others, checkEndowedAssets r i.endowment.assets = .ok others) ∧
    ((∃ e, checkStashes i.endowment vs = .error e ∧ .genesis e = x) ∨ checkStashes i.endowment vs = .ok () ∧
    ((∃ e, checkAdminKey p i.governance.adminKey = .error e ∧ .genesis e = x) ∨
      checkAdminKey p i.governance.adminKey = .ok () ∧
    ((∃ e, checkAnchor p.parameters i.anchor = .error e ∧ .genesis e = x) ∨
      checkAnchor p.parameters i.anchor = .ok () ∧
    (TrusteeSet.committee i.trusteeSets (some i.anchor) .bitcoin = .error x ∨
      (∃ s, TrusteeSet.committee i.trusteeSets (some i.anchor) .bitcoin = .ok s) ∧
    ((liftM (builderMapping i.builderParams) : Except Error Json) = .error x ∨
      (∃ m, builderMapping i.builderParams = .ok m) ∧
        ¬ HasNumeral i.endowment.total ∧ x = .fault .longNumeral)))))))) := by
  simp only [assemble, bind_eq_error_iff, raising_eq_ok_iff, raising_eq_error_iff, liftGenesis_eq_error_iff,
    liftGenesis_eq_ok_iff, liftReport_eq_error_iff, reports_total_iff, liftFault_eq_ok_iff,
    pure_ne_error, and_false, or_false, exists_and_right,
    Unique.exists_iff, PUnit.default_eq_unit]

/-! ## A network to try statements on -/

/-- A key that repeats one byte. -/
def plainKey (b : UInt8) : Bytes := List.replicate 32 b

def plainAuthority (b : UInt8) (referral : Bytes) : Authority :=
  ⟨plainKey b, referral, plainKey (b + 1), plainKey (b + 2), plainKey (b + 3), plainKey (b + 4)⟩

def soleTrustee : Trustee where
  account := plainKey 40
  about := [116]
  hotKey := 2 :: plainKey 1
  coldKey := 3 :: plainKey 1
  hotKey_valid := by decide +kernel
  coldKey_valid := by decide +kernel

/-- A development network of two validators, one asset and one trustee. -/
def smallNetwork : Inputs where
  profile := .text "development"
  code := [0]
  authorities := [plainAuthority 10 [97], plainAuthority 20 [98]]
  assets := [⟨1, nativeInfo, .empty, true, true⟩]
  endowment := {
    native := [(plainKey 10, 100), (plainKey 20, 100)]
    total := 200
    technicalMembers := [plainKey 10]
    electionsMembers := [(plainKey 10, 50)]
    assets := [(0, [(plainKey 10, 5)]), (1, [(plainKey 10, 7)])] }
  trusteeSets := [⟨.bitcoin, 1, 3, [soleTrustee]⟩]
  anchor := {
    network := .testnet
    confirmations := 4
    height := 0
    declaredHash := plainKey 0
    header := ⟨1, plainKey 0, plainKey 0, 0, 0, 0, rfl, rfl⟩
    retarget := .testnet }
  governance := { adminKey := some (plainKey 30) }

theorem exists_assemble_smallNetwork : ∃ s, smallNetwork.assemble = .ok s := ⟨_, rfl⟩

end LedgerGenesis.Inputs
