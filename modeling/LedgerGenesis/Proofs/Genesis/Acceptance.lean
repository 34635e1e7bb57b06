import LedgerGenesis.Proofs.Asset.Registry
import LedgerGenesis.Proofs.Genesis.Assembly
import LedgerGenesis.Proofs.Genesis.Binding
import LedgerGenesis.Proofs.Vocabulary
import Mathlib.Order.Minimal

/-! # Which inputs assemble, and which error the others give

Eight requirements decide whether inputs make a state. They are stated here on the inputs alone. A state
exists exactly when all of them are met and what is reported has numerals, and otherwise the first one that is
not, in their fixed order, gives the class of the error.
-/
namespace LedgerGenesis

/-- A mapping, whatever its keys. -/
def Json.IsMapping : Json → Prop
  | .object _ | .table _ => True
  | _ => False

namespace Inputs

/-- The inputs are for the profile of that name. -/
def IsFor (i : Inputs) (p : Profile) : Prop := i.profile = .text (Text.ofString p.name)

/-- A key of thirty-two bytes for each of the five roles. -/
def HasKeys (a : Authority) : Prop := ∀ r : Role, (a.key r).length = 32

/-- Every authority has its keys, and no account is that of two of them. -/
def Bindable (authorities : List Authority) : Prop :=
  (∀ a ∈ authorities, HasKeys a) ∧ (authorities.map Authority.account).Nodup

/-- No definition has the reserved id, and no id is that of two of them. -/
def Registrable (definitions : List AssetDefinition) : Prop :=
  (∀ d ∈ definitions, d.id ≠ 0) ∧ (definitions.map AssetDefinition.id).Nodup

inductive Requirement where
  | profile
  | authorities
  | assets
  | endowedAssets
  | stashes
  | adminKey
  | anchor
  | trustees
  deriving DecidableEq

namespace Requirement

/-- The place of a requirement in the order in which they are checked. -/
def rank : Requirement → Nat
  | profile => 0
  | authorities => 1
  | assets => 2
  | endowedAssets => 3
  | stashes => 4
  | adminKey => 5
  | anchor => 6
  | trustees => 7

/-- What a requirement asks of inputs. -/
def Met (i : Inputs) : Requirement → Prop
  | profile => ∃ p, i.IsFor p
  | authorities => i.authorities ≠ [] ∧ Bindable i.authorities
  | assets => Registrable i.assets
  | endowedAssets => ∀ a ∈ i.endowment.assets, a.1 ≠ 0 → ∃ d ∈ i.assets, d.id = a.1
  | stashes => i.endowment.native = [] ∨
      ∀ a ∈ i.authorities, ∃ b ∈ i.endowment.native, b.1 = a.account
  | adminKey => ∀ p, i.IsFor p → (i.governance.adminKey.isSome ↔ p.parameters.hasAdminKey)
  | anchor => ∀ p, i.IsFor p →
      (i.anchor.network = .mainnet ↔ p = .main) ∧ i.anchor.retarget = p.parameters.retarget
  | trustees => ∃ s, TrusteeSet.IsFirst i.trusteeSets .bitcoin s ∧ s.Sized

/-- The classes of error for an unmet requirement. Among authorities and among definitions the first one
that cannot follow those before it decides, by what is wrong with it. -/
def Refusal (i : Inputs) (k : GenesisError.Kind) : Requirement → Prop
  | profile => k = .unknownProfile
  | authorities => i.authorities = [] ∧ k = .incompleteAuthority ∨
      ∃ before a after, i.authorities = before ++ a :: after ∧ Bindable before ∧
        (¬ HasKeys a ∧ k = .incompleteAuthority ∨
          HasKeys a ∧ (∃ b ∈ before, b.account = a.account) ∧ k = .duplicateAuthority)
  | assets => ∃ before d after, i.assets = before ++ d :: after ∧ Registrable before ∧
      (d.id = 0 ∧ k = .reservedAssetId ∨
        d.id ≠ 0 ∧ (∃ b ∈ before, b.id = d.id) ∧ k = .duplicateAssetId)
  | endowedAssets => k = .unknownAssetReference
  | stashes => k = .unendowedValidator
  | adminKey => k = .adminKeyMismatch
  | anchor => k = .invalidAnchor
  | trustees => (∀ s ∈ i.trusteeSets, s.chain ≠ .bitcoin) ∧ k = .noTrusteesForChain ∨
      (∃ s, TrusteeSet.IsFirst i.trusteeSets .bitcoin s ∧ ¬ s.Sized) ∧ k = .insufficientTrustees

/-- A requirement is unmet, and all those before it are met. -/
def IsFirstUnmet (i : Inputs) (r : Requirement) : Prop :=
  ¬ r.Met i ∧ ∀ q : Requirement, q.rank < r.rank → q.Met i

end Requirement

open Registry (ShowsTokens)

/-- The values of the inputs that an error or a report may show have numerals. -/
structure Numbered (i : Inputs) : Prop where
  profile : i.profile.isShowable = true
  tokens : ShowsTokens i.assets
  ids : ∀ d ∈ i.assets, HasNumeral d.id
  endowed : ∀ a ∈ i.endowment.assets, HasNumeral a.1
  bounds : ∀ s ∈ i.trusteeSets, HasNumeral s.least ∧ HasNumeral s.greatest
  total : HasNumeral i.endowment.total

variable {i : Inputs} {p : Profile} {vs : List Validator} {r : Registry}
  {others : List (Int × Balances)} {e : GenesisError} {k : GenesisError.Kind} {x : Error}

theorem bindable_iff {authorities : List Authority} :
    Bindable authorities ↔ Authority.screening.Clean authorities :=
  Authority.clean_iff.symm

theorem registrable_iff {definitions : List AssetDefinition} :
    Registrable definitions ↔ AssetDefinition.screening.Clean definitions :=
  Registry.clean_iff.symm

theorem isFor_iff : i.IsFor p ↔ Profile.ofJson i.profile = .ok p := Profile.ofJson_eq_ok_iff.symm

/-! ## Each check passes exactly when its requirement is met -/

theorem authorities_met_iff : Requirement.authorities.Met i ↔
    bindValidators i.authorities = .ok (i.authorities.map Validator.ofAuthority) := by
  simp [bindValidators_eq_ok_iff, Requirement.Met, bindable_iff]

theorem assets_met_iff : Requirement.assets.Met i ↔ ∃ r, Registry.split i.assets [] = .ok r := by
  simp [Registry.split_eq_ok_iff, Requirement.Met, registrable_iff]

theorem endowedAssets_met_iff (hr : Registry.split i.assets [] = .ok r) :
    Requirement.endowedAssets.Met i ↔ ∃ others, checkEndowedAssets r i.endowment.assets = .ok others := by
  obtain ⟨-, rfl⟩ := Registry.split_eq_ok_iff.mp hr
  simp [checkEndowedAssets_eq_ok_iff, Requirement.Met, nativeAsset]

theorem stashes_met_iff : Requirement.stashes.Met i ↔
    checkStashes i.endowment (i.authorities.map Validator.ofAuthority) = .ok () := by
  simp [checkStashes_eq_ok_iff, Requirement.Met, Endowment.accounts, Validator.ofAuthority]

theorem forall_isFor_iff {P : Profile → Prop} (hp : i.IsFor p) : (∀ q, i.IsFor q → P q) ↔ P p := by
  constructor
  · intro h
    exact h p hp
  · intro h q hq
    have hn := Text.ofString_inj.mp (Json.text.inj (hp.symm.trans hq))
    exact Profile.name_injective hn ▸ h

theorem adminKey_met_iff (hp : i.IsFor p) :
    Requirement.adminKey.Met i ↔ checkAdminKey p i.governance.adminKey = .ok () := by
  rw [checkAdminKey_eq_ok_iff, Bool.eq_iff_iff]
  exact forall_isFor_iff hp

theorem anchor_met_iff (hp : i.IsFor p) :
    Requirement.anchor.Met i ↔ checkAnchor p.parameters i.anchor = .ok () := by
  have hn : i.anchor.network = bridgedNetwork p.parameters.network ↔
      (i.anchor.network = .mainnet ↔ p = .main) := by
    cases p <;> cases i.anchor.network <;> simp [bridgedNetwork, Profile.parameters]
  rw [checkAnchor_eq_ok_iff, hn]
  exact forall_isFor_iff hp

theorem trustees_met_iff : Requirement.trustees.Met i ↔
    ∃ s, TrusteeSet.committee i.trusteeSets (some i.anchor) .bitcoin = .ok s := by
  simp [TrusteeSet.committee, Anchor.chain, raising_eq_ok_iff, TrusteeSet.select_eq_ok_iff, Requirement.Met]

/-! ## A failing check gives a class of its requirement, and no other -/

theorem refusal_authorities_iff (h : bindValidators i.authorities = .error e) :
    Requirement.authorities.Refusal i k ↔ k = e.kind := by
  unfold Requirement.Refusal
  by_cases hn : i.authorities = []
  · rw [hn, bindValidators_nil] at h
    cases h
    simp [hn, GenesisError.kind]
  · have hf : Authority.screening.firstFault [] i.authorities = some e := by
      rw [bindValidators_eq hn] at h
      cases hs : Authority.screening.firstFault [] i.authorities with
      | none => rw [hs] at h; cases h
      | some d => rw [hs] at h; cases h; rfl
    have hbad : ∀ a, Authority.screening.defect a = none ↔ ¬ ¬ HasKeys a := fun a =>
      Authority.defect_eq_none_iff.trans Classical.not_not.symm
    have hclass := Authority.screening.eq_class_iff (f := GenesisError.kind) (k := k) hbad
      (fun a fault n ha => Authority.kind_of_defect ha n) (fun a => rfl) hf
    simp only [Classical.not_not] at hclass
    simp only [hn, false_and, false_or, bindable_iff]
    exact hclass

theorem refusal_assets_iff (h : Registry.split i.assets [] = .error e) :
    Requirement.assets.Refusal i k ↔ k = e.kind := by
  have hf := Registry.split_eq_error_iff.mp h
  simp only [Requirement.Refusal, registrable_iff]
  exact AssetDefinition.screening.eq_class_iff (f := GenesisError.kind)
    (fun d => AssetDefinition.defect_eq_none_iff) (fun d fault n hd => AssetDefinition.kind_of_defect hd n)
    (fun d => rfl) hf

theorem refusal_trustees_iff (h : TrusteeSet.select i.trusteeSets .bitcoin = .error e) :
    Requirement.trustees.Refusal i k ↔ k = e.kind := by
  unfold Requirement.Refusal
  rcases TrusteeSet.error_of_select h with ⟨hn, hk, -⟩ | ⟨s, hs, hz, hk, -⟩
  · rw [hk]
    constructor
    · rintro (⟨-, rfl⟩ | ⟨⟨s, ⟨hc, before, after, hsets, -⟩, -⟩, -⟩)
      · rfl
      · exact absurd hc (hn s (by simp [hsets]))
    · rintro rfl
      exact Or.inl ⟨hn, rfl⟩
  · rw [hk]
    constructor
    · rintro (⟨hn, -⟩ | ⟨-, rfl⟩)
      · obtain ⟨hc, before, after, hsets, -⟩ := hs
        exact absurd hc (hn s (by simp [hsets]))
      · rfl
    · rintro rfl
      exact Or.inr ⟨⟨s, hs, hz⟩, rfl⟩

/-! ## The text of the error shows what has numerals -/

theorem Numbered.isShowable_of_split (hi : i.Numbered) (h : Registry.split i.assets [] = .error e) :
    e.isShowable = true := by
  have hfault := Registry.split_eq_error_iff.mp h
  obtain ⟨before, d, after, hsplit, -, hd⟩ :=
    (AssetDefinition.screening.firstFault_eq_some_iff AssetDefinition.screening.clean_nil).mp hfault
  have hmem : d ∈ i.assets := by simp [hsplit]
  rcases AssetDefinition.screening.faultAfter_eq_some_iff.mp hd with ⟨fault, hdefect, rfl⟩ | ⟨-, -, rfl⟩
  · simp only [AssetDefinition.screening] at hdefect
    split at hdefect <;> cases hdefect
    exact (Bool.and_true _).trans (hi.tokens d hmem)
  · exact (GenesisError.isShowable_iff_of_shown_eq_int rfl).mpr (hi.ids d hmem)

theorem Numbered.hasNumeral_missedBound {s : TrusteeSet} (hi : i.Numbered) (hs : s ∈ i.trusteeSets) :
    HasNumeral s.missedBound := by
  unfold TrusteeSet.missedBound
  split
  · exact (hi.bounds s hs).1
  · exact (hi.bounds s hs).2

theorem Numbered.isShowable_of_select (hi : i.Numbered)
    (h : TrusteeSet.select i.trusteeSets .bitcoin = .error e) : e.isShowable = true := by
  rcases TrusteeSet.error_of_select h with ⟨-, -, hshown⟩ | ⟨s, ⟨-, before, after, hsets, -⟩, -, -, hshown⟩
  · exact GenesisError.isShowable_of_shown_eq_nil hshown
  · exact (GenesisError.isShowable_iff_of_shown_eq_int hshown).mpr (hi.hasNumeral_missedBound (by simp [hsets]))

/-! ## An assembly stops at the first requirement that is not met -/

/-- The assembly fails, and the classes of the requirement are just that of its error. Only in inputs that are not
numbered, the text of this error or the report of the tokens before it may fail in its place. -/
def Refuses (i : Inputs) (r : Requirement) : Prop :=
  ∃ e, (∀ k, r.Refusal i k ↔ k = e.kind) ∧
    (i.assemble = .error (.genesis e) ∨ i.assemble = .error (.fault .longNumeral) ∧ ¬ i.Numbered)

theorem refuses_of_genesis {r : Requirement} (hk : ∀ k, r.Refusal i k ↔ k = e.kind)
    (h : i.assemble = .error (.genesis e) ∨
      i.assemble = .error (.fault .longNumeral) ∧ ¬ ShowsTokens i.assets) : i.Refuses r :=
  ⟨e, hk, h.imp_right fun ⟨hx, htokens⟩ => ⟨hx, fun hi => htokens hi.tokens⟩⟩

theorem refuses_of_raised {r : Requirement} (hk : ∀ k, r.Refusal i k ↔ k = e.kind)
    (hshow : i.Numbered → e.isShowable = true)
    (h : i.assemble = .error e.raised ∨
      i.assemble = .error (.fault .longNumeral) ∧ ¬ ShowsTokens i.assets) : i.Refuses r := by
  by_cases he : e.isShowable = true
  · rw [GenesisError.raised_of_isShowable he] at h
    exact refuses_of_genesis hk h
  · have hfault : e.raised = .fault .longNumeral := if_neg he
    rw [hfault] at h
    exact ⟨e, hk, Or.inr ⟨h.elim id And.left, mt hshow he⟩⟩

theorem profile_met_iff : Requirement.profile.Met i ↔ ∃ p, Profile.ofJson i.profile = .ok p := by
  simp only [Requirement.Met, isFor_iff]

theorem refuses_profile (h : ¬ Requirement.profile.Met i) : i.Refuses .profile := by
  rw [profile_met_iff, not_exists] at h
  have herror : Profile.ofJson i.profile = .error (GenesisError.unknownProfile i.profile).raised :=
    Profile.ofJson_eq_error_iff.mpr ⟨h, rfl⟩
  have hshow : i.Numbered → (GenesisError.unknownProfile i.profile).isShowable = true :=
    fun hi => (Bool.and_true _).trans hi.profile
  exact refuses_of_raised (fun k => Iff.rfl) hshow (Or.inl (assemble_eq_error_iff.mpr (Or.inl herror)))

theorem refuses_authorities (hp : Profile.ofJson i.profile = .ok p)
    (h : ¬ Requirement.authorities.Met i) : i.Refuses .authorities := by
  have hn : ∀ vs, bindValidators i.authorities ≠ .ok vs := by
    intro vs hv
    rw [(bindValidators_eq_ok_iff.mp hv).2.2] at hv
    exact h (authorities_met_iff.mpr hv)
  obtain ⟨e, he⟩ := exists_error_of_ne_ok hn
  exact ⟨e, fun k => refusal_authorities_iff he,
    Or.inl (assemble_eq_error_iff.mpr (Or.inr ⟨p, hp, Or.inl ⟨e, he, rfl⟩⟩))⟩

section Bound

variable (hp : Profile.ofJson i.profile = .ok p) (hv : Requirement.authorities.Met i)
include hp hv

theorem refuses_assets (h : ¬ Requirement.assets.Met i) : i.Refuses .assets := by
  rw [assets_met_iff] at h
  obtain ⟨e, he⟩ := exists_error_of_ne_ok fun r hr => h ⟨r, hr⟩
  have herror : Registry.ofDefinitions i.assets [] = .error e.raised :=
    Registry.ofDefinitions_eq_error_iff_split.mpr (Or.inl ⟨e, he, rfl⟩)
  have ha := assemble_eq_error_iff.mpr
    (Or.inr ⟨p, hp, Or.inr ⟨_, authorities_met_iff.mp hv, Or.inl herror⟩⟩)
  exact refuses_of_raised (fun k => refusal_assets_iff he) (fun hi => hi.isShowable_of_split he) (Or.inl ha)

variable (hr : Registry.split i.assets [] = .ok r)
include hr

/-- With a profile, validators and a registry, the checks that follow decide the error, unless the tokens of the
registry cannot be reported. -/
theorem assemble_eq_error_of_bound
    (h : (∃ e, checkEndowedAssets r i.endowment.assets = .error e ∧ e.raised = x) ∨
      Requirement.endowedAssets.Met i ∧
        ((∃ e, checkStashes i.endowment (i.authorities.map Validator.ofAuthority) = .error e ∧
          .genesis e = x) ∨
      Requirement.stashes.Met i ∧
        ((∃ e, checkAdminKey p i.governance.adminKey = .error e ∧ .genesis e = x) ∨
      Requirement.adminKey.Met i ∧
        ((∃ e, checkAnchor p.parameters i.anchor = .error e ∧ .genesis e = x) ∨
      Requirement.anchor.Met i ∧
        ((∃ e, TrusteeSet.select i.trusteeSets .bitcoin = .error e ∧ e.raised = x) ∨
      Requirement.trustees.Met i ∧
        ((liftM (builderMapping i.builderParams) : Except Error Json) = .error x ∨
      (∃ m, builderMapping i.builderParams = .ok m) ∧
        ¬ HasNumeral i.endowment.total ∧ x = .fault .longNumeral)))))) :
    i.assemble = .error x ∨ i.assemble = .error (.fault .longNumeral) ∧ ¬ ShowsTokens i.assets := by
  by_cases htokens : ShowsTokens i.assets
  · have hregistry := Registry.ofDefinitions_eq_ok_iff_split.mpr ⟨hr, htokens⟩
    have hselect : (∃ e, TrusteeSet.select i.trusteeSets .bitcoin = .error e ∧ e.raised = x) ↔
        TrusteeSet.committee i.trusteeSets (some i.anchor) .bitcoin = .error x := raising_eq_error_iff.symm
    rw [endowedAssets_met_iff hr, stashes_met_iff, adminKey_met_iff (isFor_iff.mpr hp),
      anchor_met_iff (isFor_iff.mpr hp), hselect, trustees_met_iff] at h
    exact Or.inl (assemble_eq_error_iff.mpr
      (Or.inr ⟨p, hp, Or.inr ⟨_, authorities_met_iff.mp hv, Or.inr ⟨r, hregistry, h⟩⟩⟩))
  · have hregistry := Registry.ofDefinitions_eq_error_iff_split.mpr (Or.inr ⟨⟨r, hr⟩, htokens, rfl⟩)
    exact Or.inr ⟨assemble_eq_error_iff.mpr
      (Or.inr ⟨p, hp, Or.inr ⟨_, authorities_met_iff.mp hv, Or.inl hregistry⟩⟩), htokens⟩

theorem refuses_endowedAssets (h : ¬ Requirement.endowedAssets.Met i) : i.Refuses .endowedAssets := by
  rw [endowedAssets_met_iff hr] at h
  obtain ⟨e, he⟩ := exists_error_of_ne_ok fun others ho => h ⟨others, ho⟩
  obtain ⟨a, ha, rfl⟩ := error_of_checkEndowedAssets he
  have hshow : i.Numbered → (GenesisError.endowmentOfUnknownAsset a.1).isShowable = true :=
    fun hi => (GenesisError.isShowable_iff_of_shown_eq_int rfl).mpr (hi.endowed a ha)
  refine refuses_of_raised (fun k => Iff.rfl) hshow ?_
  exact assemble_eq_error_of_bound hp hv hr (Or.inl ⟨_, he, rfl⟩)

variable (ho : Requirement.endowedAssets.Met i)
include ho

theorem refuses_stashes (h : ¬ Requirement.stashes.Met i) : i.Refuses .stashes := by
  rw [stashes_met_iff] at h
  obtain ⟨e, he⟩ := exists_error_of_ne_ok fun _ hs => h hs
  have hkind := kind_of_checkStashes he
  refine refuses_of_genesis (fun k => ?_)
    (assemble_eq_error_of_bound hp hv hr (Or.inr ⟨ho, Or.inl ⟨e, he, rfl⟩⟩))
  rw [hkind]
  rfl

variable (hs : Requirement.stashes.Met i)
include hs

theorem refuses_adminKey (h : ¬ Requirement.adminKey.Met i) : i.Refuses .adminKey := by
  rw [adminKey_met_iff (isFor_iff.mpr hp)] at h
  obtain ⟨e, he⟩ := exists_error_of_ne_ok fun _ hk => h hk
  have hkind := kind_of_checkAdminKey he
  refine refuses_of_genesis (fun k => ?_)
    (assemble_eq_error_of_bound hp hv hr (Or.inr ⟨ho, Or.inr ⟨hs, Or.inl ⟨e, he, rfl⟩⟩⟩))
  rw [hkind]
  rfl

variable (hk : Requirement.adminKey.Met i)
include hk

theorem refuses_anchor (h : ¬ Requirement.anchor.Met i) : i.Refuses .anchor := by
  rw [anchor_met_iff (isFor_iff.mpr hp)] at h
  obtain ⟨e, he⟩ := exists_error_of_ne_ok fun _ hc => h hc
  have hkind := kind_of_checkAnchor he
  refine refuses_of_genesis (fun k => ?_)
    (assemble_eq_error_of_bound hp hv hr (Or.inr ⟨ho, Or.inr ⟨hs, Or.inr ⟨hk, Or.inl ⟨e, he, rfl⟩⟩⟩⟩))
  rw [hkind]
  rfl

variable (hc : Requirement.anchor.Met i)
include hc

theorem refuses_trustees (h : ¬ Requirement.trustees.Met i) : i.Refuses .trustees := by
  have hn : ∀ s, TrusteeSet.select i.trusteeSets .bitcoin ≠ .ok s :=
    fun s hs => h ⟨s, TrusteeSet.select_eq_ok_iff.mp hs⟩
  obtain ⟨e, he⟩ := exists_error_of_ne_ok hn
  exact refuses_of_raised (fun k => refusal_trustees_iff he) (fun hi => hi.isShowable_of_select he)
    (assemble_eq_error_of_bound hp hv hr
      (Or.inr ⟨ho, Or.inr ⟨hs, Or.inr ⟨hk, Or.inr ⟨hc, Or.inl ⟨e, he, rfl⟩⟩⟩⟩⟩))

end Bound

/-- Where the assets are met before a requirement, a profile, validators and a registry are there. -/
theorem exists_bound {r : Requirement} (met : ∀ q : Requirement, q.rank < r.rank → q.Met i)
    (hr : Requirement.assets.rank < r.rank) : ∃ p registry, Profile.ofJson i.profile = .ok p ∧
      Requirement.authorities.Met i ∧ Registry.split i.assets [] = .ok registry := by
  obtain ⟨p, hp⟩ := profile_met_iff.mp (met .profile (lt_trans (by decide) hr))
  obtain ⟨registry, hregistry⟩ := assets_met_iff.mp (met .assets hr)
  exact ⟨p, registry, hp, met .authorities (lt_trans (by decide) hr), hregistry⟩

theorem refuses_of_isFirstUnmet {r : Requirement} (h : r.IsFirstUnmet i) : i.Refuses r := by
  obtain ⟨hn, met⟩ := h
  cases r with
  | profile => exact refuses_profile hn
  | authorities =>
    obtain ⟨p, hp⟩ := profile_met_iff.mp (met .profile (by decide))
    exact refuses_authorities hp hn
  | assets =>
    obtain ⟨p, hp⟩ := profile_met_iff.mp (met .profile (by decide))
    exact refuses_assets hp (met .authorities (by decide)) hn
  | endowedAssets =>
    obtain ⟨p, r, hp, hv, hr⟩ := exists_bound met (by decide)
    exact refuses_endowedAssets hp hv hr hn
  | stashes =>
    obtain ⟨p, r, hp, hv, hr⟩ := exists_bound met (by decide)
    exact refuses_stashes hp hv hr (met .endowedAssets (by decide)) hn
  | adminKey =>
    obtain ⟨p, r, hp, hv, hr⟩ := exists_bound met (by decide)
    exact refuses_adminKey hp hv hr (met .endowedAssets (by decide)) (met .stashes (by decide)) hn
  | anchor =>
    obtain ⟨p, r, hp, hv, hr⟩ := exists_bound met (by decide)
    exact refuses_anchor hp hv hr (met .endowedAssets (by decide)) (met .stashes (by decide))
      (met .adminKey (by decide)) hn
  | trustees =>
    obtain ⟨p, r, hp, hv, hr⟩ := exists_bound met (by decide)
    exact refuses_trustees hp hv hr (met .endowedAssets (by decide)) (met .stashes (by decide))
      (met .adminKey (by decide)) (met .anchor (by decide)) hn

/-! ## Inputs that meet every requirement, and only those, make a state -/

theorem exists_isFirstUnmet (h : ¬ ∀ r : Requirement, r.Met i) : ∃ r : Requirement, r.IsFirstUnmet i := by
  -- of the requirements that are not met, take the one checked first
  rw [not_forall] at h
  obtain ⟨r, hr, least⟩ := exists_minimalFor_of_wellFoundedLT (fun r => ¬ r.Met i) Requirement.rank h
  refine ⟨r, hr, fun q hq => ?_⟩
  by_contra hn
  exact absurd (least hn hq.le) hq.not_ge

theorem Yields.met {s : State} (h : i.Yields s) (r : Requirement) : r.Met i := by
  have hv : s.validators = i.authorities.map Validator.ofAuthority :=
    (bindValidators_eq_ok_iff.mp h.validators).2.2
  have hr := (Registry.ofDefinitions_eq_ok_iff_split.mp h.registry).1
  cases r with
  | profile => exact profile_met_iff.mpr ⟨_, h.profile⟩
  | authorities => exact authorities_met_iff.mpr (hv ▸ h.validators)
  | assets => exact assets_met_iff.mpr ⟨_, hr⟩
  | endowedAssets => exact (endowedAssets_met_iff hr).mpr ⟨_, h.assetsEndowed⟩
  | stashes => exact stashes_met_iff.mpr (hv ▸ h.stashes)
  | adminKey => exact (adminKey_met_iff (isFor_iff.mpr h.profile)).mpr h.adminKey_checked
  | anchor => exact (anchor_met_iff (isFor_iff.mpr h.profile)).mpr h.anchor_checked
  | trustees => exact trustees_met_iff.mpr ⟨_, h.committee⟩

theorem exists_builderMapping {v : Json} (h : v = .null ∨ v.IsMapping) :
    ∃ m, builderMapping v = .ok m := by
  unfold builderMapping
  rcases h with rfl | h
  · exact ⟨_, rfl⟩
  · split
    · cases v with
      | object fields => exact ⟨_, rfl⟩
      | table rows => exact ⟨_, rfl⟩
      | _ => exact absurd h id
    · exact ⟨_, rfl⟩

section Met

variable (met : ∀ r : Requirement, r.Met i)
include met

/-- Once all requirements are met, what is left is to report the tokens, to take the migration data for a mapping
and to report the total. -/
theorem exists_assemble_iff_of_met : (∃ s, i.assemble = .ok s) ↔
    ShowsTokens i.assets ∧ (∃ m, builderMapping i.builderParams = .ok m) ∧ HasNumeral i.endowment.total := by
  constructor
  · rintro ⟨s, hs⟩
    have hyields := assemble_eq_ok_iff.mp hs
    exact ⟨(Registry.ofDefinitions_eq_ok_iff_split.mp hyields.registry).2, ⟨_, hyields.builderParams⟩,
      hyields.total_reported⟩
  · rintro ⟨htokens, ⟨params, hm⟩, htotal⟩
    obtain ⟨p, hp⟩ := profile_met_iff.mp (met .profile)
    obtain ⟨r, hr⟩ := assets_met_iff.mp (met .assets)
    obtain ⟨others, ho⟩ := (endowedAssets_met_iff hr).mp (met .endowedAssets)
    obtain ⟨committee, hc⟩ := trustees_met_iff.mp (met .trustees)
    have hk := (adminKey_met_iff (isFor_iff.mpr hp)).mp (met .adminKey)
    have ha := (anchor_met_iff (isFor_iff.mpr hp)).mp (met .anchor)
    have hv := authorities_met_iff.mp (met .authorities)
    have hs := stashes_met_iff.mp (met .stashes)
    have hregistry := Registry.ofDefinitions_eq_ok_iff_split.mpr ⟨hr, htokens⟩
    simp only [assemble, bind_eq_ok_iff, raising_eq_ok_iff, liftGenesis_eq_ok_iff, liftFault_eq_ok_iff,
      Json.report_eq_ok_iff, reports_total_iff, pure_eq_ok_iff]
    exact ⟨_, p, hp, _, hv, r, hregistry, others, ho, (), hs, (), hk, (), ha, committee, hc, params, hm, (),
      htotal, rfl⟩

theorem assemble_eq_error_iff_of_met : i.assemble = .error x ↔
    ¬ ShowsTokens i.assets ∧ x = .fault .longNumeral ∨
      ShowsTokens i.assets ∧ ((liftM (builderMapping i.builderParams) : Except Error Json) = .error x ∨
        (∃ m, builderMapping i.builderParams = .ok m) ∧
          ¬ HasNumeral i.endowment.total ∧ x = .fault .longNumeral) := by
  obtain ⟨p, hp⟩ := profile_met_iff.mp (met .profile)
  obtain ⟨r, hr⟩ := assets_met_iff.mp (met .assets)
  obtain ⟨others, ho⟩ := (endowedAssets_met_iff hr).mp (met .endowedAssets)
  obtain ⟨committee, hc⟩ := trustees_met_iff.mp (met .trustees)
  have hk := (adminKey_met_iff (isFor_iff.mpr hp)).mp (met .adminKey)
  have ha := (anchor_met_iff (isFor_iff.mpr hp)).mp (met .anchor)
  have hv := authorities_met_iff.mp (met .authorities)
  have hs := stashes_met_iff.mp (met .stashes)
  rw [assemble_eq_error_iff]
  by_cases htokens : ShowsTokens i.assets
  · have hregistry := Registry.ofDefinitions_eq_ok_iff_split.mpr ⟨hr, htokens⟩
    simp only [hp, hv, hregistry, ho, hs, hk, ha, hc, htokens, reduceCtorEq, Except.ok.injEq, exists_eq',
      exists_eq_left', false_and, exists_false, false_or, true_and, not_true_eq_false]
  · have hregistry : Registry.ofDefinitions i.assets [] = .error (.fault .longNumeral) :=
      Registry.ofDefinitions_eq_error_iff_split.mpr (Or.inr ⟨⟨r, hr⟩, htokens, rfl⟩)
    simp only [hp, hv, hregistry, htokens, reduceCtorEq, Except.ok.injEq, Except.error.injEq, exists_eq_left',
      false_and, exists_false, false_or, or_false, true_and, not_false_eq_true]
    exact eq_comm

end Met

end Inputs

end LedgerGenesis
