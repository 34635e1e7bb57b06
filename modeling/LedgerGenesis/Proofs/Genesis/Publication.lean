import LedgerGenesis.Proofs.Genesis.Balances
import LedgerGenesis.Proofs.Genesis.Binding
import LedgerGenesis.Proofs.Json.Packable
import LedgerGenesis.Proofs.Trustee
import Mathlib.Tactic.MkIffOfInductiveProp

/-! # Which states can be published

No check of an assembly looks at the size of a number or of a text, nor at the encoding of a label. A
state has a configuration when its labels are UTF-8, and it has canonical bytes and a digest when in
addition everything in it fits.
-/
namespace LedgerGenesis

open MessagePack (IsPackable InRange HexFits TextFits lengthLimit isPackable_text isPackable_list
  isPackable_object)

/-! ## What fits -/

def SessionKeys.Fits (k : SessionKeys) : Prop :=
  HexFits k.grandpa ∧ HexFits k.babe ∧ HexFits k.imOnline ∧ HexFits k.authorityDiscovery

def Validator.Fits (v : Validator) : Prop :=
  HexFits v.stash ∧ v.keys.Fits ∧ v.referral.length < lengthLimit

def Endowment.BalancesFit (bs : Balances) : Prop :=
  bs.length < lengthLimit ∧ ∀ b ∈ bs, HexFits b.1 ∧ InRange b.2

@[mk_iff] structure AssetEntry.Fits (e : AssetEntry) : Prop where
  id : InRange e.id
  token : e.info.token.Throughout IsPackable
  tokenName : e.info.tokenName.Throughout IsPackable
  decimals : InRange e.info.decimals
  desc : e.info.desc.Throughout IsPackable

def Trustee.Fits (t : Trustee) : Prop :=
  HexFits t.account ∧ t.about.length < lengthLimit ∧ HexFits t.hotKey ∧ HexFits t.coldKey

@[mk_iff] structure TrusteeSet.Fits (set : TrusteeSet) : Prop where
  least : InRange set.least
  greatest : InRange set.greatest
  count : set.trustees.length < lengthLimit
  trustees : ∀ t ∈ set.trustees, t.Fits

theorem SessionKeys.packable_iff {k : SessionKeys} : k.toJson.Throughout IsPackable ↔ k.Fits := by
  simp +decide [toJson, Fits, -Prod.forall]

theorem Endowment.packable_balancesJson_iff {bs : Balances} :
    (balancesJson bs).Throughout IsPackable ↔ BalancesFit bs := by
  simp +decide [balancesJson, BalancesFit, List.forall_mem_map, -List.mem_map, -Prod.forall]

theorem Endowment.packable_numberedJson_iff {assets : List (Int × Balances)} :
    (numberedJson assets).Throughout IsPackable ↔ assets.length < lengthLimit ∧
      ∀ p ∈ assets, TextFits (Text.ofInt p.1) ∧ BalancesFit p.2 := by
  simp only [numberedJson, Json.Throughout.object_iff, isPackable_object, List.forall_mem_map,
    List.length_map, packable_balancesJson_iff, and_assoc, forall₂_and]

theorem AssetEntry.packable_iff {e : AssetEntry} : e.toJson.Throughout IsPackable ↔ e.Fits := by
  have hchain : TextFits e.info.chain.name := by cases e.info.chain <;> decide
  simp +decide [toJson, AssetInfo.toJson, fits_iff, -Prod.forall, hchain]

theorem Trustee.packable_iff {t : Trustee} {v : Json} (h : t.toJson = .ok v) :
    v.Throughout IsPackable ↔ t.Fits := by
  obtain ⟨about, habout, rfl⟩ := toJson_eq_ok_iff.mp h
  have hlabel : TextFits about ↔ t.about.length < lengthLimit := by simp [TextFits, habout]
  simp +decide [Fits, hlabel]

theorem TrusteeSet.packable_iff {set : TrusteeSet} {v : Json} (h : set.toJson = .ok v) :
    v.Throughout IsPackable ↔ set.Fits := by
  obtain ⟨trustees, ht, rfl⟩ := toJson_eq_ok_iff.mp h
  have hchain : TextFits set.chain.name := by cases set.chain <;> decide
  have htrustees := forall_mem_iff_of_mapM_eq_ok (fun _ _ => Trustee.packable_iff) ht
  simp +decide [boundsJson, fits_iff, hchain, htrustees, length_eq_of_mapM_eq_ok ht, -Prod.forall,
    and_assoc]

@[mk_iff] structure Retarget.Fits (r : Retarget) : Prop where
  maxBits : InRange r.maxBits
  blockMaxFuture : InRange r.blockMaxFuture
  timespan : InRange r.timespan
  spacing : InRange r.spacing
  factor : InRange r.factor
  interval : InRange r.interval
  minTimespan : InRange r.minTimespan
  maxTimespan : InRange r.maxTimespan

theorem Header.packable {h : Header} : h.toJson.Throughout IsPackable := by
  have hword : ∀ w : UInt32, InRange w.toNat := by
    intro w
    have hw := w.toNat_lt
    exact ⟨by omega, by omega⟩
  have hhash : ∀ bs : Bytes, bs.length = 32 → HexFits bs := by
    intro bs hbs
    rw [HexFits, hbs]
    decide
  simp +decide [toJson, hword, hhash _ h.previous_length, hhash _ h.merkleRoot_length, -Prod.forall]

@[mk_iff] structure Bridge.Fits (b : Bridge) : Prop where
  committee : b.committee.accounts.length < lengthLimit ∧ ∀ a ∈ b.committee.accounts, HexFits a
  confirmations : InRange b.anchor.confirmations
  declaredHash : HexFits b.anchor.declaredHash
  height : InRange b.anchor.height
  retarget : b.anchor.retarget.Fits
  withdrawalFee : InRange b.withdrawalFee
  maxWithdrawalCount : InRange b.maxWithdrawalCount

theorem Retarget.packable_iff {r : Retarget} : r.toJson.Throughout IsPackable ↔ r.Fits := by
  simp +decide [toJson, fits_iff, -Prod.forall]

theorem Bridge.packable_iff {b : Bridge} : b.toJson.Throughout IsPackable ↔ b.Fits := by
  have hnetwork : TextFits b.anchor.network.name := by cases b.anchor.network <;> decide
  simp +decide [toJson, fits_iff, hnetwork, Header.packable, Retarget.packable_iff,
    List.forall_mem_map, -List.mem_map, -Prod.forall, and_assoc]

namespace State

variable {s : State} {trustees labels : List Json}

structure Fits (s : State) : Prop where
  adminKey : ∀ k ∈ s.adminKey, HexFits k
  code : HexFits s.code
  technicalMembers : s.technicalMembers.length < lengthLimit ∧ ∀ a ∈ s.technicalMembers, HexFits a
  electionsMembers : s.electionsMembers.length < lengthLimit ∧
    ∀ m ∈ s.electionsMembers, HexFits m.1 ∧ InRange m.2
  validators : s.validators.length < lengthLimit ∧ ∀ v ∈ s.validators, HexFits v.stash ∧ v.keys.Fits
  balances : Endowment.BalancesFit s.balances
  entries : s.registry.entries.length < lengthLimit ∧ ∀ e ∈ s.registry.entries, e.Fits
  restrictions : s.registry.restrictions.length < lengthLimit ∧
    ∀ p ∈ s.registry.restrictions, InRange p.1 ∧ InRange p.2.bits
  assetsEndowed : s.assetsEndowed.length < lengthLimit ∧
    ∀ p ∈ s.assetsEndowed, TextFits (Text.ofInt p.1) ∧ Endowment.BalancesFit p.2
  trusteeSets : s.trusteeSets.length < lengthLimit ∧ ∀ set ∈ s.trusteeSets, set.Fits
  bridge : s.bridge.Fits
  builderParams : s.builderParams.Throughout IsPackable
  referrals : ∀ v ∈ s.validators, v.referral.length < lengthLimit

theorem packable_sessionJson_iff : s.sessionJson.Throughout IsPackable ↔
    s.validators.length < lengthLimit ∧ ∀ v ∈ s.validators, HexFits v.stash ∧ v.keys.Fits := by
  simp +decide [sessionJson, sessionKeys, SessionKeys.packable_iff, List.forall_mem_map,
    -List.mem_map, -Prod.forall]

theorem packable_referral_iff {referral : Bytes} {v : Json} (h : referralJson referral = .ok v) :
    v.Throughout IsPackable ↔ referral.length < lengthLimit := by
  obtain ⟨label, hl, rfl⟩ := referralJson_eq_ok_iff.mp h
  simp [TextFits, hl]

theorem packable_restrictionsJson_iff : s.restrictionsJson.Throughout IsPackable ↔
    s.registry.restrictions.length < lengthLimit ∧
      ∀ p ∈ s.registry.restrictions, InRange p.1 ∧ InRange p.2.bits := by
  simp +decide [restrictionsJson, List.forall_mem_map, -List.mem_map, -Prod.forall]

theorem packable_hexList_iff {accounts : List Bytes} : (hexList accounts).Throughout IsPackable ↔
    accounts.length < lengthLimit ∧ ∀ a ∈ accounts, HexFits a := by
  simp +decide [hexList, List.forall_mem_map, -List.mem_map]

theorem packable_sudoSection_iff : (∀ f ∈ s.sudoSection, f.2.Throughout IsPackable) ↔
    ∀ k ∈ s.adminKey, HexFits k := by
  unfold sudoSection
  cases s.adminKey <;> simp +decide

def constants (p : Parameters) : List Json :=
  [pairJson p.epochProbability, .text p.allowedSlots, .text p.network.name, stakingJson p,
    .list (p.claimRestrictions.map fun (id, r) => .list [.int id, pairJson r]),
    .list (p.miningPower.map fun (id, n) => .list [.int id, .int n]),
    .list (p.tradingPairs.map tradingPairJson), .int p.evmChainId]

theorem packable_constants (p : Profile) :
    ∀ v ∈ constants p.parameters, v.Throughout IsPackable := by
  cases p <;> decide +kernel

theorem isPackable_document : IsPackable (s.document trustees labels) := by
  unfold document sudoSection
  cases s.adminKey <;> simp +decide [commonSections, -Prod.forall]

theorem packable_electionsMembers_iff {members : List (Bytes × Int)} :
    (Json.list (members.map fun (a, stake) => .list [.text (Hex.encode a), .int stake])).Throughout
      IsPackable ↔ members.length < lengthLimit ∧ ∀ m ∈ members, HexFits m.1 ∧ InRange m.2 := by
  simp +decide [List.forall_mem_map, -List.mem_map, -Prod.forall]

theorem packable_entries_iff {entries : List AssetEntry} :
    (Json.list (entries.map AssetEntry.toJson)).Throughout IsPackable ↔
      entries.length < lengthLimit ∧ ∀ e ∈ entries, e.Fits := by
  simp [List.forall_mem_map, -List.mem_map, AssetEntry.packable_iff]

theorem packable_trustees_iff (h : s.trusteeSets.mapM TrusteeSet.toJson = .ok trustees) :
    (Json.list trustees).Throughout IsPackable ↔
      s.trusteeSets.length < lengthLimit ∧ ∀ set ∈ s.trusteeSets, set.Fits := by
  rw [Json.Throughout.list_iff, isPackable_list, length_eq_of_mapM_eq_ok h,
    forall_mem_iff_of_mapM_eq_ok (fun _ _ => TrusteeSet.packable_iff) h]

theorem packable_referrals_iff
    (h : (s.stakingCandidates.mapM fun c => referralJson c.2) = .ok labels) :
    (Json.list labels).Throughout IsPackable ↔
      s.validators.length < lengthLimit ∧ ∀ v ∈ s.validators, v.referral.length < lengthLimit := by
  rw [Json.Throughout.list_iff, isPackable_list, length_eq_of_mapM_eq_ok h,
    forall_mem_iff_of_mapM_eq_ok (fun _ _ => packable_referral_iff) h]
  simp only [stakingCandidates, List.length_map, List.forall_mem_map]

/-- The configuration has a form exactly when all that it shows of the state fits. -/
theorem packable_document_iff (ht : s.trusteeSets.mapM TrusteeSet.toJson = .ok trustees)
    (hl : (s.stakingCandidates.mapM fun c => referralJson c.2) = .ok labels) :
    (s.document trustees labels).Throughout IsPackable ↔ s.Fits := by
  obtain ⟨hepoch, hslots, hnetwork, hstaking, hclaims, hmining, htrading, hchain⟩ := by
    simpa only [constants, List.forall_mem_cons] using packable_constants s.profile
  have hself : IsPackable (.object (s.sudoSection ++
      s.commonSections (Endowment.numberedJson s.assetsEndowed) trustees labels)) := isPackable_document
  rw [document, Json.Throughout.object_iff, and_iff_right hself, List.forall_mem_append,
    packable_sudoSection_iff]
  -- what the profile decides always fits, and there are as many referrals as validators
  simp +decide only [commonSections, List.forall_mem_cons, Json.Throughout.object_iff,
    Json.Throughout.text_iff, isPackable_text, MessagePack.textFits_hex_iff, isPackable_object,
    List.length_cons, List.length_nil, packable_hexList_iff, packable_electionsMembers_iff,
    packable_sessionJson_iff, Endowment.packable_balancesJson_iff, packable_entries_iff,
    packable_restrictionsJson_iff, Endowment.packable_numberedJson_iff, packable_trustees_iff ht,
    Bridge.packable_iff, packable_referrals_iff hl, parameters, hepoch, hslots, hnetwork, hstaking,
    hclaims, hmining, htrading, hchain, true_and, and_true]
  constructor
  · rintro ⟨hkey, hcode, htech, helec, hvals, hbal, hent, ⟨hrest, hassets⟩, hsets, hbridge, hparams,
      -, hrefs⟩
    exact ⟨hkey, hcode, htech, helec, hvals, hbal, hent, hrest, hassets, hsets, hbridge, hparams, hrefs⟩
  · intro h
    exact ⟨h.adminKey, h.code, h.technicalMembers, h.electionsMembers, h.validators, h.balances,
      h.entries, ⟨h.restrictions, h.assetsEndowed⟩, h.trusteeSets, h.bridge, h.builderParams,
      h.validators.1, h.referrals⟩

/-- The referrals of the validators and the descriptions of the trustees are texts. -/
def HasLabels (s : State) : Prop :=
  (∀ v ∈ s.validators, (Text.ofUtf8? v.referral).isSome) ∧
    ∀ set ∈ s.trusteeSets, ∀ t ∈ set.trustees, (Text.ofUtf8? t.about).isSome

theorem exists_referralJson_iff {referral : Bytes} :
    (∃ v, referralJson referral = .ok v) ↔ (Text.ofUtf8? referral).isSome := by
  unfold referralJson
  cases Text.ofUtf8? referral <;> simp

/-- A state has a configuration where its ids have numerals and its labels are texts. -/
theorem exists_toJson_iff_hasLabels : (∃ doc, s.toJson = .ok doc) ↔ s.NumbersIds ∧ s.HasLabels := by
  have hreferrals : (∃ labels, (s.stakingCandidates.mapM fun c => referralJson c.2) = .ok labels) ↔
      ∀ v ∈ s.validators, (Text.ofUtf8? v.referral).isSome := by
    rw [exists_mapM_eq_ok_iff]
    simp only [stakingCandidates, List.forall_mem_map, exists_referralJson_iff]
  rw [HasLabels, ← hreferrals]
  constructor
  · rintro ⟨doc, hdoc⟩
    obtain ⟨hids, trustees, labels, -, hl, -⟩ := toJson_eq_ok_iff.mp hdoc
    exact ⟨hids, ⟨labels, hl⟩, ((exists_toJson_iff hl).mp ⟨doc, hdoc⟩).2⟩
  · rintro ⟨hids, ⟨labels, hl⟩, hsets⟩
    exact (exists_toJson_iff hl).mpr ⟨hids, hsets⟩

theorem exists_encode_iff : (∃ bs, s.encode = .ok bs) ↔ (s.NumbersIds ∧ s.HasLabels) ∧ s.Fits := by
  rw [← exists_toJson_iff_hasLabels]
  simp only [encode, bind_eq_ok_iff]
  constructor
  · rintro ⟨bs, doc, hdoc, hbs⟩
    obtain ⟨-, trustees, labels, ht, hl, rfl⟩ := toJson_eq_ok_iff.mp hdoc
    exact ⟨⟨_, hdoc⟩, (packable_document_iff ht hl).mp (MessagePack.exists_pack_iff.mp ⟨bs, hbs⟩)⟩
  · rintro ⟨⟨doc, hdoc⟩, hfits⟩
    obtain ⟨-, trustees, labels, ht, hl, rfl⟩ := toJson_eq_ok_iff.mp hdoc
    obtain ⟨bs, hbs⟩ := MessagePack.exists_pack_iff.mpr ((packable_document_iff ht hl).mpr hfits)
    exact ⟨bs, _, hdoc, hbs⟩

theorem exists_hash_iff : (∃ digest, s.hash = .ok digest) ↔ ∃ bs, s.encode = .ok bs :=
  exists_map_eq_ok_iff

end State

/-! ## Trustees that were read -/

theorem Json.ofUtf8?_of_toUtf8 {v : Json} {bs : Bytes} (h : v.toUtf8 = .ok bs) :
    (Text.ofUtf8? bs).isSome := by
  unfold Json.toUtf8 at h
  split at h
  next t =>
    split at h
    next bs' ht =>
      cases h
      rw [Text.ofUtf8?_eq_some_iff.mpr ht]
      rfl
    next => cases h
  next => cases h

theorem Trustee.label_of_ofEntry {entry : Json} {t : Trustee} (h : ofEntry entry = .ok t) :
    (Text.ofUtf8? t.about).isSome := by
  obtain ⟨-, v, hv⟩ := parts_of_ofEntry h
  exact Json.ofUtf8?_of_toUtf8 hv

/-- The descriptions of trustees that were read from a table are texts. -/
theorem TrusteeSet.labels_of_ofJson {data : Json} {set : TrusteeSet} (h : ofJson data = .ok set) :
    ∀ t ∈ set.trustees, (Text.ofUtf8? t.about).isSome := by
  obtain ⟨-, entries, -, -, ht⟩ := entries_of_ofJson h
  exact forall_mem_of_mapM_eq_ok (fun _ _ => Trustee.label_of_ofEntry) ht

namespace Inputs

variable {i : Inputs} {s : State}

theorem hasLabels_iff_of_read (hs : i.assemble = .ok s)
    (hsets : ∀ set ∈ i.trusteeSets, ∃ data, TrusteeSet.ofJson data = .ok set) :
    s.HasLabels ↔ ∀ a ∈ i.authorities, (Text.ofUtf8? a.referral).isSome := by
  have h := assemble_eq_ok_iff.mp hs
  obtain ⟨-, -, hv⟩ := bindValidators_eq_ok_iff.mp h.validators
  have hlabels : ∀ set ∈ i.trusteeSets, ∀ t ∈ set.trustees, (Text.ofUtf8? t.about).isSome := by
    intro set hset
    obtain ⟨data, hdata⟩ := hsets set hset
    exact TrusteeSet.labels_of_ofJson hdata
  rw [State.HasLabels, hv, h.trusteeSets, and_iff_left hlabels, List.forall_mem_map]
  rfl

/-- An assembled state has a configuration exactly when the ids of its assets have numerals, as those that were
allocated always do, and its labels are texts, which those of trustees that were read always are. It has canonical
bytes exactly when besides everything in it fits, and a digest exactly when it has canonical bytes. -/
theorem assemble_publishes_iff (hs : i.assemble = .ok s) :
    ((∃ doc, s.toJson = .ok doc) ↔ s.NumbersIds ∧ s.HasLabels) ∧
      ((∃ bs, s.encode = .ok bs) ↔ (s.NumbersIds ∧ s.HasLabels) ∧ s.Fits) ∧
      ((∃ digest, s.hash = .ok digest) ↔ (s.NumbersIds ∧ s.HasLabels) ∧ s.Fits) ∧
      (∀ accounts amount stake grants,
        Endowment.allocate accounts amount stake grants = .ok i.endowment → s.NumbersIds) ∧
      ((∀ set ∈ i.trusteeSets, ∃ data, TrusteeSet.ofJson data = .ok set) →
        (s.HasLabels ↔ ∀ a ∈ i.authorities, (Text.ofUtf8? a.referral).isSome)) := by
  refine ⟨State.exists_toJson_iff_hasLabels, State.exists_encode_iff,
    State.exists_hash_iff.trans State.exists_encode_iff, fun accounts amount stake grants ha => ?_,
    hasLabels_iff_of_read hs⟩
  exact (assemble_eq_ok_iff.mp hs).numbersIds (Endowment.allocate_eq_ok ha).2

theorem smallNetwork_publishes : ∃ s, smallNetwork.assemble = .ok s ∧ s.HasLabels ∧ s.Fits ∧
    ∃ digest, s.hash = .ok digest := by
  have hrun : ∃ s, smallNetwork.assemble = .ok s ∧ s.encode.isOk = true :=
    ⟨_, rfl, by decide +kernel⟩
  obtain ⟨s, hs, hok⟩ := hrun
  cases hbs : s.encode with
  | error e =>
    rw [hbs] at hok
    cases hok
  | ok bs =>
    obtain ⟨-, hencode, hhash, -⟩ := assemble_publishes_iff hs
    have hfits := hencode.mp ⟨bs, hbs⟩
    exact ⟨s, hs, hfits.1.2, hfits.2, hhash.mpr hfits⟩

/-- A network whose accounts hold more than sixty-four bits can say. -/
def richNetwork : Inputs :=
  { smallNetwork with endowment := {
      native := [(plainKey 10, 0x10000000000000000), (plainKey 20, 0x10000000000000000)]
      total := 0x20000000000000000
      technicalMembers := [plainKey 10]
      electionsMembers := [(plainKey 10, 50)]
      assets := [] } }

theorem richNetwork_not_published : ∃ s, richNetwork.assemble = .ok s ∧
    Endowment.allocate [plainKey 10, plainKey 20] (.int 0x10000000000000000) 50 [] =
      .ok richNetwork.endowment ∧
    s.encode = .error .outOfRange ∧ s.hash = .error .outOfRange :=
  ⟨_, rfl, rfl, by decide +kernel, by decide +kernel⟩

end Inputs

end LedgerGenesis
