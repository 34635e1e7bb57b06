import LedgerGenesis.Proofs.Genesis.Assembly
import LedgerGenesis.Proofs.Genesis.Document
import LedgerGenesis.Proofs.Genesis.Rendering
import LedgerGenesis.Proofs.Json.Packing

/-! # What the digest of a state covers

States with the same canonical bytes have the same configuration, and all that the configuration shows
of a state is the same in both.
-/
namespace LedgerGenesis

open MessagePack (IsPlain isPlain_null isPlain_bool isPlain_int isPlain_text isPlain_list isPlain_object)

namespace State

variable {s t : State} {bs : Bytes} {endowed : Json} {trustees labels trustees' labels' : List Json}

/-- The texts and data that a state takes from outside are plain. -/
structure HoldsPlain (s : State) : Prop where
  builderParams : s.builderParams.Throughout IsPlain
  info : ∀ e ∈ s.registry.entries, e.info.token.Throughout IsPlain ∧
    e.info.tokenName.Throughout IsPlain ∧ e.info.desc.Throughout IsPlain

/-- What the configuration shows of the inputs of a state is the same in both. -/
structure Agrees (s t : State) : Prop where
  code : s.code = t.code
  adminKey : s.adminKey = t.adminKey
  validators : s.validators = t.validators
  balances : s.balances = t.balances
  registry : s.registry = t.registry
  assetsEndowed : s.assetsEndowed = t.assetsEndowed
  technicalMembers : s.technicalMembers = t.technicalMembers
  electionsMembers : s.electionsMembers = t.electionsMembers
  trusteeSets : s.trusteeSets = t.trusteeSets
  builderParams : s.builderParams = t.builderParams
  anchor : s.bridge.anchor = t.bridge.anchor

/-! ## Documents -/

theorem sudo_ne_system {k : Bytes} {rest : List (Text × Json)} :
    (Json.object ((("sudo" : Text), Json.object [("key", .text (Hex.encode k))]) :: rest)) ≠
      .object (s.commonSections endowed trustees labels) := by
  intro h
  have hkeys := (Prod.mk.inj (List.cons.inj (Json.object.inj h)).1).1
  exact absurd hkeys (by decide)

/-- A section of the admin key is told from the section that follows it by its name. -/
theorem document_inj (h : s.document trustees labels = t.document trustees' labels') :
    s.adminKey = t.adminKey ∧
      s.commonSections (Endowment.numberedJson s.assetsEndowed) trustees labels =
        t.commonSections (Endowment.numberedJson t.assetsEndowed) trustees' labels' := by
  unfold document sudoSection at h
  cases hs : s.adminKey with
  | none =>
    cases ht : t.adminKey with
    | none =>
      rw [hs, ht] at h
      exact ⟨rfl, Json.object.inj h⟩
    | some k =>
      rw [hs, ht] at h
      exact absurd h.symm sudo_ne_system
  | some k =>
    cases ht : t.adminKey with
    | none =>
      rw [hs, ht] at h
      exact absurd h sudo_ne_system
    | some l =>
      rw [hs, ht] at h
      obtain ⟨hsudo, hrest⟩ := List.cons.inj (Json.object.inj h)
      simp only [Prod.mk.injEq, Json.object.injEq, List.cons.injEq, Json.text.injEq, Hex.encode_inj,
        true_and, and_true] at hsudo
      exact ⟨congrArg some hsudo, hrest⟩

theorem sessionJson_inj (h : s.sessionJson = t.sessionJson) : s.sessionKeys = t.sessionKeys := by
  simp only [sessionJson, Json.object.injEq, List.cons.injEq, Prod.mk.injEq, true_and,
    and_true] at h
  refine list_map_inj ?_ h
  rintro ⟨a, v, k⟩ ⟨b, w, l⟩ hrow
  simpa [SessionKeys.toJson_injective.eq_iff] using hrow

/-- Validators are known from their stashes and keys and their referrals. -/
theorem validators_ext {vs ws : List Validator}
    (hkeys : (vs.map fun v => (v.stash, v.stash, v.keys)) = ws.map fun v => (v.stash, v.stash, v.keys))
    (hreferrals : vs.map Validator.referral = ws.map Validator.referral) : vs = ws := by
  induction vs generalizing ws with
  | nil => exact (List.map_eq_nil_iff.mp hkeys.symm).symm
  | cons v vs ih =>
    cases ws with
    | nil => cases hkeys
    | cons w ws =>
      simp only [List.map_cons, List.cons.injEq, Prod.mk.injEq] at hkeys hreferrals
      obtain ⟨⟨hstash, -, hk⟩, hkeys⟩ := hkeys
      rw [ih hkeys hreferrals.2]
      cases v
      cases w
      simp_all only

theorem referrals_mapM {labels : List Json}
    (h : (s.stakingCandidates.mapM fun c => referralJson c.2) = .ok labels) :
    (s.validators.map Validator.referral).mapM referralJson = .ok labels := by
  rw [stakingCandidates, mapM_eq_ok_iff, List.forall₂_map_left_iff] at h
  rw [mapM_eq_ok_iff, List.forall₂_map_left_iff]
  exact h

theorem restrictionsJson_inj (h : s.restrictionsJson = t.restrictionsJson) :
    s.registry.restrictions = t.registry.restrictions := by
  refine list_map_inj ?_ h
  rintro ⟨i, ⟨m⟩⟩ ⟨j, ⟨n⟩⟩ hrow
  simpa using hrow

theorem bridge_inj (h : s.bridge.toJson = t.bridge.toJson) : s.bridge.anchor = t.bridge.anchor := by
  simp only [Bridge.toJson, Json.object.injEq, List.cons.injEq, Prod.mk.injEq, Json.text.injEq,
    Json.int.injEq, Json.list.injEq, Hex.encode_inj, Text.ofString_inj,
    BitcoinNetwork.name_injective.eq_iff, Header.toJson_injective.eq_iff,
    Retarget.toJson_injective.eq_iff, true_and, and_true] at h
  obtain ⟨-, hnetwork, hconfirmations, hhash, ⟨hheader, hheight⟩, hretarget, -⟩ := h
  cases hs : s.bridge.anchor
  cases ht : t.bridge.anchor
  simp_all only

/-- States with one document agree on all that it shows. -/
theorem agrees_of_toJson {doc : Json} (hs : s.toJson = .ok doc) (ht : t.toJson = .ok doc) :
    s.Agrees t := by
  obtain ⟨-, trustees, labels, hts, hls, rfl⟩ := toJson_eq_ok_iff.mp hs
  obtain ⟨-, trustees', labels', hts', hls', hdoc⟩ := toJson_eq_ok_iff.mp ht
  obtain ⟨hkey, hcommon⟩ := document_inj hdoc
  simp only [commonSections, List.cons.injEq, Prod.mk.injEq, Json.object.injEq, Json.text.injEq,
    Json.list.injEq, Hex.encode_inj, true_and, and_true] at hcommon
  obtain ⟨hcode, -, htechnical, helections, hsession, hbalances, -, hentries,
    ⟨hrestrictions, hassets⟩, rfl, hbridge, -, -, -, ⟨hparams, rfl⟩, -⟩ := hcommon
  have hreferrals := mapM_injective eq_of_referralJson (referrals_mapM hls) (referrals_mapM hls')
  have helected : Function.Injective fun p : Bytes × Int =>
      Json.list [.text (Hex.encode p.1), .int p.2] := by
    rintro ⟨a, m⟩ ⟨b, n⟩ hrow
    simpa using hrow
  have hentries := List.map_injective_iff.mpr AssetEntry.toJson_injective hentries
  exact {
    code := hcode
    adminKey := hkey
    validators := validators_ext (sessionJson_inj hsession) hreferrals
    balances := Endowment.balancesJson_injective hbalances
    registry := by
      have hrest := restrictionsJson_inj hrestrictions
      cases hs : s.registry
      cases ht : t.registry
      simp_all only
    assetsEndowed := Endowment.numberedJson_injective hassets
    technicalMembers := hexList_injective htechnical
    electionsMembers := List.map_injective_iff.mpr helected helections
    trusteeSets := mapM_injective TrusteeSet.eq_of_toJson hts hts'
    builderParams := hparams
    anchor := bridge_inj hbridge }

/-! ## Plain documents -/

theorem plain_trustee {t : Trustee} {v : Json} (h : t.toJson = .ok v) : v.Throughout IsPlain := by
  obtain ⟨about, -, rfl⟩ := Trustee.toJson_eq_ok_iff.mp h
  simp

theorem plain_trusteeSet {set : TrusteeSet} {v : Json} (h : set.toJson = .ok v) :
    v.Throughout IsPlain := by
  obtain ⟨ts, hts, rfl⟩ := TrusteeSet.toJson_eq_ok_iff.mp h
  have hplain : ∀ v ∈ ts, v.Throughout IsPlain :=
    forall_mem_of_mapM_eq_ok (fun _ _ => plain_trustee) hts
  simpa [TrusteeSet.boundsJson] using hplain

theorem plain_referral {referral : Bytes} {v : Json} (h : referralJson referral = .ok v) :
    v.Throughout IsPlain := by
  obtain ⟨label, -, rfl⟩ := referralJson_eq_ok_iff.mp h
  simp

theorem plain_stakingJson (p : Parameters) : (stakingJson p).Throughout IsPlain := by
  unfold stakingJson minimumCountField
  cases p.minimumValidatorCount <;> simp [stakingFields, pairJson]

theorem plain_of_info {e : AssetEntry} (h : e.info.token.Throughout IsPlain ∧
    e.info.tokenName.Throughout IsPlain ∧ e.info.desc.Throughout IsPlain) :
    e.toJson.Throughout IsPlain := by
  obtain ⟨htoken, hname, hdesc⟩ := h
  simp [AssetEntry.toJson, AssetInfo.toJson, htoken, hname, hdesc]

theorem plain_sudoSection : ∀ f ∈ s.sudoSection, f.2.Throughout IsPlain := by
  unfold sudoSection
  cases s.adminKey <;> simp

/-- Whatever the configuration adds to the data from outside is plain. -/
theorem plain_of_toJson {doc : Json} (hs : s.HoldsPlain) (h : s.toJson = .ok doc) :
    doc.Throughout IsPlain := by
  obtain ⟨-, trustees, labels, ht, hl, rfl⟩ := toJson_eq_ok_iff.mp h
  refine Json.Throughout.object_iff.mpr
    ⟨trivial, List.forall_mem_append.mpr ⟨plain_sudoSection, ?_⟩⟩
  simp only [commonSections, List.forall_mem_cons, List.not_mem_nil, false_implies, implies_true,
    Json.Throughout.object_iff, Json.Throughout.list_iff, Json.Throughout.text_iff,
    Json.Throughout.int_iff, Json.Throughout.bool_iff, Json.Throughout.null_iff, isPlain_null,
    isPlain_bool, isPlain_int, isPlain_text, isPlain_list, isPlain_object, List.forall_mem_map,
    hexList, pairJson, sessionJson, SessionKeys.toJson, restrictionsJson, Endowment.balancesJson,
    Endowment.numberedJson, Bridge.toJson, Header.toJson, Retarget.toJson, tradingPairJson, true_and,
    and_true]
  exact ⟨fun e he => plain_of_info (hs.info e he),
    forall_mem_of_mapM_eq_ok (fun _ _ => plain_trusteeSet) ht, plain_stakingJson _,
    hs.builderParams, forall_mem_of_mapM_eq_ok (fun _ _ => plain_referral) hl⟩

theorem encode_eq_ok_iff : s.encode = .ok bs ↔ ∃ doc, s.toJson = .ok doc ∧ MessagePack.pack doc = .ok bs :=
  bind_eq_ok_iff

/-- States with the same canonical bytes have one configuration, and so agree on all that it shows. -/
theorem encode_determines (hs : s.HoldsPlain) (ht : t.HoldsPlain) (hbs : s.encode = .ok bs)
    (hbt : t.encode = .ok bs) : (∃ doc, s.toJson = .ok doc ∧ t.toJson = .ok doc) ∧ s.Agrees t := by
  obtain ⟨doc, hdoc, hpack⟩ := encode_eq_ok_iff.mp hbs
  obtain ⟨doc', hdoc', hpack'⟩ := encode_eq_ok_iff.mp hbt
  obtain rfl := MessagePack.pack_injective (plain_of_toJson hs hdoc) (plain_of_toJson ht hdoc')
    hpack hpack'
  exact ⟨⟨doc, hdoc, hdoc'⟩, agrees_of_toJson hdoc hdoc'⟩

open Inputs in
/-- Two profiles of one network family give states that differ and have the same bytes. -/
theorem smallNetwork_encode_determines : ∃ s t bs, smallNetwork.assemble = .ok s ∧
    assemble { smallNetwork with profile := .text "local" } = .ok t ∧ s.profile ≠ t.profile ∧
      s.encode = .ok bs ∧ t.encode = .ok bs ∧ s.Agrees t := by
  have hrun : ∃ s t, smallNetwork.assemble = .ok s ∧
      assemble { smallNetwork with profile := .text "local" } = .ok t ∧ s.profile ≠ t.profile ∧
        s.HoldsPlain ∧ t.HoldsPlain ∧ s.toJson = t.toJson ∧ s.encode.isOk = true := by
    have hinfo : ∀ e ∈ [(⟨1, nativeInfo, true, true⟩ : AssetEntry)],
        e.info.token.Throughout IsPlain ∧ e.info.tokenName.Throughout IsPlain ∧
          e.info.desc.Throughout IsPlain := by
      simp [nativeInfo]
    exact ⟨_, _, rfl, rfl, by decide, ⟨by simp, hinfo⟩, ⟨by simp, hinfo⟩, rfl, by decide +kernel⟩
  obtain ⟨s, t, hs, ht, hne, hps, hpt, hdoc, hok⟩ := hrun
  cases hbs : s.encode with
  | error e =>
    rw [hbs] at hok
    cases hok
  | ok bs =>
    have hbt : t.encode = .ok bs := by
      rw [← hbs, encode, encode, hdoc]
    exact ⟨s, t, bs, hs, ht, hne, hbs, hbt, (encode_determines hps hpt hbs hbt).2⟩

end State

end LedgerGenesis
