import LedgerGenesis.Proofs.Genesis.Publication
import LedgerGenesis.Spec.Preset

/-! # What the specifications of the profiles are made of

A specification is made for a profile from an assembled state and from metadata of the profile's network.
Wherever the inputs come from, their anchor has been verified and their labels are texts.
-/
namespace LedgerGenesis

/-! ## Labels of authorities -/

theorem Authority.label_of_ofSeed {seed : Json} {referral : Option Json} {a : Authority}
    (h : ofSeed seed referral = .ok a) : (Text.ofUtf8? a.referral).isSome := by
  simp only [ofSeed, bind_eq_ok_iff, liftFault_eq_ok_iff, pure_eq_ok_iff] at h
  obtain ⟨_, -, label, hlabel, _, -, _, -, _, -, _, -, rfl⟩ := h
  exact Json.ofUtf8?_of_toUtf8 hlabel

theorem Authority.label_of_ofJson {entry : Json} {a : Authority} (h : ofJson entry = .ok a) :
    (Text.ofUtf8? a.referral).isSome := by
  have hread := mapError_eq_ok_iff.mp (reporting_eq_ok_iff.mp h)
  simp only [readEntry, bind_eq_ok_iff, pure_eq_ok_iff] at hread
  obtain ⟨_, -, account, -, _, -, label, hlabel, _, -, _, -, _, -, _, -, rfl⟩ := hread
  exact Json.ofUtf8?_of_toUtf8 hlabel

namespace Sources

variable {src : Sources} {profile : Profile} {m : Spec.Metadata} {s : Spec}

/-- What holds of the inputs for a profile before they are assembled. -/
structure Feeds (src : Sources) (profile : Profile) (i : Inputs) : Prop where
  profile : i.profile = .text profile.name
  verified : src.verify i.anchor = .ok ()
  referrals : ∀ a ∈ i.authorities, (Text.ofUtf8? a.referral).isSome
  endowed : ∃ accounts amount stake, Endowment.allocate accounts amount stake [] = .ok i.endowment
  trusteeSets : ∀ set ∈ i.trusteeSets, ∃ data, TrusteeSet.ofJson data = .ok set

/-- The specification has an assembled state of the profile, and no boot nodes. -/
inductive Makes (src : Sources) (profile : Profile) (s : Spec) : Prop
  | intro {i : Inputs} {state : State} {m : Spec.Metadata} (hfeeds : src.Feeds profile i)
      (hassemble : i.assemble = .ok state)
      (hproperties : m.properties = Spec.networkProperties profile.parameters.network)
      (hnodes : m.bootNodes = []) (h : s = Spec.ofState state m)

theorem verify_of_anchor {p : Parameters} {a : Anchor} (h : src.anchor p = .ok a) :
    src.verify a = .ok () := by
  simp only [anchor, Table.verifiedAnchor, bind_eq_ok_iff, pure_eq_ok_iff] at h
  obtain ⟨_, -, a, -, ⟨⟩, hverify, rfl⟩ := h
  exact hverify

theorem read_of_trusteeSets {name : Text} {sets : List TrusteeSet} (h : src.trusteeSets name = .ok sets) :
    ∀ set ∈ sets, ∃ data, TrusteeSet.ofJson data = .ok set := by
  simp only [trusteeSets, Table.trusteeSets, bind_eq_ok_iff] at h
  obtain ⟨_, -, tables, -, hread⟩ := h
  exact forall_mem_of_mapM_eq_ok (fun data _ hdata => ⟨data, hdata⟩) hread

theorem feeds_of_seeded {administrator : Text} {others endowed : List Text}
    (h : src.seeded profile administrator others endowed m = .ok s) :
    ∃ i state, src.Feeds profile i ∧ i.assemble = .ok state ∧ s = Spec.ofState state m := by
  simp only [seeded, bind_eq_ok_iff, pure_eq_ok_iff] at h
  obtain ⟨_, -, code, -, authorities, ha, assets, -, endowment, hendowment, sets, hsets, anchor, hanchor, key, -,
    state, hstate, rfl⟩ := h
  refine ⟨_, state, ?_, hstate, rfl⟩
  exact {
    profile := rfl
    verified := verify_of_anchor hanchor
    referrals := forall_mem_of_mapM_eq_ok (fun _ _ => Authority.label_of_ofSeed) ha
    endowed := ⟨_, _, _, hendowment⟩
    trusteeSets := read_of_trusteeSets hsets }

theorem feeds_of_rebuilt {table : Text} (h : src.rebuilt profile table m = .ok s) :
    ∃ i state, src.Feeds profile i ∧ i.assemble = .ok state ∧ s = Spec.ofState state m := by
  simp only [rebuilt, Table.authorities, bind_eq_ok_iff, liftGenesis_eq_ok_iff, pure_eq_ok_iff] at h
  obtain ⟨key, -, code, -, _, -, authorities, ⟨_, -, ha⟩, assets, -, endowment, hendowment, sets, hsets,
    anchor, hanchor, _, -, members, -, _, -, params, -, state, hstate, rfl⟩ := h
  refine ⟨_, state, ?_, hstate, rfl⟩
  exact {
    profile := rfl
    verified := verify_of_anchor hanchor
    referrals := forall_mem_of_mapM_eq_ok (fun _ _ => Authority.label_of_ofJson) ha
    endowed := ⟨_, _, _, hendowment⟩
    trusteeSets := read_of_trusteeSets hsets }

theorem properties_of_metadata {settings : Settings} {name id protocolId : Json} {withTelemetry : Bool}
    (h : settings.metadata profile name id protocolId withTelemetry = .ok m) :
    m.properties = Spec.networkProperties profile.parameters.network ∧ m.bootNodes = [] := by
  cases withTelemetry with
  | false =>
    cases h
    exact ⟨rfl, rfl⟩
  | true =>
    obtain ⟨telemetry, -, h⟩ := bind_eq_ok_iff.mp h
    cases h
    exact ⟨rfl, rfl⟩

/-- A preset without a snapshot makes its specification for its profile. -/
theorem makes_of_build (profile : Profile) {p : Preset}
    (hp : Preset.ofProfile profile false = .ok p) (h : p.build src = .ok s) : src.Makes profile s := by
  cases profile with
  | development | «local» =>
    cases hp
    obtain ⟨m, hm, h⟩ := bind_eq_ok_iff.mp h
    obtain ⟨hproperties, hnodes⟩ := properties_of_metadata (liftFault_eq_ok_iff.mp hm)
    obtain ⟨i, state, hfeeds, hassemble, hs⟩ := feeds_of_seeded h
    exact ⟨hfeeds, hassemble, hproperties, hnodes, hs⟩
  | publicTest | main =>
    cases hp
    obtain ⟨m, hm, h⟩ := bind_eq_ok_iff.mp h
    obtain ⟨hproperties, hnodes⟩ := properties_of_metadata (liftFault_eq_ok_iff.mp hm)
    obtain ⟨i, state, hfeeds, hassemble, hs⟩ := feeds_of_rebuilt h
    exact ⟨hfeeds, hassemble, hproperties, hnodes, hs⟩

/-- States that are made for a profile have a configuration. -/
theorem Feeds.publishes {i : Inputs} {state : State} (h : src.Feeds profile i)
    (hs : i.assemble = .ok state) : state.NumbersIds ∧ state.HasLabels := by
  obtain ⟨accounts, amount, stake, hendowed⟩ := h.endowed
  exact ⟨(Inputs.assemble_eq_ok_iff.mp hs).numbersIds (Endowment.allocate_eq_ok hendowed).2,
    (Inputs.hasLabels_iff_of_read hs h.trusteeSets).mpr h.referrals⟩

theorem Feeds.exists_toJson {i : Inputs} {state : State} (h : src.Feeds profile i)
    (hs : i.assemble = .ok state) : ∃ v, state.toJson = .ok v :=
  State.exists_toJson_iff_hasLabels.mpr (h.publishes hs)

end Sources

end LedgerGenesis
