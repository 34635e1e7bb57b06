import LedgerGenesis.Proofs.Genesis.Assembly
import LedgerGenesis.Proofs.Genesis.Binding
import LedgerGenesis.Proofs.Genesis.Document

/-! # Validators keep their identities

Each authority becomes one validator with its own keys, and everything that lists validators lists them in
the order of the authorities. Authorities in another order make the same state but for that order.
-/
namespace LedgerGenesis

/-- The session keys of an authority, each its own key for that role. -/
def Authority.sessionKeys (a : Authority) : SessionKeys where
  babe := a.babe
  grandpa := a.grandpa
  imOnline := a.imOnline
  authorityDiscovery := a.authorityDiscovery

/-- An authority among the keys of the session, with the key of each role under the role's name. -/
def Authority.sessionRow (a : Authority) : Json :=
  .list [.text (Hex.encode a.account), .text (Hex.encode a.account), .object [
    ("grandpa", .text (Hex.encode a.grandpa)),
    ("babe", .text (Hex.encode a.babe)),
    ("imOnline", .text (Hex.encode a.imOnline)),
    ("authorityDiscovery", .text (Hex.encode a.authorityDiscovery))]]

/-- The validators of a state are the given authorities, and its lists and those of its document are in
their order. The texts of their referrals are given by `label`. -/
structure State.Enlists (s : State) (authorities : List Authority) (label : Authority → Text) :
    Prop where
  validators : s.validators = authorities.map fun a => {
    stash := a.account
    referral := a.referral
    keys := a.sessionKeys }
  stashes_nodup : (s.validators.map Validator.stash).Nodup
  sessionKeys : s.sessionKeys = authorities.map fun a => (a.account, a.account, a.sessionKeys)
  stakingCandidates : s.stakingCandidates = authorities.map fun a => (a.account, a.referral)
  session_keys : ∀ doc, s.toJson = .ok doc →
    doc.at? ["session", "keys"] = some (.list (authorities.map Authority.sessionRow))
  initialAuthorities : ∀ doc, s.toJson = .ok doc →
    doc.at? ["xGenesisBuilder", "initialAuthorities"] =
      some (.list (authorities.map fun a => .text (label a)))

namespace State

variable {s : State} {authorities : List Authority} {label : Authority → Text}

theorem referrals_of_validators (hv : s.validators = authorities.map Validator.ofAuthority)
    (hl : ∀ a ∈ authorities, Text.ofUtf8? a.referral = some (label a)) :
    (s.stakingCandidates.mapM fun c => referralJson c.2) =
      .ok (authorities.map fun a => .text (label a)) := by
  have hc : s.stakingCandidates = authorities.map fun a => (a.account, a.referral) := by
    simp [stakingCandidates, hv, Validator.ofAuthority]
  rw [hc, List.mapM_map]
  refine mapM_eq_ok_of_forall fun a ha => ?_
  simp [referralJson, hl a ha]

theorem enlists_of_validators (hv : s.validators = authorities.map Validator.ofAuthority)
    (hn : (authorities.map Authority.account).Nodup)
    (hl : ∀ a ∈ authorities, Text.ofUtf8? a.referral = some (label a)) :
    s.Enlists authorities label := by
  have hk : s.sessionKeys = authorities.map fun a => (a.account, a.account, a.sessionKeys) := by
    rw [sessionKeys, hv, List.map_map]
    rfl
  have hr := referrals_of_validators hv hl
  refine ⟨hv, ?_, hk, ?_, ?_, ?_⟩
  · rw [hv, List.map_map]
    exact hn
  · rw [stakingCandidates, hv, List.map_map]
    rfl
  · intro doc hd
    obtain ⟨-, trustees, labels, -, -, rfl⟩ := toJson_eq_ok_iff.mp hd
    rw [document_sessionKeys, hk, List.map_map]
    rfl
  · intro doc hd
    obtain ⟨-, trustees, labels, -, h, rfl⟩ := toJson_eq_ok_iff.mp hd
    rw [document_initialAuthorities, Except.ok.inj (h.symm.trans hr)]

/-- A state with other validators has the document of the first with the new validators put in place. -/
theorem toJson_withValidators {others : List Authority}
    (hv : s.validators = authorities.map Validator.ofAuthority)
    (hl : ∀ a ∈ authorities, Text.ofUtf8? a.referral = some (label a))
    (hl' : ∀ a ∈ others, Text.ofUtf8? a.referral = some (label a)) :
    State.toJson { s with validators := others.map Validator.ofAuthority } = s.toJson.map fun doc =>
      (doc.put ["session", "keys"] (.list (others.map Authority.sessionRow))).put
        ["xGenesisBuilder", "initialAuthorities"] (.list (others.map fun a => .text (label a))) := by
  rw [toJson_eq (referrals_of_validators hv hl), toJson_eq (referrals_of_validators rfl hl')]
  cases Endowment.assetsJson s.assetsEndowed >>= fun _ => s.trusteeSets.mapM TrusteeSet.toJson with
  | error e => rfl
  | ok trustees =>
    simp only [Except.map]
    rw [document_withValidators, List.map_map]
    rfl

end State

namespace Inputs

variable {i : Inputs} {s : State} {others : List Authority} {label : Authority → Text}

/-- No check and no other part of a state depends on the order of the authorities. -/
theorem Yields.perm (h : i.Yields s) (hp : others.Perm i.authorities) :
    Yields { i with authorities := others } { s with validators := others.map Validator.ofAuthority } := by
  obtain ⟨hn, hc, hv⟩ := bindValidators_eq_ok_iff.mp h.validators
  have hne : others ≠ [] := fun he => hn (he ▸ hp).nil_eq.symm
  have hbound : bindValidators others = .ok (others.map Validator.ofAuthority) :=
    bindValidators_eq_ok_iff.mpr ⟨hne, hc.perm _ hp, rfl⟩
  -- the stashes are the same accounts, so all are endowed if they were before
  have hstashes : checkStashes i.endowment (others.map Validator.ofAuthority) = .ok () := by
    have hs := checkStashes_eq_ok_iff.mp h.stashes
    rw [hv] at hs
    rw [checkStashes_eq_ok_iff]
    refine hs.imp id fun hall v hm => hall v ?_
    exact ((hp.map Validator.ofAuthority).mem_iff).mp hm
  exact { h with validators := hbound, stashes := hstashes }

/-- The validators of a state are those of its authorities, in their order, and so are the two lists of
validators in its document. Authorities in another order make the state with these lists in that order,
and change nothing else. -/
theorem assemble_keeps_validators (hs : i.assemble = .ok s)
    (hl : ∀ a ∈ i.authorities, Text.ofUtf8? a.referral = some (label a)) :
    s.Enlists i.authorities label ∧
      ((∃ doc, s.toJson = .ok doc) ↔ s.NumbersIds ∧
        ∀ set ∈ i.trusteeSets, ∀ t ∈ set.trustees, (Text.ofUtf8? t.about).isSome) ∧
      ∀ others : List Authority, others.Perm i.authorities →
        ∃ s', assemble { i with authorities := others } = .ok s' ∧ s'.Enlists others label ∧
          s'.toJson = s.toJson.map fun doc =>
            (doc.put ["session", "keys"] (.list (others.map Authority.sessionRow))).put
              ["xGenesisBuilder", "initialAuthorities"]
              (.list (others.map fun a => .text (label a))) := by
  have h := assemble_eq_ok_iff.mp hs
  obtain ⟨-, hc, hv⟩ := bindValidators_eq_ok_iff.mp h.validators
  refine ⟨State.enlists_of_validators hv hc.keys_nodup hl, ?_, fun others hp => ?_⟩
  · rw [← h.trusteeSets]
    exact State.exists_toJson_iff (State.referrals_of_validators hv hl)
  · have hl' : ∀ a ∈ others, Text.ofUtf8? a.referral = some (label a) :=
      fun a ha => hl a (hp.mem_iff.mp ha)
    have hn : (others.map Authority.account).Nodup := (hc.perm _ hp).keys_nodup
    exact ⟨_, assemble_eq_ok_iff.mpr (h.perm hp), State.enlists_of_validators rfl hn hl',
      State.toJson_withValidators hv hl hl'⟩

theorem smallNetwork_keeps_validators : ∃ s s' label, smallNetwork.assemble = .ok s ∧
    (∀ a ∈ smallNetwork.authorities, Text.ofUtf8? a.referral = some (label a)) ∧
      s.Enlists smallNetwork.authorities label ∧
        assemble { smallNetwork with authorities := smallNetwork.authorities.reverse } = .ok s' ∧
          s'.Enlists smallNetwork.authorities.reverse label := by
  obtain ⟨s, hs⟩ := exists_assemble_smallNetwork
  have hl : ∀ a ∈ smallNetwork.authorities,
      Text.ofUtf8? a.referral = some ((Text.ofUtf8? a.referral).getD []) := by decide
  obtain ⟨hlist, -, hperm⟩ := assemble_keeps_validators hs hl
  obtain ⟨s', hs', hlist', -⟩ := hperm _ (List.reverse_perm _)
  exact ⟨s, s', fun a => (Text.ofUtf8? a.referral).getD [], hs, hl, hlist, hs', hlist'⟩

end Inputs

end LedgerGenesis
