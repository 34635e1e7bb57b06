import LedgerGenesis.Proofs.Genesis.Balances
import LedgerGenesis.Proofs.Genesis.Candidates
import LedgerGenesis.Proofs.Genesis.Committee
import LedgerGenesis.Proofs.Genesis.SessionKeys

/-! # The accounts in a document

An account is thirty-two bytes. Stashes are checked for it and accounts of seeds have it by their making;
all other accounts go from the inputs into the document as long as they come. So a document has accounts
only, exactly when the inputs give accounts in each of these places.
-/
namespace LedgerGenesis

def IsAccountId (bs : Bytes) : Prop := bs.length = 32

instance (bs : Bytes) : Decidable (IsAccountId bs) := inferInstanceAs (Decidable (_ = _))

namespace Json

/-- A text that shows an account. -/
def ShowsAccount (v : Json) : Prop := ∃ bs, IsAccountId bs ∧ v = .text (Hex.encode bs)

/-- The accounts of the validators, which a document lists twice in a row. -/
def stashesShown (doc : Json) : List Json :=
  doc.columnAt ["session", "keys"] 0 ++ doc.columnAt ["session", "keys"] 1

/-- The holders of the endowed assets. -/
def holdersShown (doc : Json) : List Json :=
  match doc.at? ["xAssets", "endowed"] with
  | some (.object fields) => fields.flatMap fun f => column 0 f.2
  | _ => []

/-- The accounts in a row of candidates. -/
def candidateAccounts (row : Json) : List Json := (row.item? 2).elim [] (column 0)

/-- Every account that a document shows. -/
def accountsShown (doc : Json) : List Json :=
  doc.stashesShown ++ doc.columnAt ["balances", "balances"] 0 ++ doc.holdersShown ++
    doc.itemsAt ["technicalMembership", "members"] ++ doc.columnAt ["elections", "members"] 0 ++
    (doc.at? ["sudo", "key"]).toList ++ doc.candidatesShown.flatMap candidateAccounts ++
    doc.committeeShown

end Json

/-- Accounts as a document shows them. -/
def shownAs (accounts : List Bytes) : List Json := accounts.map fun a => .text (Hex.encode a)

theorem shownAs_append (as bs : List Bytes) : shownAs (as ++ bs) = shownAs as ++ shownAs bs :=
  List.map_append

theorem forall_showsAccount_iff {accounts : List Bytes} :
    (∀ v ∈ shownAs accounts, v.ShowsAccount) ↔ ∀ a ∈ accounts, IsAccountId a := by
  rw [shownAs, List.forall_mem_map]
  refine forall₂_congr fun a _ => ?_
  constructor
  · rintro ⟨bs, hbs, heq⟩
    rw [Hex.encode_injective (Json.text.inj heq)]
    exact hbs
  · exact fun ha => ⟨a, ha, rfl⟩

theorem TrusteeSet.candidateAccounts_of_toJson {set : TrusteeSet} {row : Json}
    (h : set.toJson = .ok row) : row.candidateAccounts = shownAs set.accounts := by
  obtain ⟨entries, hentries, rfl⟩ := toJson_eq_ok_iff.mp h
  have hcolumn := Trustee.column_of_toJson hentries
  rw [Json.candidateAccounts, shownAs, accounts, List.map_map]
  exact hcolumn

namespace State

variable {s : State} {doc : Json}

/-- Every account of a state that its document shows. -/
def accounts (s : State) : List Bytes :=
  s.validators.map Validator.stash ++ s.validators.map Validator.stash ++ s.balances.map Prod.fst ++
    (s.assetsEndowed.flatMap fun a => a.2.map Prod.fst) ++ s.technicalMembers ++
    s.electionsMembers.map Prod.fst ++ s.adminKey.toList ++ s.trusteeSets.flatMap TrusteeSet.accounts ++
    s.bridge.committee.accounts

/-- The accounts at one place of rows, where each row shows its own account there. -/
theorem column_shownAs {α : Type} {row : α → List Json} {n : Nat} (account : α → Bytes)
    (h : ∀ x, (row x)[n]? = some (.text (Hex.encode (account x)))) (xs : List α) :
    Json.column n (.list (xs.map fun x => .list (row x))) = shownAs (xs.map account) := by
  rw [Json.column_list_map h, shownAs, List.map_map]
  rfl

theorem stashesShown_of_toJson (h : s.toJson = .ok doc) : doc.stashesShown =
    shownAs (s.validators.map Validator.stash) ++ shownAs (s.validators.map Validator.stash) := by
  obtain ⟨-, trustees, labels, -, -, rfl⟩ := toJson_eq_ok_iff.mp h
  have hat : (s.document trustees labels).at? ["session", "keys"] =
      some (.list (s.validators.map fun v =>
        .list [.text (Hex.encode v.stash), .text (Hex.encode v.stash), v.keys.toJson])) := by
    rw [document_sessionKeys, sessionKeys, List.map_map]
    rfl
  rw [Json.stashesShown, Json.columnAt_eq hat, Json.columnAt_eq hat,
    column_shownAs Validator.stash fun _ => rfl, column_shownAs Validator.stash fun _ => rfl]

theorem column_balancesJson (bs : Balances) :
    Json.column 0 (Endowment.balancesJson bs) = shownAs (bs.map Prod.fst) :=
  column_shownAs Prod.fst (fun _ => rfl) bs

theorem holdersShown_of_toJson (h : s.toJson = .ok doc) :
    doc.holdersShown = shownAs (s.assetsEndowed.flatMap fun a => a.2.map Prod.fst) := by
  rw [Json.holdersShown, document_endowed h]
  simp only [List.flatMap_map, column_balancesJson, shownAs, List.map_flatMap]

theorem electionsShown_of_toJson (h : s.toJson = .ok doc) :
    doc.columnAt ["elections", "members"] 0 = shownAs (s.electionsMembers.map Prod.fst) := by
  have hat : doc.at? ["elections", "members"] = some (.list (s.electionsMembers.map fun m =>
      .list [.text (Hex.encode m.1), .int m.2])) := at?_of_toJson h (by decide) fun _ _ => rfl
  rw [Json.columnAt_eq hat, column_shownAs Prod.fst fun _ => rfl]

theorem sudoShown_of_toJson (h : s.toJson = .ok doc) :
    (doc.at? ["sudo", "key"]).toList = shownAs s.adminKey.toList := by
  obtain ⟨-, trustees, labels, -, -, rfl⟩ := toJson_eq_ok_iff.mp h
  unfold document sudoSection
  cases s.adminKey with
  | none => rfl
  | some key => rfl

theorem candidateAccounts_of_toJson (h : s.toJson = .ok doc) :
    doc.candidatesShown.flatMap Json.candidateAccounts =
      shownAs (s.trusteeSets.flatMap TrusteeSet.accounts) := by
  have hrows := mapM_eq_ok_iff.mp (candidatesShown_of_toJson h)
  generalize s.trusteeSets = sets, doc.candidatesShown = rows at hrows
  induction hrows with
  | nil => rfl
  | cons hrow _ ih =>
    rw [List.flatMap_cons, List.flatMap_cons, shownAs_append, ih,
      TrusteeSet.candidateAccounts_of_toJson hrow]

/-- A document shows the accounts of its state and no others. -/
theorem accountsShown_of_toJson (h : s.toJson = .ok doc) : doc.accountsShown = shownAs s.accounts := by
  have htechnical : doc.itemsAt ["technicalMembership", "members"] = shownAs s.technicalMembers :=
    Json.itemsAt_eq (at?_of_toJson h (by decide) fun _ _ => rfl)
  have hcommittee : doc.committeeShown = shownAs s.bridge.committee.accounts :=
    committeeShown_of_toJson h
  simp only [Json.accountsShown, accounts, shownAs_append, stashesShown_of_toJson h,
    Json.columnAt_eq (document_balances h), column_balancesJson, holdersShown_of_toJson h, htechnical,
    electionsShown_of_toJson h, sudoShown_of_toJson h, candidateAccounts_of_toJson h, hcommittee]

end State

/-! ## Where accounts come from -/

theorem Seed.isAccountId_of_roleKey {seed : Json} {r : Role} {k : Bytes} (h : roleKey seed r = .ok k) :
    IsAccountId k := by
  obtain ⟨t, -, hpublic⟩ := roleKey_eq_ok h
  rw [publicKey_tagBytes] at hpublic
  split at hpublic
  · cases hpublic
  · cases hpublic
    exact length_derivedKey _ _

/-- The entries of a table of trustees. -/
def TrusteeSet.entriesOf (table : Json) : List Json :=
  match table.field "trustees" with
  | .ok v => v.elements.toOption.getD []
  | .error _ => []

/-- An entry without a seed gives an account, if it gives any bytes for one. -/
def Trustee.GivesAccount (entry : Json) : Prop :=
  (∀ seed, entry.field "seed" ≠ .ok seed) → ∀ bs, entryAccount entry = .ok bs → IsAccountId bs

theorem Trustee.givesAccount_iff {entry : Json} {bs : Bytes} (h : entryAccount entry = .ok bs) :
    IsAccountId bs ↔ GivesAccount entry := by
  constructor
  · intro hbs _ bs' h'
    rw [h] at h'
    cases h'
    exact hbs
  · intro hgives
    cases entry with
    | object fields =>
      cases hseed : Json.lookup "seed" fields with
      | none =>
        refine hgives (fun seed hfield => ?_) bs h
        simp [Json.field, hseed] at hfield
      | some seed =>
        rw [entryAccount, hseed] at h
        exact Seed.isAccountId_of_roleKey h
    | _ => cases h

theorem TrusteeSet.accounts_iff_of_ofJson {table : Json} {set : TrusteeSet} (h : ofJson table = .ok set) :
    (∀ a ∈ set.accounts, IsAccountId a) ↔ ∀ entry ∈ entriesOf table, Trustee.GivesAccount entry := by
  obtain ⟨v, entries, hv, he, haccounts⟩ := accounts_of_ofJson h
  have hentries : entriesOf table = entries := by simp [entriesOf, hv, he, Except.toOption]
  rw [hentries]
  exact forall_mem_iff_of_mapM_eq_ok (fun _ _ hentry => Trustee.givesAccount_iff hentry) haccounts

/-- What is given for accounts in each place is one: to whom is allocated and granted, who administers and
who sits on the technical committee where this does not follow from the endowment, and the trustees that the
tables name without a seed. -/
structure GivesAccounts (p : Parameters) (accounts : List Bytes) (grants : List (Int × Grants))
    (governance : Governance) (tables : List Json) : Prop where
  endowed : ∀ a ∈ accounts, IsAccountId a
  holders : ∀ g ∈ grants, g.1 ≠ nativeAsset → ∀ grant ∈ g.2, IsAccountId grant.1
  adminKey : ∀ key, governance.adminKey = some key → IsAccountId key
  technicalMembers : p.derivesGovernance = false → ∀ a ∈ governance.technicalMembers, IsAccountId a
  trustees : ∀ table ∈ tables, ∀ entry ∈ TrusteeSet.entriesOf table, Trustee.GivesAccount entry

namespace Inputs

variable {i : Inputs} {s : State} {doc : Json} {accounts : List Bytes} {amount : Json} {stake : Int}
  {grants : List (Int × Grants)} {tables : List Json}

theorem Yields.stashes_isAccountId (h : i.Yields s) :
    ∀ a ∈ s.validators.map Validator.stash, IsAccountId a := by
  obtain ⟨-, hclean, hv⟩ := bindValidators_eq_ok_iff.mp h.validators
  intro a ha
  rw [hv, List.map_map] at ha
  obtain ⟨authority, hmem, rfl⟩ := List.mem_map.mp ha
  exact (Authority.clean_iff.mp hclean).1 authority hmem .account

theorem Yields.holders_iff (h : i.Yields s)
    (ha : Endowment.allocateAssets grants = .ok i.endowment.assets) :
    (∀ a ∈ s.assetsEndowed.flatMap fun a => a.2.map Prod.fst, IsAccountId a) ↔
      ∀ g ∈ grants, g.1 ≠ nativeAsset → ∀ grant ∈ g.2, IsAccountId grant.1 := by
  have hperm := (h.holdsAssets ha).grants_perm
  have hgrants : (∀ g ∈ s.assetsEndowed.map fun a => (a.1, Endowment.asGrants a.2),
      ∀ grant ∈ g.2, IsAccountId grant.1) ↔
        ∀ g ∈ grants.filter fun g => g.1 ≠ 0, ∀ grant ∈ g.2, IsAccountId grant.1 :=
    ⟨fun hall g hg => hall g (hperm.mem_iff.mpr hg), fun hall g hg => hall g (hperm.mem_iff.mp hg)⟩
  simp only [List.mem_filter, List.forall_mem_map, Endowment.asGrants, decide_eq_true_eq,
    and_imp] at hgrants
  refine Iff.trans ?_ hgrants
  constructor
  · intro hall p hp b hb
    exact hall b.1 (List.mem_flatMap.mpr ⟨p, hp, List.mem_map_of_mem hb⟩)
  · intro hall a ha
    obtain ⟨p, hp, hmem⟩ := List.mem_flatMap.mp ha
    obtain ⟨b, hb, rfl⟩ := List.mem_map.mp hmem
    exact hall p hp b hb

/-- The seats of governance are for endowed accounts, or for those that governance names. -/
theorem Yields.members_iff (h : i.Yields s)
    (ha : Endowment.allocate accounts amount stake grants = .ok i.endowment)
    (hendowed : ∀ a ∈ accounts, IsAccountId a) :
    ((∀ a ∈ s.technicalMembers, IsAccountId a) ∧ ∀ a ∈ s.electionsMembers.map Prod.fst, IsAccountId a) ↔
      (s.parameters.derivesGovernance = false → ∀ a ∈ i.governance.technicalMembers, IsAccountId a) := by
  obtain ⟨⟨n, -, hallocates⟩, -⟩ := Endowment.allocate_eq_ok ha
  obtain ⟨hfront, helections⟩ := Endowment.members_of_allocate ha
  have hmembers : ∀ a ∈ i.endowment.technicalMembers, IsAccountId a := by
    intro a hmem
    apply hendowed
    rw [← hallocates.accounts_eq]
    exact hfront.subset hmem
  rw [h.technicalMembers, h.electionsMembers, seats]
  cases s.parameters.derivesGovernance with
  | true =>
    simp only [if_true, helections, Bool.true_eq_false, false_implies, iff_true]
    exact ⟨hmembers, hmembers⟩
  | false => simp

/-- The stashes in a document are accounts. All that it shows as accounts are, exactly when the inputs give
accounts in each place. -/
theorem showsAccounts_iff (h : i.assemble = .ok s) (hdoc : s.toJson = .ok doc)
    (ha : Endowment.allocate accounts amount stake grants = .ok i.endowment)
    (hr : tables.mapM TrusteeSet.ofJson = .ok i.trusteeSets) :
    (∀ v ∈ doc.stashesShown, v.ShowsAccount) ∧
      ((∀ v ∈ doc.accountsShown, v.ShowsAccount) ↔
        GivesAccounts s.parameters accounts grants i.governance tables) := by
  have hyields := assemble_eq_ok_iff.mp h
  have hstashes := hyields.stashes_isAccountId
  obtain ⟨⟨n, -, hallocates⟩, hassets⟩ := Endowment.allocate_eq_ok ha
  have hbalances : s.balances.map Prod.fst = accounts := by
    rw [hyields.balances]
    exact hallocates.accounts_eq
  have hcandidates : (∀ a ∈ s.trusteeSets.flatMap TrusteeSet.accounts, IsAccountId a) ↔
      ∀ table ∈ tables, ∀ entry ∈ TrusteeSet.entriesOf table, Trustee.GivesAccount entry := by
    rw [hyields.trusteeSets, List.forall_mem_flatMap]
    exact forall_mem_iff_of_mapM_eq_ok (fun _ _ => TrusteeSet.accounts_iff_of_ofJson) hr
  -- the committee is one of the candidate sets
  have hcommittee : (∀ a ∈ s.trusteeSets.flatMap TrusteeSet.accounts, IsAccountId a) →
      ∀ a ∈ s.bridge.committee.accounts, IsAccountId a := by
    intro hall a hmem
    have hset := (TrusteeSet.committee_eq_ok_iff.mp hyields.committee).1.mem
    rw [← hyields.trusteeSets] at hset
    exact hall a (List.mem_flatMap.mpr ⟨_, hset, hmem⟩)
  constructor
  · rw [State.stashesShown_of_toJson hdoc, ← shownAs_append, forall_showsAccount_iff]
    exact List.forall_mem_append.mpr ⟨hstashes, hstashes⟩
  · rw [State.accountsShown_of_toJson hdoc, forall_showsAccount_iff]
    simp only [State.accounts, List.forall_mem_append, hbalances, Option.mem_toList, hyields.adminKey]
    constructor
    · rintro ⟨⟨⟨⟨⟨⟨⟨-, hendowed⟩, hholders⟩, htechnical⟩, helections⟩, hkey⟩, htrustees⟩, -⟩
      exact ⟨hendowed, (hyields.holders_iff hassets).mp hholders, hkey,
        (hyields.members_iff ha hendowed).mp ⟨htechnical, helections⟩, hcandidates.mp htrustees⟩
    · rintro ⟨hendowed, hholders, hkey, htechnical, htrustees⟩
      obtain ⟨hseats, hcouncil⟩ := (hyields.members_iff ha hendowed).mpr htechnical
      have hsets := hcandidates.mpr htrustees
      exact ⟨⟨⟨⟨⟨⟨⟨⟨hstashes, hstashes⟩, hendowed⟩, (hyields.holders_iff hassets).mpr hholders⟩,
        hseats⟩, hcouncil⟩, hkey⟩, hsets⟩, hcommittee hsets⟩

/-- Two trustees with accounts, in a network where all else are accounts. -/
theorem pairNetwork_shows_accounts :
    let grants := [(1, [(plainKey 10, Json.int 7)]), (0, [(plainKey 10, .int 5)])]
    let network := pairNetwork (plainKey 41)
    ∃ s doc, network.assemble = .ok s ∧ s.toJson = .ok doc ∧
      Endowment.allocate [plainKey 10, plainKey 20] (.int 100) 50 grants = .ok network.endowment ∧
      [pairTable (plainKey 41)].mapM TrusteeSet.ofJson = .ok network.trusteeSets ∧
      GivesAccounts s.parameters [plainKey 10, plainKey 20] grants network.governance
        [pairTable (plainKey 41)] ∧
      ∀ v ∈ doc.accountsShown, v.ShowsAccount := by
  intro grants network
  have hread : [pairTable (plainKey 41)].mapM TrusteeSet.ofJson = .ok network.trusteeSets := by
    decide +kernel
  have ha : Endowment.allocate [plainKey 10, plainKey 20] (.int 100) 50 grants =
    .ok network.endowment := rfl
  have hrun : ∃ s doc, network.assemble = .ok s ∧ s.toJson = .ok doc := by
    subst network
    exact ⟨_, _, rfl, rfl⟩
  obtain ⟨s, doc, hs, hdoc⟩ := hrun
  have hfirst : Trustee.entryAccount (seatEntry soleTrustee.account "t") = .ok soleTrustee.account := by
    decide +kernel
  have hsecond : Trustee.entryAccount (seatEntry (plainKey 41) "u") = .ok (plainKey 41) := by
    decide +kernel
  have hentries : ∀ entry ∈ TrusteeSet.entriesOf (pairTable (plainKey 41)), Trustee.GivesAccount entry :=
    List.forall_mem_cons.mpr ⟨(Trustee.givesAccount_iff hfirst).mp rfl,
      List.forall_mem_singleton.mpr ((Trustee.givesAccount_iff hsecond).mp rfl)⟩
  have hgives : GivesAccounts s.parameters [plainKey 10, plainKey 20] grants network.governance
      [pairTable (plainKey 41)] :=
    ⟨by decide, by decide, by decide, fun _ => List.forall_mem_nil _,
      List.forall_mem_singleton.mpr hentries⟩
  exact ⟨s, doc, hs, hdoc, ha, hread, hgives, (showsAccounts_iff hs hdoc ha hread).2.mpr hgives⟩

/-- A trustee whose account is one byte is accepted, and a document shows this byte as a member of the
committee. -/
theorem pairNetwork_shows_short_account :
    let grants := [(1, [(plainKey 10, Json.int 7)]), (0, [(plainKey 10, .int 5)])]
    let network := pairNetwork [1]
    ∃ s doc, network.assemble = .ok s ∧ s.toJson = .ok doc ∧
      Endowment.allocate [plainKey 10, plainKey 20] (.int 100) 50 grants = .ok network.endowment ∧
      [pairTable [1]].mapM TrusteeSet.ofJson = .ok network.trusteeSets ∧
      .text "0x01" ∈ doc.accountsShown ∧ ¬ (Json.text "0x01").ShowsAccount := by
  intro grants network
  have hread : [pairTable [1]].mapM TrusteeSet.ofJson = .ok network.trusteeSets := by decide +kernel
  have hrun : ∃ s doc, network.assemble = .ok s ∧ s.toJson = .ok doc ∧
      s.bridge.committee = pairSet [1] := by
    subst network
    exact ⟨_, _, rfl, rfl, rfl⟩
  obtain ⟨s, doc, hs, hdoc, hcommittee⟩ := hrun
  have hhex : Json.text "0x01" = .text (Hex.encode [1]) := by decide +kernel
  refine ⟨s, doc, hs, hdoc, rfl, hread, ?_, ?_⟩
  · rw [Json.accountsShown, State.committeeShown_of_toJson hdoc, hcommittee, hhex]
    exact List.mem_append_right _ (List.mem_cons_of_mem _ List.mem_cons_self)
  · rintro ⟨bs, hbs, heq⟩
    rw [hhex] at heq
    rw [← Hex.encode_injective (Json.text.inj heq)] at hbs
    cases hbs

end Inputs

end LedgerGenesis
