import LedgerGenesis.Proofs.Genesis.Assembly
import LedgerGenesis.Proofs.Genesis.Document
import LedgerGenesis.Proofs.Hexadecimal
import LedgerGenesis.Proofs.Trustee
import Mathlib.Data.List.Dedup

/-! # The committee of the Bitcoin bridge

An assembled state has the first set of Bitcoin's trustees as its committee, and lists all sets apart from
it. Edits of the sets that leave this first one alone change that list and nothing else. The size of the
committee is the number of its entries, and nothing keeps two of them from naming one account.
-/
namespace LedgerGenesis

namespace State

variable {s : State} {doc : Json} {trustees labels : List Json}

/-- Other sets of trustees change the list of the sets, and nothing else. -/
theorem document_withTrusteeSets (sets : List TrusteeSet) (others : List Json) :
    { s with trusteeSets := sets }.document others labels =
      (s.document trustees labels).put ["xGatewayCommon", "trustees"] (.list others) := by
  unfold document
  rw [put_sections (by decide)]
  rfl

theorem toJson_withTrusteeSets (sets : List TrusteeSet) (h : s.toJson = .ok doc) :
    State.toJson { s with trusteeSets := sets } = (sets.mapM TrusteeSet.toJson).map fun others =>
      doc.put ["xGatewayCommon", "trustees"] (.list others) := by
  obtain ⟨hids, trustees, labels, -, hl, rfl⟩ := toJson_eq_ok_iff.mp h
  have hdoc : ∀ others, ({ s with trusteeSets := sets } : State).document others labels =
      (s.document trustees labels).put ["xGatewayCommon", "trustees"] (.list others) :=
    document_withTrusteeSets sets
  rw [toJson_eq (s := { s with trusteeSets := sets }) hl, Endowment.assetsJson_eq_ok_iff.mpr ⟨hids, rfl⟩]
  simp only [hdoc, ok_bind]

end State

namespace Inputs

variable {i : Inputs} {s : State} {sets : List TrusteeSet}

open TrusteeSet (Edits Selects requested committee)

/-- With the same committee, an assembly ends as before, but for the list of sets in its state. -/
theorem assemble_withTrusteeSets
    (h : committee sets (some i.anchor) .bitcoin = committee i.trusteeSets (some i.anchor) .bitcoin) :
    assemble { i with trusteeSets := sets } =
      i.assemble.map fun s => { s with trusteeSets := sets } := by
  simp only [assemble, map_bind, h]
  rfl

/-- A document shows the accounts that the entries of a table name, in their order. The table is the first
one for Bitcoin, and the number of its entries is within its bounds. -/
structure ShowsCommittee (tables : List Json) (sets : List TrusteeSet) (doc : Json) (set : TrusteeSet)
    (shown : List Text) : Prop where
  first : TrusteeSet.IsFirst sets .bitcoin set
  named : ∃ table ∈ tables, TrusteeSet.ofJson table = .ok set ∧
    ∃ v entries, table.field "trustees" = .ok v ∧ v.elements = .ok entries ∧
      entries.mapM Trustee.entryAccount = .ok set.accounts
  listed : doc.at? ["xGatewayBitcoin", "genesisTrustees"] = some (.list (shown.map .text))
  shown_eq : shown = set.accounts.map Hex.encode
  sized : set.least ≤ shown.length ∧ shown.length ≤ set.greatest

theorem showsCommittee_of_assemble {tables : List Json} {doc : Json}
    (hr : tables.mapM TrusteeSet.ofJson = .ok i.trusteeSets) (h : i.assemble = .ok s)
    (hdoc : s.toJson = .ok doc) : ShowsCommittee tables i.trusteeSets doc s.bridge.committee
      (s.bridge.committee.accounts.map Hex.encode) := by
  obtain ⟨hfirst, hsized⟩ := TrusteeSet.committee_eq_ok_iff.mp (assemble_eq_ok_iff.mp h).committee
  obtain ⟨table, hmem, hread⟩ := exists_mem_of_mapM_eq_ok hr hfirst.mem
  refine ⟨hfirst, ⟨table, hmem, hread, TrusteeSet.accounts_of_ofJson hread⟩, ?_, rfl, ?_⟩
  · rw [List.map_map]
    exact State.at?_of_toJson hdoc (by decide) fun _ _ => rfl
  · simpa [TrusteeSet.accounts, TrusteeSet.Sized] using hsized

/-- The members of the committee are different accounts, and as many as the table asks for, exactly when
the entries of the table name different accounts and there is at least one entry. -/
theorem committee_distinct_iff {tables : List Json} {doc : Json}
    (hr : tables.mapM TrusteeSet.ofJson = .ok i.trusteeSets) (h : i.assemble = .ok s)
    (hdoc : s.toJson = .ok doc) :
    ∃ set shown, ShowsCommittee tables i.trusteeSets doc set shown ∧
      (shown.Nodup ∧ 1 ≤ shown.dedup.length ∧ set.least ≤ shown.dedup.length ↔
        set.accounts.Nodup ∧ set.accounts ≠ []) := by
  have hshown := showsCommittee_of_assemble hr h hdoc
  refine ⟨_, _, hshown, ?_⟩
  rw [List.nodup_map_iff Hex.encode_injective]
  constructor
  · rintro ⟨hnodup, hone, -⟩
    refine ⟨hnodup, fun hnil => ?_⟩
    simp [hnil] at hone
  · rintro ⟨hnodup, hne⟩
    have hdedup := (hnodup.map Hex.encode_injective).dedup
    have hpos := List.length_pos_iff.mpr hne
    refine ⟨hnodup, ?_, ?_⟩
    · rw [hdedup, List.length_map]
      exact hpos
    · rw [hdedup]
      exact hshown.sized.1

def seatEntry (account : Bytes) (about : Text) : Json :=
  .object [("account", .text (Hex.encode account)), ("about", .text about),
    ("hot_key", .text (Hex.encode soleTrustee.hotKey)),
    ("cold_key", .text (Hex.encode soleTrustee.coldKey))]

/-- A table for two or three trustees. Its first entry names the sole trustee's account, and the second one
the given account. -/
def pairTable (account : Bytes) : Json :=
  .object [("chain", .text "Bitcoin"),
    ("config", .object [("min_trustee_count", .int 2), ("max_trustee_count", .int 3)]),
    ("trustees", .list [seatEntry soleTrustee.account "t", seatEntry account "u"])]

def pairSet (account : Bytes) : TrusteeSet :=
  ⟨.bitcoin, 2, 3, [soleTrustee, { soleTrustee with account := account, about := [117] }]⟩

def pairNetwork (account : Bytes) : Inputs := { smallNetwork with trusteeSets := [pairSet account] }

/-- Entries with different accounts give a committee of two members. -/
theorem pairNetwork_distinct : ∃ s doc shown,
    [pairTable (plainKey 41)].mapM TrusteeSet.ofJson = .ok (pairNetwork (plainKey 41)).trusteeSets ∧
    (pairNetwork (plainKey 41)).assemble = .ok s ∧ s.toJson = .ok doc ∧
    ShowsCommittee [pairTable (plainKey 41)] (pairNetwork (plainKey 41)).trusteeSets doc
      (pairSet (plainKey 41)) shown ∧ shown.Nodup ∧ 2 ≤ shown.dedup.length := by
  have hread : [pairTable (plainKey 41)].mapM TrusteeSet.ofJson =
      .ok (pairNetwork (plainKey 41)).trusteeSets := by decide +kernel
  have hrun : ∃ s doc, (pairNetwork (plainKey 41)).assemble = .ok s ∧ s.toJson = .ok doc :=
    ⟨_, _, rfl, rfl⟩
  obtain ⟨s, doc, hs, hdoc⟩ := hrun
  obtain ⟨set, shown, hshown, hiff⟩ := committee_distinct_iff hread hs hdoc
  have hfirst : TrusteeSet.IsFirst (pairNetwork (plainKey 41)).trusteeSets .bitcoin
      (pairSet (plainKey 41)) := ⟨rfl, [], [], rfl, List.forall_mem_nil _⟩
  obtain rfl := hshown.first.unique hfirst
  obtain ⟨hnodup, -, hleast⟩ := hiff.mpr ⟨by decide, by decide⟩
  exact ⟨s, doc, shown, hread, hs, hdoc, hshown, hnodup, Int.ofNat_le.mp hleast⟩

/-- Entries with one account give a committee that lists this account twice, where two trustees are asked
for. -/
theorem pairNetwork_twins : ∃ s doc shown,
    [pairTable soleTrustee.account].mapM TrusteeSet.ofJson =
      .ok (pairNetwork soleTrustee.account).trusteeSets ∧
    (pairNetwork soleTrustee.account).assemble = .ok s ∧ s.toJson = .ok doc ∧
    ShowsCommittee [pairTable soleTrustee.account] (pairNetwork soleTrustee.account).trusteeSets doc
      (pairSet soleTrustee.account) shown ∧ ¬ shown.Nodup ∧ shown.dedup.length = 1 := by
  have hread : [pairTable soleTrustee.account].mapM TrusteeSet.ofJson =
      .ok (pairNetwork soleTrustee.account).trusteeSets := by decide +kernel
  have hrun : ∃ s doc, (pairNetwork soleTrustee.account).assemble = .ok s ∧ s.toJson = .ok doc ∧
      s.bridge.committee = pairSet soleTrustee.account := ⟨_, _, rfl, rfl, rfl⟩
  obtain ⟨s, doc, hs, hdoc, hcommittee⟩ := hrun
  have hshown := showsCommittee_of_assemble hread hs hdoc
  rw [hcommittee] at hshown
  exact ⟨s, doc, _, hread, hs, hdoc, hshown, by decide +kernel, by decide +kernel⟩

end Inputs

end LedgerGenesis
