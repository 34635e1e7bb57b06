import LedgerGenesis.Proofs.Genesis.Assembly
import LedgerGenesis.Proofs.Genesis.Document
import LedgerGenesis.Proofs.Genesis.Rendering
import LedgerGenesis.Proofs.Trustee

/-! # The candidates and the committee in a document

A document shows every set of candidates, and beside them the committee of the bridge. The first set for
Bitcoin is the committee, so its row agrees with it. The rows of later sets for Bitcoin are shown as they
are, and agree only as far as those sets do.
-/
namespace LedgerGenesis

namespace Json

/-- A row of candidates is tagged as Bitcoin's. -/
def ServesBitcoin (row : Json) : Prop := row.item? 0 = some (.text "Bitcoin")

/-- The members of the bridge's committee, as a document lists them. -/
def committeeShown (doc : Json) : List Json := doc.itemsAt ["xGatewayBitcoin", "genesisTrustees"]

/-- The sets of candidates, as a document lists them. -/
def candidatesShown (doc : Json) : List Json := doc.itemsAt ["xGatewayCommon", "trustees"]

/-- The accounts of a row are those of the committee, in the same order. -/
def NamesCommittee (doc row : Json) : Prop :=
  ∃ entries, row.item? 2 = some (.list entries) ∧ column 0 (.list entries) = doc.committeeShown

/-- The number of entries of a row is within the bounds that the row gives. -/
def WithinBounds (row : Json) : Prop :=
  ∃ (entries : List Json) (bounds : Json) (least greatest : Int),
    row.item? 2 = some (.list entries) ∧ row.item? 1 = some bounds ∧
      bounds.at? ["minTrusteeCount"] = some (.int least) ∧
      bounds.at? ["maxTrusteeCount"] = some (.int greatest) ∧
      least ≤ entries.length ∧ entries.length ≤ greatest

end Json

theorem Trustee.column_of_toJson {trustees : List Trustee} {entries : List Json}
    (h : trustees.mapM Trustee.toJson = .ok entries) :
    Json.column 0 (.list entries) = trustees.map fun t => .text (Hex.encode t.account) := by
  rw [mapM_eq_ok_iff] at h
  induction h with
  | nil => rfl
  | cons ht _ ih =>
    obtain ⟨about, -, rfl⟩ := toJson_eq_ok_iff.mp ht
    exact congrArg (Json.text _ :: ·) ih

/-- The results for the parts of a list are the parts of the list of results. -/
theorem exists_append_of_mapM {ε α β : Type} {f : α → Except ε β} {before after : List α} {x : α}
    {ys : List β} (h : (before ++ x :: after).mapM f = .ok ys) :
    ∃ ys₁ y ys₂, ys = ys₁ ++ y :: ys₂ ∧ before.mapM f = .ok ys₁ ∧ f x = .ok y := by
  simp only [List.mapM_append, List.mapM_cons, bind_eq_ok_iff, pure_eq_ok_iff] at h
  obtain ⟨ys₁, hbefore, rest, ⟨y, hy, ys₂, -, rfl⟩, rfl⟩ := h
  exact ⟨ys₁, y, ys₂, rfl, hbefore, hy⟩

namespace TrusteeSet

variable {set committee : TrusteeSet} {row doc : Json}

theorem servesBitcoin_iff (h : set.toJson = .ok row) : row.ServesBitcoin ↔ set.chain = .bitcoin := by
  obtain ⟨entries, -, rfl⟩ := toJson_eq_ok_iff.mp h
  have hname : Json.ServesBitcoin (.list [.text set.chain.name, set.boundsJson, .list entries]) ↔
      set.chain.name = Chain.bitcoin.name := by
    simp [Json.ServesBitcoin, Json.item?, Chain.name]
  rw [hname, Chain.name_injective.eq_iff]

theorem namesCommittee_iff (h : set.toJson = .ok row)
    (hdoc : doc.committeeShown = committee.accounts.map fun a => .text (Hex.encode a)) :
    doc.NamesCommittee row ↔ set.accounts = committee.accounts := by
  obtain ⟨entries, hentries, rfl⟩ := toJson_eq_ok_iff.mp h
  have hcolumn : Json.column 0 (.list entries) = set.accounts.map fun a => .text (Hex.encode a) := by
    rw [Trustee.column_of_toJson hentries, accounts, List.map_map]
    rfl
  have hinj : Function.Injective fun a : Bytes => Json.text (Hex.encode a) :=
    fun _ _ hab => Hex.encode_injective (Json.text.inj hab)
  rw [← (List.map_injective_iff.mpr hinj).eq_iff, ← hcolumn, ← hdoc]
  constructor
  · rintro ⟨entries', hitem, heq⟩
    cases hitem
    exact heq
  · exact fun heq => ⟨entries, rfl, heq⟩

theorem withinBounds_iff (h : set.toJson = .ok row) : row.WithinBounds ↔ set.Sized := by
  obtain ⟨entries, hentries, rfl⟩ := toJson_eq_ok_iff.mp h
  have hlength := length_eq_of_mapM_eq_ok hentries
  rw [Sized, ← hlength]
  constructor
  · rintro ⟨_, _, least, greatest, hitem, hbounds, hleast, hgreatest, hsize⟩
    cases hitem
    cases hbounds
    cases hleast
    cases hgreatest
    exact hsize
  · exact fun hsize => ⟨entries, _, _, _, rfl, rfl, rfl, rfl, hsize⟩

end TrusteeSet

namespace State

variable {s : State} {doc : Json}

theorem committeeShown_of_toJson (h : s.toJson = .ok doc) :
    doc.committeeShown = s.bridge.committee.accounts.map fun a => .text (Hex.encode a) :=
  Json.itemsAt_eq (at?_of_toJson h (by decide) fun _ _ => rfl)

/-- The rows of candidates render the sets one by one, in their order. -/
theorem candidatesShown_of_toJson (h : s.toJson = .ok doc) :
    s.trusteeSets.mapM TrusteeSet.toJson = .ok doc.candidatesShown := by
  obtain ⟨-, trustees, labels, htrustees, -, rfl⟩ := toJson_eq_ok_iff.mp h
  have hat : (s.document trustees labels).at? ["xGatewayCommon", "trustees"] = some (.list trustees) := by
    rw [document_at? (by decide)]
    rfl
  rw [htrustees, Json.candidatesShown, Json.itemsAt_eq hat]

end State

namespace Inputs

variable {i : Inputs} {s : State} {doc : Json}

/-- The first row for Bitcoin agrees with the committee in a document and is within its bounds. All of them
do exactly when every set of candidates for Bitcoin has the accounts of the first one and is within its
bounds. -/
theorem candidates_agree_iff (h : i.assemble = .ok s) (hdoc : s.toJson = .ok doc) :
    (∃ before row after, doc.candidatesShown = before ++ row :: after ∧
      (∀ other ∈ before, ¬ other.ServesBitcoin) ∧
        row.ServesBitcoin ∧ doc.NamesCommittee row ∧ row.WithinBounds) ∧
    ((∀ row ∈ doc.candidatesShown, row.ServesBitcoin → doc.NamesCommittee row ∧ row.WithinBounds) ↔
      ∀ set ∈ i.trusteeSets, set.chain = .bitcoin →
        set.accounts = s.bridge.committee.accounts ∧ set.Sized) := by
  have hyields := assemble_eq_ok_iff.mp h
  have hcommittee := State.committeeShown_of_toJson hdoc
  have hrows := State.candidatesShown_of_toJson hdoc
  rw [hyields.trusteeSets] at hrows
  constructor
  · obtain ⟨⟨hchain, before, after, hsets, hbefore⟩, hsized⟩ :=
      TrusteeSet.committee_eq_ok_iff.mp hyields.committee
    rw [hsets] at hrows
    obtain ⟨rows₁, row, rows₂, hshown, hrows₁, hrow⟩ := exists_append_of_mapM hrows
    refine ⟨rows₁, row, rows₂, hshown, ?_, (TrusteeSet.servesBitcoin_iff hrow).mpr hchain,
      (TrusteeSet.namesCommittee_iff hrow hcommittee).mpr rfl,
      (TrusteeSet.withinBounds_iff hrow).mpr hsized⟩
    intro other hother hserves
    obtain ⟨set, hset, hrender⟩ := exists_mem_of_mapM_eq_ok hrows₁ hother
    exact hbefore set hset ((TrusteeSet.servesBitcoin_iff hrender).mp hserves)
  · apply forall_mem_iff_of_mapM_eq_ok _ hrows
    intro set row hrow
    rw [TrusteeSet.servesBitcoin_iff hrow, TrusteeSet.namesCommittee_iff hrow hcommittee,
      TrusteeSet.withinBounds_iff hrow]

/-- One set for Bitcoin among the candidates is enough for all rows to agree. -/
theorem smallNetwork_candidates_agree : ∃ s doc, smallNetwork.assemble = .ok s ∧ s.toJson = .ok doc ∧
    (∃ row ∈ doc.candidatesShown, row.ServesBitcoin) ∧
      ∀ row ∈ doc.candidatesShown, row.ServesBitcoin → doc.NamesCommittee row ∧ row.WithinBounds := by
  have hrun : ∃ s doc, smallNetwork.assemble = .ok s ∧ s.toJson = .ok doc ∧
      s.bridge.committee = ⟨.bitcoin, 1, 3, [soleTrustee]⟩ := ⟨_, _, rfl, rfl, rfl⟩
  obtain ⟨s, doc, hs, hdoc, hcommittee⟩ := hrun
  obtain ⟨⟨before, row, after, hshown, -, hserves, -⟩, hiff⟩ := candidates_agree_iff hs hdoc
  refine ⟨s, doc, hs, hdoc, ⟨row, by simp [hshown], hserves⟩, hiff.mpr ?_⟩
  rw [hcommittee]
  decide

/-- The small network with a second set for Bitcoin, which is empty. -/
def twoCandidates : Inputs :=
  { smallNetwork with trusteeSets := smallNetwork.trusteeSets ++ [⟨.bitcoin, 1, 3, []⟩] }

/-- The row of the second set is for Bitcoin, but it lists nobody and is below its own bound. -/
theorem twoCandidates_disagree : ∃ s doc row, twoCandidates.assemble = .ok s ∧ s.toJson = .ok doc ∧
    row ∈ doc.candidatesShown ∧ row.ServesBitcoin ∧
      ¬ doc.NamesCommittee row ∧ ¬ row.WithinBounds := by
  have hrun : ∃ s doc, twoCandidates.assemble = .ok s ∧ s.toJson = .ok doc ∧
      s.bridge.committee.accounts = [soleTrustee.account] := ⟨_, _, rfl, rfl, rfl⟩
  obtain ⟨s, doc, hs, hdoc, haccounts⟩ := hrun
  have hrows := State.candidatesShown_of_toJson hdoc
  rw [(assemble_eq_ok_iff.mp hs).trusteeSets] at hrows
  obtain ⟨rows₁, row, rows₂, hshown, -, hrow⟩ := exists_append_of_mapM hrows
  refine ⟨s, doc, row, hs, hdoc, by simp [hshown], (TrusteeSet.servesBitcoin_iff hrow).mpr rfl, ?_, ?_⟩
  · rw [TrusteeSet.namesCommittee_iff hrow (State.committeeShown_of_toJson hdoc), haccounts]
    decide
  · rw [TrusteeSet.withinBounds_iff hrow]
    decide

end Inputs

end LedgerGenesis
