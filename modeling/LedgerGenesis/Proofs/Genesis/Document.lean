import LedgerGenesis.Proofs.Genesis.Rendering
import LedgerGenesis.Proofs.Json.Path
import LedgerGenesis.Proofs.Text.Spelling

/-! # The sections of a document

The document of a state holds its sections under their names. Only two values in it depend on the
validators: another list of validators gives the document with these two values put in place.
-/
namespace LedgerGenesis

theorem Trustee.exists_toJson_iff {t : Trustee} :
    (∃ v, t.toJson = .ok v) ↔ (Text.ofUtf8? t.about).isSome := by
  unfold Trustee.toJson
  cases Text.ofUtf8? t.about <;> simp

theorem TrusteeSet.exists_toJson_iff {set : TrusteeSet} :
    (∃ v, set.toJson = .ok v) ↔ ∀ t ∈ set.trustees, (Text.ofUtf8? t.about).isSome := by
  unfold TrusteeSet.toJson
  rw [exists_bind_pure_eq_ok_iff, exists_mapM_eq_ok_iff]
  simp only [Trustee.exists_toJson_iff]

namespace State

variable (s : State)

/-- The ids of the endowed assets have numerals, under which a document shows them. -/
def NumbersIds : Prop := ∀ a ∈ s.assetsEndowed, HasNumeral a.1

/-- The sections of a state as one value, given those that hold texts from outside. -/
def document (trustees labels : List Json) : Json :=
  .object (s.sudoSection ++ s.commonSections (Endowment.numberedJson s.assetsEndowed) trustees labels)

variable {s} {trustees labels : List Json}

theorem toJson_eq_ok_iff {doc : Json} : s.toJson = .ok doc ↔ s.NumbersIds ∧ ∃ trustees labels,
    s.trusteeSets.mapM TrusteeSet.toJson = .ok trustees ∧
      (s.stakingCandidates.mapM fun c => referralJson c.2) = .ok labels ∧
        doc = s.document trustees labels := by
  simp only [toJson, sections, map_eq_ok_iff, bind_eq_ok_iff, pure_eq_ok_iff, Endowment.assetsJson_eq_ok_iff]
  constructor
  · rintro ⟨_, ⟨_, ⟨hids, rfl⟩, trustees, ht, labels, hl, rfl⟩, rfl⟩
    exact ⟨hids, trustees, labels, ht, hl, rfl⟩
  · rintro ⟨hids, trustees, labels, ht, hl, rfl⟩
    exact ⟨_, ⟨_, ⟨hids, rfl⟩, trustees, ht, labels, hl, rfl⟩, rfl⟩

/-- Once the referrals are texts, only the ids and the trustees decide whether a state has a document. -/
theorem toJson_eq (h : (s.stakingCandidates.mapM fun c => referralJson c.2) = .ok labels) :
    s.toJson = (Endowment.assetsJson s.assetsEndowed >>= fun _ =>
      s.trusteeSets.mapM TrusteeSet.toJson).map fun trustees => s.document trustees labels := by
  unfold toJson sections
  rw [h]
  cases hids : Endowment.assetsJson s.assetsEndowed with
  | error f => rfl
  | ok endowed =>
    obtain ⟨-, rfl⟩ := Endowment.assetsJson_eq_ok_iff.mp hids
    cases s.trusteeSets.mapM TrusteeSet.toJson <;> rfl

theorem exists_toJson_iff (h : (s.stakingCandidates.mapM fun c => referralJson c.2) = .ok labels) :
    (∃ doc, s.toJson = .ok doc) ↔ s.NumbersIds ∧
      ∀ set ∈ s.trusteeSets, ∀ t ∈ set.trustees, (Text.ofUtf8? t.about).isSome := by
  have htrustees : (∃ trustees, s.trusteeSets.mapM TrusteeSet.toJson = .ok trustees) ↔
      ∀ set ∈ s.trusteeSets, ∀ t ∈ set.trustees, (Text.ofUtf8? t.about).isSome := by
    simp only [exists_mapM_eq_ok_iff, TrusteeSet.exists_toJson_iff]
  rw [← htrustees]
  constructor
  · rintro ⟨doc, hdoc⟩
    obtain ⟨hids, trustees, -, ht, -, -⟩ := toJson_eq_ok_iff.mp hdoc
    exact ⟨hids, trustees, ht⟩
  · rintro ⟨hids, trustees, ht⟩
    exact ⟨_, toJson_eq_ok_iff.mpr ⟨hids, trustees, labels, ht, h, rfl⟩⟩

theorem notMem_keys_sudoSection {k : Text} (hk : k ≠ "sudo") : k ∉ Json.keys s.sudoSection := by
  unfold sudoSection
  cases s.adminKey with
  | none => simp [Json.keys]
  | some key => simpa [Json.keys] using hk

/-- Apart from the section of the admin key, values are found among the common sections. -/
theorem document_at? {k : Text} {path : List Text} (hk : k ≠ "sudo") :
    (s.document trustees labels).at? (k :: path) =
      (Json.object (s.commonSections (Endowment.numberedJson s.assetsEndowed) trustees labels)).at?
        (k :: path) := by
  simp only [document, Json.at?]
  rw [Json.lookup_append_of_notMem (notMem_keys_sudoSection hk)]

/-- A value that does not depend on the texts from outside is in every document of its state. -/
theorem at?_of_toJson {doc v : Json} {k : Text} {path : List Text} (h : s.toJson = .ok doc)
    (hk : k ≠ "sudo")
    (hv : ∀ trustees labels, (Json.object (s.commonSections (Endowment.numberedJson s.assetsEndowed)
      trustees labels)).at? (k :: path) = some v) :
    doc.at? (k :: path) = some v := by
  obtain ⟨-, trustees, labels, -, -, rfl⟩ := toJson_eq_ok_iff.mp h
  rw [document_at? hk]
  exact hv trustees labels

/-- The section of an administrator. -/
def administratorJson (key : Bytes) : Json := .object [("key", .text (Hex.encode key))]

theorem document_sudo {doc : Json} (h : s.toJson = .ok doc) :
    doc.at? ["sudo"] = s.adminKey.map administratorJson := by
  obtain ⟨-, trustees, labels, -, -, rfl⟩ := toJson_eq_ok_iff.mp h
  unfold document sudoSection
  cases s.adminKey with
  | none => rfl
  | some key => rfl

theorem put_sections {fields : List (Text × Json)} {k : Text} {path : List Text} {v : Json}
    (hk : k ≠ "sudo") : (Json.object (s.sudoSection ++ fields)).put (k :: path) v =
      .object (s.sudoSection ++
        Json.setField k (((Json.lookup k fields).getD .null).put path v) fields) := by
  have hn := notMem_keys_sudoSection (s := s) hk
  simp only [Json.put]
  rw [Json.lookup_append_of_notMem hn, Json.setField_append_of_notMem hn]

theorem document_sessionKeys : (s.document trustees labels).at? ["session", "keys"] =
    some (.list (s.sessionKeys.map fun (account, validator, keys) =>
      .list [.text (Hex.encode account), .text (Hex.encode validator), keys.toJson])) := by
  rw [document_at? (by decide)]
  rfl

theorem document_initialAuthorities :
    (s.document trustees labels).at? ["xGenesisBuilder", "initialAuthorities"] =
      some (.list labels) := by
  rw [document_at? (by decide)]
  rfl

/-- Other validators change the keys of the session and the list of referrals, and nothing else. -/
theorem document_withValidators (vs : List Validator) (others : List Json) :
    { s with validators := vs }.document trustees others =
      ((s.document trustees labels).put ["session", "keys"]
        (.list (vs.map fun v => .list [.text (Hex.encode v.stash), .text (Hex.encode v.stash),
          v.keys.toJson]))).put ["xGenesisBuilder", "initialAuthorities"] (.list others) := by
  unfold document
  rw [put_sections (by decide), put_sections (by decide)]
  simp only [commonSections, sessionJson, sessionKeys, List.map_map]
  rfl

end State

end LedgerGenesis
