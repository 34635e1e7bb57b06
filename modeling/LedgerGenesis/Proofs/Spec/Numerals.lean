import LedgerGenesis.Proofs.Endowment
import LedgerGenesis.Proofs.Genesis.Acceptance
import LedgerGenesis.Proofs.Table
import LedgerGenesis.Spec.Sources

/-! # Inputs from tables can be shown

The integers of a table have numerals, and so have the ids, the bounds and the heights that are read from it.
Inputs that come from tables and from an allocation are therefore numbered, and no text about them is cut short.
-/
namespace LedgerGenesis

theorem AssetDefinition.hasNumeral_of_ofJson {entry : Json} {d : AssetDefinition} (hentry : entry.Numbered)
    (h : ofJson entry = .ok d) : HasNumeral d.id ∧ d.info.token.isShowable = true := by
  simp only [ofJson, bind_eq_ok_iff, pure_eq_ok_iff] at h
  obtain ⟨v, hv, id, hid, token, htoken, _, -, _, -, _, -, _, -, _, -, _, -, _, -, _, -, _, -, _, -, rfl⟩ := h
  exact ⟨(hentry.of_field hv).hasNumeral hid, (hentry.of_field htoken).isShowable⟩

theorem TrusteeSet.hasNumeral_of_ofJson {data : Json} {s : TrusteeSet} (hdata : data.Numbered)
    (h : ofJson data = .ok s) : HasNumeral s.least ∧ HasNumeral s.greatest := by
  have hread := reporting_eq_ok_iff.mp h
  simp only [readEntry, bind_eq_ok_iff, liftFault_eq_ok_iff, pure_eq_ok_iff] at hread
  obtain ⟨config, hconfig, v, hv, least, hleast, config', hconfig', w, hw, greatest, hgreatest, _, -, _, -, _, -, _,
    -, _, -, rfl⟩ := hread
  exact ⟨((hdata.of_field hconfig).of_field hv).hasNumeral hleast,
    ((hdata.of_field hconfig').of_field hw).hasNumeral hgreatest⟩

theorem Anchor.hasNumeral_of_readEntry {data : Json} {retarget : Retarget} {a : Anchor} (hdata : data.Numbered)
    (h : readEntry data retarget = .ok a) : HasNumeral a.height := by
  simp only [readEntry, bind_eq_ok_iff, liftFault_eq_ok_iff, pure_eq_ok_iff] at h
  obtain ⟨_, -, _, -, _, -, _, -, _, -, _, -, _, -, _, -, _, -, _, -, _, -, _, -, _, -, v, hv, height, hheight, _, -,
    _, -, rfl⟩ := h
  exact (hdata.of_field hv).hasNumeral hheight

namespace Table

variable {t : Table}

theorem hasNumeral_of_assets {ds : List AssetDefinition} (ht : t.toJson.Numbered) (h : t.assets = .ok ds) :
    ∀ d ∈ ds, HasNumeral d.id ∧ d.info.token.isShowable = true := by
  intro d hd
  obtain ⟨entries, hentries, hread⟩ := bind_eq_ok_iff.mp h
  obtain ⟨entry, hentry, hentry'⟩ := exists_mem_of_mapM_eq_ok hread hd
  exact AssetDefinition.hasNumeral_of_ofJson (numbered_of_entries ht hentries entry hentry)
    (mapError_eq_ok_iff.mp hentry')

theorem hasNumeral_of_trusteeSets {sets : List TrusteeSet} (ht : t.toJson.Numbered)
    (h : t.trusteeSets = .ok sets) : ∀ s ∈ sets, HasNumeral s.least ∧ HasNumeral s.greatest := by
  intro s hs
  obtain ⟨entries, hentries, hread⟩ := bind_eq_ok_iff.mp h
  obtain ⟨entry, hentry, hset⟩ := exists_mem_of_mapM_eq_ok hread hs
  exact TrusteeSet.hasNumeral_of_ofJson (numbered_of_entries ht hentries entry hentry) hset

theorem hasNumeral_of_anchor {retarget : Retarget} {a : Anchor} (ht : t.toJson.Numbered)
    (h : t.anchor retarget = .ok a) : HasNumeral a.height := by
  obtain ⟨a', hread, h⟩ := bind_eq_ok_iff.mp h
  split at h
  next =>
    cases h
    exact Anchor.hasNumeral_of_readEntry ht (reporting_eq_ok_iff.mp hread)
  next => cases h

end Table

namespace Sources

variable {src : Sources} {name : Text} {i : Inputs}

/-- Inputs of a profile that are read from tables and allocated are numbered. -/
theorem numbered_of_read {profile : Profile} (hprofile : i.profile = .text profile.name)
    (hassets : src.assets = .ok i.assets) (hsets : src.trusteeSets name = .ok i.trusteeSets)
    {accounts : List Bytes} {amount : Json} {stake : Int} {grants : List (Int × Grants)}
    (hallocate : Endowment.allocate accounts amount stake grants = .ok i.endowment) : i.Numbered := by
  obtain ⟨t, ht, htable⟩ := bind_eq_ok_iff.mp hassets
  obtain ⟨u, hu, hutable⟩ := bind_eq_ok_iff.mp hsets
  have hdefinitions := Table.hasNumeral_of_assets (Table.numbered_of_read ht) htable
  obtain ⟨htotal, hendowed⟩ := Endowment.hasNumeral_of_allocate hallocate
  exact {
    profile := hprofile ▸ Json.isShowable_text _
    tokens := fun d hd => (hdefinitions d hd).2
    ids := fun d hd => (hdefinitions d hd).1
    endowed := hendowed
    bounds := Table.hasNumeral_of_trusteeSets (Table.numbered_of_read hu) hutable
    total := htotal }

end Sources

end LedgerGenesis
