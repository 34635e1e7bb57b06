import LedgerGenesis.Proofs.Spec.MainRebuild
import LedgerGenesis.Proofs.Spec.SnapshotAlone

/-! # One id asked for twice

An id is asked for its specification and for its snapshot. Presets come first for the one, and for the other
only those presets that have a snapshot: the id of another preset may also be the path of a file, and then
the bytes are those of the file and the specification is not.
-/
namespace LedgerGenesis

namespace Spec

variable {s : Spec} {bs : Bytes} {src : Sources} {id : Text}

/-- The specification is frozen, and its document is the one that the bytes denote. -/
structure IsFrozenFrom (s : Spec) (bs : Bytes) : Prop where
  frozen : s.isFrozen = true
  document : ∃ d, Document.decode bs = .ok d ∧ s.toJson = .ok (.object d)

theorem isFrozenFrom_of_ofBytes (h : ofBytes bs = .ok s) : s.IsFrozenFrom bs := by
  obtain ⟨d, hd, hdoc⟩ := ofBytes_eq_ok_iff.mp h
  have hmirrors := mirrors_of_ofDocument hdoc
  obtain ⟨data, -, hgenesis⟩ := hmirrors.genesis
  refine ⟨?_, d, hd, hmirrors.document⟩
  rw [isFrozen, hgenesis]

/-- A preset without a snapshot assembles its specification. -/
theorem isFrozen_eq_false_of_build {p : Preset} (htable : p.snapshotTable? = none) (h : p.build src = .ok s) :
    s.isFrozen = false := by
  obtain ⟨profile, -, -, -, -, rfl⟩ := exists_makes_of_build htable h
  rfl

theorem read_of_snapshotBytes (hid : (Preset.ofId? id).bind Preset.snapshotTable? = none)
    (h : snapshotBytes src id = .ok bs) : src.files.read id = .ok bs := by
  unfold snapshotBytes at h
  rw [hid] at h
  dsimp only at h
  split at h
  next => exact mapError_eq_ok_iff.mp h
  next => cases h

/-- Without a preset both the specification and the bytes are those of the file. -/
theorem ofBytes_of_load_file (hid : Preset.ofId? id = none) (hs : load src id = .ok s)
    (hbs : snapshotBytes src id = .ok bs) : ofBytes bs = .ok s := by
  have hread := read_of_snapshotBytes (by rw [hid]; rfl) hbs
  have hfile : src.files.isFile id = true := Files.isFile_iff.mpr ⟨bs, hread⟩
  have hs : ofFile src.files id = .ok s := by
    simpa only [load, hid, hfile, if_true] using hs
  obtain ⟨bs', hread', hs⟩ := ofFile_eq_ok_iff.mp hs
  rw [hread] at hread'
  cases hread'
  exact hs

theorem ofBytes_of_load_preset {p : Preset} {table : Text} (hid : Preset.ofId? id = some p)
    (htable : p.snapshotTable? = some table) (hs : load src id = .ok s)
    (hbs : snapshotBytes src id = .ok bs) : ofBytes bs = .ok s := by
  have hbuild : p.build src = .ok s := by simpa only [load, hid] using hs
  have hbs : src.snapshotBytes table = .ok bs := by
    simpa only [snapshotBytes, hid, Option.bind_some, htable] using hbs
  obtain ⟨bs', hbs', hs⟩ := exists_snapshot_of_build htable hbuild
  rw [hbs] at hbs'
  cases hbs'
  exact hs

theorem unfrozen_of_load_preset {p : Preset} (hid : Preset.ofId? id = some p)
    (htable : p.snapshotTable? = none) (hs : load src id = .ok s)
    (hbs : snapshotBytes src id = .ok bs) : s.isFrozen = false ∧ src.files.read id = .ok bs := by
  have hbuild : p.build src = .ok s := by simpa only [load, hid] using hs
  refine ⟨isFrozen_eq_false_of_build htable hbuild, read_of_snapshotBytes ?_ hbs⟩
  rw [hid, Option.bind_some, htable]

/-- Where an id has both a specification and a snapshot, the specification is the one that the bytes denote,
unless the id is that of a preset without a snapshot. Then it was assembled, and the bytes are those of a file
with the id for its path. -/
theorem load_isFrozenFrom_iff (src : Sources) (id : Text) (hs : load src id = .ok s)
    (hbs : snapshotBytes src id = .ok bs) :
    (s.IsFrozenFrom bs ↔ ∀ p, Preset.ofId? id = some p → p.snapshotTable?.isSome) ∧
    ∀ p, Preset.ofId? id = some p → p.snapshotTable? = none →
      s.isFrozen = false ∧ src.files.read id = .ok bs := by
  refine ⟨?_, fun p hid htable => unfrozen_of_load_preset hid htable hs hbs⟩
  cases hid : Preset.ofId? id with
  | none =>
    refine iff_of_true (isFrozenFrom_of_ofBytes (ofBytes_of_load_file hid hs hbs)) ?_
    intro p hp
    cases hp
  | some p =>
    simp only [Option.some.injEq, forall_eq']
    cases htable : p.snapshotTable? with
    | none =>
      obtain ⟨hassembled, -⟩ := unfrozen_of_load_preset hid htable hs hbs
      refine iff_of_false (fun h => ?_) Bool.false_ne_true
      rw [h.frozen] at hassembled
      cases hassembled
    | some table =>
      exact iff_of_true (isFrozenFrom_of_ofBytes (ofBytes_of_load_preset hid htable hs hbs)) rfl

/-- An id that names a preset with a snapshot and also a file, which is not looked at. -/
theorem crowdedSources_isFrozenFrom : crowdedSources.files.isFile "malan" = true ∧
    ∃ s bs, load crowdedSources "malan" = .ok s ∧ snapshotBytes crowdedSources "malan" = .ok bs ∧
      s.IsFrozenFrom bs := by
  have hload : (load crowdedSources "malan").map (fun _ => ()) = .ok () := by decide +kernel
  obtain ⟨s, hs, -⟩ := map_eq_ok_iff.mp hload
  have hbs : snapshotBytes crowdedSources "malan" = .ok smallMalan := by decide +kernel
  have hsnapshot : ∀ p, Preset.ofId? "malan" = some p → p.snapshotTable?.isSome := by
    intro p hp
    cases hp
    rfl
  exact ⟨by decide +kernel, s, smallMalan, hs, hbs,
    (load_isFrozenFrom_iff crowdedSources "malan" hs hbs).1.mpr hsnapshot⟩

open CommandLine.Outcome (fileOf halfRateFiles halfRateSources halfRate_load)

/-- A file with the id by which the main network is made anew. -/
def shadowedFile : Location × Bytes := fileOf "new-mainnet" "\x7b\x7d".toList

theorem shadowedFile_agreeOnMain :
    halfRateSources.AgreeOnMain (halfRateSources.withContent shadowedFile.1 shadowedFile.2) := by
  have htables : ∀ name ∈ Sources.mainTables,
      halfRateFiles.locate (Path.join [] name) ≠ .ok shadowedFile.1 := by decide +kernel
  have himage : halfRateFiles.locate "c.wasm" ≠ .ok shadowedFile.1 := by decide +kernel
  have hcommittee : halfRateFiles.locate (Path.join [] Sources.technicalCommittee) ≠ .ok shadowedFile.1 := by
    decide +kernel
  exact (halfRateSources_offMain htables himage).agreeOnMain _
    (.of_eq ((halfRateSources_off hcommittee).committeeSection_withContent _))

/-- With this file the specification is assembled as without it, and the bytes that are found for its id are
those of the file. -/
theorem shadowedFile_not_isFrozenFrom :
    ∃ s bs, load (halfRateSources.withContent shadowedFile.1 shadowedFile.2) "new-mainnet" = .ok s ∧
      snapshotBytes (halfRateSources.withContent shadowedFile.1 shadowedFile.2) "new-mainnet" = .ok bs ∧
        s.isFrozen = false ∧ ¬ s.IsFrozenFrom bs := by
  obtain ⟨s, hload, -⟩ := halfRate_load
  have hquiet : Preset.newMainnet.build halfRateSources = .ok s := hload
  have hs := shadowedFile_agreeOnMain.build.ok_iff.mp hquiet
  have hbs : snapshotBytes (halfRateSources.withContent shadowedFile.1 shadowedFile.2) "new-mainnet" =
      .ok shadowedFile.2 := by decide +kernel
  have hassembled := isFrozen_eq_false_of_build rfl hs
  refine ⟨s, shadowedFile.2, hs, hbs, hassembled, fun h => ?_⟩
  rw [h.frozen] at hassembled
  cases hassembled

end Spec

end LedgerGenesis
