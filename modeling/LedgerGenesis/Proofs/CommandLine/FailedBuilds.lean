import LedgerGenesis.Proofs.CommandLine.Status

/-! # What a failed build leaves behind

A build that fails before its file is placed leaves every file as it was. Afterwards only the digest is
still to be computed, and where it does not exist the file has been replaced already.
-/
namespace LedgerGenesis.CommandLine.Outcome

variable {accepts : Image.Validator} {fs : Files} {chain : Given} {output config : Option Given} {path : Text}
  {s : Spec} {bs : Bytes} {e : Error}

/-- Nothing is placed without a document. -/
theorem build_error_files (h : specWithBytes accepts fs chain config = .error e) :
    (ofBuildSpec accepts fs chain output config).files = fs := by
  simp only [ofBuildSpec, h]

theorem build_placed_read (houtput : Writable fs (some (.text path)))
    (hs : specWithBytes accepts fs chain config = .ok (s, bs)) :
    (ofBuildSpec accepts fs chain (some (.text path)) config).files.read path = .ok bs := by
  have hplace := (Files.fault?_place_eq_none_congr fs path bs []).mpr houtput
  rw [build_placed houtput hs, files_written]
  exact Files.read_place hplace

theorem oversized_iff_of_specWithBytes (hs : specWithBytes accepts fs chain config = .ok (s, bs)) :
    s.Oversized ↔ ∀ hash, s.genesisHash ≠ .ok hash := by
  obtain ⟨settings, -, id, -, hload, -⟩ := specWithBytes_eq_ok_iff.mp hs
  exact Spec.oversized_iff_of_load hload

/-- After the file is placed a build is completed exactly where there is a digest to show. -/
theorem build_not_completed_iff (houtput : Writable fs (some (.text path)))
    (hs : specWithBytes accepts fs chain config = .ok (s, bs)) :
    (ofBuildSpec accepts fs chain (some (.text path)) config).ending ≠ .completed ↔ s.Oversized := by
  rw [build_placed houtput hs, oversized_iff_of_specWithBytes hs]
  unfold written
  cases s.genesisHash with
  | error f => simp
  | ok hash => simp

/-- A build that fails changes the file at its output exactly where the specification has a document but no
digest, and the file did not hold this document before. Without such a specification all files are as they
were. -/
theorem failed_build_changes_iff (accepts : Image.Validator) (fs : Files) (chain : Given)
    (config : Option Given) (path : Text) (houtput : Writable fs (some (.text path)))
    (hfailed : (ofBuildSpec accepts fs chain (some (.text path)) config).ending ≠ .completed) :
    ((ofBuildSpec accepts fs chain (some (.text path)) config).files.read path ≠ fs.read path ↔
      ∃ s bs, specWithBytes accepts fs chain config = .ok (s, bs) ∧ s.Oversized ∧ fs.read path ≠ .ok bs) ∧
    ((¬ ∃ s bs, specWithBytes accepts fs chain config = .ok (s, bs) ∧ s.Oversized) →
      (ofBuildSpec accepts fs chain (some (.text path)) config).files = fs) := by
  cases hs : specWithBytes accepts fs chain config with
  | error e =>
    have hfiles : (ofBuildSpec accepts fs chain (some (.text path)) config).files = fs := build_error_files hs
    refine ⟨?_, fun _ => hfiles⟩
    rw [hfiles]
    refine iff_of_false (fun hne => hne rfl) ?_
    rintro ⟨s, bs, h, -⟩
    cases h
  | ok p =>
    obtain ⟨s, bs⟩ := p
    have hsize := (build_not_completed_iff houtput hs).mp hfailed
    refine ⟨?_, fun hnone => absurd ⟨s, bs, rfl, hsize⟩ hnone⟩
    rw [build_placed_read houtput hs]
    constructor
    · intro hne
      exact ⟨s, bs, rfl, hsize, hne.symm⟩
    · rintro ⟨s', bs', h, -, hne⟩
      cases h
      exact hne.symm

/-- Migration data that hold the least integer without a packed form. -/
def hugeCount : Location × Bytes := fileOf "genesis_builder_params.json"
  "\x7b\"version\":1,\"params\":\x7b\"count\":18446744073709551616\x7d\x7d".toList

def hugeCountFiles : Files := halfRateFiles.setContent hugeCount.1 hugeCount.2

/-- The document of the specification can be written, and its digest does not exist. -/
def lacksDigest (s : Spec) : Bool :=
  match s.genesisHash, s.toJson with
  | .error f, .ok v => f = .outOfRange && v.isShowable &&
      decide (v.labelled.Throughout Json.IsWellFormed)
  | _, _ => false

theorem exists_of_lacksDigest (h : lacksDigest s = true) :
    s.genesisHash = .error .outOfRange ∧ ∃ bs, s.toBytes = .ok bs := by
  unfold lacksDigest at h
  split at h
  next f v hhash hv =>
    simp only [Bool.and_eq_true, decide_eq_true_eq] at h
    obtain ⟨⟨rfl, hnumeral⟩, hform⟩ := h
    exact ⟨hhash, (Spec.exists_toBytes_iff_of_toJson hv).mpr ⟨hnumeral, hform⟩⟩
  next => cases h

theorem hugeCount_spec : ∃ s bs, specWithBytes Wasm.isModule hugeCountFiles (.text "new-mainnet")
    (some (.text "b.json")) = .ok (s, bs) ∧ s.genesisHash = .error .outOfRange := by
  have hsettings : settings hugeCountFiles (some (.text "b.json")) = .ok halfRateSettings := by
    decide +kernel
  have hload : ((Spec.load { halfRateSources with files := hugeCountFiles }
      "new-mainnet").map lacksDigest) = .ok true := by decide +kernel
  obtain ⟨s, hs, hlacks⟩ := map_eq_ok_iff.mp hload
  obtain ⟨hhash, bs, hbytes⟩ := exists_of_lacksDigest hlacks
  exact ⟨s, bs, specWithBytes_eq_ok_iff.mpr ⟨_, hsettings, _, rfl, hs, hbytes⟩, hhash⟩

theorem hugeCount_writable : Writable hugeCountFiles (some (.text "f.json")) := by
  show (hugeCountFiles.place "f.json" []).fault? = none
  decide +kernel

theorem hugeCount_absent : hugeCountFiles.read "f.json" = .error .noSuchFile := by decide +kernel

/-- The build is aborted, and its document stands in a file that was not there. -/
theorem hugeCount_published :
    (ofBuildSpec Wasm.isModule hugeCountFiles (.text "new-mainnet") (some (.text "f.json"))
      (some (.text "b.json"))).ending = .aborted .outOfRange ∧
    hugeCountFiles.read "f.json" = .error .noSuchFile ∧
    ∃ bs, (ofBuildSpec Wasm.isModule hugeCountFiles (.text "new-mainnet") (some (.text "f.json"))
      (some (.text "b.json"))).files.read "f.json" = .ok bs := by
  obtain ⟨s, bs, hs, hhash⟩ := hugeCount_spec
  refine ⟨?_, hugeCount_absent, bs, build_placed_read hugeCount_writable hs⟩
  simp only [build_placed hugeCount_writable hs, written, hhash]

/-- The file that this build leaves was not there, and a build of an unknown chain leaves nothing. -/
theorem hugeCount_changes :
    (ofBuildSpec Wasm.isModule hugeCountFiles (.text "new-mainnet") (some (.text "f.json"))
      (some (.text "b.json"))).files.read "f.json" ≠ hugeCountFiles.read "f.json" ∧
    (ofBuildSpec Wasm.isModule hugeCountFiles (.text "nowhere") (some (.text "f.json"))
      (some (.text "b.json"))).files = hugeCountFiles := by
  obtain ⟨s, bs, hs, hhash⟩ := hugeCount_spec
  have hsize : s.Oversized := (oversized_iff_of_specWithBytes hs).mpr fun hash h => by
    rw [hhash] at h
    cases h
  have hfailed := (build_not_completed_iff hugeCount_writable hs).mpr hsize
  have hread : hugeCountFiles.read "f.json" ≠ .ok bs := by
    rw [hugeCount_absent]
    intro h
    cases h
  have hunknown : specWithBytes Wasm.isModule hugeCountFiles (.text "nowhere") (some (.text "b.json")) =
      .error (.genesis (.unknownSpec "nowhere")) := by decide +kernel
  have hrefused : (ofBuildSpec Wasm.isModule hugeCountFiles (.text "nowhere") (some (.text "f.json"))
      (some (.text "b.json"))).ending ≠ .completed := by
    rw [build_error hunknown]
    intro h
    cases h
  constructor
  · exact (failed_build_changes_iff Wasm.isModule hugeCountFiles (.text "new-mainnet")
      (some (.text "b.json")) "f.json"
      hugeCount_writable hfailed).1.mpr ⟨s, bs, hs, hsize, hread⟩
  · refine (failed_build_changes_iff Wasm.isModule hugeCountFiles (.text "nowhere")
      (some (.text "b.json")) "f.json"
      hugeCount_writable hrefused).2 ?_
    rintro ⟨s, bs, h, -⟩
    rw [hunknown] at h
    cases h

end LedgerGenesis.CommandLine.Outcome
