import LedgerGenesis.CommandLine.Outcome
import LedgerGenesis.Image.Module
import LedgerGenesis.Proofs.Files
import LedgerGenesis.Proofs.Spec.Rereading

/-! # Using the files that were written

An invocation that writes a specification to a file leaves its document there. The file can be checked and
copied if the specification is rereadable, and is refused as malformed if it is not.
-/
namespace LedgerGenesis.CommandLine.Outcome

variable {accepts : Image.Validator} {fs : Files} {chain : Given} {config output : Option Given} {path : Text}
  {s r : Spec} {bs : Bytes} {e : Error}

theorem status?_eq_zero_iff {ending : Ending} : ending.status? = some 0 ↔ ending = .completed := by
  cases ending <;> simp [Ending.status?]

/-! ## The first run -/

theorem specWithBytes_eq_ok_iff : specWithBytes accepts fs chain config = .ok (s, bs) ↔
    ∃ settings, Outcome.settings fs config = .ok settings ∧ ∃ id, chain.id = .ok id ∧
      Spec.load { files := fs, settings, accepts } id = .ok s ∧ s.toBytes = .ok bs := by
  unfold specWithBytes
  simp only [bind_eq_ok_iff, liftFault_eq_ok_iff, pure_eq_ok_iff, Prod.mk.injEq]
  constructor
  · rintro ⟨settings, hsettings, id, hid, spec, hspec, bytes, hbytes, rfl, rfl⟩
    exact ⟨settings, hsettings, id, hid, hspec, hbytes⟩
  · rintro ⟨settings, hsettings, id, hid, hspec, hbytes⟩
    exact ⟨settings, hsettings, id, hid, s, hspec, bs, hbytes, rfl, rfl⟩

theorem origin_of_specWithBytes (h : specWithBytes accepts fs chain config = .ok (s, bs)) :
    s.Origin ∧ s.toBytes = .ok bs := by
  obtain ⟨_, -, _, -, hs, hbytes⟩ := specWithBytes_eq_ok_iff.mp h
  exact ⟨Spec.origin_of_load hs, hbytes⟩

theorem files_written {printed : Text} {files : Files} : (written s printed path files).files = files := by
  unfold written
  dsimp only
  split <;> rfl

theorem exists_of_completed
    (h : (ofBuildSpec accepts fs chain (some (.text path)) config).ending.status? = some 0) :
    ∃ s bs, specWithBytes accepts fs chain config = .ok (s, bs) ∧
      (ofBuildSpec accepts fs chain (some (.text path)) config).files.read path = .ok bs := by
  rw [status?_eq_zero_iff] at h
  unfold ofBuildSpec at h ⊢
  cases hs : specWithBytes accepts fs chain config with
  | error e =>
    rw [hs] at h
    cases e <;> cases h
  | ok p =>
    obtain ⟨s, bs⟩ := p
    refine ⟨s, bs, rfl, ?_⟩
    rw [hs] at h
    simp only [placing, Given.path] at h ⊢
    cases hf : (fs.place path bs).fault? with
    | some f =>
      rw [hf] at h
      cases h
    | none =>
      rw [files_written]
      exact Files.read_place hf

/-! ## The later runs -/

theorem load_file (accepts : Image.Validator) (hid : Preset.ofId? path = none)
    (hread : fs.read path = .ok bs) (settings : Settings) :
    Spec.load { files := fs, settings, accepts } path = Spec.ofBytes bs := by
  have hfile : fs.isFile path = true := Files.isFile_iff.mpr ⟨bs, hread⟩
  simp only [Spec.load, hid, hfile, if_true, Spec.ofFile, hread]
  rfl

theorem specWithBytes_file_eq_error (accepts : Image.Validator) (hid : Preset.ofId? path = none)
    (hread : fs.read path = .ok bs) (he : Spec.ofBytes bs = .error e) :
    specWithBytes accepts fs (.text path) none = .error e := by
  have hload := (load_file accepts hid hread {}).trans he
  unfold specWithBytes
  simp only [settings, Given.id, bind, Except.bind, liftM, monadLift, MonadLift.monadLift,
    Except.mapError, hload]

theorem specWithBytes_file (accepts : Image.Validator) (hid : Preset.ofId? path = none)
    (hread : fs.read path = .ok bs) (hr : Spec.ofBytes bs = .ok r) (hbytes : r.toBytes = .ok bs) :
    specWithBytes accepts fs (.text path) none = .ok (r, bs) :=
  specWithBytes_eq_ok_iff.mpr ⟨{}, rfl, path, rfl, (load_file accepts hid hread {}).trans hr, hbytes⟩

theorem checkedSnapshot_file (accepts : Image.Validator) (hid : Preset.ofId? path = none)
    (hread : fs.read path = .ok bs) :
    checkedSnapshot accepts fs (.text path) none = (Spec.isByteStable bs).map (bs, ·) := by
  have hfile : fs.isFile path = true := Files.isFile_iff.mpr ⟨bs, hread⟩
  have hbytes : Spec.snapshotBytes { files := fs, accepts } path = .ok bs := by
    simp only [Spec.snapshotBytes, hid, Option.bind, hfile, if_true, hread, Except.mapError]
  unfold checkedSnapshot
  simp only [settings, Given.id, bind, Except.bind, liftM, monadLift, MonadLift.monadLift,
    Except.mapError, hbytes]
  cases Spec.isByteStable bs <;> rfl

/-- A file of bytes that are written anew as they are passes the check. -/
theorem check_completed (hid : Preset.ofId? path = none) (hread : fs.read path = .ok bs)
    (hstable : Spec.isByteStable bs = .ok true) :
    (ofCheckFrozen accepts fs (.text path) none).ending = .completed := by
  have hcheck := checkedSnapshot_file accepts hid hread
  rw [hstable] at hcheck
  simp only [ofCheckFrozen, hcheck, Except.map]

theorem check_error (hid : Preset.ofId? path = none) (hread : fs.read path = .ok bs)
    (he : Spec.isByteStable bs = .error e) :
    (ofCheckFrozen accepts fs (.text path) none).ending = .ofError e := by
  have hcheck := checkedSnapshot_file accepts hid hread
  rw [he] at hcheck
  simp only [ofCheckFrozen, hcheck, Except.map]

theorem build_error (h : specWithBytes accepts fs chain config = .error e) :
    (ofBuildSpec accepts fs chain output config).ending = .ofError e := by
  simp only [ofBuildSpec, h]

theorem build_completed {hash : Option Bytes} (h : specWithBytes accepts fs chain config = .ok (s, bs))
    (hhash : s.genesisHash = .ok hash) (hplace : (fs.place path bs).fault? = none) :
    (ofBuildSpec accepts fs chain (some (.text path)) config).ending.status? = some 0 := by
  simp only [ofBuildSpec, h, placing, Given.path, hplace, written, hhash, Ending.status?]

theorem genesisHash_of_ofBytes (h : Spec.ofBytes bs = .ok r) : r.genesisHash = .ok none := by
  obtain ⟨d, -, hr⟩ := Spec.ofBytes_eq_ok_iff.mp h
  obtain ⟨data, -, hg⟩ := (Spec.mirrors_of_ofDocument hr).genesis
  rw [Spec.genesisHash, hg]

/-- The check of a written file succeeds exactly where its specification is rereadable. -/
theorem check_completed_iff (accepts : Image.Validator) (hid : Preset.ofId? path = none)
    (hread : fs.read path = .ok bs) (horigin : s.Origin) (hbytes : s.toBytes = .ok bs) :
    (ofCheckFrozen accepts fs (.text path) none).ending.status? = some 0 ↔ s.Rereadable := by
  rw [status?_eq_zero_iff, ← horigin.exists_reread_iff hbytes]
  constructor
  · intro hcheck
    cases hr : Spec.ofBytes bs with
    | ok r => exact ⟨r, rfl⟩
    | error e =>
      have hstable := Spec.isByteStable_eq_error_iff.mpr (Or.inl hr)
      rw [check_error hid hread hstable] at hcheck
      cases e <;> cases hcheck
  · rintro ⟨r, hr⟩
    exact check_completed hid hread (Spec.isByteStable_of_reread hbytes hr)

/-- The file of a rereadable specification is copied to wherever it can be placed. -/
theorem copy_completed {other : Text} (hid : Preset.ofId? path = none) (hread : fs.read path = .ok bs)
    (horigin : s.Origin) (hbytes : s.toBytes = .ok bs) (h : s.Rereadable)
    (hplace : (fs.place other bs).fault? = none) :
    (ofBuildSpec accepts fs (.text path) (some (.text other)) none).ending.status? = some 0 ∧
      (ofBuildSpec accepts fs (.text path) (some (.text other)) none).files.read other = .ok bs := by
  obtain ⟨r, hr⟩ := (horigin.exists_reread_iff hbytes).mpr h
  have hsame : r.toBytes = .ok bs := Spec.toBytes_of_reread hbytes hr
  have hcopy := specWithBytes_file accepts hid hread hr hsame
  have hdone := build_completed hcopy (genesisHash_of_ofBytes hr) hplace
  obtain ⟨r', bs', hr', hother⟩ := exists_of_completed hdone
  rw [hcopy] at hr'
  cases hr'
  exact ⟨hdone, hother⟩

theorem refused_of_not_rereadable (hid : Preset.ofId? path = none) (hread : fs.read path = .ok bs)
    (horigin : s.Origin) (hbytes : s.toBytes = .ok bs) (hn : ¬ s.Rereadable) :
    ∃ g, g.kind = .malformedSnapshot ∧
      (ofCheckFrozen accepts fs (.text path) none).ending = .reported g ∧
        ∀ output, (ofBuildSpec accepts fs (.text path) output none).ending = .reported g := by
  have hnone : ∀ r, Spec.ofBytes bs ≠ .ok r := by
    intro r hr
    exact hn ((horigin.exists_reread_iff hbytes).mp ⟨r, hr⟩)
  obtain ⟨e, he⟩ := exists_error_of_ne_ok hnone
  obtain ⟨g, rfl, hg⟩ := Spec.isMalformed_of_ofBytes he
  have hstable := Spec.isByteStable_eq_error_iff.mpr (Or.inl he)
  have hbuild := specWithBytes_file_eq_error accepts hid hread he
  exact ⟨g, hg, check_error hid hread hstable, fun output => build_error hbuild⟩

/-- When an invocation has written a specification to a file that is not named as a preset, the file holds
its document. Checking the file succeeds exactly where the specification is rereadable, as each is that was
read itself; then the file is copied byte for byte to wherever it can be placed. If the specification is not
rereadable, checking and copying both report a malformed snapshot. -/
theorem written_file_reread (accepts : Image.Validator) (fs : Files) (chain : Given) (config : Option Given)
    (path : Text) (hid : Preset.ofId? path = none)
    (hdone : (ofBuildSpec accepts fs chain (some (.text path)) config).ending.status? = some 0) :
    ∃ s bs, specWithBytes accepts fs chain config = .ok (s, bs) ∧
      ∃ files, (ofBuildSpec accepts fs chain (some (.text path)) config).files = files ∧
        files.read path = .ok bs ∧
        ((ofCheckFrozen accepts files (.text path) none).ending.status? = some 0 ↔ s.Rereadable) ∧
        (∀ d, s.source = some d → s.Rereadable) ∧
        (s.Rereadable → ∀ other, (files.place other bs).fault? = none →
          (ofBuildSpec accepts files (.text path) (some (.text other)) none).ending.status? = some 0 ∧
            (ofBuildSpec accepts files (.text path) (some (.text other)) none).files.read other = .ok bs) ∧
        (¬ s.Rereadable → ∃ g, g.kind = .malformedSnapshot ∧
          (ofCheckFrozen accepts files (.text path) none).ending = .reported g ∧
            ∀ output, (ofBuildSpec accepts files (.text path) output none).ending = .reported g) := by
  obtain ⟨s, bs, hs, hread⟩ := exists_of_completed hdone
  obtain ⟨horigin, hbytes⟩ := origin_of_specWithBytes hs
  have hcheck := check_completed_iff accepts hid hread horigin hbytes
  refine ⟨s, bs, hs, _, rfl, hread, hcheck, fun d => horigin.rereadable, ?_, ?_⟩
  · intro h other hplace
    exact copy_completed hid hread horigin hbytes h hplace
  · intro hn
    exact refused_of_not_rereadable hid hread horigin hbytes hn

def fileOf (name : String) (text : List Char) : Location × Bytes :=
  ([Utf8.encode name.toList], Utf8.encode text)

/-- A snapshot with blanks in it and with its keys in another order than they are written in. -/
def spacedFiles : Files where
  contents := [fileOf "s.json" ("\x7b \"genesis\": \x7b\"raw\": -0\x7d, \"chainType\": \"Live\", ".toList ++
    "\"id\": \"x\", \"name\": \"\\u0041\", \"formatVersion\": 1\x7d".toList)]
  directories := []

/-- Its copy, which differs from it, is byte-stable and is copied byte for byte. -/
theorem spaced_written_file_reread :
    ∃ bs files,
      (ofBuildSpec Wasm.isModule spacedFiles (.text "s.json") (some (.text "f.json")) none).files = files ∧
      files.read "s.json" ≠ .ok bs ∧ files.read "f.json" = .ok bs ∧
      (ofCheckFrozen Wasm.isModule files (.text "f.json") none).ending.status? = some 0 ∧
      (ofBuildSpec Wasm.isModule files (.text "f.json") (some (.text "g.json")) none).files.read "g.json" =
        .ok bs := by
  have hdone : (ofBuildSpec Wasm.isModule spacedFiles (.text "s.json") (some (.text "f.json"))
      none).ending.status? = some 0 := by decide +kernel
  obtain ⟨s, bs, hs, files, hfiles, hread, hcheck, hsource, hcopy, -⟩ :=
    written_file_reread Wasm.isModule spacedFiles (.text "s.json") none "f.json" (by decide) hdone
  have hloaded : (specWithBytes Wasm.isModule spacedFiles (.text "s.json") none).map
      (fun p => p.1.source.isSome) = .ok true := by decide +kernel
  have hr : s.Rereadable := by
    rw [hs] at hloaded
    obtain ⟨d, hd⟩ := Option.isSome_iff_exists.mp (Except.ok.inj hloaded)
    exact hsource d hd
  have hplace : (files.place "g.json" bs).fault? = none := by
    rw [Files.fault?_place_eq_none_congr _ _ bs [], ← hfiles]
    decide +kernel
  have hother : files.read "s.json" ≠ files.read "f.json" := by
    rw [← hfiles]
    decide +kernel
  exact ⟨bs, files, hfiles, hread ▸ hother, hread, hcheck.mpr hr, (hcopy hr "g.json" hplace).2⟩

/-! ## A specification that is written and not read -/

/-- The field of a key whose bytes are all zero. -/
def zeroKey (name : String) : List Char :=
  "\"".toList ++ (name.toList ++ ("\":\"0x".toList ++ (List.replicate 64 '0' ++ "\"".toList)))

/-- The tables of a main network with one validator. Its migration data hold the rate 0.5. -/
def halfRateFiles : Files where
  contents := [
    ([Utf8.encode "c.wasm".toList], Wasm.header),
    fileOf "b.json" ("\x7b\"runtime\":\x7b\"chainx\":\"c.wasm\"\x7d,".toList ++
      "\"resources\":\x7b\"res_dir\":\"\"\x7d\x7d".toList),
    fileOf "authorities_mainnet.json" (
      "\x7b\"version\":1,\"authorities\":[\x7b\"referral\":\"\",".toList ++
      (zeroKey "account" ++ ',' :: (zeroKey "babe" ++ ',' :: (zeroKey "grandpa" ++ ',' ::
      (zeroKey "im_online" ++ ',' :: (zeroKey "authority_discovery" ++ "\x7d]\x7d".toList)))))),
    fileOf "genesis_assets.json" "\x7b\"version\":1,\"assets\":[]\x7d".toList,
    fileOf "trustees_mainnet.json" (
      "\x7b\"version\":1,\"candidates\":[\x7b\"chain\":\"Bitcoin\",\"trustees\":[],".toList ++
      "\"config\":\x7b\"min_trustee_count\":0,\"max_trustee_count\":0\x7d\x7d]\x7d".toList),
    fileOf "btc_genesis_params_mainnet.json" (
      "\x7b\"version\":1,\"network\":\"Mainnet\",\"confirmation_number\":1,\"height\":0,".toList ++
      ("\"hash\":\"000000000019d6689c085ae165831e934ff763ae46a2a6c172b3f1b60a8ce26f\",".toList ++
      ("\"header_version\":1,\"previous_header_hash\":\"".toList ++ (List.replicate 64 '0' ++
      ("\",\"merkle_root_hash\":\"".toList ++
      ("4a5e1e4baab89f3a32518a88c31bc87f618f76673e2cc77ab2127b7afdeda33b\",".toList ++
      "\"time\":1231006505,\"bits\":486604799,\"nonce\":2083236893\x7d".toList)))))),
    fileOf "technical_committee.json" "\x7b\"version\":1,\"mainnet\":[]\x7d".toList,
    fileOf "genesis_builder_params.json"
      "\x7b\"version\":1,\"params\":\x7b\"rate\":0.5\x7d\x7d".toList]
  directories := []

def halfRateSettings : Settings := { chainxImage := .text "c.wasm", tableDirectory := .text "" }

def halfRateSources : Sources where
  files := halfRateFiles
  settings := halfRateSettings
  accepts := Wasm.isModule

def isDouble : Json → Bool
  | .float _ => true
  | _ => false

/-- The specification has a digest and a document that can be written, but a double is in it. -/
def writesDouble (s : Spec) : Bool :=
  match s.genesisHash, s.toJson with
  | .ok _, .ok v => v.isShowable && decide (v.labelled.Throughout Json.IsWellFormed) &&
      v.labelled.parts.any isDouble
  | _, _ => false

theorem exists_of_writesDouble (h : writesDouble s = true) : ∃ hash bs, s.genesisHash = .ok hash ∧
    s.toBytes = .ok bs ∧ ¬ s.Rereadable := by
  unfold writesDouble at h
  split at h
  next hash v hhash hv =>
    simp only [Bool.and_eq_true, decide_eq_true_eq, List.any_eq_true] at h
    obtain ⟨⟨hnumeral, hform⟩, w, hw, hdouble⟩ := h
    obtain ⟨bs, hbytes⟩ := (Spec.exists_toBytes_iff_of_toJson hv).mpr ⟨hnumeral, hform⟩
    refine ⟨hash, bs, hhash, hbytes, fun hread => ?_⟩
    have hx := hread.exact v hv w hw
    cases w with
    | float x => exact hx
    | _ => cases hdouble
  next => cases h

theorem halfRate_load : ∃ s, Spec.load halfRateSources "new-mainnet" = .ok s ∧ writesDouble s = true := by
  have h : ((Spec.load halfRateSources "new-mainnet").map writesDouble) = .ok true := by decide +kernel
  exact map_eq_ok_iff.mp h

/-- Building it succeeds, and checking the file that was written does not. -/
theorem halfRate_not_reread :
    (ofBuildSpec Wasm.isModule halfRateFiles (.text "new-mainnet") (some (.text "f.json"))
      (some (.text "b.json"))).ending.status? = some 0 ∧
    (ofCheckFrozen Wasm.isModule (ofBuildSpec Wasm.isModule halfRateFiles (.text "new-mainnet")
      (some (.text "f.json")) (some (.text "b.json"))).files (.text "f.json") none).ending.status? ≠
        some 0 := by
  have hsettings : settings halfRateFiles (some (.text "b.json")) = .ok halfRateSettings := by
    decide +kernel
  obtain ⟨s, hload, hdouble⟩ := halfRate_load
  obtain ⟨hash, bs, hhash, hbytes, hn⟩ := exists_of_writesDouble hdouble
  have hspec : specWithBytes Wasm.isModule halfRateFiles (.text "new-mainnet") (some (.text "b.json")) =
      .ok (s, bs) := specWithBytes_eq_ok_iff.mpr ⟨_, hsettings, _, rfl, hload, hbytes⟩
  have hplace : (halfRateFiles.place "f.json" bs).fault? = none := by
    rw [Files.fault?_place_eq_none_congr _ _ bs []]
    decide +kernel
  have hdone := build_completed hspec hhash hplace
  refine ⟨hdone, fun hcheck => ?_⟩
  obtain ⟨s', bs', hspec', hread⟩ := exists_of_completed hdone
  rw [hspec] at hspec'
  cases hspec'
  have horigin := (origin_of_specWithBytes hspec).1
  exact hn ((check_completed_iff _ (by decide) hread horigin hbytes).mp hcheck)

end LedgerGenesis.CommandLine.Outcome
