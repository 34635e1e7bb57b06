import LedgerGenesis.Proofs.CommandLine.WrittenFiles
import LedgerGenesis.Proofs.Spec.Leaks

/-! # Which invocations have a status

An invocation whose output can be written ends with a status unless a fault escapes from it. Faults of a
settings file never do. Those of the tables, of what the settings say and of the specification itself do
where nothing reports them.
-/
namespace LedgerGenesis

/-! ## Settings that cannot be read -/

/-- The faults that are reported as those of a settings file. -/
def Fault.IsOfSettings (f : Fault) : Prop := f.family ∈ [.system, .content, .shape, .access]

namespace Settings

variable {fs : Files} {path : Text} {v : Json} {bs : Bytes}

theorem throws_readSection {key : Text} {known : List Text} {file : List (Text × Json)} :
    Throws Fault.IsOfSettings (readSection key known file) := by
  intro f h
  unfold readSection at h
  split at h
  next =>
    split at h <;> cases h
    exact List.mem_of_elem_eq_true rfl
  next =>
    cases h
    exact List.mem_of_elem_eq_true rfl

theorem throws_ofJson : Throws Fault.IsOfSettings (ofJson v) := by
  cases v with
  | object file =>
    refine throws_bind throws_readSection fun _ _ => throws_bind throws_readSection fun _ _ => ?_
    exact throws_bind throws_readSection fun _ _ => throws_pure
  | _ =>
    rintro _ ⟨⟩
    exact List.mem_of_elem_eq_true rfl

theorem throws_ofBytes : Throws Fault.IsOfSettings (ofBytes bs) := by
  unfold ofBytes
  split
  next =>
    rintro _ ⟨⟩
    exact List.mem_of_elem_eq_true rfl
  next =>
    refine throws_bind (Json.throws_parse.mono fun f hf => ?_) fun _ _ => throws_ofJson
    rw [Fault.IsOfSettings, hf]
    decide

theorem throws_ofFile : Throws Fault.IsOfSettings (ofFile fs path) := by
  refine throws_bind (Files.throws_read.mono fun f hf => ?_) fun _ _ => throws_ofBytes
  rcases hf with hf | hf <;> rw [Fault.IsOfSettings, hf] <;> decide

end Settings

namespace CommandLine.Outcome

variable {accepts : Image.Validator} {fs : Files} {chain : Given} {output config : Option Given} {path : Text}
  {s : Spec} {bs : Bytes}

/-- Whatever is wrong with a settings file is reported. -/
theorem not_escapes_settings : ¬ Escapes (settings fs config) := by
  cases config with
  | none => exact not_escapes_ok
  | some config =>
    unfold settings
    rw [escapes_reporting_fault_iff fun _ => rfl]
    rintro ⟨f, hf, hfamily⟩
    have hpath : Throws Fault.IsOfSettings config.path := by
      intro f h
      cases config <;> cases h
      exact List.mem_of_elem_eq_true rfl
    exact hfamily (throws_bind hpath (fun _ _ => Settings.throws_ofFile) f hf)

/-! ## Invocations from which a fault escapes -/

/-- The file for the output, if one is asked for, can be placed. -/
def Writable (fs : Files) : Option Given → Prop
  | none => True
  | some (.text path) => (fs.place path []).fault? = none
  | some .nothing => False

/-- Why a fault escapes from building a specification. -/
inductive BuildLeaks (accepts : Image.Validator) (fs : Files) (chain : Given) (output config : Option Given) :
    Prop
  /-- The option for the chain has no text. -/
  | chain {settings : Settings} (hsettings : Outcome.settings fs config = .ok settings)
      (hchain : chain = .nothing)
  /-- The first step of the preset that does not succeed lets a fault escape. -/
  | preset {settings : Settings} {id : Text} {p : Preset}
      (hsettings : Outcome.settings fs config = .ok settings) (hchain : chain = .text id)
      (hp : Preset.ofId? id = some p)
      (hstops : StopsInLeak (p.steps { files := fs, settings, accepts }))
  /-- The specification has no written form. -/
  | document {settings : Settings} {id : Text} {s : Spec}
      (hsettings : Outcome.settings fs config = .ok settings) (hchain : chain = .text id)
      (hs : Spec.load { files := fs, settings, accepts } id = .ok s) (hdocument : s.Unprintable)
  /-- The digest that is shown with a written file does not exist. -/
  | digest {settings : Settings} {id : Text} {s : Spec}
      (hsettings : Outcome.settings fs config = .ok settings) (hchain : chain = .text id)
      (hs : Spec.load { files := fs, settings, accepts } id = .ok s) (houtput : output.isSome)
      (hdigest : s.Oversized)

/-- Why a fault escapes from checking a snapshot. -/
inductive CheckLeaks (accepts : Image.Validator) (fs : Files) (chain : Given) (config : Option Given) : Prop
  /-- The option for the chain has no text. -/
  | chain {settings : Settings} (hsettings : Outcome.settings fs config = .ok settings)
      (hchain : chain = .nothing)
  /-- The chain has a snapshot, and the directory of the tables is no text. -/
  | directory {settings : Settings} {id : Text}
      (hsettings : Outcome.settings fs config = .ok settings) (hchain : chain = .text id)
      (hsnapshot : ((Preset.ofId? id).bind Preset.snapshotTable?).isSome)
      (hdirectory : ∀ d, settings.tableDirectory ≠ .text d)
  /-- Half of a pair is in the snapshot. -/
  | half {settings : Settings} {id : Text} {bs : Bytes}
      (hsettings : Outcome.settings fs config = .ok settings) (hchain : chain = .text id)
      (hbs : Spec.snapshotBytes { files := fs, settings, accepts } id = .ok bs) (hhalf : Spec.HoldsHalf bs)

/-! ## Endings -/

theorem status?_le_one_iff {ending : Ending} :
    (∃ n ≤ 1, ending.status? = some n) ↔ ¬ ∃ f, ending = .aborted f := by
  cases ending <;> simp [Ending.status?]

theorem ofError_eq_aborted_iff {e : Error} {f : Fault} : Ending.ofError e = .aborted f ↔ e = .fault f := by
  cases e <;> simp [Ending.ofError]

theorem id_ne_ok_iff : (∀ id, chain.id ≠ .ok id) ↔ chain = .nothing := by
  cases chain <;> simp [Given.id]

theorem id_eq_ok_iff {id : Text} : chain.id = .ok id ↔ chain = .text id := by
  cases chain <;> simp [Given.id]

theorem escapes_specWithBytes_iff : Escapes (specWithBytes accepts fs chain config) ↔
    ∃ settings, Outcome.settings fs config = .ok settings ∧ (chain = .nothing ∨ ∃ id, chain = .text id ∧
      (Escapes (Spec.load { files := fs, settings, accepts } id) ∨
        ∃ s, Spec.load { files := fs, settings, accepts } id = .ok s ∧ ∀ bs, s.toBytes ≠ .ok bs)) := by
  unfold specWithBytes
  rw [escapes_bind_iff, or_iff_right not_escapes_settings]
  simp only [escapes_bind_iff, id_ne_ok_iff, liftFault_eq_ok_iff, id_eq_ok_iff, not_escapes_pure,
    escapes_liftFault_iff, and_false, exists_false, or_false]

theorem escapes_checkedSnapshot_iff : Escapes (checkedSnapshot accepts fs chain config) ↔
    ∃ settings, Outcome.settings fs config = .ok settings ∧ (chain = .nothing ∨ ∃ id, chain = .text id ∧
      (Escapes (Spec.snapshotBytes { files := fs, settings, accepts } id) ∨
        ∃ bs, Spec.snapshotBytes { files := fs, settings, accepts } id = .ok bs ∧ Spec.HoldsHalf bs)) := by
  unfold checkedSnapshot
  rw [escapes_bind_iff, or_iff_right not_escapes_settings]
  simp only [escapes_bind_iff, id_ne_ok_iff, liftFault_eq_ok_iff, id_eq_ok_iff, not_escapes_pure,
    escapes_liftFault_iff, Spec.escapes_isByteStable_iff, and_false, exists_false, or_false]

/-- Once the file is placed, nothing else is written or taken away. -/
theorem build_placed (houtput : Writable fs (some (.text path)))
    (hs : specWithBytes accepts fs chain config = .ok (s, bs)) :
    ofBuildSpec accepts fs chain (some (.text path)) config =
      written s (announcement config) path (fs.place path bs).files := by
  have hplace := (Files.fault?_place_eq_none_congr fs path bs []).mpr houtput
  simp only [ofBuildSpec, hs, placing, Given.path, hplace]

theorem build_aborted_iff (houtput : Writable fs output) :
    (∃ f, (ofBuildSpec accepts fs chain output config).ending = .aborted f) ↔
      Escapes (specWithBytes accepts fs chain config) ∨
        ∃ s bs, specWithBytes accepts fs chain config = .ok (s, bs) ∧ output.isSome ∧
          ∀ hash, s.genesisHash ≠ .ok hash := by
  cases hs : specWithBytes accepts fs chain config with
  | error e =>
    rw [build_error hs]
    simp [ofError_eq_aborted_iff, Escapes]
  | ok p =>
    obtain ⟨s, bs⟩ := p
    rw [or_iff_right not_escapes_ok]
    cases output with
    | none => simp [ofBuildSpec, hs]
    | some g =>
      cases g with
      | nothing => cases houtput
      | text path =>
        rw [build_placed houtput hs]
        unfold written
        cases hhash : s.genesisHash <;> simp [hhash]

theorem check_aborted_iff : (∃ f, (ofCheckFrozen accepts fs chain config).ending = .aborted f) ↔
    Escapes (checkedSnapshot accepts fs chain config) := by
  unfold ofCheckFrozen
  cases checkedSnapshot accepts fs chain config with
  | error e => simp [ofError_eq_aborted_iff, Escapes]
  | ok p =>
    obtain ⟨bs, stable⟩ := p
    cases stable <;> simp [Escapes]

theorem build_aborted_iff_leaks (houtput : Writable fs output) :
    (∃ f, (ofBuildSpec accepts fs chain output config).ending = .aborted f) ↔
      BuildLeaks accepts fs chain output config := by
  rw [build_aborted_iff houtput, escapes_specWithBytes_iff]
  constructor
  · rintro (⟨settings, hsettings, hchain | ⟨id, hchain, hload | ⟨s, hs, hbytes⟩⟩⟩ |
      ⟨s, bs, hs, hsome, hhash⟩)
    · exact .chain hsettings hchain
    · obtain ⟨p, hp, hstops⟩ := (Spec.escapes_load_iff rfl).mp hload
      exact .preset hsettings hchain hp hstops
    · exact .document hsettings hchain hs ((Spec.unprintable_iff_of_load hs).mpr hbytes)
    · obtain ⟨settings, hsettings, id, hid, hs, -⟩ := specWithBytes_eq_ok_iff.mp hs
      exact .digest hsettings (id_eq_ok_iff.mp hid) hs hsome ((Spec.oversized_iff_of_load hs).mpr hhash)
  · intro h
    cases h with
    | chain hsettings hchain => exact Or.inl ⟨_, hsettings, Or.inl hchain⟩
    | preset hsettings hchain hp hstops =>
      have hload := (Spec.escapes_load_iff rfl).mpr ⟨_, hp, hstops⟩
      exact Or.inl ⟨_, hsettings, Or.inr ⟨_, hchain, Or.inl hload⟩⟩
    | document hsettings hchain hs hdocument =>
      have hbytes := (Spec.unprintable_iff_of_load hs).mp hdocument
      exact Or.inl ⟨_, hsettings, Or.inr ⟨_, hchain, Or.inr ⟨_, hs, hbytes⟩⟩⟩
    | @digest settings id s hsettings hchain hs hsome hdigest =>
      have hhash := (Spec.oversized_iff_of_load hs).mp hdigest
      -- without a written form the run ends before the digest is asked for
      by_cases hbytes : ∃ bs, s.toBytes = .ok bs
      · obtain ⟨bs, hbytes⟩ := hbytes
        have hspec := specWithBytes_eq_ok_iff.mpr
          ⟨settings, hsettings, id, id_eq_ok_iff.mpr hchain, hs, hbytes⟩
        exact Or.inr ⟨s, bs, hspec, hsome, hhash⟩
      · exact Or.inl ⟨settings, hsettings, Or.inr ⟨id, hchain, Or.inr ⟨s, hs, not_exists.mp hbytes⟩⟩⟩

theorem check_aborted_iff_leaks : (∃ f, (ofCheckFrozen accepts fs chain config).ending = .aborted f) ↔
    CheckLeaks accepts fs chain config := by
  rw [check_aborted_iff, escapes_checkedSnapshot_iff]
  simp only [Spec.escapes_snapshotBytes_iff]
  constructor
  · rintro ⟨settings, hsettings, hchain | ⟨id, hchain, ⟨hsnapshot, hdirectory⟩ | ⟨bs, hbs, hhalf⟩⟩⟩
    · exact .chain hsettings hchain
    · exact .directory hsettings hchain hsnapshot hdirectory
    · exact .half hsettings hchain hbs hhalf
  · intro h
    cases h with
    | chain hsettings hchain => exact ⟨_, hsettings, Or.inl hchain⟩
    | directory hsettings hchain hsnapshot hdirectory =>
      exact ⟨_, hsettings, Or.inr ⟨_, hchain, Or.inl ⟨hsnapshot, hdirectory⟩⟩⟩
    | half hsettings hchain hbs hhalf =>
      exact ⟨_, hsettings, Or.inr ⟨_, hchain, Or.inr ⟨_, hbs, hhalf⟩⟩⟩

/-- Building a specification and checking a snapshot end with status 0 or 1 unless a fault escapes from them.
One escapes exactly where the option for the chain has no text, the first step of a preset that does not
succeed is not reported, the specification has no written form or no digest to show, or a snapshot cannot be
looked for or written anew. -/
theorem status_zero_or_one_iff (accepts : Image.Validator) (fs : Files) (chain : Given)
    (output config : Option Given) (houtput : Writable fs output) :
    ((∃ n ≤ 1, (ofBuildSpec accepts fs chain output config).ending.status? = some n) ↔
      ¬ BuildLeaks accepts fs chain output config) ∧
    ((∃ n ≤ 1, (ofCheckFrozen accepts fs chain config).ending.status? = some n) ↔
      ¬ CheckLeaks accepts fs chain config) := by
  rw [status?_le_one_iff, status?_le_one_iff, build_aborted_iff_leaks houtput, check_aborted_iff_leaks]
  exact ⟨Iff.rfl, Iff.rfl⟩

/-- With complete tables no fault escapes, from a build or from a check of a chain that has no snapshot. -/
theorem halfRate_status : Writable halfRateFiles (some (.text "f.json")) ∧
    ¬ BuildLeaks Wasm.isModule halfRateFiles (.text "new-mainnet") (some (.text "f.json"))
      (some (.text "b.json")) ∧
    ¬ CheckLeaks Wasm.isModule halfRateFiles (.text "new-mainnet") (some (.text "b.json")) := by
  have houtput : Writable halfRateFiles (some (.text "f.json")) := by
    show (halfRateFiles.place "f.json" []).fault? = none
    decide +kernel
  have hsettings : settings halfRateFiles (some (.text "b.json")) = .ok halfRateSettings := by
    decide +kernel
  obtain ⟨s, hload, hdouble⟩ := halfRate_load
  obtain ⟨hash, bs, hhash, hbytes, -⟩ := exists_of_writesDouble hdouble
  have hspec : specWithBytes Wasm.isModule halfRateFiles (.text "new-mainnet") (some (.text "b.json")) =
      .ok (s, bs) := specWithBytes_eq_ok_iff.mpr ⟨_, hsettings, _, rfl, hload, hbytes⟩
  have hplace := (Files.fault?_place_eq_none_congr halfRateFiles "f.json" bs []).mpr houtput
  have hdone := build_completed hspec hhash hplace
  have hcheck : (ofCheckFrozen Wasm.isModule halfRateFiles (.text "new-mainnet")
      (some (.text "b.json"))).ending.status? = some 1 := by decide +kernel
  obtain ⟨hbuilds, hchecks⟩ := status_zero_or_one_iff Wasm.isModule halfRateFiles (.text "new-mainnet")
    (some (.text "f.json")) (some (.text "b.json")) houtput
  exact ⟨houtput, hbuilds.mp ⟨0, Nat.zero_le 1, hdone⟩, hchecks.mp ⟨1, le_rfl, hcheck⟩⟩

/-- A table of assets whose one entry is empty, and a table of no authorities. -/
def emptyAssetFiles : Files where
  contents := [
    ([Utf8.encode "c.wasm".toList], Wasm.header),
    fileOf "b.json" ("\x7b\"runtime\":\x7b\"chainx\":\"c.wasm\"\x7d,".toList ++
      "\"resources\":\x7b\"res_dir\":\"\"\x7d\x7d".toList),
    fileOf "authorities_mainnet.json" "\x7b\"version\":1,\"authorities\":[]\x7d".toList,
    fileOf "genesis_assets.json" "\x7b\"version\":1,\"assets\":[\x7b\x7d]\x7d".toList]
  directories := []

/-- What the entry lacks is not reported, and building from the tables has no status. -/
theorem emptyAsset_no_status : Writable emptyAssetFiles none ∧
    (ofBuildSpec Wasm.isModule emptyAssetFiles (.text "new-mainnet") none
      (some (.text "b.json"))).ending = .aborted (.missingKey "id") ∧
    (ofBuildSpec Wasm.isModule emptyAssetFiles (.text "new-mainnet") none
      (some (.text "b.json"))).ending.status? = none := by
  have hending : (ofBuildSpec Wasm.isModule emptyAssetFiles (.text "new-mainnet") none
      (some (.text "b.json"))).ending = .aborted (.missingKey "id") := by decide +kernel
  refine ⟨trivial, hending, ?_⟩
  rw [hending]
  rfl

end CommandLine.Outcome

end LedgerGenesis
