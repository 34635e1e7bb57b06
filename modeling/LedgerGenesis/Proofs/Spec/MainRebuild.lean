import LedgerGenesis.Proofs.Concurrence
import LedgerGenesis.Proofs.Spec.VerifiedAnchor
import LedgerGenesis.Proofs.Spec.Leaks

/-! # What the rebuilt main network depends on

The profile decides which tables, which section of a table and which image are read. For the main network
these are none of those that only the test networks use, and there is no administrator whose key could be
looked up.
-/
namespace LedgerGenesis

namespace Sources

/-- The authorities of the main network. -/
def mainAuthorities : Text := "authorities_mainnet.json"

/-- The tables that the main network takes as a whole. -/
def mainTables : List Text :=
  [mainAuthorities, mainnetTrustees, Table.defaultAssets, Table.defaultBuilderParams,
    Profile.main.parameters.anchorTable]

/-- The members of the technical committee of a network, as its table gives them. -/
def committeeSection (src : Sources) (network : Network) : Except Error Json := do
  (← src.table technicalCommittee).sectionAt network.name

/-- Two runs find the same inputs of the main network, or fail to for reasons of one class. -/
structure AgreeOnMain (src src' : Sources) : Prop where
  tables : ∀ name ∈ mainTables, Concur (src.snapshotBytes name) (src'.snapshotBytes name)
  committee : Concur (src.committeeSection .mainnet) (src'.committeeSection .mainnet)
  image : Concur (src.image Profile.main.parameters) (src'.image Profile.main.parameters)
  telemetry : src.settings.telemetry .mainnet = src'.settings.telemetry .mainnet
  verify : src.verify = src'.verify

variable {src src' : Sources} {name : Text}

theorem AgreeOnMain.refl (src : Sources) : src.AgreeOnMain src where
  tables _ _ := .refl _
  committee := .refl _
  image := .refl _
  telemetry := rfl
  verify := rfl

theorem AgreeOnMain.trans {src'' : Sources} (h : src.AgreeOnMain src') (h' : src'.AgreeOnMain src'') :
    src.AgreeOnMain src'' where
  tables name hname := (h.tables name hname).trans (h'.tables name hname)
  committee := h.committee.trans h'.committee
  image := h.image.trans h'.image
  telemetry := h.telemetry.trans h'.telemetry
  verify := h.verify.trans h'.verify

/-- No key is looked up for a network without an administrator. -/
theorem adminKey_main : src.adminKey Profile.main.parameters = .ok none := rfl

namespace AgreeOnMain

variable (h : src.AgreeOnMain src')

include h

theorem table (hname : name ∈ mainTables) : Concur (src.table name) (src'.table name) :=
  (h.tables name hname).bind_same fun bs => liftM (Table.ofBytes name bs)

theorem authorities : Concur (src.authorities mainAuthorities) (src'.authorities mainAuthorities) :=
  (h.table (by decide)).bind_same Table.authorities

theorem assets : Concur src.assets src'.assets := (h.table (by decide)).bind_same Table.assets

theorem trusteeSets : Concur (src.trusteeSets mainnetTrustees) (src'.trusteeSets mainnetTrustees) :=
  (h.table (by decide)).bind_same Table.trusteeSets

theorem builderParams : Concur src.builderParams src'.builderParams :=
  (h.table (by decide)).bind_same fun t => liftM t.builderParams

theorem anchor : Concur (src.anchor Profile.main.parameters) (src'.anchor Profile.main.parameters) := by
  unfold Sources.anchor
  rw [h.verify]
  exact (h.table (by decide)).bind_same fun t => t.verifiedAnchor Profile.main.parameters src'.verify

/-- Of the committee's table only one section is taken. -/
theorem technicalMembers :
    Concur (src.technicalMembers Profile.main.parameters) (src'.technicalMembers Profile.main.parameters) := by
  have hmembers : ∀ s : Sources, s.technicalMembers Profile.main.parameters = (do
      let items ← (← s.committeeSection .mainnet).elements
      items.mapM fun v => v.toBytes.mapError .fault) := by
    intro s
    simp only [Sources.technicalMembers, committeeSection, Table.accounts, Table.entries, bind_assoc]
    rfl
  rw [hmembers, hmembers]
  exact h.committee.bind_same _

theorem published : Concur (src.published .main mainAuthorities) (src'.published .main mainAuthorities) := by
  unfold Sources.published
  dsimp only
  rw [adminKey_main, adminKey_main]
  refine (Concur.refl _).bind fun key => ?_
  refine h.image.bind fun code => ?_
  refine h.authorities.bind fun authorities => ?_
  refine h.assets.bind fun assets => ?_
  refine (Concur.refl _).bind fun endowment => ?_
  refine h.trusteeSets.bind fun sets => ?_
  refine h.anchor.bind fun anchor => ?_
  refine h.technicalMembers.bind fun members => ?_
  exact h.builderParams.bind_same _

theorem metadata : Preset.mainnetMetadata src.settings = Preset.mainnetMetadata src'.settings := by
  have htelemetry : src.settings.telemetry Profile.main.parameters.network =
      src'.settings.telemetry Profile.main.parameters.network := h.telemetry
  unfold Preset.mainnetMetadata Settings.metadata
  simp only [htelemetry]

theorem build : Concur (Preset.newMainnet.build src) (Preset.newMainnet.build src') := by
  have hrebuilt : ∀ m, Concur (src.rebuilt .main mainAuthorities m)
      (src'.rebuilt .main mainAuthorities m) := by
    intro m
    rw [rebuilt_eq, rebuilt_eq]
    exact h.published.bind_same _
  show Concur (liftM (Preset.mainnetMetadata src.settings) >>= src.rebuilt .main mainAuthorities)
    (liftM (Preset.mainnetMetadata src'.settings) >>= src'.rebuilt .main mainAuthorities)
  rw [h.metadata]
  exact (Concur.refl _).bind hrebuilt

end AgreeOnMain

end Sources

/-! ## Files that are not read -/

namespace Table

variable {fs fs' : Files} {directory : Json} {name : Text}

theorem readBytes_congr
    (h : ∀ p, path directory name = .ok p → ∀ bs, fs.read p = .ok bs ↔ fs'.read p = .ok bs) :
    readBytes fs directory name = readBytes fs' directory name := by
  unfold readBytes
  cases hp : path directory name with
  | error f => rfl
  | ok p =>
    have hsame := h p hp
    have hfile : fs.isFile p = fs'.isFile p := by
      rw [Bool.eq_iff_iff, Files.isFile_iff, Files.isFile_iff]
      exact exists_congr hsame
    show (if fs.isFile p then _ else _) = if fs'.isFile p then _ else _
    rw [hfile]
    split
    next hread =>
      obtain ⟨bs, hbs⟩ := Files.isFile_iff.mp hread
      rw [hbs, (hsame bs).mpr hbs]
    next => rfl

end Table

theorem Image.readAccepted_congr {accepts : Validator} {fs fs' : Files} {paths : ImagePaths} {runtime : Text}
    (h : ∀ p, Json.lookup runtime paths = some (.text p) →
      ∀ bs, fs.read p = .ok bs ↔ fs'.read p = .ok bs) :
    readAccepted accepts fs paths runtime = readAccepted accepts fs' paths runtime := by
  have hfile : readFile fs ((Json.lookup runtime paths).getD .null) =
      readFile fs' ((Json.lookup runtime paths).getD .null) := by
    cases hpath : Json.lookup runtime paths with
    | none => rfl
    | some v =>
      cases v with
      | text p => exact congrArg Except.ok (toOption_congr (h p hpath))
      | _ => rfl
  unfold readAccepted
  simp only [hfile]

namespace Sources

variable {src : Sources} {l k : Location}

/-- The file of a table is not at the location. -/
def TableOff (src : Sources) (l : Location) (name : Text) : Prop :=
  ∀ p, Table.path src.settings.tableDirectory name = .ok p → src.files.locate p ≠ .ok l

/-- Nothing that the main network takes as a whole is at the location. -/
structure OffMain (src : Sources) (l : Location) : Prop where
  tables : ∀ name ∈ mainTables, src.TableOff l name
  image : ∀ p, src.settings.chainxImage = .text p → src.files.locate p ≠ .ok l

def withContent (src : Sources) (l : Location) (bs : Bytes) : Sources :=
  { src with files := src.files.setContent l bs }

theorem TableOff.snapshotBytes_withContent {name : Text} (h : src.TableOff l name) (bs : Bytes) :
    src.snapshotBytes name = (src.withContent l bs).snapshotBytes name := by
  refine Table.readBytes_congr fun p hp cs => ?_
  exact (Files.read_setContent_of_ne (h p hp)).symm

/-- Whatever is put at such a location, the main network finds the same inputs, if they find the same section
of the committee's table. -/
theorem OffMain.agreeOnMain (h : src.OffMain l) (bs : Bytes)
    (hcommittee : Concur (src.committeeSection .mainnet) ((src.withContent l bs).committeeSection .mainnet)) :
    src.AgreeOnMain (src.withContent l bs) where
  tables name hname := .of_eq ((h.tables name hname).snapshotBytes_withContent bs)
  committee := hcommittee
  image := by
    refine .of_eq (Image.readAccepted_congr fun p hp cs => ?_)
    have hpath : src.settings.chainxImage = .text p := Option.some.inj hp
    exact (Files.read_setContent_of_ne (h.image p hpath)).symm
  telemetry := rfl
  verify := rfl

theorem TableOff.committeeSection_withContent (h : src.TableOff l technicalCommittee) (bs : Bytes)
    {n : Network} : src.committeeSection n = (src.withContent l bs).committeeSection n := by
  have htable : src.table technicalCommittee = (src.withContent l bs).table technicalCommittee :=
    congrArg (· >>= fun bs => liftM (Table.ofBytes technicalCommittee bs)) (h.snapshotBytes_withContent bs)
  unfold committeeSection
  rw [htable]

theorem TableOff.withContent {name : Text} (h : src.TableOff l name) (bs : Bytes) :
    (src.withContent k bs).TableOff l name := by
  intro p hp hlocate
  exact h p hp (Files.locate_setContent_eq_ok_iff.mp hlocate)

theorem OffMain.withContent (h : src.OffMain l) (bs : Bytes) : (src.withContent k bs).OffMain l where
  tables name hname := (h.tables name hname).withContent bs
  image p hp := by
    have hne := h.image p hp
    intro hlocate
    exact hne (Files.locate_setContent_eq_ok_iff.mp hlocate)

/-- Any number of files may be put where no input of the main network is. -/
theorem agreeOnMain_withContents (contents : List (Location × Bytes))
    (h : ∀ f ∈ contents, src.OffMain f.1 ∧ src.TableOff f.1 technicalCommittee) :
    src.AgreeOnMain (contents.foldl (fun s f => s.withContent f.1 f.2) src) := by
  induction contents generalizing src with
  | nil => exact .refl src
  | cons f contents ih =>
    rw [List.forall_mem_cons] at h
    obtain ⟨⟨hoff, hcommittee⟩, hrest⟩ := h
    have hfirst := hoff.agreeOnMain f.2 (.of_eq (hcommittee.committeeSection_withContent f.2))
    refine hfirst.trans (ih fun g hg => ?_)
    obtain ⟨hoff, hcommittee⟩ := hrest g hg
    exact ⟨hoff.withContent f.2, hcommittee.withContent f.2⟩

/-- The images of the test networks and their telemetry are not looked at. -/
theorem agreeOnMain_settings (devImage malanImage testnetTelemetry : Json) : src.AgreeOnMain
    { src with settings := { src.settings with devImage, malanImage, testnetTelemetry } } where
  tables _ _ := .refl _
  committee := .refl _
  image := .refl _
  telemetry := rfl
  verify := rfl

end Sources

/-! ## The key of an administrator -/

theorem State.at?_sudo {s : State} {doc : Json} (h : s.toJson = .ok doc) (hkey : s.adminKey = none) :
    doc.at? ["sudo"] = none := by
  rw [document_sudo h, hkey]
  rfl

/-- Inputs with a key are refused where the profile has no administrator. -/
theorem Inputs.Yields.adminKey_eq_none {i : Inputs} {s : State} (h : i.Yields s)
    (hp : s.profile.parameters.hasAdminKey = false) : s.adminKey = none := by
  have hcheck := h.adminKey_checked
  rw [h.adminKey]
  cases hkey : i.governance.adminKey with
  | none => rfl
  | some key =>
    unfold checkAdminKey at hcheck
    rw [hkey, hp] at hcheck
    cases hcheck

namespace Spec

variable {src src' : Sources} {s : Spec}

/-- There is no administrator in the state, and no section for one in the document. -/
structure HasNoAdministrator (s : Spec) : Prop where
  state : ∃ state, s.genesis = .assembled state ∧ state.adminKey = none
  document : ∀ doc, s.toJson = .ok doc → doc.at? ["genesis", "runtime", "sudo"] = none

theorem hasNoAdministrator_of_makes {profile : Profile} (h : src.Makes profile s)
    (hp : profile.parameters.hasAdminKey = false) : s.HasNoAdministrator := by
  obtain ⟨hfeeds, hassemble, -, -, rfl⟩ := h
  have hyields := Inputs.assemble_eq_ok_iff.mp hassemble
  have hprofile := hyields.profile
  rw [Profile.ofJson_eq_ok_iff.mpr hfeeds.profile] at hprofile
  cases hprofile
  have hkey := hyields.adminKey_eq_none hp
  refine ⟨⟨_, rfl, hkey⟩, fun doc hdoc => ?_⟩
  obtain ⟨v, hv, rfl⟩ := toJson_ofState_eq_ok_iff.mp hdoc
  rw [at?_runtime]
  exact State.at?_sudo hv hkey

/-- Two runs that agree on the inputs of the main network make it anew alike: they give the same specification
and the same bytes, or fail with errors of one class. Keys of administrators, tables of the test networks,
sections of other networks and images of other runtimes have no part in it, and what is made has no
administrator. -/
theorem newMainnet_concur (src src' : Sources) (h : src.AgreeOnMain src') :
    Concur (Preset.newMainnet.build src) (Preset.newMainnet.build src') ∧
    Concur (do (← Preset.newMainnet.build src).toBytes)
      (do (← Preset.newMainnet.build src').toBytes) ∧
    ∀ s, Preset.newMainnet.build src = .ok s → s.HasNoAdministrator := by
  refine ⟨h.build, h.build.bind_same fun s => liftM s.toBytes, fun s hs => ?_⟩
  exact hasNoAdministrator_of_makes (Sources.makes_of_build .main rfl hs) rfl

open CommandLine.Outcome (fileOf halfRateFiles halfRateSources halfRate_load)

theorem halfRateSources_off {l : Location} {name : Text}
    (h : halfRateFiles.locate (Path.join [] name) ≠ .ok l) : halfRateSources.TableOff l name := by
  intro p hp
  cases hp
  exact h

theorem halfRateSources_offMain {l : Location}
    (htables : ∀ name ∈ Sources.mainTables, halfRateFiles.locate (Path.join [] name) ≠ .ok l)
    (himage : halfRateFiles.locate "c.wasm" ≠ .ok l) : halfRateSources.OffMain l where
  tables name hname := halfRateSources_off (htables name hname)
  image p hp := by
    cases hp
    exact himage

/-- Malformed files for the test networks and the keys of administrators, one of them for the main network. -/
def noise : List (Location × Bytes) :=
  [fileOf "admin_keys.json" "\x7b\"version\":1,\"admin_keys\":\x7b\"mainnet\":\"0x00\"\x7d\x7d".toList,
    fileOf "trustees_testnet.json" "[".toList, fileOf "authorities_malan.json" [],
    fileOf "btc_genesis_params_testnet.json" "0".toList, fileOf "d.wasm" []]

/-- The section of the test network is malformed in the table of the committee. -/
def otherCommittee : Location × Bytes :=
  fileOf "technical_committee.json" "\x7b\"version\":1,\"testnet\":0,\"mainnet\":[]\x7d".toList

/-- Nothing that the main network does not read is as it should be. -/
def noisySources : Sources :=
  let src := noise.foldl (fun s f => s.withContent f.1 f.2)
    (halfRateSources.withContent otherCommittee.1 otherCommittee.2)
  { src with settings := { src.settings with
      devImage := .list [], malanImage := .text "d.wasm", testnetTelemetry := .null } }

theorem noisySources_agreeOnMain : halfRateSources.AgreeOnMain noisySources := by
  have hoff : ∀ f ∈ otherCommittee :: noise,
      (∀ name ∈ Sources.mainTables, halfRateFiles.locate (Path.join [] name) ≠ .ok f.1) ∧
        halfRateFiles.locate "c.wasm" ≠ .ok f.1 := by decide +kernel
  have hcommittee : ∀ f ∈ noise,
      halfRateFiles.locate (Path.join [] Sources.technicalCommittee) ≠ .ok f.1 := by decide +kernel
  have hsection : halfRateSources.committeeSection .mainnet =
      (halfRateSources.withContent otherCommittee.1 otherCommittee.2).committeeSection .mainnet := by
    decide +kernel
  have hmain : ∀ f ∈ otherCommittee :: noise, halfRateSources.OffMain f.1 := fun f hf =>
    halfRateSources_offMain (hoff f hf).1 (hoff f hf).2
  have hfirst := (hmain _ List.mem_cons_self).agreeOnMain otherCommittee.2 (.of_eq hsection)
  have hnoise : ∀ f ∈ noise,
      (halfRateSources.withContent otherCommittee.1 otherCommittee.2).OffMain f.1 ∧
        (halfRateSources.withContent otherCommittee.1 otherCommittee.2).TableOff f.1
          Sources.technicalCommittee := by
    intro f hf
    have hmain := hmain f (List.mem_cons_of_mem _ hf)
    exact ⟨hmain.withContent _, (halfRateSources_off (hcommittee f hf)).withContent _⟩
  have hfiles := hfirst.trans (Sources.agreeOnMain_withContents noise hnoise)
  exact hfiles.trans (Sources.agreeOnMain_settings _ _ _)

/-- The specification is the one that is made without all this. -/
theorem noisySources_concur : ∃ s, s.HasNoAdministrator ∧
    Preset.newMainnet.build halfRateSources = .ok s ∧ Preset.newMainnet.build noisySources = .ok s := by
  obtain ⟨s, hload, -⟩ := halfRate_load
  have hs : Preset.newMainnet.build halfRateSources = .ok s := hload
  obtain ⟨hbuild, -, hnone⟩ := newMainnet_concur halfRateSources noisySources noisySources_agreeOnMain
  exact ⟨s, hnone s hs, hs, hbuild.ok_iff.mp hs⟩

end Spec

end LedgerGenesis
