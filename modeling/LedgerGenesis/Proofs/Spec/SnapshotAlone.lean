import LedgerGenesis.Image.Module
import LedgerGenesis.Proofs.Spec.Leaks

/-! # Snapshots decide their specifications

Metadata are only compared with a snapshot by name and id. What else settings say of a public network, its
endpoints, its images, does not reach the specification that its snapshot denotes.
-/
namespace LedgerGenesis

namespace Spec

variable {s : Spec} {d : Document} {m m' : Metadata} {bs : Bytes}

/-- The document has the name and the id of the metadata. -/
structure Metadata.Names (m : Metadata) (d : Document) : Prop where
  name : ∃ v, Json.lookup "name" d = some v ∧ v.equal m.name = true
  id : ∃ v, Json.lookup "id" d = some v ∧ v.equal m.id = true

theorem Mirrors.names_iff (h : s.Mirrors d) :
    m.Names d ↔ s.metadata.name.equal m.name = true ∧ s.metadata.id.equal m.id = true := by
  constructor
  · rintro ⟨⟨name, hname, heq⟩, ⟨id, hid, heq'⟩⟩
    rw [h.name] at hname
    rw [h.id] at hid
    cases hname
    cases hid
    exact ⟨heq, heq'⟩
  · rintro ⟨hname, hid⟩
    exact ⟨⟨_, h.name, hname⟩, ⟨_, h.id, hid⟩⟩

theorem ofSnapshot_eq_ok_iff : ofSnapshot bs m = .ok s ↔
    ofBytes bs = .ok s ∧ s.metadata.name.equal m.name = true ∧ s.metadata.id.equal m.id = true := by
  unfold ofSnapshot
  rw [bind_eq_ok_iff]
  constructor
  · rintro ⟨r, hr, h⟩
    split at h
    next hnames =>
      cases h
      exact ⟨hr, (Bool.and_eq_true _ _).mp hnames⟩
    next => cases h
  · rintro ⟨hs, hname, hid⟩
    refine ⟨s, hs, ?_⟩
    rw [hname, hid]
    rfl

/-- A snapshot under metadata is the snapshot, if its document has their name and id. -/
theorem ofSnapshot_eq_ok_iff_names : ofSnapshot bs m = .ok s ↔
    ofBytes bs = .ok s ∧ ∃ d, Document.decode bs = .ok d ∧ m.Names d := by
  rw [ofSnapshot_eq_ok_iff]
  refine and_congr_right fun hs => ?_
  obtain ⟨d, hd, hdoc⟩ := ofBytes_eq_ok_iff.mp hs
  have hmirrors := mirrors_of_ofDocument hdoc
  rw [← hmirrors.names_iff]
  constructor
  · intro hnames
    exact ⟨d, hd, hnames⟩
  · rintro ⟨d', hd', hnames⟩
    rw [hd] at hd'
    cases hd'
    exact hnames

/-- Only the name and the id of the metadata are looked at. -/
theorem ofSnapshot_congr (hname : m.name = m'.name) (hid : m.id = m'.id) :
    ofSnapshot bs m = ofSnapshot bs m' := by
  unfold ofSnapshot
  rw [hname, hid]

theorem toBytes_of_isByteStable (hs : ofBytes bs = .ok s) (hstable : isByteStable bs = .ok true) :
    s.toBytes = .ok bs := by
  obtain ⟨d, hd, -, he⟩ := isByteStable_eq_true_iff.mp hstable
  obtain ⟨d', hd', hdoc⟩ := ofBytes_eq_ok_iff.mp hs
  rw [hd] at hd'
  cases hd'
  rw [toBytes_eq_of_ofDocument hdoc, he]

end Spec

/-! ## Presets that have a snapshot -/

theorem Settings.exists_metadata {settings : Settings} {profile : Profile}
    (h : (settings.addresses profile.parameters.network).HasItems) (name id protocolId : Json) :
    ∃ m, settings.metadata profile name id protocolId true = .ok m ∧ m.name = name ∧ m.id = id := by
  obtain ⟨m, hm⟩ := Sources.exists_metadata_iff.mpr h
  obtain ⟨telemetry, -, h⟩ := bind_eq_ok_iff.mp hm
  cases h
  exact ⟨_, hm, rfl, rfl⟩

namespace Preset

variable {profile : Profile} {p : Preset}

/-- Whatever the addresses are, metadata of one name and id are compared with the snapshot. -/
theorem build_eq_snapshot (hp : ofProfile profile true = .ok p) :
    ∃ table name id, p.snapshotTable? = some table ∧ ∀ src : Sources,
      (src.settings.addresses profile.parameters.network).HasItems →
        ∃ m : Spec.Metadata, m.name = name ∧ m.id = id ∧ p.build src = src.snapshot table m := by
  cases profile with
  | development | «local» => cases hp
  | publicTest =>
    cases hp
    refine ⟨malanSnapshot, .text "ChainX-Malan", .text "chainx-malan", rfl, fun src haddresses => ?_⟩
    obtain ⟨m, hm, hname, hid⟩ := Settings.exists_metadata haddresses (.text "ChainX-Malan")
      (.text "chainx-malan") (.text "pcx1")
    refine ⟨m, hname, hid, ?_⟩
    simp only [build, malanMetadata, hm]
    rfl
  | main =>
    cases hp
    refine ⟨mainnetSnapshot, .text "ChainX", .text "chainx", rfl, fun src haddresses => ?_⟩
    obtain ⟨m, hm, hname, hid⟩ := Settings.exists_metadata haddresses (.text "ChainX")
      (.text "chainx") (.text "pcx1")
    refine ⟨m, hname, hid, ?_⟩
    simp only [build, mainnetMetadata, hm]
    rfl

/-- Two runs that find the same snapshot, or none for the same reason, have the same result. -/
theorem build_congr {table : Text} {src src' : Sources} (hp : ofProfile profile true = .ok p)
    (htable : p.snapshotTable? = some table)
    (h : (src.settings.addresses profile.parameters.network).HasItems)
    (h' : (src'.settings.addresses profile.parameters.network).HasItems)
    (hbytes : src.snapshotBytes table = src'.snapshotBytes table) : p.build src = p.build src' := by
  obtain ⟨table', name, id, htable', hbuild⟩ := build_eq_snapshot hp
  rw [htable] at htable'
  cases htable'
  obtain ⟨m, hname, hid, hm⟩ := hbuild src h
  obtain ⟨m', hname', hid', hm'⟩ := hbuild src' h'
  have hsame : ∀ bs, Spec.ofSnapshot bs m = Spec.ofSnapshot bs m' := fun bs =>
    Spec.ofSnapshot_congr (hname.trans hname'.symm) (hid.trans hid'.symm)
  rw [hm, hm', Sources.snapshot, Sources.snapshot, hbytes]
  simp only [hsame]

end Preset

namespace Spec

/-- A snapshot under metadata is read as it is if its document has their name and id, and is refused
otherwise; metadata of the same name and id lead to the same result, and a byte-stable snapshot is written as
it was. So a frozen network depends on the bytes of its snapshot alone: settings that name other images, other
endpoints and another verbosity, and files that differ elsewhere, give the same specification or the same
error. -/
theorem snapshot_alone_decides :
    (∀ bs m s, ofSnapshot bs m = .ok s ↔
      ofBytes bs = .ok s ∧ ∃ d, Document.decode bs = .ok d ∧ m.Names d) ∧
    (∀ (bs : Bytes) (m m' : Metadata), m.name = m'.name → m.id = m'.id →
      ofSnapshot bs m = ofSnapshot bs m') ∧
    (∀ bs m s, ofSnapshot bs m = .ok s → isByteStable bs = .ok true → s.toBytes = .ok bs) ∧
    ∀ profile p table, Preset.ofProfile profile true = .ok p → p.snapshotTable? = some table →
      ∀ src src' : Sources, (src.settings.addresses profile.parameters.network).HasItems →
        (src'.settings.addresses profile.parameters.network).HasItems →
        src.snapshotBytes table = src'.snapshotBytes table → p.build src = p.build src' := by
  refine ⟨fun _ _ _ => ofSnapshot_eq_ok_iff_names, fun _ _ _ => ofSnapshot_congr, ?_, ?_⟩
  · intro bs m s hs hstable
    exact toBytes_of_isByteStable (ofBytes_of_ofSnapshot hs) hstable
  · intro profile p table hp htable src src' h h' hbytes
    exact Preset.build_congr hp htable h h' hbytes

/-- A snapshot of the test network in the written form. -/
def smallMalan : Bytes := Utf8.encode (
  "\x7b\n  \"formatVersion\": 1,\n  \"name\": \"ChainX-Malan\",\n".toList ++
  ("  \"id\": \"chainx-malan\",\n  \"chainType\": \"Live\",\n".toList ++
    "  \"genesis\": \x7b\n    \"raw\": null\n  \x7d\n\x7d\n".toList))

def bareMetadata : Metadata where
  name := .text "ChainX-Malan"
  id := .text "chainx-malan"
  chainType := .live

/-- The snapshot is the only file, and settings name neither an image nor an endpoint. -/
def bareSources : Sources where
  files := { contents := [([Utf8.encode "malan.json".toList], smallMalan)], directories := [] }
  settings := { tableDirectory := .text "", malanImage := .null, testnetTelemetry := .list [] }
  accepts := Wasm.isModule

/-- Beside the snapshot there are an image, which is no module, and a file with the id of the network. -/
def crowdedSources : Sources where
  files := {
    contents := [([Utf8.encode "malan".toList], []), ([Utf8.encode "m.wasm".toList], [0]),
      ([Utf8.encode "malan.json".toList], smallMalan)]
    directories := [] }
  settings := {
    tableDirectory := .text "", malanImage := .text "m.wasm"
    testnetTelemetry := .list [.text "wss://a", .text "wss://b"], verbosity := .int 3 }
  accepts := Wasm.isModule

/-- The snapshot is written byte for byte under either metadata, and both builds give one specification. -/
theorem smallMalan_alone_decides :
    (∃ s, ofSnapshot smallMalan bareMetadata = .ok s ∧ s.toBytes = .ok smallMalan ∧
      ofSnapshot smallMalan { bareMetadata with telemetry := [(.text "wss://a", .int 3)] } = .ok s) ∧
    (Preset.malan.build bareSources).isOk = true ∧
    Preset.malan.build bareSources = Preset.malan.build crowdedSources := by
  obtain ⟨-, hcongr, hwritten, hsame⟩ := snapshot_alone_decides
  have hread : (ofSnapshot smallMalan bareMetadata).map (fun _ => ()) = .ok () := by decide +kernel
  obtain ⟨s, hs, -⟩ := map_eq_ok_iff.mp hread
  have hstable : isByteStable smallMalan = .ok true := by decide +kernel
  have hbytes : bareSources.snapshotBytes Preset.malanSnapshot =
      crowdedSources.snapshotBytes Preset.malanSnapshot := by decide +kernel
  refine ⟨⟨s, hs, hwritten _ _ _ hs hstable, ?_⟩, by decide +kernel, ?_⟩
  · rw [← hs]
    exact hcongr _ _ _ rfl rfl
  · exact hsame .publicTest .malan Preset.malanSnapshot rfl rfl _ _ trivial trivial hbytes

end Spec

end LedgerGenesis
