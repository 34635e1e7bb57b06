import LedgerGenesis.Proofs.Spec.Acceptance
import LedgerGenesis.Proofs.Spec.Building
import LedgerGenesis.Proofs.Spec.Envelope

/-! # Reading what was written

What is written for a specification and read again is written as the same bytes. A specification that was
read is read again. One that was built is read again if its document is exact once labelled and the reader
takes its verbosities for integers; building it asks for neither.
-/
namespace LedgerGenesis

namespace Document

variable {d : Document} {v : Json} {bs : Bytes}

theorem encode_of_decode (he : encode v = .ok bs) (hd : decode bs = .ok d) :
    encode (.object d) = .ok bs := by
  obtain ⟨hx, hv⟩ := (decode_eq_ok_iff_of_encode he).mp hd
  obtain ⟨-, hutf8⟩ := encode_eq_ok_iff.mp he
  rw [hv]
  refine encode_eq_ok_iff.mpr ⟨Json.isShowable_of_exact hx, ?_⟩
  rw [Json.render_labelled]
  exact hutf8

end Document

namespace Json

variable {v : Json}

theorem toInt_labelled : v.labelled.toInt = v.toInt := by
  cases v <;> rfl

end Json

namespace Spec

variable {s r : Spec} {m : Metadata} {state : State} {data : Json} {bs : Bytes} {src : Sources}

/-- The document is exact once its mappings are labelled, and the reader takes the verbosities, unless
they were read before, for integers. -/
structure Rereadable (s : Spec) : Prop where
  exact : ∀ v, s.toJson = .ok v → v.labelled.Throughout Json.IsExact
  verbosity : s.source = none → ∀ e ∈ s.metadata.telemetry, ∃ n, e.2.toInt = .ok n

theorem toBytes_eq_ok_iff : s.toBytes = .ok bs ↔ ∃ v, s.toJson = .ok v ∧ Document.encode v = .ok bs :=
  bind_eq_ok_iff

/-- A document has a written form where its integers have numerals and its texts are well formed. -/
theorem exists_toBytes_iff_of_toJson {v : Json} (hv : s.toJson = .ok v) : (∃ bs, s.toBytes = .ok bs) ↔
    v.isShowable = true ∧ v.labelled.Throughout Json.IsWellFormed := by
  simp only [toBytes_eq_ok_iff, hv, Except.ok.injEq, exists_eq_left', Document.exists_encode_iff]

/-- What is written and read again is written as the same bytes. -/
theorem toBytes_of_reread (hbytes : s.toBytes = .ok bs) (hr : ofBytes bs = .ok r) :
    r.toBytes = .ok bs := by
  obtain ⟨v, -, he⟩ := toBytes_eq_ok_iff.mp hbytes
  obtain ⟨d, hd, hr⟩ := ofBytes_eq_ok_iff.mp hr
  rw [toBytes_eq_of_ofDocument hr]
  exact Document.encode_of_decode he hd

theorem isByteStable_of_reread (hbytes : s.toBytes = .ok bs) (hr : ofBytes bs = .ok r) :
    isByteStable bs = .ok true := by
  obtain ⟨d, hd, hdoc⟩ := ofBytes_eq_ok_iff.mp hr
  exact isByteStable_eq_true_iff.mpr ⟨d, hd, ⟨r, hdoc⟩,
    toBytes_eq_of_ofDocument hdoc ▸ toBytes_of_reread hbytes hr⟩

/-! ## Specifications that were read -/

theorem source_of_ofBytes (h : ofBytes bs = .ok s) :
    ∃ d, s.source = some d ∧ Document.decode bs = .ok d := by
  obtain ⟨d, hd, hs⟩ := ofBytes_eq_ok_iff.mp h
  exact ⟨d, ofDocument_source hs, hd⟩

theorem rereadable_of_ofBytes (h : ofBytes bs = .ok s) : s.Rereadable := by
  obtain ⟨d, hsource, hd⟩ := source_of_ofBytes h
  refine ⟨fun v hv => ?_, fun hnone => ?_⟩
  · rw [toJson, hsource] at hv
    cases hv
    have hx := Document.exact_of_decode hd
    rw [Json.labelled_of_exact hx]
    exact hx
  · rw [hsource] at hnone
    cases hnone

theorem reread_of_ofBytes {bs' : Bytes} (h : ofBytes bs = .ok s) (hbytes : s.toBytes = .ok bs') :
    ofBytes bs' = .ok s := by
  obtain ⟨d, hd, hs⟩ := ofBytes_eq_ok_iff.mp h
  rw [toBytes_eq_of_ofDocument hs] at hbytes
  have hp := Document.portable_of_decode_encode hd hbytes
  exact ofBytes_eq_ok_iff.mpr ⟨d, Document.decode_of_encode hp hbytes, hs⟩

/-! ## Specifications that were built -/

/-- The document of a specification as the grammar shows it. -/
def labelledDocument (m : Metadata) (data : Json) : Document :=
  (documentOf m (.object []) data).map fun f => (f.1, f.2.labelled)

theorem toJson_ofState_eq_ok_iff : (ofState state m).toJson = .ok data ↔ ∃ v, state.toJson = .ok v ∧
    data = .object (documentOf m (.object []) (.object [("runtime", v)])) := by
  cases hv : state.toJson with
  | error e =>
    have herror : (ofState state m).toJson = .error e := by
      show (state.toJson.map _ >>= _) = _
      rw [hv]
      rfl
    simp [herror]
  | ok v =>
    have hok : (ofState state m).toJson =
        .ok (.object (documentOf m (.object []) (.object [("runtime", v)]))) := by
      show (state.toJson.map _ >>= _) = _
      rw [hv]
      rfl
    simp [hok, eq_comm]

theorem isEndpoint_pair {a b : Json} : IsEndpoint (.list [a, b]) ↔ ∃ n, b.toInt = .ok n := by
  constructor
  · rintro ⟨_, _, n, he, hn⟩
    cases he
    exact ⟨n, hn⟩
  · rintro ⟨n, hn⟩
    exact ⟨a, b, n, rfl, hn⟩

theorem reads_telemetryJson : (m.telemetryJson.labelled.isTruthy = false ∨
    ∃ vs, m.telemetryJson.labelled.elements = .ok vs ∧ ∀ v ∈ vs, IsEndpoint v) ↔
      ∀ e ∈ m.telemetry, ∃ n, e.2.toInt = .ok n := by
  unfold Metadata.telemetryJson
  split
  next hempty => simp [List.isEmpty_iff.mp hempty, Json.labelled, Json.isTruthy]
  next hne =>
    have hpair : ∀ e : Json × Json, IsEndpoint (Json.list [e.1, e.2]).labelled ↔
        ∃ n, e.2.toInt = .ok n := by
      intro e
      rw [Json.labelled_list, List.map_cons, List.map_cons, List.map_nil, isEndpoint_pair,
        Json.toInt_labelled]
    rw [Json.labelled_list, List.map_map]
    simp only [Json.isTruthy, Json.elements, Except.ok.injEq, exists_eq_left', List.forall_mem_map,
      Function.comp_apply, hpair, List.isEmpty_map, hne, Bool.not_false, Bool.true_eq_false, false_or]

theorem keys_labelledDocument : Json.keys (labelledDocument m data) =
    Json.keys (documentOf m (.object []) data) := by
  rw [Json.keys, labelledDocument, List.map_map]
  rfl

theorem isSnapshot_labelledDocument {v : Json} (hnodes : m.bootNodes = []) :
    IsSnapshot (labelledDocument m (.object [("runtime", v)])) ↔
      ∀ e ∈ m.telemetry, ∃ n, e.2.toInt = .ok n := by
  rw [← reads_telemetryJson]
  constructor
  · exact fun h => h.telemetry
  · intro h
    have hlist : (Json.list m.bootNodes).labelled = .list [] := by
      rw [hnodes]
      rfl
    exact {
      required := by
        rw [keys_labelledDocument, keys_documentOf]
        decide
      version := rfl
      chainType := ⟨m.chainType, rfl⟩
      genesis := ⟨[("runtime", v.labelled)], rfl, Or.inr List.mem_cons_self⟩
      telemetry := h
      bootNodes := Or.inr ⟨[], hlist⟩ }

/-- A specification that was built without boot nodes is read again exactly where it is rereadable. -/
theorem exists_reread_iff_of_ofState (hnodes : m.bootNodes = [])
    (hbytes : (ofState state m).toBytes = .ok bs) :
    (∃ r, ofBytes bs = .ok r) ↔ (ofState state m).Rereadable := by
  obtain ⟨data, hdata, he⟩ := toBytes_eq_ok_iff.mp hbytes
  obtain ⟨v, -, rfl⟩ := toJson_ofState_eq_ok_iff.mp hdata
  -- what is read is the labelled document, whose fields the reader checks one by one
  have hdecode := fun d => Document.decode_eq_ok_iff_of_encode (d := d) he
  rw [Json.labelled_object] at hdecode
  rw [exists_ofBytes_iff]
  constructor
  · rintro ⟨d, hd, hshape⟩
    obtain ⟨hx, hd⟩ := (hdecode d).mp hd
    cases hd
    refine ⟨fun w hw => ?_, fun _ => (isSnapshot_labelledDocument hnodes).mp hshape⟩
    rw [hdata] at hw
    cases hw
    rwa [Json.labelled_object]
  · intro h
    have hx := h.exact _ hdata
    rw [Json.labelled_object] at hx
    exact ⟨_, (hdecode _).mpr ⟨hx, rfl⟩, (isSnapshot_labelledDocument hnodes).mpr (h.verbosity rfl)⟩

/-! ## Specifications that were asked for -/

theorem ofBytes_of_ofSnapshot (h : ofSnapshot bs m = .ok s) : ofBytes bs = .ok s := by
  obtain ⟨r, hr, h⟩ := bind_eq_ok_iff.mp h
  split at h
  next =>
    cases h
    exact hr
  next => cases h

/-- A specification that was asked for was read from a snapshot, or built without boot nodes. -/
inductive Origin (s : Spec) : Prop
  | read {bs : Bytes} (h : ofBytes bs = .ok s)
  | built {state : State} {m : Metadata} (hnodes : m.bootNodes = []) (h : s = ofState state m)

theorem exists_snapshot_of_build {p : Preset} {table : Text} (htable : p.snapshotTable? = some table)
    (h : p.build src = .ok s) : ∃ bs, src.snapshotBytes table = .ok bs ∧ ofBytes bs = .ok s := by
  cases p with
  | malan | mainnet =>
    cases htable
    obtain ⟨m, -, h⟩ := bind_eq_ok_iff.mp h
    obtain ⟨bs, hbs, h⟩ := bind_eq_ok_iff.mp h
    exact ⟨bs, hbs, ofBytes_of_ofSnapshot h⟩
  | _ => cases htable

theorem exists_makes_of_build {p : Preset} (htable : p.snapshotTable? = none) (h : p.build src = .ok s) :
    ∃ profile, src.Makes profile s := by
  cases p with
  | development => exact ⟨_, Sources.makes_of_build .development rfl h⟩
  | «local» => exact ⟨_, Sources.makes_of_build .local rfl h⟩
  | newMalan => exact ⟨_, Sources.makes_of_build .publicTest rfl h⟩
  | newMainnet => exact ⟨_, Sources.makes_of_build .main rfl h⟩
  | malan | mainnet => cases htable

/-- A preset reads a snapshot or makes a specification for a profile. -/
theorem read_or_made_of_build {p : Preset} (h : p.build src = .ok s) :
    (∃ bs, ofBytes bs = .ok s) ∨ ∃ profile, src.Makes profile s := by
  cases htable : p.snapshotTable? with
  | none => exact Or.inr (exists_makes_of_build htable h)
  | some table =>
    obtain ⟨bs, -, hs⟩ := exists_snapshot_of_build htable h
    exact Or.inl ⟨bs, hs⟩

theorem ofFile_eq_ok_iff {fs : Files} {path : Text} :
    ofFile fs path = .ok s ↔ ∃ bs, fs.read path = .ok bs ∧ ofBytes bs = .ok s := by
  unfold ofFile
  simp only [bind_eq_ok_iff, reporting_eq_ok_iff, mapError_eq_ok_iff]

theorem read_or_made_of_load {id : Text} (h : load src id = .ok s) :
    (∃ bs, ofBytes bs = .ok s) ∨ ∃ profile, src.Makes profile s := by
  unfold load at h
  split at h
  next => exact read_or_made_of_build h
  next =>
    split at h
    next =>
      obtain ⟨bs, -, hs⟩ := ofFile_eq_ok_iff.mp h
      exact Or.inl ⟨bs, hs⟩
    next => cases h

theorem origin_of_load {id : Text} (h : load src id = .ok s) : s.Origin := by
  rcases read_or_made_of_load h with ⟨bs, hs⟩ | ⟨profile, -, -, -, hnodes, hs⟩
  · exact .read hs
  · exact .built hnodes hs

/-- What is written for a specification that was asked for is read again exactly where it is rereadable. -/
theorem Origin.exists_reread_iff (h : s.Origin) (hbytes : s.toBytes = .ok bs) :
    (∃ r, ofBytes bs = .ok r) ↔ s.Rereadable := by
  cases h with
  | read h => exact iff_of_true ⟨s, reread_of_ofBytes h hbytes⟩ (rereadable_of_ofBytes h)
  | built hnodes h =>
    subst h
    exact exists_reread_iff_of_ofState hnodes hbytes

/-- Specifications that were read are rereadable. -/
theorem Origin.rereadable (h : s.Origin) {d : Document} (hs : s.source = some d) : s.Rereadable := by
  cases h with
  | read h => exact rereadable_of_ofBytes h
  | built _ h =>
    subst h
    cases hs

end Spec

end LedgerGenesis
