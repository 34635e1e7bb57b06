import LedgerGenesis.Proofs.Json.Path
import LedgerGenesis.Proofs.Spec.Codec
import LedgerGenesis.Proofs.Vocabulary

/-! # What is accepted as a document and as a snapshot

A document is the UTF-8 form of a text that denotes an exact object. A snapshot is a document of a certain
shape, and a specification that was read has the values of its document. Whatever the bytes, reading them
has no error but that of malformed snapshots. Writing a snapshot anew has one more: half of a pair that an
escape brought in has no bytes.
-/
namespace LedgerGenesis

/-- The error that every reader of documents and snapshots reports. -/
def Error.IsMalformed (e : Error) : Prop := ∃ g, e = .genesis g ∧ g.kind = .malformedSnapshot

theorem Error.isMalformed_of_lift {α : Type} {x : Except GenesisError α} {e : Error}
    (hx : ∀ g, x = .error g → g.kind = .malformedSnapshot)
    (h : (liftM x : Except Error α) = .error e) : e.IsMalformed := by
  obtain ⟨g, hg, rfl⟩ := liftGenesis_eq_error_iff.mp h
  exact ⟨g, rfl, hx g hg⟩

namespace Document

variable {d : Document} {bs : Bytes}

theorem refusal_kind (e : Json.ReadError) : (refusal e).kind = .malformedSnapshot := by
  cases e <;> rfl

theorem kind_of_decode_eq_error {e : GenesisError} (h : decode bs = .error e) :
    e.kind = .malformedSnapshot := by
  unfold decode at h
  split at h
  · cases h
    rfl
  · split at h
    · cases h
    · cases h
      rfl
    · cases h
      exact refusal_kind _

theorem decode_eq_ok_iff_denotes : decode bs = .ok d ↔ ∃ cs, bs = Utf8.encode cs ∧
    Json.Denotes cs (.object d) ∧ (Json.object d).Throughout Json.IsExact := by
  simp only [decode_eq_ok_iff, Json.read_strict_eq_ok_iff]

theorem exact_of_decode (h : decode bs = .ok d) : (Json.object d).Throughout Json.IsExact := by
  obtain ⟨cs, -, -, hx⟩ := decode_eq_ok_iff_denotes.mp h
  exact hx

/-- Bytes are a document if and only if they are the UTF-8 form of a text that denotes an object without
doubles, overlong integers and repeated keys, and it is that object. All others are malformed. -/
theorem decode_strict_grammar :
    (∀ bs d, decode bs = .ok d ↔ ∃ cs, bs = Utf8.encode cs ∧ Json.Denotes cs (.object d) ∧
      (Json.object d).Throughout Json.IsExact) ∧
    ∀ bs e, decode bs = .error e → e.kind = .malformedSnapshot :=
  ⟨fun _ _ => decode_eq_ok_iff_denotes, fun _ _ => kind_of_decode_eq_error⟩

/-- A key that an escape spells is still the same key. -/
theorem decode_repeated_key :
    decode (Utf8.encode "\x7b\"a\": 1, \"\\u0061\": 2\x7d".toList) = .error (.duplicateKey "a") ∧
      (GenesisError.duplicateKey "a").kind = .malformedSnapshot := by
  have h : decode (Utf8.encode "\x7b\"a\": 1, \"\\u0061\": 2\x7d".toList) =
      .error (.duplicateKey "a") := by decide +kernel
  exact ⟨h, decode_strict_grammar.2 _ _ h⟩

end Document

/-! ## Telemetry endpoints -/

namespace Json

variable {v a b : Json} {vs : List Json}

theorem exact_of_elements (hx : v.Throughout IsExact) (h : v.elements = .ok vs) :
    ∀ w ∈ vs, w.Throughout IsExact := by
  cases v with
  | list ws =>
    cases h
    exact (Throughout.list_iff.mp hx).2
  | object fields =>
    cases h
    exact List.forall_mem_map.mpr fun _ _ => Throughout.text_iff.mpr trivial
  | text t =>
    cases h
    exact List.forall_mem_map.mpr fun _ _ => Throughout.text_iff.mpr trivial
  | table rows => exact absurd (Throughout.table_iff.mp hx).1 id
  | null | bool | int | float => cases h

theorem elements_of_toPair (h : v.toPair = .ok (a, b)) : v.elements = .ok [a, b] := by
  unfold toPair at h
  split at h
  next he =>
    cases h
    exact he
  next => cases h
  next => cases h

theorem family_of_elements {f : Fault} (h : v.elements = .error f) : f.family = .shape := by
  cases v <;> cases h
  all_goals rfl

theorem family_of_toPair {f : Fault} (h : v.toPair = .error f) :
    f.family = .shape ∨ f.family = .content := by
  unfold toPair at h
  split at h
  next => cases h
  next =>
    cases h
    exact Or.inr rfl
  next he =>
    cases h
    exact Or.inl (family_of_elements he)

theorem family_of_toInt {f : Fault} (hx : v.Throughout IsExact) (h : v.toInt = .error f) :
    f.family = .shape ∨ f.family = .content := by
  cases v with
  | float x => exact absurd (Throughout.float_iff.mp hx) id
  | text t =>
    rw [toInt] at h
    split at h
    next => cases h
    next =>
      cases h
      exact Or.inr rfl
  | int | bool => cases h
  | null | list | object | table =>
    cases h
    exact Or.inl rfl

end Json

namespace Spec

variable {s : Spec} {d : Document} {v : Json} {bs : Bytes} {e : Error} {key : Text}

/-- An endpoint is a pair of an address and what an integer is read from. -/
def IsEndpoint (v : Json) : Prop :=
  ∃ address verbosity n, v.elements = .ok [address, verbosity] ∧ verbosity.toInt = .ok n

theorem exists_readEndpoint_iff : (∃ p, readEndpoint v = .ok p) ↔ IsEndpoint v := by
  unfold readEndpoint
  simp only [bind_eq_ok_iff, pure_eq_ok_iff]
  constructor
  · rintro ⟨p, ⟨address, verbosity⟩, hpair, n, hn, -⟩
    exact ⟨address, verbosity, n, Json.elements_of_toPair hpair, hn⟩
  · rintro ⟨address, verbosity, n, he, hn⟩
    exact ⟨_, (address, verbosity), by rw [Json.toPair, he], n, hn, rfl⟩

theorem exists_readEndpoints_iff : (∃ t, readEndpoints v = .ok t) ↔
    v.isTruthy = false ∨ ∃ vs, v.elements = .ok vs ∧ ∀ w ∈ vs, IsEndpoint w := by
  unfold readEndpoints orIfEmpty
  split
  next htruthy =>
    cases he : v.elements with
    | error f => simp [Except.bind, htruthy]
    | ok vs =>
      have hall : (∃ t, vs.mapM readEndpoint = .ok t) ↔ ∀ w ∈ vs, IsEndpoint w := by
        simp only [exists_mapM_eq_ok_iff, exists_readEndpoint_iff]
      simpa [Except.bind, htruthy] using hall
  next hfalsy => exact iff_of_true ⟨[], rfl⟩ (Or.inl (by simpa using hfalsy))

theorem family_of_readEndpoint {f : Fault} (hx : v.Throughout Json.IsExact)
    (h : readEndpoint v = .error f) : f.family = .shape ∨ f.family = .content := by
  rcases bind_eq_error_iff.mp h with hpair | ⟨⟨address, verbosity⟩, hpair, hrest⟩
  · exact Json.family_of_toPair hpair
  · have hv := Json.exact_of_elements hx (Json.elements_of_toPair hpair) verbosity (by simp)
    rcases bind_eq_error_iff.mp hrest with hint | ⟨n, -, hpure⟩
    · exact Json.family_of_toInt hv hint
    · exact absurd hpure pure_ne_error

/-- What an exact value is not, if not telemetry endpoints, is covered by the report. -/
theorem family_of_readEndpoints {f : Fault} (hx : v.Throughout Json.IsExact)
    (h : readEndpoints v = .error f) : f.family = .shape ∨ f.family = .content := by
  have hx : (orIfEmpty v (.list [])).Throughout Json.IsExact := by
    unfold orIfEmpty
    split
    · exact hx
    · simp [Json.IsExact]
  rcases bind_eq_error_iff.mp h with he | ⟨vs, he, hrest⟩
  · exact Or.inl (Json.family_of_elements he)
  · obtain ⟨w, hw, hf⟩ := exists_mem_of_mapM_eq_error hrest
    exact family_of_readEndpoint (Json.exact_of_elements hx he w hw) hf

/-! ## Snapshots -/

/-- A document of the shape of a snapshot. -/
structure IsSnapshot (d : Document) : Prop where
  required : ∀ key ∈ requiredFields, key ∈ Json.keys d
  version : (fieldOrNull d "formatVersion").equal (.int 1) = true
  chainType : ∃ c : ChainType, fieldOrNull d "chainType" = .text c.name
  genesis : ∃ fields, fieldOrNull d "genesis" = .object fields ∧
    (Text.ofString "raw" ∈ Json.keys fields ∨ Text.ofString "runtime" ∈ Json.keys fields)
  telemetry : (fieldOrNull d "telemetryEndpoints").isTruthy = false ∨
    ∃ vs, (fieldOrNull d "telemetryEndpoints").elements = .ok vs ∧ ∀ v ∈ vs, IsEndpoint v
  bootNodes : fieldOrNull d "bootNodes" = .null ∨
    ∃ nodes : List Text, fieldOrNull d "bootNodes" = .list (nodes.map .text)

/-- The specification has the values of the document, and is written as it. -/
structure Mirrors (s : Spec) (d : Document) : Prop where
  name : Json.lookup "name" d = some s.metadata.name
  id : Json.lookup "id" d = some s.metadata.id
  chainType : Json.lookup "chainType" d = some (.text s.metadata.chainType.name)
  genesis : ∃ data, Json.lookup "genesis" d = some data ∧ s.genesis = .frozen data
  protocolId : s.metadata.protocolId = fieldOrNull d "protocolId"
  properties : s.metadata.properties = fieldOrNull d "properties"
  forkBlocks : s.metadata.extensions.forkBlocks = fieldOrNull d "forkBlocks"
  badBlocks : s.metadata.extensions.badBlocks = fieldOrNull d "badBlocks"
  lightSyncState : s.metadata.extensions.lightSyncState = fieldOrNull d "lightSyncState"
  document : s.toJson = .ok (.object d)

theorem checkFields_eq_ok_iff :
    checkFields d = .ok () ↔ ∀ key ∈ requiredFields, key ∈ Json.keys d := by
  unfold checkFields
  split
  next h => simpa using h
  next h =>
    simp only [reduceCtorEq, false_iff]
    intro hall
    exact h (by simpa using hall)

theorem checkVersion_eq_ok_iff : checkVersion v = .ok () ↔ v.equal (.int 1) = true := by
  unfold checkVersion
  split
  next h => exact iff_of_true rfl h
  next h => exact iff_of_false (by simp) h

theorem readChainType_eq_ok_iff {c : ChainType} : readChainType v = .ok c ↔ v = .text c.name := by
  rw [← ChainType.ofJson?_eq_some_iff, readChainType]
  cases ChainType.ofJson? v <;> simp

theorem holdsGenesis_iff : holdsGenesis v = true ↔ ∃ fields, v = .object fields ∧
    (Text.ofString "raw" ∈ Json.keys fields ∨ Text.ofString "runtime" ∈ Json.keys fields) := by
  cases v with
  | object fields =>
    simp only [holdsGenesis, Json.keys, List.any_eq_true, decide_eq_true_eq, List.mem_map]
    grind
  | _ => simp [holdsGenesis]

theorem all_isText_iff {nodes : List Json} :
    nodes.all isText = true ↔ ∃ ts : List Text, nodes = ts.map .text := by
  induction nodes with
  | nil => exact iff_of_true rfl ⟨[], rfl⟩
  | cons node nodes ih =>
    rw [List.all_cons, Bool.and_eq_true, ih]
    constructor
    · rintro ⟨hnode, ts, rfl⟩
      cases node <;> cases hnode
      next t => exact ⟨t :: ts, rfl⟩
    · rintro ⟨ts, hts⟩
      obtain ⟨t, ts, rfl, rfl, rfl⟩ := List.map_eq_cons_iff.mp hts.symm
      exact ⟨rfl, ts, rfl⟩

theorem exists_readBootNodes_iff : (∃ b, readBootNodes v = .ok b) ↔
    v = .null ∨ ∃ nodes : List Text, v = .list (nodes.map .text) := by
  cases v with
  | list nodes =>
    simp only [readBootNodes, Json.list.injEq, reduceCtorEq, false_or, ← all_isText_iff]
    split <;> simp [*]
  | _ => simp [readBootNodes]

theorem exists_ofDocument_iff : (∃ s, ofDocument d = .ok s) ↔ IsSnapshot d := by
  simp only [ofDocument_eq_ok_iff, checkFields_eq_ok_iff, checkVersion_eq_ok_iff,
    readChainType_eq_ok_iff, holdsGenesis_iff]
  constructor
  · rintro ⟨s, hfields, hversion, hgenesis, c, hc, t, ht, b, hb, -⟩
    exact ⟨hfields, hversion, ⟨c, hc⟩, hgenesis, exists_readEndpoints_iff.mp ⟨t, ht⟩,
      exists_readBootNodes_iff.mp ⟨b, hb⟩⟩
  · intro h
    obtain ⟨c, hc⟩ := h.chainType
    obtain ⟨t, ht⟩ := exists_readEndpoints_iff.mpr h.telemetry
    obtain ⟨b, hb⟩ := exists_readBootNodes_iff.mpr h.bootNodes
    exact ⟨_, h.required, h.version, h.genesis, c, hc, t, ht, b, hb, rfl⟩

theorem lookup_eq_fieldOrNull (hfields : ∀ key ∈ requiredFields, key ∈ Json.keys d)
    (hkey : key ∈ requiredFields) : Json.lookup key d = some (fieldOrNull d key) := by
  obtain ⟨v, hv⟩ := Json.exists_lookup_iff.mpr (hfields key hkey)
  rw [fieldOrNull, hv, Option.getD_some]

theorem mirrors_of_ofDocument (h : ofDocument d = .ok s) : s.Mirrors d := by
  obtain ⟨hfields, -, -, c, hc, t, -, b, -, rfl⟩ := ofDocument_eq_ok_iff.mp h
  have hlookup : ∀ key ∈ requiredFields, Json.lookup key d = some (fieldOrNull d key) :=
    fun _ => lookup_eq_fieldOrNull (checkFields_eq_ok_iff.mp hfields)
  have hc := readChainType_eq_ok_iff.mp hc
  exact {
    name := hlookup "name" (by decide)
    id := hlookup "id" (by decide)
    chainType := by
      rw [hlookup "chainType" (by decide), hc]
      rfl
    genesis := ⟨_, hlookup "genesis" (by decide), rfl⟩
    protocolId := rfl
    properties := rfl
    forkBlocks := rfl
    badBlocks := rfl
    lightSyncState := rfl
    document := rfl }

theorem exact_fieldOrNull (hx : (Json.object d).Throughout Json.IsExact) (key : Text) :
    (fieldOrNull d key).Throughout Json.IsExact := by
  rw [fieldOrNull]
  cases hv : Json.lookup key d with
  | none => simp [Json.IsExact]
  | some v => exact (Json.Throughout.object_iff.mp hx).2 _ (Json.mem_of_lookup hv)

theorem isMalformed_of_readTelemetry (hx : v.Throughout Json.IsExact)
    (h : readTelemetry v = .error e) : e.IsMalformed := by
  obtain ⟨f, hf, rfl⟩ := reporting_fault_eq_error_iff.mp h
  have hfamily := family_of_readEndpoints hx hf
  rw [if_pos (by simpa using hfamily)]
  exact ⟨_, rfl, rfl⟩

theorem kind_of_checkFields {g : GenesisError} (h : checkFields d = .error g) :
    g.kind = .malformedSnapshot := by
  unfold checkFields at h
  split at h <;> cases h
  rfl

theorem kind_of_checkVersion {g : GenesisError} (h : checkVersion v = .error g) :
    g.kind = .malformedSnapshot := by
  unfold checkVersion at h
  split at h <;> cases h
  rfl

theorem kind_of_readChainType {g : GenesisError} (h : readChainType v = .error g) :
    g.kind = .malformedSnapshot := by
  unfold readChainType at h
  split at h <;> cases h
  rfl

theorem kind_of_readBootNodes {g : GenesisError} (h : readBootNodes v = .error g) :
    g.kind = .malformedSnapshot := by
  unfold readBootNodes at h
  split at h
  next => cases h
  next => split at h <;> cases h; rfl
  next =>
    cases h
    rfl

/-- Each check of an exact document fails as malformed, whatever stands in the field that it is about. -/
theorem isMalformed_of_ofDocument (hx : (Json.object d).Throughout Json.IsExact)
    (h : ofDocument d = .error e) : e.IsMalformed := by
  unfold ofDocument at h
  rcases bind_eq_error_iff.mp h with hfields | ⟨_, -, h⟩
  · exact Error.isMalformed_of_lift (fun _ => kind_of_checkFields) hfields
  rcases bind_eq_error_iff.mp h with hversion | ⟨_, -, h⟩
  · exact Error.isMalformed_of_lift (fun _ => kind_of_checkVersion) hversion
  rcases bind_eq_error_iff.mp h with htype | ⟨_, -, h⟩
  · exact Error.isMalformed_of_lift (fun _ => kind_of_readChainType) htype
  dsimp only at h
  split at h
  next =>
    cases h
    exact ⟨_, rfl, rfl⟩
  next =>
    rcases bind_eq_error_iff.mp h with htelemetry | ⟨_, -, h⟩
    · exact isMalformed_of_readTelemetry (exact_fieldOrNull hx _) htelemetry
    rcases bind_eq_error_iff.mp h with hnodes | ⟨_, -, h⟩
    · exact Error.isMalformed_of_lift (fun _ => kind_of_readBootNodes) hnodes
    · exact absurd h pure_ne_error

theorem isMalformed_of_ofBytes (h : ofBytes bs = .error e) : e.IsMalformed := by
  rcases bind_eq_error_iff.mp h with hdecode | ⟨d, hd, h⟩
  · exact Error.isMalformed_of_lift (fun _ => Document.kind_of_decode_eq_error) hdecode
  · exact isMalformed_of_ofDocument (Document.exact_of_decode (liftGenesis_eq_ok_iff.mp hd)) h

theorem exists_ofBytes_iff :
    (∃ s, ofBytes bs = .ok s) ↔ ∃ d, Document.decode bs = .ok d ∧ IsSnapshot d := by
  simp only [ofBytes_eq_ok_iff, ← exists_ofDocument_iff]
  constructor
  · rintro ⟨s, d, hd, hs⟩
    exact ⟨d, hd, s, hs⟩
  · rintro ⟨d, hd, s, hs⟩
    exact ⟨s, d, hd, hs⟩

/-- Reading a snapshot has no error but that of malformed snapshots, whatever the bytes. It gives a
specification if and only if they are a document of the shape of a snapshot, and the specification has the
values of that document. -/
theorem read_decides :
    (∀ bs e, ofBytes bs = .error e → e.IsMalformed) ∧
    (∀ bs, (∃ s, ofBytes bs = .ok s) ↔ ∃ d, Document.decode bs = .ok d ∧ IsSnapshot d) ∧
    ∀ bs s, ofBytes bs = .ok s →
      ∃ d, Document.decode bs = .ok d ∧ IsSnapshot d ∧ s.Mirrors d := by
  refine ⟨fun _ _ => isMalformed_of_ofBytes, fun _ => exists_ofBytes_iff, fun bs s h => ?_⟩
  obtain ⟨d, hd, hs⟩ := ofBytes_eq_ok_iff.mp h
  exact ⟨d, hd, exists_ofDocument_iff.mp ⟨s, hs⟩, mirrors_of_ofDocument hs⟩

/-- A snapshot that takes every liberty: its version is a truth value, its name and id are no texts, and
its one endpoint is the key of an object. -/
def loose : Bytes := Utf8.encode ("\x7b\"genesis\": \x7b\"runtime\": 0\x7d, \"chainType\": \"Live\", " ++
  "\"id\": [], \"name\": null, \"formatVersion\": true, \"telemetryEndpoints\": \x7b\"a1\": 0\x7d\x7d").toList

theorem loose_reads : (∃ s, ofBytes loose = .ok s ∧ s.metadata.telemetry = [(.text "a", .int 1)]) ∧
    ∃ s d, ofBytes loose = .ok s ∧ Document.decode loose = .ok d ∧ IsSnapshot d ∧ s.Mirrors d := by
  have h : (ofBytes loose).map (·.metadata.telemetry) = .ok [(.text "a", .int 1)] := by
    decide +kernel
  obtain ⟨s, hs, ht⟩ := map_eq_ok_iff.mp h
  obtain ⟨d, hd, hshape, hmirrors⟩ := read_decides.2.2 loose s hs
  exact ⟨⟨s, hs, ht⟩, s, d, hs, hd, hshape, hmirrors⟩

/-! ## Writing a snapshot anew -/

theorem exists_toBytes_iff (hd : Document.decode bs = .ok d) (hs : ofDocument d = .ok s) :
    (∃ bs', s.toBytes = .ok bs') ↔ (Json.object d).Throughout Json.IsWellFormed := by
  have hx := Document.exact_of_decode hd
  rw [toBytes_eq_of_ofDocument hs, Document.exists_encode_iff, Json.labelled_of_exact hx]
  exact and_iff_right (Json.isShowable_of_exact hx)

theorem toBytes_error (hd : Document.decode bs = .ok d) (hs : ofDocument d = .ok s) {f : Fault}
    (h : s.toBytes = .error f) : f = .loneSurrogate := by
  rw [toBytes_eq_of_ofDocument hs] at h
  exact Document.eq_loneSurrogate_of_encode (Json.isShowable_of_exact (Document.exact_of_decode hd)) h

theorem isByteStable_eq_error_iff : isByteStable bs = .error e ↔ ofBytes bs = .error e ∨
    ∃ s f, ofBytes bs = .ok s ∧ s.toBytes = .error f ∧ .fault f = e := by
  unfold isByteStable
  simp only [bind_eq_error_iff, liftFault_eq_error_iff, pure_ne_error, and_false, exists_false,
    or_false, exists_and_left]

/-- The bytes are a snapshot with half of a pair in one of its texts or keys. -/
def HoldsHalf (bs : Bytes) : Prop :=
  ∃ d, Document.decode bs = .ok d ∧ IsSnapshot d ∧ ¬ (Json.object d).Throughout Json.IsWellFormed

theorem exists_toBytes_iff_of_ofBytes (hs : ofBytes bs = .ok s) :
    (∃ bs', s.toBytes = .ok bs') ↔ ¬ HoldsHalf bs := by
  obtain ⟨d, hd, hdoc⟩ := ofBytes_eq_ok_iff.mp hs
  have hshape : IsSnapshot d := exists_ofDocument_iff.mp ⟨s, hdoc⟩
  rw [exists_toBytes_iff hd hdoc]
  constructor
  · rintro hw ⟨d', hd', -, hn⟩
    rw [hd] at hd'
    cases hd'
    exact hn hw
  · intro hn
    by_contra hw
    exact hn ⟨d, hd, hshape, hw⟩

theorem isMalformed_or_loneSurrogate_of_isByteStable (h : isByteStable bs = .error e) :
    e.IsMalformed ∨ e = .fault .loneSurrogate := by
  rcases isByteStable_eq_error_iff.mp h with hread | ⟨s, f, hs, hf, rfl⟩
  · exact Or.inl (isMalformed_of_ofBytes hread)
  · obtain ⟨d, hd, hs⟩ := ofBytes_eq_ok_iff.mp hs
    have hlone : f = .loneSurrogate := toBytes_error hd hs hf
    exact Or.inr (congrArg Error.fault hlone)

theorem isByteStable_eq_loneSurrogate_iff :
    isByteStable bs = .error (.fault .loneSurrogate) ↔ HoldsHalf bs := by
  rw [isByteStable_eq_error_iff]
  constructor
  · rintro (hread | ⟨s, f, hs, hf, -⟩)
    · obtain ⟨g, hg, -⟩ := isMalformed_of_ofBytes hread
      cases hg
    · by_contra hn
      obtain ⟨bs', hbytes⟩ := (exists_toBytes_iff_of_ofBytes hs).mpr hn
      rw [hbytes] at hf
      cases hf
  · rintro ⟨d, hd, hshape, hw⟩
    obtain ⟨s, hdoc⟩ := exists_ofDocument_iff.mpr hshape
    have hs : ofBytes bs = .ok s := ofBytes_eq_ok_iff.mpr ⟨d, hd, hdoc⟩
    have hnone : ∀ bs', s.toBytes ≠ .ok bs' := by
      intro bs' hbytes
      exact (exists_toBytes_iff_of_ofBytes hs).mp ⟨bs', hbytes⟩ ⟨d, hd, hshape, hw⟩
    obtain ⟨f, hf⟩ := exists_error_of_ne_ok hnone
    have hlone : f = .loneSurrogate := toBytes_error hd hdoc hf
    exact Or.inr ⟨s, f, hs, hf, congrArg Error.fault hlone⟩

/-- Whether a file is byte-stable is decided, or the file is malformed, unless it is a snapshot with half of
a pair in it. Such a snapshot is not written anew, and every other one is. -/
theorem byteStable_outcomes (bs : Bytes) :
    (((∃ b, isByteStable bs = .ok b) ∨ ∃ e, isByteStable bs = .error e ∧ e.IsMalformed) ↔
      ¬ HoldsHalf bs) ∧
    (isByteStable bs = .error (.fault .loneSurrogate) ↔ HoldsHalf bs) ∧
    ∀ s, ofBytes bs = .ok s → ((∃ bs', s.toBytes = .ok bs') ↔ ¬ HoldsHalf bs) := by
  refine ⟨?_, isByteStable_eq_loneSurrogate_iff, fun s => exists_toBytes_iff_of_ofBytes⟩
  rw [← isByteStable_eq_loneSurrogate_iff]
  constructor
  · rintro (⟨b, hb⟩ | ⟨e, he, g, rfl, -⟩) hlone
    · rw [hb] at hlone
      cases hlone
    · rw [he] at hlone
      cases hlone
  · intro hlone
    cases h : isByteStable bs with
    | ok b => exact Or.inl ⟨b, rfl⟩
    | error e =>
      rcases isMalformed_or_loneSurrogate_of_isByteStable h with hmalformed | rfl
      · exact Or.inr ⟨e, rfl, hmalformed⟩
      · exact absurd h hlone

/-- A snapshot whose name is half of a pair. -/
def strayName : Bytes := Utf8.encode ("\x7b\"formatVersion\":1,\"name\":\"\\ud800\",\"id\":\"\"," ++
  "\"chainType\":\"Live\",\"genesis\":\x7b\"raw\":null\x7d\x7d").toList

/-- It is accepted, and whether it is byte-stable is not decided. -/
theorem strayName_undecided : (ofBytes strayName).isOk = true ∧
    isByteStable strayName = .error (.fault .loneSurrogate) := by
  constructor <;> decide +kernel

theorem strayName_not_written : HoldsHalf strayName ∧
    ∃ s, ofBytes strayName = .ok s ∧ ¬ ∃ bs, s.toBytes = .ok bs := by
  obtain ⟨-, hlone, hwritten⟩ := byteStable_outcomes strayName
  obtain ⟨d, hd, hshape, hw⟩ : HoldsHalf strayName := hlone.mp (by decide +kernel)
  obtain ⟨s, hs⟩ := exists_ofBytes_iff.mpr ⟨d, hd, hshape⟩
  have hhalf : HoldsHalf strayName := ⟨d, hd, hshape, hw⟩
  exact ⟨hhalf, s, hs, fun hbytes => (hwritten s hs).mp hbytes hhalf⟩

end Spec

end LedgerGenesis
