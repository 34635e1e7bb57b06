import LedgerGenesis.Proofs.Genesis.Assembly
import LedgerGenesis.Proofs.Spec.Codec
import LedgerGenesis.Proofs.Vocabulary

/-! # Writing a specification and reading it back

A specification that was built, and not read, is written field by field, and a snapshot is read field by
field. The values in it are strict. Where they are portable too, nothing is lost on the way; where they are
not, the specification is not written.
-/
namespace LedgerGenesis

namespace Spec

variable {s : Spec} {m : Metadata} {data subs : Json}

def Metadata.values (m : Metadata) : List Json :=
  [m.name, m.id, m.protocolId, m.properties, m.extensions.forkBlocks, m.extensions.badBlocks,
    m.extensions.lightSyncState] ++ m.bootNodes ++ m.telemetry.flatMap fun e => [e.1, e.2]

/-- The values in a specification whose genesis gives the data. -/
def values (s : Spec) (data : Json) : List Json := s.metadata.values ++ [s.codeSubstitutes, data]

/-- The specification was not read from a document, and its values are strict; its boot nodes are texts,
the verbosities of its telemetry integers, its substitutes an object. Its genesis gives the data, which hold
a genesis also where they were frozen before. -/
structure Writes (s : Spec) (data : Json) : Prop where
  unread : s.source = none
  strict : ∀ v ∈ s.values data, v.Throughout Json.IsStrict
  bootNodes : ∀ node ∈ s.metadata.bootNodes, isText node = true
  verbosities : ∀ e ∈ s.metadata.telemetry, ∃ n, e.2 = .int n
  substitutes : ∃ fields, s.codeSubstitutes = .object fields
  genesis : s.genesis.toJson = .ok data
  holds : ∀ frozen, s.genesis = .frozen frozen → holdsGenesis frozen = true

theorem Writes.holdsGenesis (h : s.Writes data) : holdsGenesis data = true := by
  cases hg : s.genesis with
  | frozen d =>
    have hd := h.genesis
    rw [hg] at hd
    cases hd
    exact h.holds _ hg
  | assembled state =>
    have hd := h.genesis
    rw [hg] at hd
    obtain ⟨v, -, rfl⟩ := map_eq_ok_iff.mp hd
    rfl

/-! ## The document -/

/-- The document of a specification with these substitutes and this genesis. -/
def documentOf (m : Metadata) (substitutes genesis : Json) : Document :=
  m.fields ++ ([("codeSubstitutes", substitutes), ("genesis", genesis)] : Document)

theorem toBytes_of_unread {fields : List (Text × Json)} (hsource : s.source = none)
    (hsubs : s.codeSubstitutes = .object fields) (hg : s.genesis.toJson = .ok data) :
    s.toBytes = Document.encode (.object (documentOf s.metadata (.object fields) data)) := by
  simp only [toBytes, toJson, hsource, hg, hsubs]
  rfl

theorem throughout_telemetryJson_iff {p : Json → Prop} (hnull : p .null) (hlist : ∀ vs, p (.list vs)) :
    m.telemetryJson.Throughout p ↔ ∀ e ∈ m.telemetry, e.1.Throughout p ∧ e.2.Throughout p := by
  unfold Metadata.telemetryJson
  split
  next hempty => simp [List.isEmpty_iff.mp hempty, hnull]
  next =>
    rw [Json.Throughout.list_iff, List.forall_mem_map]
    simp [hlist]

theorem keys_documentOf (m : Metadata) (substitutes genesis : Json) :
    Json.keys (documentOf m substitutes genesis) = ["formatVersion", "name", "id", "chainType",
      "bootNodes", "telemetryEndpoints", "protocolId", "properties", "forkBlocks", "badBlocks",
      "lightSyncState", "codeSubstitutes", "genesis"] := rfl

/-- Besides the values in a specification its document has the version, the name of the chain type, and
the lists and the object that they stand in. -/
theorem throughout_documentOf_iff {p : Json → Prop} (hnull : p .null) (hlist : ∀ vs, p (.list vs))
    (hversion : p (.int formatVersion)) (htype : p (.text m.chainType.name))
    (hobject : p (.object (documentOf m subs data))) :
    (Json.object (documentOf m subs data)).Throughout p ↔
      ∀ v ∈ m.values ++ [subs, data], v.Throughout p := by
  rw [Json.Throughout.object_iff, and_iff_right hobject]
  simp only [documentOf, Metadata.fields, Metadata.values, List.forall_mem_append, List.forall_mem_cons,
    List.not_mem_nil, false_implies, implies_true, and_true, true_and, Json.Throughout.int_iff, hversion,
    Json.Throughout.text_iff, htype, Json.Throughout.list_iff, hlist,
    throughout_telemetryJson_iff hnull hlist, List.forall_mem_flatMap]
  tauto

theorem strict_documentOf (h : ∀ v ∈ m.values ++ [subs, data], v.Throughout Json.IsStrict) :
    (Json.object (documentOf m subs data)).Throughout Json.IsStrict := by
  have hkeys : (Json.keys (documentOf m subs data)).Nodup := by
    rw [keys_documentOf]
    decide +kernel
  exact (throughout_documentOf_iff trivial (fun _ => trivial) trivial trivial hkeys).mpr h

theorem isShowable_documentOf_iff : (Json.object (documentOf m subs data)).isShowable = true ↔
    ∀ v ∈ m.values ++ [subs, data], v.isShowable = true := by
  simp only [Json.isShowable_iff]
  exact throughout_documentOf_iff rfl (fun _ => rfl) (by decide +kernel) rfl rfl

theorem wellFormed_documentOf_iff :
    (Json.object (documentOf m subs data)).Throughout Json.IsWellFormed ↔
      ∀ v ∈ m.values ++ [subs, data], v.Throughout Json.IsWellFormed := by
  have hkeys : ∀ k ∈ Json.keys (documentOf m subs data), k.WellFormed := by
    rw [keys_documentOf]
    decide +kernel
  exact throughout_documentOf_iff trivial (fun _ => trivial) trivial Text.wellFormed_ofChars hkeys

theorem portable_documentOf (h : ∀ v ∈ m.values ++ [subs, data], v.Portable) :
    (Json.object (documentOf m subs data)).Portable := by
  simp only [Json.portable_iff] at h ⊢
  exact ⟨strict_documentOf fun v hv => (h v hv).1, isShowable_documentOf_iff.mpr fun v hv => (h v hv).2.1,
    wellFormed_documentOf_iff.mpr fun v hv => (h v hv).2.2⟩

/-! ## The fields as they are read -/

theorem readEndpoints_telemetryJson (h : ∀ e ∈ m.telemetry, ∃ n, e.2 = .int n) :
    readEndpoints m.telemetryJson = .ok m.telemetry := by
  unfold Metadata.telemetryJson
  split
  next hempty =>
    rw [List.isEmpty_iff.mp hempty]
    rfl
  next hne =>
    have hmapM : (m.telemetry.map fun e => Json.list [e.1, e.2]).mapM readEndpoint = .ok m.telemetry := by
      refine mapM_eq_ok_iff.mpr ?_
      rw [List.forall₂_map_left_iff, List.forall₂_same]
      intro e he
      obtain ⟨n, hn⟩ := h e he
      obtain ⟨address, verbosity⟩ := e
      obtain rfl : verbosity = .int n := hn
      rfl
    have htruthy : (Json.list (m.telemetry.map fun e => Json.list [e.1, e.2])).isTruthy = true := by
      simp [Json.isTruthy, hne]
    rw [readEndpoints, orIfEmpty, if_pos htruthy]
    exact hmapM

theorem readBootNodes_list {nodes : List Json} (h : ∀ node ∈ nodes, isText node = true) :
    readBootNodes (.list nodes) = .ok nodes := if_pos (List.all_eq_true.mpr h)

/-- The document of a specification is read as a frozen specification of the same values. -/
theorem ofDocument_documentOf (hnodes : ∀ node ∈ m.bootNodes, isText node = true)
    (hverbosities : ∀ e ∈ m.telemetry, ∃ n, e.2 = .int n) (fields : List (Text × Json))
    (hg : holdsGenesis data = true) : ofDocument (documentOf m (.object fields) data) = .ok
      { metadata := m, genesis := .frozen data, codeSubstitutes := .object fields,
        source := some (documentOf m (.object fields) data) } := by
  refine ofDocument_eq_ok_iff.mpr ⟨rfl, rfl, hg, m.chainType, ?_, m.telemetry,
    readEndpoints_telemetryJson hverbosities, m.bootNodes,
    readBootNodes_list hnodes, ?_⟩
  · have htype : readChainType (.text m.chainType.name) = .ok m.chainType := by
      rw [readChainType, ChainType.ofJson?_eq_some_iff.mpr rfl]
    exact htype
  · -- no substitutes count as absent, and then none are read
    cases fields <;> rfl

/-- The digest of an assembled genesis is that of the configuration in the data it gives. -/
theorem Writes.genesisHash_eq {state : State} (h : s.Writes data) (hstate : s.genesis = .assembled state) :
    ∃ v, data = .object [("runtime", v)] ∧ state.toJson = .ok v ∧
      s.genesisHash = ((MessagePack.pack v).map keccak256).map some := by
  have hgenesis := h.genesis
  rw [hstate] at hgenesis
  obtain ⟨v, hv, hdata⟩ := map_eq_ok_iff.mp hgenesis
  refine ⟨v, hdata.symm, hv, ?_⟩
  rw [genesisHash, hstate]
  simp only [State.hash, State.encode, hv]
  rfl

/-- A built specification with an integer that has no numeral is not written, nor is one with half of a
pair in a text. Any other is written as a snapshot of the same values, whose document is written anew when
it is dropped, and the digest of an assembled state is that of the configuration in the snapshot. -/
theorem write_read (h : s.Writes data) :
    ((∃ v ∈ s.values data, v.isShowable = false) → s.toBytes = .error .longNumeral) ∧
    ((∀ v ∈ s.values data, v.isShowable = true) →
      (∃ v ∈ s.values data, ¬ v.Throughout Json.IsWellFormed) → s.toBytes = .error .loneSurrogate) ∧
    ((∀ v ∈ s.values data, v.isShowable = true ∧ v.Throughout Json.IsWellFormed) →
      ∃ bs r, s.toBytes = .ok bs ∧ ofBytes bs = .ok r ∧ r.isFrozen = true ∧ r.metadata = s.metadata ∧
        r.codeSubstitutes = s.codeSubstitutes ∧ r.genesis = .frozen data ∧
          ({ r with source := none } : Spec).toBytes = .ok bs ∧
            ∀ state, s.genesis = .assembled state → ∃ v, data = .object [("runtime", v)] ∧
              state.toJson = .ok v ∧
                s.genesisHash = ((MessagePack.pack v).map keccak256).map some) := by
  obtain ⟨fields, hsubs⟩ := h.substitutes
  have hbytes := toBytes_of_unread h.unread hsubs h.genesis
  have hvalues : s.values data = s.metadata.values ++ [.object fields, data] := by rw [values, hsubs]
  have hstrict := h.strict
  rw [hvalues] at hstrict ⊢
  refine ⟨?_, ?_, ?_⟩
  · rintro ⟨v, hv, hn⟩
    rw [hbytes]
    refine Document.encode_of_not_showable (Bool.eq_false_iff.mpr fun hshow => ?_)
    exact Bool.eq_false_iff.mp hn (isShowable_documentOf_iff.mp hshow v hv)
  · rintro hshow ⟨v, hv, hn⟩
    rw [hbytes]
    refine Document.encode_of_not_wellFormed (isShowable_documentOf_iff.mpr hshow) fun hform => ?_
    rw [Json.labelled_of_strict (strict_documentOf hstrict)] at hform
    exact hn (wellFormed_documentOf_iff.mp hform v hv)
  · intro hvalues
    have hp := portable_documentOf fun v hv => Json.portable_iff.mpr ⟨hstrict v hv, hvalues v hv⟩
    obtain ⟨bs, he, hd⟩ := Document.exists_encode_decode hp
    have hr := ofDocument_documentOf h.bootNodes h.verbosities fields h.holdsGenesis
    exact ⟨bs, _, hbytes.trans he, ofBytes_eq_ok_iff.mpr ⟨_, hd, hr⟩, rfl, rfl, hsubs.symm, rfl,
      (toBytes_of_unread rfl rfl rfl).trans he, fun state hstate => h.genesisHash_eq hstate⟩

def smallMetadata : Metadata where
  name := .text "Größe"
  id := .text "small"
  chainType := .development
  bootNodes := [.text ""]
  telemetry := [(.text "wss", .int 1)]

theorem smallNetwork_write_read : ∃ state data, Inputs.smallNetwork.assemble = .ok state ∧
    (ofState state smallMetadata).Writes data ∧
      ∃ bs r, (ofState state smallMetadata).toBytes = .ok bs ∧ ofBytes bs = .ok r ∧
        r.metadata = smallMetadata ∧ r.genesis = .frozen data := by
  have hv : ∃ state v, Inputs.smallNetwork.assemble = .ok state ∧ state.toJson = .ok v ∧
      ∀ w ∈ (ofState state smallMetadata).values (.object [("runtime", v)]), w.Portable :=
    ⟨_, _, rfl, rfl, by decide +kernel⟩
  obtain ⟨state, v, hs, hv, hp⟩ := hv
  simp only [Json.portable_iff] at hp
  have hw : (ofState state smallMetadata).Writes (.object [("runtime", v)]) := {
    unread := rfl
    strict := fun w hw => (hp w hw).1
    bootNodes := List.forall_mem_singleton.mpr rfl
    verbosities := List.forall_mem_singleton.mpr ⟨1, rfl⟩
    substitutes := ⟨[], rfl⟩
    genesis := map_eq_ok_iff.mpr ⟨v, hv, rfl⟩
    holds := by rintro _ ⟨⟩ }
  obtain ⟨bs, r, hbs, hr, -, hm, -, hg, -⟩ := (write_read hw).2.2 fun w hw => (hp w hw).2
  exact ⟨state, _, hs, hw, bs, r, hbs, hr, hm, hg⟩

/-- A frozen specification with one telemetry endpoint. -/
def reportingTo (address : Text) (verbosity : Nat) : Spec where
  metadata := {
    name := .text "ChainX"
    id := .text "chainx"
    chainType := .live
    telemetry := [(.text address, .int verbosity)] }
  genesis := .frozen (.object [("raw", .object [])])

/-- Parameters as a list of pairs, the key of the only one not a text. -/
def numberedParams : Inputs :=
  { Inputs.smallNetwork with builderParams := .list [.list [.int 1, .null]] }

/-- Half of a pair has no bytes, and an integer of too many digits has no numeral: specifications with
either are not written. A key that is no text is written as one, and stays one when it is read. -/
theorem reportingTo_not_written :
    (reportingTo [.surrogate 0] 0).toBytes = .error .loneSurrogate ∧
      (reportingTo "wss" (Nat.pow 10 Numeral.maxDigits)).toBytes = .error .longNumeral ∧
        ∃ state v bs r, numberedParams.assemble = .ok state ∧ state.toJson = .ok v ∧
          (ofState state smallMetadata).toBytes = .ok bs ∧ ofBytes bs = .ok r ∧
            r.genesis ≠ .frozen (.object [("runtime", v)]) := by
  refine ⟨by decide +kernel, by decide +kernel, ?_⟩
  have hs : ∃ state v, numberedParams.assemble = .ok state ∧ state.toJson = .ok v ∧
      let doc := Json.object (documentOf smallMetadata (.object []) (.object [("runtime", v)]))
      doc.isShowable = true ∧ doc.labelled.Throughout Json.IsWellFormed ∧
        doc.labelled.Throughout Json.IsExact ∧ ∃ d r, Json.object d = doc.labelled ∧
          ofDocument d = .ok r ∧ r.genesis ≠ .frozen (.object [("runtime", v)]) :=
    ⟨_, _, rfl, rfl, by decide +kernel, by decide +kernel, by decide +kernel, _, _, rfl, rfl,
      by decide +kernel⟩
  obtain ⟨state, v, hs, hv, hshow, hform, hexact, d, r, hd, hr, hne⟩ := hs
  obtain ⟨bs, he⟩ := Document.exists_encode_iff.mpr ⟨hshow, hform⟩
  have hdata : (ofState state smallMetadata).genesis.toJson = .ok (.object [("runtime", v)]) :=
    map_eq_ok_iff.mpr ⟨v, hv, rfl⟩
  exact ⟨state, v, bs, r, hs, hv, (toBytes_of_unread rfl rfl hdata).trans he,
    ofBytes_eq_ok_iff.mpr ⟨d, (Document.decode_eq_ok_iff_of_encode he).mpr ⟨hexact, hd⟩, hr⟩, hne⟩

end Spec

end LedgerGenesis
