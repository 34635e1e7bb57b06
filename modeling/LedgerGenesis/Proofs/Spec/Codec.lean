import LedgerGenesis.Proofs.Json.Printing
import LedgerGenesis.Spec.Snapshot

/-! # The codec of documents

Documents that a text can carry are read back from the bytes they are written as, key order included. A
document that was read is such a document as soon as it can be written, so writing it a second time
changes nothing, and the byte-stable snapshots are the written forms of documents that are snapshots.
-/
namespace LedgerGenesis

namespace Document

variable {d : Document} {v : Json} {bs : Bytes}

theorem encode_eq_ok_iff : encode v = .ok bs ↔ v.isShowable = true ∧
    (v.render Json.plainStyle 0 ++ ("\n" : Text)).utf8? = some bs := by
  unfold encode
  split
  · cases (v.render Json.plainStyle 0 ++ ("\n" : Text)).utf8? <;> simp [*]
  · simp [*]

/-- A value is written if its integers have numerals and its texts and labels have bytes. -/
theorem exists_encode_iff : (∃ bs, encode v = .ok bs) ↔
    v.isShowable = true ∧ v.labelled.Throughout Json.IsWellFormed := by
  simp only [encode_eq_ok_iff, exists_and_left, Text.exists_utf8?_iff, Text.wellFormed_append,
    Json.wellFormed_render_iff]
  exact and_congr_right fun _ => and_iff_left Text.wellFormed_ofChars

theorem eq_loneSurrogate_of_encode {f : Fault} (hn : v.isShowable = true)
    (h : encode v = .error f) : f = .loneSurrogate := by
  unfold encode at h
  rw [if_pos hn] at h
  split at h <;> cases h
  rfl

/-- A value is not written for an integer without a numeral first, and then for half of a pair. -/
theorem encode_of_not_showable (h : v.isShowable = false) : encode v = .error .longNumeral := by
  rw [encode, if_neg (by simp [h])]

theorem encode_of_not_wellFormed (hn : v.isShowable = true)
    (h : ¬ v.labelled.Throughout Json.IsWellFormed) : encode v = .error .loneSurrogate := by
  cases he : encode v with
  | ok bs => exact absurd (exists_encode_iff.mp ⟨bs, he⟩).2 h
  | error f => rw [eq_loneSurrogate_of_encode hn he]

theorem decode_eq_ok_iff : decode bs = .ok d ↔
    ∃ cs, bs = Utf8.encode cs ∧ Json.read .strict cs = .ok (.object d) := by
  simp only [← Utf8.decode_eq_some_iff]
  unfold decode
  cases Utf8.decode bs with
  | none => simp
  | some cs =>
    cases hr : Json.read .strict cs with
    | error e => simp [hr]
    | ok v => cases v <;> simp [hr]

/-- What is written and read again is the written value with its mappings labelled, and it is read if and
only if it is exact so. -/
theorem decode_eq_ok_iff_of_encode (he : encode v = .ok bs) :
    decode bs = .ok d ↔ v.labelled.Throughout Json.IsExact ∧ .object d = v.labelled := by
  obtain ⟨-, hutf8⟩ := encode_eq_ok_iff.mp he
  have hform := Text.wellFormed_append.mp (Text.exists_utf8?_iff.mp ⟨bs, hutf8⟩)
  obtain ⟨cs, hcs, hread⟩ := Json.exists_read_iff (Json.wellFormed_of_render hform.1)
  rw [hcs, Text.utf8?_ofChars] at hutf8
  obtain rfl := Option.some.inj hutf8
  rw [← hread, decode_eq_ok_iff]
  constructor
  · rintro ⟨ds, hds, h⟩
    rwa [Utf8.encode_injective hds]
  · exact fun h => ⟨cs, rfl, h⟩

/-- A portable document has a written form, which is read as that document. -/
theorem exists_encode_decode (h : (Json.object d).Portable) :
    ∃ bs, encode (.object d) = .ok bs ∧ decode bs = .ok d := by
  have hself := Json.labelled_of_exact h.exact
  obtain ⟨cs, hcs, hread⟩ := Json.exists_read_iff (hself.symm ▸ h.wellFormed)
  refine ⟨Utf8.encode cs, encode_eq_ok_iff.mpr ⟨Json.isShowable_of_exact h.exact, ?_⟩,
    decode_eq_ok_iff.mpr ⟨cs, rfl, (hread _).mpr ⟨hself.symm ▸ h.exact, hself.symm⟩⟩⟩
  rw [hcs, Text.utf8?_ofChars]

theorem decode_of_encode (h : (Json.object d).Portable) (he : encode (.object d) = .ok bs) :
    decode bs = .ok d := by
  have hself := Json.labelled_of_exact h.exact
  exact (decode_eq_ok_iff_of_encode he).mpr ⟨hself.symm ▸ h.exact, hself.symm⟩

/-- A document that was read and can be written is portable. -/
theorem portable_of_decode_encode {bs' : Bytes} (hd : decode bs = .ok d)
    (he : encode (.object d) = .ok bs') : (Json.object d).Portable := by
  obtain ⟨cs, -, hread⟩ := decode_eq_ok_iff.mp hd
  have hexact := (Json.read_strict_eq_ok_iff.mp hread).2
  have hutf8 := Text.exists_utf8?_iff.mp ⟨bs', (encode_eq_ok_iff.mp he).2⟩
  have hform := Json.wellFormed_of_render (Text.wellFormed_append.mp hutf8).1
  rw [Json.labelled_of_exact hexact] at hform
  exact ⟨hexact, hform⟩

end Document

namespace Spec

variable {s : Spec} {d : Document} {v : Json} {bs : Bytes}

/-- What a snapshot with this chain type, these telemetry endpoints and these boot nodes denotes. -/
def snapshotOf (d : Document) (chainType : ChainType) (telemetry : List (Json × Json))
    (bootNodes : List Json) : Spec where
  metadata := {
    name := fieldOrNull d "name"
    id := fieldOrNull d "id"
    chainType, bootNodes, telemetry
    protocolId := fieldOrNull d "protocolId"
    properties := fieldOrNull d "properties"
    extensions := {
      forkBlocks := fieldOrNull d "forkBlocks"
      badBlocks := fieldOrNull d "badBlocks"
      lightSyncState := fieldOrNull d "lightSyncState" } }
  genesis := .frozen (fieldOrNull d "genesis")
  codeSubstitutes := orIfEmpty (fieldOrNull d "codeSubstitutes") (.object [])
  source := some d

theorem readTelemetry_eq_ok_iff {endpoints : List (Json × Json)} :
    readTelemetry v = .ok endpoints ↔ readEndpoints v = .ok endpoints := by
  rw [readTelemetry, reporting_eq_ok_iff, mapError_eq_ok_iff]

theorem ofDocument_eq_ok_iff : ofDocument d = .ok s ↔
    checkFields d = .ok () ∧ checkVersion (fieldOrNull d "formatVersion") = .ok () ∧
      holdsGenesis (fieldOrNull d "genesis") = true ∧
        ∃ c, readChainType (fieldOrNull d "chainType") = .ok c ∧
          ∃ t, readEndpoints (fieldOrNull d "telemetryEndpoints") = .ok t ∧
            ∃ b, readBootNodes (fieldOrNull d "bootNodes") = .ok b ∧ snapshotOf d c t b = s := by
  unfold ofDocument
  simp only [bind_eq_ok_iff, liftGenesis_eq_ok_iff]
  constructor
  · rintro ⟨_, hfields, _, hversion, c, hc, h⟩
    split at h
    next => cases h
    next hg =>
      obtain ⟨t, ht, b, hb, hs⟩ := by
        simpa only [bind_eq_ok_iff, liftGenesis_eq_ok_iff, pure_eq_ok_iff] using h
      exact ⟨hfields, hversion, by simpa using hg, c, hc, t, readTelemetry_eq_ok_iff.mp ht, b, hb, hs⟩
  · rintro ⟨hfields, hversion, hg, c, hc, t, ht, b, hb, rfl⟩
    refine ⟨(), hfields, (), hversion, c, hc, ?_⟩
    rw [if_neg (by simp [hg])]
    simp only [bind_eq_ok_iff, liftGenesis_eq_ok_iff]
    exact ⟨t, readTelemetry_eq_ok_iff.mpr ht, b, hb, rfl⟩

theorem ofDocument_source (h : ofDocument d = .ok s) : s.source = some d := by
  obtain ⟨-, -, -, c, -, t, -, b, -, rfl⟩ := ofDocument_eq_ok_iff.mp h
  rfl

theorem ofBytes_eq_ok_iff :
    ofBytes bs = .ok s ↔ ∃ d, Document.decode bs = .ok d ∧ ofDocument d = .ok s := by
  unfold ofBytes
  simp only [bind_eq_ok_iff, liftGenesis_eq_ok_iff]

/-- A snapshot is written as the document it was read from. -/
theorem toBytes_eq_of_ofDocument (h : ofDocument d = .ok s) :
    s.toBytes = Document.encode (.object d) := by
  rw [toBytes, toJson, ofDocument_source h]
  rfl

theorem isByteStable_eq_true_iff : isByteStable bs = .ok true ↔
    ∃ d, Document.decode bs = .ok d ∧ (∃ s, ofDocument d = .ok s) ∧
      Document.encode (.object d) = .ok bs := by
  unfold isByteStable
  simp only [bind_eq_ok_iff, pure_eq_ok_iff, beq_iff_eq, liftFault_eq_ok_iff, ofBytes_eq_ok_iff]
  constructor
  · rintro ⟨s, ⟨d, hd, hs⟩, bs', hbytes, rfl⟩
    exact ⟨d, hd, ⟨s, hs⟩, toBytes_eq_of_ofDocument hs ▸ hbytes⟩
  · rintro ⟨d, hd, ⟨s, hs⟩, hbytes⟩
    exact ⟨s, ⟨d, hd, hs⟩, bs, (toBytes_eq_of_ofDocument hs).trans hbytes, rfl⟩

/-- Portable documents are read back from their written form. What a snapshot is written as denotes the
same document and snapshot and is byte-stable, and the byte-stable snapshots are the written forms of
the portable documents that are snapshots. -/
theorem codec_lossless :
    (∀ d : Document, (Json.object d).Portable →
      ∃ bs, Document.encode (.object d) = .ok bs ∧ Document.decode bs = .ok d) ∧
    (∀ bs bs' s, ofBytes bs = .ok s → s.toBytes = .ok bs' →
      Document.decode bs' = Document.decode bs ∧ ofBytes bs' = .ok s ∧
        isByteStable bs' = .ok true) ∧
    ∀ bs, isByteStable bs = .ok true ↔ ∃ d : Document, (Json.object d).Portable ∧
      Document.encode (.object d) = .ok bs ∧ ∃ s, ofBytes bs = .ok s := by
  refine ⟨fun d => Document.exists_encode_decode, ?_, fun bs => ?_⟩
  · intro bs bs' s hs hbytes
    obtain ⟨d, hd, hs⟩ := ofBytes_eq_ok_iff.mp hs
    rw [toBytes_eq_of_ofDocument hs] at hbytes
    have hd' := Document.decode_of_encode (Document.portable_of_decode_encode hd hbytes) hbytes
    exact ⟨hd'.trans hd.symm, ofBytes_eq_ok_iff.mpr ⟨d, hd', hs⟩,
      isByteStable_eq_true_iff.mpr ⟨d, hd', ⟨s, hs⟩, hbytes⟩⟩
  · rw [isByteStable_eq_true_iff]
    constructor
    · rintro ⟨d, hd, ⟨s, hs⟩, hbytes⟩
      exact ⟨d, Document.portable_of_decode_encode hd hbytes, hbytes, s,
        ofBytes_eq_ok_iff.mpr ⟨d, hd, hs⟩⟩
    · rintro ⟨d, hp, hbytes, s, hs⟩
      have hd := Document.decode_of_encode hp hbytes
      obtain ⟨d', hd', hs⟩ := ofBytes_eq_ok_iff.mp hs
      rw [hd] at hd'
      cases hd'
      exact ⟨d, hd, ⟨s, hs⟩, hbytes⟩

/-- A snapshot with characters that are escaped and characters that are not. -/
def smallSnapshot : Document :=
  [("formatVersion", .int 1), ("name", .text "Größe\t\"\u0001\""), ("id", .text ""),
    ("chainType", .text "Live"), ("properties", .list [.int (-20), .bool true, .object []]),
    ("genesis", .object [("raw", .null)])]

theorem smallSnapshot_lossless : (Json.object smallSnapshot).Portable ∧
    ∃ bs, Document.encode (.object smallSnapshot) = .ok bs ∧
      Document.decode bs = .ok smallSnapshot ∧ isByteStable bs = .ok true := by
  have hp : (Json.object smallSnapshot).Portable := by decide +kernel
  obtain ⟨bs, he, hd⟩ := codec_lossless.1 smallSnapshot hp
  have hs : ∃ s, ofDocument smallSnapshot = .ok s := ⟨_, rfl⟩
  obtain ⟨s, hs⟩ := hs
  exact ⟨hp, bs, he, hd, (codec_lossless.2.2 bs).mpr
    ⟨smallSnapshot, hp, he, s, ofBytes_eq_ok_iff.mpr ⟨smallSnapshot, hd, hs⟩⟩⟩

end Spec

end LedgerGenesis
