import LedgerGenesis.Proofs.Files
import LedgerGenesis.Proofs.Json.Merging
import LedgerGenesis.Proofs.Json.Printing
import LedgerGenesis.Settings

/-! # Settings and their files

Each field of settings is the last value that the file gives for it, or the default where its section does not
name it. Settings from a file without doubles are printed in ASCII, so that reading the print gives them again:
halves of pairs stand for the characters beyond the first plane, and no key is repeated any more.
-/
namespace LedgerGenesis

namespace Settings

open Json (Portable Throughout)

variable {s : Settings} {v : Json} {file fields : List (Text × Json)} {group name : Text} {names : List Text}

/-- The sections of settings and their fields, in the order in which they are written. -/
def layout : List (Text × List Text) :=
  [("runtime", runtimeFields), ("resources", tableFields), ("telemetry", telemetryFields)]

/-- Settings with the given value for each field of each section. -/
def laidOut (value : Text → Text → Json) : Json :=
  .object (layout.map fun part => (part.1, .object (part.2.map fun name => (name, value part.1 name))))

/-- The default of a field. -/
def standard (group name : Text) : Json := ((({} : Settings).toJson).at? [group, name]).getD .null

theorem ofJson_toJson (s : Settings) : ofJson s.toJson = .ok s := rfl

/-! ## The fields of a file -/

theorem lookup_of_readSection (h : readSection group names file = .ok fields) :
    Json.lookup name fields = (Json.object file).at? [group, name] := by
  unfold readSection at h
  rw [Json.at?]
  cases hsection : Json.lookup group file with
  | none =>
    rw [hsection] at h
    cases h
    rfl
  | some v =>
    rw [hsection, Option.getD_some] at h
    cases v with
    | object given =>
      simp only at h
      split at h
      · cases h
      · cases h
        cases hname : Json.lookup name fields <;> simp [Json.at?, hname]
    | _ => cases h

theorem fieldOr_of_readSection {default : Json} (h : readSection group names file = .ok fields) :
    fieldOr fields name default = ((Json.object file).at? [group, name]).getD default := by
  rw [fieldOr, lookup_of_readSection h]

/-- Every field is what stands in its place, or its default. -/
theorem toJson_of_ofJson (h : ofJson v = .ok s) :
    s.toJson = laidOut fun group name => (v.at? [group, name]).getD (standard group name) := by
  cases v with
  | object file =>
    simp only [ofJson, bind_eq_ok_iff, pure_eq_ok_iff] at h
    obtain ⟨runtime, hruntime, tables, htables, telemetry, htelemetry, rfl⟩ := h
    simp only [fieldOr_of_readSection hruntime, fieldOr_of_readSection htables, fieldOr_of_readSection htelemetry]
    rfl
  | _ => cases h

/-! ## Settings that can be printed -/

theorem portable_of_at? {path : List Text} {w : Json} (h : v.Portable) (hw : v.at? path = some w) : w.Portable := by
  induction path generalizing v with
  | nil =>
    have hself : v.at? [] = some v := by cases v <;> rfl
    rw [hself] at hw
    exact Option.some.inj hw ▸ h
  | cons k path ih =>
    cases v with
    | object fields =>
      obtain ⟨u, hu, hpath⟩ := Option.bind_eq_some_iff.mp hw
      exact ih (h.mem_object (Json.mem_of_lookup hu)).2 hpath
    | _ => cases hw

theorem portable_laidOut {value : Text → Text → Json}
    (h : ∀ part ∈ layout, ∀ name ∈ part.2, (value part.1 name).Portable) : (laidOut value).Portable := by
  have hnames : ∀ part ∈ layout, part.1.WellFormed ∧ part.2.Nodup ∧ ∀ name ∈ part.2, name.WellFormed := by decide
  refine Json.portable_object_map (by decide) fun part hpart => ?_
  obtain ⟨hgroup, hnodup, hform⟩ := hnames part hpart
  refine ⟨hgroup, Json.portable_object_map (by rwa [List.map_id']) fun name hname => ?_⟩
  exact ⟨hform name hname, h part hpart name hname⟩

theorem portable_standard : (standard group name).Portable := by
  have hdefault : ({} : Settings).toJson.Portable := by decide +kernel
  unfold standard
  cases hat : ({} : Settings).toJson.at? [group, name] with
  | none => decide
  | some w => exact portable_of_at? hdefault hat

theorem portable_toJson (h : ofJson v = .ok s) (hv : v.Portable) : s.toJson.Portable := by
  rw [toJson_of_ofJson h]
  refine portable_laidOut fun part _ name _ => ?_
  cases hat : v.at? [part.1, name] with
  | none => exact portable_standard
  | some w => exact portable_of_at? hv hat

/-! ## Files of settings -/

theorem ofBytes_eq_ok_iff {bs : Bytes} : ofBytes bs = .ok s ↔
    ∃ cs v, bs = Utf8.encode cs ∧ Json.read .lenient cs = .ok v ∧ ofJson v = .ok s := by
  simp only [← Utf8.decode_eq_some_iff]
  unfold ofBytes Text.ofUtf8?
  cases Utf8.decode bs with
  | none => simp
  | some cs =>
    have hparse : Json.parse (Text.ofChars cs) = (Json.read .lenient cs).mapError Json.ReadError.fault := by
      rw [Json.parse, Text.chars?_eq_some_iff.mpr rfl]
    simp only [Option.map_some, hparse, Option.some.injEq, exists_and_left, exists_eq_left']
    change ((Json.read .lenient cs).mapError Json.ReadError.fault >>= ofJson) = .ok s ↔ _
    simp only [bind_eq_ok_iff, mapError_eq_ok_iff]

/-- What is written is read as it was. -/
theorem ofBytes_toBytes (h : s.toJson.Portable) : ofBytes s.toBytes = .ok s := by
  obtain ⟨cs, hcs, hdenotes⟩ := Json.exists_denotes Json.faithful_asciiStyle h
  have hbytes : s.toBytes = Utf8.encode cs := by
    rw [toBytes, fileText, hcs, Text.utf8?_ofChars]
    rfl
  exact ofBytes_eq_ok_iff.mpr
    ⟨cs, s.toJson, hbytes, Json.read_lenient_of_exact hdenotes h.exact, ofJson_toJson s⟩

theorem ofFile_place {fs : Files} {path : Text} (h : s.toJson.Portable)
    (hplace : (fs.place path s.toBytes).fault? = none) :
    ofFile (fs.place path s.toBytes).files path = .ok s := by
  rw [ofFile, Files.read_place hplace]
  exact ofBytes_toBytes h

/-- The text of a settings file denotes one value. Each field of the settings is the last value that is given there
for it, with one field for each key, and otherwise its default. If the value holds no double and all its texts have
bytes, the settings are read again from wherever they are placed. -/
theorem file_read_back {fs : Files} {path : Text} (h : ofFile fs path = .ok s) :
    ∃ cs w, fs.read path = .ok (Utf8.encode cs) ∧ (∀ v, Json.Denotes cs v ↔ v = w) ∧
      s.toJson = laidOut (fun group name =>
        ((w.last? [group, name]).map Json.merged).getD (standard group name)) ∧
      (w.Throughout Json.IsNoDouble → w.Throughout Json.IsWellFormed →
        ∀ (fs' : Files) (path' : Text), (fs'.place path' s.toBytes).fault? = none →
          ofFile (fs'.place path' s.toBytes).files path' = .ok s) := by
  unfold ofFile at h
  cases hread : fs.read path with
  | error f =>
    rw [hread] at h
    cases h
  | ok bs =>
    rw [hread] at h
    obtain ⟨cs, v, rfl, hv, hs⟩ := ofBytes_eq_ok_iff.mp h
    obtain ⟨w, hdenotes, hreadable, rfl⟩ := Json.read_lenient_eq_ok_iff.mp hv
    refine ⟨cs, w, rfl, fun v => ⟨hdenotes.unique hreadable, ?_⟩, ?_, fun hdouble hform fs' path' hplace => ?_⟩
    · rintro rfl
      exact hdenotes
    · simp only [toJson_of_ofJson hs, Json.at?_merged]
    · exact ofFile_place (portable_toJson hs ⟨Json.exact_merged hreadable hdouble, Json.wellFormed_merged hform⟩)
        hplace

/-- A settings file with a section, fields and a key given twice, halves of a pair and a field that is nobody's. -/
def crowdedText : List Char :=
  "\x7b\"runtime\":\x7b\"dev\":\"x\"\x7d,\"telemetry\":\x7b\"verbosity\":1,".toList ++
  "\"mainnet\":[\"\\ud83d\\ude00\",\x7b\"a\":1,\"b\":2,\"a\":\"é\"\x7d],\"verbosity\":-20\x7d,".toList ++
  "\"runtime\":\x7b\"malan\":null\x7d,\"owner\":[]\x7d".toList

def crowdedFiles : Files := ⟨[([Utf8.encode "c.json".toList], Utf8.encode crowdedText)], []⟩

/-- What it sets. -/
def crowdedSettings : Settings where
  malanImage := .null
  mainnetTelemetry := .list [.text "😀", .object [("a", .text "é"), ("b", .int 2)]]
  verbosity := .int (-20)

/-- They are read again from another file. -/
theorem crowdedSettings_read_back : ofFile crowdedFiles "c.json" = .ok crowdedSettings ∧
    ofFile (Files.empty.place "d/e.json" crowdedSettings.toBytes).files "d/e.json" = .ok crowdedSettings := by
  have hread : ofFile crowdedFiles "c.json" = .ok crowdedSettings := by decide +kernel
  obtain ⟨cs, w, hcs, hw, -, hback⟩ := file_read_back hread
  have htext : crowdedFiles.read "c.json" = .ok (Utf8.encode crowdedText) := by decide +kernel
  obtain rfl : cs = crowdedText := Utf8.encode_injective (Except.ok.inj (hcs.symm.trans htext))
  have hplain : (Json.read .verbatim crowdedText).map (fun v =>
      decide (v.Throughout Json.IsNoDouble ∧ v.Throughout Json.IsWellFormed)) = .ok true := by decide +kernel
  obtain ⟨v, hv, hdecide⟩ := map_eq_ok_iff.mp hplain
  obtain rfl := (hw v).mp ((Json.read_eq_ok_iff Json.takes_verbatim).mp hv).1
  obtain ⟨hdouble, hform⟩ := of_decide_eq_true hdecide
  exact ⟨hread, hback hdouble hform Files.empty "d/e.json" (by decide +kernel)⟩

end Settings

end LedgerGenesis
