import LedgerGenesis.Image.Module
import LedgerGenesis.Image.Store
import LedgerGenesis.Proofs.Files
import LedgerGenesis.Proofs.Usage
import LedgerGenesis.Table

/-! # Tables and images in use

A table is read from the text of an object of version one, and an image is the bytes of a file that the validator
accepts. The store of either gives one version of each.
-/
namespace LedgerGenesis

/-! ## Tables -/

namespace Table

variable {fs : Files} {directory : Json} {name : Text} {bs : Bytes} {t : Table}

/-- A table is an object, and its version is equal to one. -/
def IsCurrent (t : Table) : Prop :=
  ∃ fields v, t.toJson = .object fields ∧ Json.lookup "version" fields = some v ∧ v.equal (.int 1) = true

/-- Files hold the text of a table under its name in a directory. -/
def StandsIn (t : Table) (fs : Files) (directory : Json) : Prop :=
  ∃ d bs text, directory = .text d ∧ fs.read (Path.join d t.name) = .ok bs ∧
    Text.ofUtf8? bs = some text ∧ Json.parse text = .ok t.toJson

theorem readBytes_eq_ok_iff : readBytes fs directory name = .ok bs ↔
    ∃ d, directory = .text d ∧ fs.read (Path.join d name) = .ok bs := by
  unfold readBytes
  rw [bind_eq_ok_iff]
  cases directory with
  | text d =>
    simp only [liftFault_eq_ok_iff, path, Except.ok.injEq, exists_eq_left', Json.text.injEq]
    by_cases hfile : fs.isFile (Path.join d name) = true
    · rw [if_pos hfile, liftFault_eq_ok_iff]
    · rw [if_neg hfile]
      refine iff_of_false (fun h => by cases h) fun hread => hfile (Files.isFile_iff.mpr ⟨bs, hread⟩)
  | _ => simp [liftFault_eq_ok_iff, path]

theorem isCurrent_iff : t.IsCurrent ↔
    ((Json.lookup "version" t.fields).getD .null).equal (.int version) = true := by
  constructor
  · rintro ⟨fields, v, hfields, hv, hequal⟩
    cases hfields
    rw [hv]
    exact hequal
  · intro h
    cases hv : Json.lookup "version" t.fields with
    | none =>
      rw [hv] at h
      cases h
    | some v =>
      rw [hv] at h
      exact ⟨t.fields, v, rfl, hv, h⟩

theorem ofBytes_eq_ok_iff : ofBytes name bs = .ok t ↔
    t.name = name ∧ t.IsCurrent ∧ ∃ text, Text.ofUtf8? bs = some text ∧ Json.parse text = .ok t.toJson := by
  rw [isCurrent_iff]
  unfold ofBytes
  constructor
  · intro h
    split at h
    next => cases h
    next text htext =>
      split at h
      next => cases h
      next fields hparse =>
        dsimp only at h
        split at h
        next hversion =>
          cases h
          exact ⟨rfl, hversion, text, htext, hparse⟩
        next => cases h
      next => cases h
  · rintro ⟨rfl, hversion, text, htext, hparse⟩
    simp only [htext, hparse, toJson, hversion, if_true]

theorem read_eq_ok_iff : read fs directory name = .ok t ↔
    t.name = name ∧ t.IsCurrent ∧ t.StandsIn fs directory := by
  unfold read
  simp only [bind_eq_ok_iff, readBytes_eq_ok_iff, liftGenesis_eq_ok_iff, ofBytes_eq_ok_iff]
  constructor
  · rintro ⟨bs, ⟨d, hd, hread⟩, rfl, hcurrent, text, htext, hparse⟩
    exact ⟨rfl, hcurrent, d, bs, text, hd, hread, htext, hparse⟩
  · rintro ⟨rfl, hcurrent, d, bs, text, hd, hread, htext, hparse⟩
    exact ⟨bs, ⟨d, hd, hread⟩, rfl, hcurrent, text, htext, hparse⟩

end Table

namespace TableStore

/-- A request for a table, or for one of its sections. -/
inductive Request where
  | whole (name : Text)
  | part (name key : Text)

def Request.name : Request → Text
  | whole name => name
  | part name _ => name

/-- The store that a request leaves. -/
def serve (fs : Files) : Request → TableStore → TableStore
  | .whole name, s => (s.load fs name).2
  | .part name key, s => (s.loadSection fs name key).2

def usage : Usage TableStore Request Table where
  load fs name s := s.load fs name
  serve := serve
  name := Request.name

theorem usage_wrapsCache (directory : Json) :
    usage.WrapsCache (fun fs => Table.read fs directory) (TableStore.mk directory) where
  load _ _ _ := rfl
  serve _ r _ := by cases r <;> rfl

end TableStore

/-! ## Images -/

namespace Image

variable {fs : Files} {accepts : Validator} {paths : ImagePaths} {runtime : Text} {bs : Bytes}

theorem readFile_eq_some_iff {path : Json} :
    readFile fs path = .ok (some bs) ↔ ∃ p, path = .text p ∧ fs.read p = .ok bs := by
  cases path with
  | text p => cases h : fs.read p <;> simp [readFile, Except.toOption, h]
  | int n => cases h : isHandle n <;> simp [readFile, h]
  | _ => simp [readFile]

theorem isTruthy_text_iff {p : Text} : (Json.text p).isTruthy = true ↔ p ≠ [] := by
  simp [Json.isTruthy]

/-- An image is the bytes of the file at the path of its family, if they are accepted. -/
theorem readAccepted_eq_ok_iff : readAccepted accepts fs paths runtime = .ok bs ↔
    accepts bs = true ∧ ∃ p, Json.lookup runtime paths = some (.text p) ∧ p ≠ [] ∧ fs.read p = .ok bs := by
  have hpath : ∀ p, Json.lookup runtime paths = some (.text p) ↔
      (Json.lookup runtime paths).getD .null = .text p := by
    intro p
    cases Json.lookup runtime paths <;> simp
  simp only [readAccepted, hpath]
  generalize (Json.lookup runtime paths).getD .null = path
  by_cases htruthy : path.isTruthy = true
  · simp only [htruthy, Bool.not_true, Bool.false_eq_true, if_false, bind_eq_ok_iff, liftFault_eq_ok_iff]
    constructor
    · rintro ⟨file, hfile, h⟩
      cases file with
      | none => cases h
      | some cs =>
        dsimp only at h
        split at h
        next haccepts =>
          cases h
          obtain ⟨p, rfl, hread⟩ := readFile_eq_some_iff.mp hfile
          exact ⟨haccepts, p, rfl, isTruthy_text_iff.mp htruthy, hread⟩
        next => cases h
    · rintro ⟨haccepts, p, rfl, -, hread⟩
      refine ⟨some bs, readFile_eq_some_iff.mpr ⟨p, rfl, hread⟩, ?_⟩
      dsimp only
      rw [if_pos haccepts]
      rfl
  · simp only [htruthy, Bool.not_false, if_true]
    refine iff_of_false (fun h => by cases h) ?_
    rintro ⟨-, p, rfl, hp, -⟩
    exact htruthy (isTruthy_text_iff.mpr hp)

end Image

namespace ImageStore

def usage (accepts : Image.Validator) : Usage ImageStore Text Bytes where
  load fs runtime s := s.loadAccepted accepts fs runtime
  serve fs runtime s := (s.loadAccepted accepts fs runtime).2
  name := id

theorem usage_wrapsCache (accepts : Image.Validator) (paths : ImagePaths) :
    (usage accepts).WrapsCache (fun fs => Image.readAccepted accepts fs paths) (ImageStore.mk paths) where
  load _ _ _ := rfl
  serve _ _ _ := rfl

end ImageStore

/-! ## One version of each -/

/-- However the files change between the requests, a store of tables and a store of images serve one version of
each. The tables are objects whose version is equal to one, and stood in some of the files; their sections are
those of the table that was loaded first. The images are the bytes of files and were accepted. -/
theorem stores_serve_one_version (directory : Json) (accepts : Image.Validator) (paths : ImagePaths) :
    TableStore.usage.ServesOneVersion (fun fs => Table.read fs directory) { directory } ∧
    (∀ fs es r t, TableStore.usage.answer (TableStore.usage.run ⟨fs, { directory }⟩ es) r.name = .ok t →
      t.IsCurrent ∧ (∃ fs' ∈ fs :: Event.changes es, t.StandsIn fs' directory) ∧
      ∀ key later, ∀ m, TableStore.usage.run ⟨fs, { directory }⟩ (es ++ .request r :: later) = m →
        (m.store.loadSection m.files r.name key).1 = liftM (t.sectionAt key)) ∧
    (ImageStore.usage accepts).ServesOneVersion (fun fs => Image.readAccepted accepts fs paths) { paths } ∧
    ∀ fs es runtime bs,
      (ImageStore.usage accepts).answer ((ImageStore.usage accepts).run ⟨fs, { paths }⟩ es) runtime = .ok bs →
      accepts bs = true ∧ ∃ fs' ∈ fs :: Event.changes es,
        ∃ p, Json.lookup runtime paths = some (.text p) ∧ fs'.read p = .ok bs := by
  have htables := (TableStore.usage_wrapsCache directory).servesOneVersion
  have himages := (ImageStore.usage_wrapsCache accepts paths).servesOneVersion
  refine ⟨htables, ?_, himages, ?_⟩
  · intro fs es r t h
    obtain ⟨fs', hfs', hread⟩ := htables.origin fs es r.name t h
    obtain ⟨-, hcurrent, hstands⟩ := Table.read_eq_ok_iff.mp hread
    refine ⟨hcurrent, ⟨fs', hfs', hstands⟩, ?_⟩
    rintro key later m rfl
    have hkept := htables.kept fs es r t later h
    exact congrArg (· >>= fun t => liftM (t.sectionAt key)) hkept
  · intro fs es runtime bs h
    obtain ⟨fs', hfs', hread⟩ := himages.origin fs es runtime bs h
    obtain ⟨haccepts, p, hp, -, hread⟩ := Image.readAccepted_eq_ok_iff.mp hread
    exact ⟨haccepts, fs', hfs', p, hp, hread⟩

/-- A table and an image, with settings for the image. -/
def plainFiles : Files :=
  ⟨[([Utf8.encode "t".toList], Utf8.encode "\x7b\"version\":true\x7d".toList),
    ([Utf8.encode "c".toList], Wasm.header)], []⟩

def plainTable : Table := ⟨"t", [("version", .bool true)]⟩

def plainPaths : ImagePaths := [("dev", .text "c")]

/-- Both are given also after their files are gone, and are read anew where the first load came too early. -/
theorem plainFiles_serve_one_version :
    (TableStore.usage.answer (TableStore.usage.run ⟨plainFiles, { directory := .text [] }⟩
      [.request (.part "t" "assets"), .change Files.empty]) "t" = .ok plainTable ∧ plainTable.IsCurrent) ∧
    (ImageStore.usage Wasm.isModule).answer ((ImageStore.usage Wasm.isModule).run
      ⟨Files.empty, { paths := plainPaths }⟩ [.request "dev", .change plainFiles]) "dev" = .ok Wasm.header := by
  obtain ⟨htables, hcurrent, himages, -⟩ :=
    stores_serve_one_version (.text []) Wasm.isModule plainPaths
  have htable : TableStore.usage.answer ⟨plainFiles, { directory := .text [] }⟩ "t" = .ok plainTable := by
    decide +kernel
  have himage : (ImageStore.usage Wasm.isModule).answer ⟨Files.empty, { paths := plainPaths }⟩ "dev" =
      .error (.genesis (.imageNotFound "dev" (.text "c"))) := by
    decide +kernel
  have hread : Image.readAccepted Wasm.isModule plainFiles plainPaths "dev" = .ok Wasm.header := by
    decide +kernel
  refine ⟨⟨htables.kept _ [] (.part "t" "assets") _ [.change Files.empty] htable,
    (hcurrent _ [] (.part "t" "assets") _ htable).1⟩, ?_⟩
  have hafresh := himages.afresh _ [] "dev" _ [.change plainFiles] himage (by simp)
  exact hafresh.trans hread

end LedgerGenesis
