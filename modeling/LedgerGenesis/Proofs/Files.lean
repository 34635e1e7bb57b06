import LedgerGenesis.Files.Basic
import LedgerGenesis.Proofs.Escape

/-! # What is written is read

Writing a file takes and makes no directory, so that its path leads where it did, and there the file is.
What keeps a file from being read is its path or what stands on it.
-/
namespace LedgerGenesis.Files

variable {fs made : Files} {l m k : Location} {c : Bytes} {cs ds : List Bytes} {bs : Bytes} {p : Text}
  {r : Route}

/-! ## Reading a file -/

theorem isFile_iff : fs.isFile p = true ↔ ∃ bs, fs.read p = .ok bs := by
  unfold isFile
  cases fs.read p <;> simp [Except.isOk, Except.toBool]

theorem locate_eq_ok_iff : fs.locate p = .ok l ↔ ∃ r, Route.ofPath p = .ok r ∧
    fs.walk r.origin r.names = .ok l ∧ (r.endsInSlash = true → fs.isDirectory l = true) := by
  unfold locate
  simp only [bind_eq_ok_iff]
  constructor
  · rintro ⟨r, hr, m, hm, h⟩
    by_cases hs : (r.endsInSlash && !fs.isDirectory m) = true
    · simp [hs, throw, throwThe, MonadExceptOf.throw] at h
    · rw [if_neg hs] at h
      cases h
      refine ⟨r, hr, hm, fun hslash => ?_⟩
      simpa [hslash] using hs
  · rintro ⟨r, hr, hl, hs⟩
    refine ⟨r, hr, l, hl, ?_⟩
    have hs : ¬ (r.endsInSlash && !fs.isDirectory l) = true := by simpa using hs
    rw [if_neg hs]
    rfl

theorem read_eq_ok_iff : fs.read p = .ok bs ↔ ∃ l, fs.locate p = .ok l ∧ fs.content? l = some bs := by
  unfold read
  rw [bind_eq_ok_iff]
  refine exists_congr fun l => and_congr_right fun _ => ?_
  cases fs.content? l with
  | none => simp [throw, throwThe, MonadExceptOf.throw]
  | some c => simp [pure, Except.pure]

/-- The families of the faults that a path, and what it leads to, can have. -/
def IsPathFault (f : Fault) : Prop := f.family = .content ∨ f.family = .system

theorem isPathFault_blocked : IsPathFault (fs.blocked l) := by
  unfold blocked
  split
  · exact Or.inr rfl
  · exact Or.inr rfl

theorem throws_ofPath : Throws IsPathFault (Route.ofPath p) := by
  intro f h
  unfold Route.ofPath at h
  split at h
  next =>
    cases h
    exact Or.inl rfl
  next =>
    split_ifs at h <;> cases h
    · exact Or.inl rfl
    · exact Or.inr rfl
    · exact Or.inr rfl

theorem throws_enter : Throws IsPathFault (fs.enter l c) := by
  intro f h
  unfold enter at h
  split_ifs at h <;> cases h
  · exact isPathFault_blocked
  · exact Or.inr rfl

theorem throws_walk : Throws IsPathFault (fs.walk l cs) := by
  induction cs generalizing l with
  | nil => exact throws_pure
  | cons c cs ih => exact throws_bind throws_enter fun _ _ => ih

/-- A file is not read because of its path or of what stands there. -/
theorem throws_read : Throws IsPathFault (fs.read p) := by
  have hlocate : Throws IsPathFault (fs.locate p) := by
    refine throws_bind throws_ofPath fun r _ => throws_bind throws_walk fun l _ f h => ?_
    dsimp only at h
    split at h
    · cases h
      exact isPathFault_blocked
    · cases h
  refine throws_bind hlocate fun l _ f h => ?_
  split at h
  next => cases h
  next =>
    cases h
    split
    · exact Or.inr rfl
    · exact Or.inr rfl

/-! ## Writing a file -/

theorem isDirectory_setContent : (fs.setContent k bs).isDirectory l = fs.isDirectory l := rfl

theorem content?_setContent : (fs.setContent l bs).content? l = some bs := by
  simp [setContent, content?]

theorem enter_eq_ok_iff : fs.enter l c = .ok m ↔
    fs.isDirectory l = true ∧ c.length ≤ maxNameLength ∧ advance l c = m := by
  unfold enter
  split
  next h => simp_all
  next h =>
    split
    next hlong => simp [Nat.not_le.mpr hlong]
    next hlong => simp_all

theorem walk_cons_eq_ok_iff :
    fs.walk l (c :: cs) = .ok m ↔ ∃ k, fs.enter l c = .ok k ∧ fs.walk k cs = .ok m := bind_eq_ok_iff

theorem walk_append_eq_ok_iff :
    fs.walk l (cs ++ ds) = .ok m ↔ ∃ k, fs.walk l cs = .ok k ∧ fs.walk k ds = .ok m := by
  induction cs generalizing l with
  | nil => simp [walk]
  | cons c cs ih =>
    simp only [List.cons_append, walk_cons_eq_ok_iff, ih]
    constructor
    · rintro ⟨k, hk, n, hn, hm⟩
      exact ⟨n, ⟨k, hk, hn⟩, hm⟩
    · rintro ⟨n, ⟨k, hk, hn⟩, hm⟩
      exact ⟨k, hk, n, hn, hm⟩

theorem walk_setContent_eq_ok_iff :
    (fs.setContent k bs).walk l cs = .ok m ↔ fs.walk l cs = .ok m := by
  induction cs generalizing l with
  | nil => rfl
  | cons c cs ih =>
    have henter : ∀ n, (fs.setContent k bs).enter l c = .ok n ↔ fs.enter l c = .ok n := by
      intro n
      rw [enter_eq_ok_iff, enter_eq_ok_iff, isDirectory_setContent]
    simp only [walk_cons_eq_ok_iff, henter, ih]

theorem locate_setContent_eq_ok_iff : (fs.setContent k bs).locate p = .ok l ↔ fs.locate p = .ok l := by
  simp only [locate_eq_ok_iff, walk_setContent_eq_ok_iff, isDirectory_setContent]

/-- The entry that a route ends at is where the names on it lead. -/
theorem walk_of_entry {f : Fault} (h : fs.entry r f = .ok l) : fs.walk r.origin r.names = .ok l := by
  obtain ⟨parent, hparent, h⟩ := bind_eq_ok_iff.mp h
  by_cases hd : fs.isDirectory parent = true
  · cases hname : r.entryName? with
    | none => simp [hd, hname, throw, throwThe, MonadExceptOf.throw] at h
    | some name =>
      have h : fs.enter parent name = .ok l := by simpa [hd, hname] using h
      have hlast : r.names.getLast? = some name := (Option.filter_eq_some_iff.mp hname).1
      obtain ⟨front, hfront⟩ := List.getLast?_eq_some_iff.mp hlast
      rw [hfront, List.dropLast_concat] at hparent
      rw [hfront]
      exact walk_append_eq_ok_iff.mpr ⟨parent, hparent, walk_cons_eq_ok_iff.mpr ⟨l, h, rfl⟩⟩
  · simp [hd, throw, throwThe, MonadExceptOf.throw, bind, Except.bind] at h

theorem write_eq_ok_iff : fs.write p bs = .ok made ↔ ∃ r l, Route.ofPath p = .ok r ∧
    fs.entry r .isDirectory = .ok l ∧ r.endsInSlash = false ∧ fs.isDirectory l = false ∧
      fs.setContent l bs = made := by
  unfold write
  simp only [bind_eq_ok_iff, exists_and_left]
  refine exists_congr fun r => and_congr_right fun _ => exists_congr fun l => and_congr_right fun _ => ?_
  by_cases hs : r.endsInSlash = true
  · simp [hs, throw, throwThe, MonadExceptOf.throw, bind, Except.bind]
  · by_cases hd : fs.isDirectory l = true
    · simp [hd, throw, throwThe, MonadExceptOf.throw, bind, Except.bind]
    · simp [hs, hd, pure, Except.pure]

theorem read_write (h : fs.write p bs = .ok made) : made.read p = .ok bs := by
  obtain ⟨r, l, hr, hl, hs, -, rfl⟩ := write_eq_ok_iff.mp h
  have hlocate : fs.locate p = .ok l := by
    refine locate_eq_ok_iff.mpr ⟨r, hr, walk_of_entry hl, fun hslash => ?_⟩
    rw [hs] at hslash
    cases hslash
  exact read_eq_ok_iff.mpr ⟨l, locate_setContent_eq_ok_iff.mpr hlocate, content?_setContent⟩

theorem exists_write_iff (fs : Files) (p : Text) (bs cs : Bytes) :
    (∃ made, fs.write p bs = .ok made) ↔ ∃ made, fs.write p cs = .ok made := by
  have hany : ∀ ds, (∃ made, fs.write p ds = .ok made) ↔ ∃ r l, Route.ofPath p = .ok r ∧
      fs.entry r .isDirectory = .ok l ∧ r.endsInSlash = false ∧ fs.isDirectory l = false := by
    intro ds
    constructor
    · rintro ⟨made, h⟩
      obtain ⟨r, l, hr, hl, hs, hd, -⟩ := write_eq_ok_iff.mp h
      exact ⟨r, l, hr, hl, hs, hd⟩
    · rintro ⟨r, l, hr, hl, hs, hd⟩
      exact ⟨_, write_eq_ok_iff.mpr ⟨r, l, hr, hl, hs, hd, rfl⟩⟩
  rw [hany bs, hany cs]

theorem place_eq (h : (fs.makeDirectories (directoryOf p)).fault? = none) : fs.place p bs =
    .ofStep (fs.makeDirectories (directoryOf p)).files
      ((fs.makeDirectories (directoryOf p)).files.write p bs) := by
  simp only [place, Attempt.andThen, h]

theorem fault?_place_eq_none_iff : (fs.place p bs).fault? = none ↔
    (fs.makeDirectories (directoryOf p)).fault? = none ∧
      ∃ made, (fs.makeDirectories (directoryOf p)).files.write p bs = .ok made := by
  cases hmade : (fs.makeDirectories (directoryOf p)).fault? with
  | some f => simp [place, Attempt.andThen, hmade]
  | none =>
    rw [place_eq hmade]
    cases (fs.makeDirectories (directoryOf p)).files.write p bs <;> simp [Attempt.ofStep]

/-- What is placed at a path is the file that is read there. -/
theorem read_place (h : (fs.place p bs).fault? = none) : (fs.place p bs).files.read p = .ok bs := by
  obtain ⟨hmade, made, hwrite⟩ := fault?_place_eq_none_iff.mp h
  rw [place_eq hmade, hwrite]
  exact read_write hwrite

/-- Whether a file can be placed does not depend on what it will hold. -/
theorem fault?_place_eq_none_congr (fs : Files) (p : Text) (bs cs : Bytes) :
    (fs.place p bs).fault? = none ↔ (fs.place p cs).fault? = none := by
  rw [fault?_place_eq_none_iff, fault?_place_eq_none_iff, exists_write_iff _ p bs cs]

/-! ## Files elsewhere -/

theorem content?_setContent_of_ne (h : m ≠ l) : (fs.setContent l bs).content? m = fs.content? m := by
  have hfilter : ∀ contents : List (Location × Bytes),
      (contents.filter fun p => p.1 ≠ l).lookup m = contents.lookup m := by
    intro contents
    induction contents with
    | nil => rfl
    | cons f contents ih =>
      obtain ⟨k, c⟩ := f
      by_cases hk : k = l
      · have hm : (m == k) = false := by simpa [hk] using h
        rw [List.filter_cons_of_neg (by simp [hk]), ih, List.lookup_cons, hm]
      · rw [List.filter_cons_of_pos (by simp [hk]), List.lookup_cons, List.lookup_cons, ih]
  have hl : (m == l) = false := by simpa using h
  rw [content?, content?, setContent, List.lookup_cons, hl, hfilter]

/-- A file that is put where the path does not lead changes nothing of what is read there. -/
theorem read_setContent_of_ne {content : Bytes} (h : fs.locate p ≠ .ok l) :
    (fs.setContent l content).read p = .ok bs ↔ fs.read p = .ok bs := by
  rw [read_eq_ok_iff, read_eq_ok_iff]
  refine exists_congr fun m => ?_
  rw [locate_setContent_eq_ok_iff]
  refine and_congr_right fun hm => ?_
  have hne : m ≠ l := by
    rintro rfl
    exact h hm
  rw [content?_setContent_of_ne hne]

end LedgerGenesis.Files
