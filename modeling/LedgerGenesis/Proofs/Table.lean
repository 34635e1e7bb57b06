import LedgerGenesis.Proofs.Files
import LedgerGenesis.Proofs.Json.Numbered
import LedgerGenesis.Proofs.Spec.Acceptance
import LedgerGenesis.Table

/-! # Tables that cannot be read

A table that is no JSON of its version is reported, and so is a section that it lacks. What lets a fault
escape is a value of another kind than the reader of a section counts on, where no report covers it. The values
of a table are those of a text, so their integers have numerals, and all that is reported of them can be shown.
-/
namespace LedgerGenesis

namespace Json

variable {v : Json} {key : Text}

/-- A value that is gone through item by item. -/
def HasItems : Json → Prop
  | list _ | object _ | table _ | text _ => True
  | _ => False

theorem exists_elements_iff : (∃ vs, v.elements = .ok vs) ↔ v.HasItems := by
  cases v <;> simp [elements, HasItems]

end Json

/-! ## What is said of a value that was not what was wanted -/

/-- A fault of the families that every table reports: a key is missing, or a value is of no use or has not
the shape. -/
def Fault.IsPlain (f : Fault) : Prop := f.family = .key ∨ f.family = .content ∨ f.family = .shape

theorem Fault.IsPlain.family_mem {f : Fault} (h : f.IsPlain) : f.family ∈ [.key, .content, .shape] := by
  simpa [IsPlain] using h

theorem Fault.family_raised {f : Fault} (h : f.family = .content) : f.raised.family = .content := by
  unfold raised
  split
  · exact h
  · rfl

namespace Json

variable {v : Json} {key : Text}

theorem throws_parse {t : Text} : Throws (fun f => f.family = .content) (parse t) := by
  intro f h
  unfold parse at h
  split at h
  next cs _ =>
    cases hread : read .lenient cs with
    | ok v =>
      rw [hread] at h
      cases h
    | error e =>
      rw [hread] at h
      cases h
      cases e <;> rfl
  next =>
    cases h
    rfl

theorem throws_field : Throws Fault.IsPlain (v.field key) := by
  intro f h
  unfold field at h
  split at h
  next fields =>
    split at h <;> cases h
    exact Or.inl rfl
  next =>
    cases h
    exact Or.inr (Or.inr rfl)

theorem throws_elements : Throws Fault.IsPlain v.elements :=
  fun _ h => Or.inr (Or.inr (family_of_elements h))

theorem throws_toBytes : Throws (fun f => f.family = .content ∨ f = .notText) v.toBytes := by
  intro f h
  unfold toBytes at h
  split at h
  next t =>
    split at h <;> cases h
    exact Or.inl rfl
  next =>
    cases h
    exact Or.inr rfl

theorem throws_toUtf8 : Throws (fun f => f.family = .content ∨ f = .notText) v.toUtf8 := by
  intro f h
  unfold toUtf8 at h
  split at h
  next t =>
    split at h <;> cases h
    exact Or.inl rfl
  next =>
    cases h
    exact Or.inr rfl

theorem throws_toInt : Throws (fun f => f.IsPlain ∨ f = .infinite) v.toInt := by
  intro f h
  unfold toInt at h
  split at h
  next => cases h
  next => cases h
  next => cases h
  next =>
    cases h
    exact Or.inr rfl
  next =>
    cases h
    exact Or.inl (Or.inr (Or.inl rfl))
  next t =>
    split at h <;> cases h
    exact Or.inl (Or.inr (Or.inl rfl))
  next =>
    cases h
    exact Or.inl (Or.inr (Or.inr rfl))

end Json

/-! ## Entries of tables -/

namespace Authority

variable {entry : Json}

/-- What is reported of an entry that is an object, and the one fault that is not. -/
theorem throws_readEntry {fields : List (Text × Json)} :
    Throws (fun f => f.family ∈ [.key, .content] ∨ f = .notText) (readEntry (.object fields)) := by
  have hfield : ∀ key, Throws (fun f => f.family ∈ [.key, .content] ∨ f = .notText)
      ((Json.object fields).field key) := by
    intro key f h
    unfold Json.field at h
    dsimp only at h
    split at h <;> cases h
    exact Or.inl List.mem_cons_self
  have hcontent : ∀ f : Fault, f.family = .content ∨ f = .notText →
      f.family ∈ [.key, .content] ∨ f = .notText := by
    intro f hf
    refine hf.imp_left fun hfamily => ?_
    rw [hfamily]
    decide
  have hkey : ∀ r, Throws (fun f => f.family ∈ [.key, .content] ∨ f = .notText)
      (entryKey (.object fields) r) :=
    fun r => throws_bind (fun _ h => by cases h) fun v _ => Json.throws_toBytes.mono hcontent
  unfold readEntry
  refine throws_bind (hfield _) fun v _ => throws_bind (Json.throws_toBytes.mono hcontent) fun account _ => ?_
  refine throws_bind (hfield _) fun w _ => throws_bind (Json.throws_toUtf8.mono hcontent) fun label _ => ?_
  refine throws_bind (hkey _) fun babe _ => throws_bind (hkey _) fun grandpa _ => ?_
  exact throws_bind (hkey _) fun imOnline _ => throws_bind (hkey _) fun discovery _ => throws_pure

/-- An entry that is no object lets a fault escape, and so does one in which the first thing wrong is a
value that should be a text. Where an entry cannot be shown, whatever is wrong with it does. -/
theorem escapes_ofJson_iff : Escapes (ofJson entry) ↔
    (∀ fields, entry ≠ .object fields) ∨ readEntry entry = .error .notText ∨
      entry.isShowable = false ∧ ∀ a, readEntry entry ≠ .ok a := by
  have hshown : ∀ f, (GenesisError.malformedAuthority entry f).isShowable = entry.isShowable := by
    simp [GenesisError.isShowable, GenesisError.shown]
  simp only [ofJson, escapes_reporting_iff, mapError_eq_error_iff, Error.fault.injEq, exists_eq_right, hshown]
  cases entry with
  | object fields =>
    simp only [ne_eq, Json.object.injEq, forall_eq', false_or]
    constructor
    · rintro ⟨f, hf, hfamily⟩
      rcases throws_readEntry f hf with hmem | rfl
      · exact Or.inr ⟨hfamily hmem, fun a ha => by rw [ha] at hf; cases hf⟩
      · exact Or.inl hf
    · rintro (hf | ⟨hshow, hn⟩)
      · exact ⟨.notText, hf, fun hmem => absurd hmem (by decide)⟩
      · obtain ⟨f, hf⟩ := exists_error_of_ne_ok hn
        exact ⟨f, hf, fun _ => hshow⟩
  | _ =>
    refine iff_of_true ⟨.notIndexed, rfl, fun hmem => absurd hmem (by decide)⟩ (Or.inl fun _ h => ?_)
    cases h

theorem escapes_ofJson_iff_of_isShowable (h : entry.isShowable = true) : Escapes (ofJson entry) ↔
    (∀ fields, entry ≠ .object fields) ∨ readEntry entry = .error .notText := by
  simp [escapes_ofJson_iff, h]

end Authority

/-- What can be wrong with a table of trustees or of an anchor, where an integer may be infinite and a text
another value. -/
def Fault.IsTabular (f : Fault) : Prop := f.IsPlain ∨ f = .notText ∨ f = .infinite

/-- Of these faults a report that covers the plain ones lets infinite integers escape, and values that should
be texts unless it covers them too. -/
theorem escapes_reporting_tabular_iff {α : Type} {x : Except Error α} {families : List Fault.Family}
    {report : Fault → GenesisError} (hreport : ∀ f, (report f).isShowable = true)
    (h : Throws (Error.Within Fault.IsTabular) x) (hplain : [Fault.Family.key, .content, .shape] ⊆ families)
    (hmagnitude : .magnitude ∉ families) : Escapes (reporting families report x) ↔
      .access ∉ families ∧ x = .error (.fault .notText) ∨ x = .error (.fault .infinite) := by
  rw [escapes_reporting_iff_of_isShowable hreport]
  constructor
  · rintro ⟨f, hf, hfamily⟩
    rcases h _ hf with hf' | rfl | rfl
    · exact absurd (hplain hf'.family_mem) hfamily
    · exact Or.inl ⟨hfamily, hf⟩
    · exact Or.inr hf
  · rintro (⟨haccess, hx⟩ | hx)
    · exact ⟨.notText, hx, haccess⟩
    · exact ⟨.infinite, hx, hmagnitude⟩

section Tabular

variable {v : Json} {key : Text}

theorem Json.throws_field_tabular :
    Throws (Error.Within Fault.IsTabular) (liftM (v.field key) : Except Error Json) :=
  throws_liftFault (throws_field.mono fun _ => Or.inl)

theorem Json.throws_elements_tabular :
    Throws (Error.Within Fault.IsTabular) (liftM v.elements : Except Error (List Json)) :=
  throws_liftFault (throws_elements.mono fun _ => Or.inl)

theorem Json.throws_toBytes_tabular :
    Throws (Error.Within Fault.IsTabular) (liftM v.toBytes : Except Error Bytes) :=
  throws_liftFault (throws_toBytes.mono fun _ h => h.imp (fun hf => Or.inr (Or.inl hf)) Or.inl)

theorem Json.throws_toUtf8_tabular :
    Throws (Error.Within Fault.IsTabular) (liftM v.toUtf8 : Except Error Bytes) :=
  throws_liftFault (throws_toUtf8.mono fun _ h => h.imp (fun hf => Or.inr (Or.inl hf)) Or.inl)

theorem Json.throws_toInt_tabular :
    Throws (Error.Within Fault.IsTabular) (liftM v.toInt : Except Error Int) :=
  throws_liftFault (throws_toInt.mono fun _ h => h.imp id Or.inr)

end Tabular

theorem Seed.throws_account {q : Fault → Prop} {seed : Json} (h : q .longNumeral) :
    Throws (Error.Within q) (account seed) := by
  refine throws_bind (fun x hx => ?_) fun t _ => throws_raising h
  unfold ofJson at hx
  split at hx
  next =>
    split at hx <;> cases hx
    exact within_raised _ h
  next =>
    cases hx
    exact within_raised _ h

open Json in
theorem Trustee.throws_ofEntry {entry : Json} :
    Throws (Error.Within Fault.IsTabular) (ofEntry entry) := by
  have haccount : Throws (Error.Within Fault.IsTabular) (entryAccount entry) := by
    unfold entryAccount
    split
    next fields =>
      split
      next => exact Seed.throws_account (Or.inl (Or.inr (Or.inl rfl)))
      next => exact throws_liftFault (throws_bind (throws_field.mono fun _ => Or.inl) fun v _ =>
          throws_toBytes.mono fun _ h => h.imp (fun hf => Or.inr (Or.inl hf)) Or.inl)
    next =>
      rintro _ ⟨⟩
      exact Or.inl (Or.inr (Or.inr rfl))
  unfold ofEntry
  refine throws_bind haccount fun account _ => ?_
  refine throws_bind throws_field_tabular fun _ _ => throws_bind throws_toUtf8_tabular fun about _ => ?_
  refine throws_bind throws_field_tabular fun _ _ => throws_bind throws_toBytes_tabular fun hot _ => ?_
  refine throws_bind throws_field_tabular fun _ _ => throws_bind throws_toBytes_tabular fun cold _ => ?_
  exact throws_liftGenesis

namespace TrusteeSet

variable {data : Json}

open Json in
theorem throws_readEntry : Throws (Error.Within Fault.IsTabular) (readEntry data) := by
  have hchain : ∀ v, Throws (Error.Within Fault.IsTabular) (liftM (readChain v) : Except Error Chain) := by
    intro v
    refine throws_liftFault fun f h => ?_
    unfold readChain at h
    split at h <;> cases h
    exact Or.inl (Or.inr (Or.inl (Fault.family_raised rfl)))
  unfold readEntry
  refine throws_bind throws_field_tabular fun _ _ => throws_bind throws_field_tabular fun _ _ => ?_
  refine throws_bind throws_toInt_tabular fun least _ => ?_
  refine throws_bind throws_field_tabular fun _ _ => throws_bind throws_field_tabular fun _ _ => ?_
  refine throws_bind throws_toInt_tabular fun greatest _ => ?_
  refine throws_bind throws_field_tabular fun _ _ => throws_bind throws_elements_tabular fun entries _ => ?_
  refine throws_bind (throws_mapM fun _ => Trustee.throws_ofEntry) fun trustees _ => ?_
  exact throws_bind throws_field_tabular fun v _ => throws_bind (hchain v) fun chain _ => throws_pure

/-- The faults that escape are a value that should be a text, and an infinite bound. -/
theorem escapes_ofJson_iff : Escapes (ofJson data) ↔
    readEntry data = .error (.fault .notText) ∨ readEntry data = .error (.fault .infinite) := by
  rw [ofJson, escapes_reporting_tabular_iff (fun _ => rfl) throws_readEntry (by decide) (by decide)]
  exact or_congr_left (and_iff_right (by decide))

end TrusteeSet

namespace Anchor

variable {fields : List (Text × Json)} {retarget : Retarget}

theorem throws_readHash {v : Json} : Throws (fun f => f.family = .content ∨ f = .notText) (readHash v) := by
  refine throws_bind Json.throws_toBytes fun bs _ f h => ?_
  split at h <;> cases h
  exact Or.inl rfl

theorem throws_readNetwork {v : Json} : Throws (fun f => f.family = .content) (readNetwork v) := by
  intro f h
  unfold readNetwork at h
  split at h <;> cases h
  exact Fault.family_raised rfl

theorem throws_makeHeader {q : Fault → Prop} {version time bits nonce : Json} {previous merkleRoot : Bytes}
    (h : q .longNumeral) :
    Throws (Error.Within q) (Header.make version previous merkleRoot time bits nonce) := by
  refine throws_bind (throws_raising h) fun _ _ => throws_bind (throws_raising h) fun _ _ => ?_
  refine throws_bind (throws_raising h) fun _ _ => throws_bind (throws_raising h) fun _ _ => ?_
  split
  next =>
    split
    next => exact throws_pure
    next =>
      rintro _ ⟨⟩
      exact trivial
  next =>
    rintro _ ⟨⟩
    exact trivial

open Json in
theorem throws_readEntry {data : Json} : Throws (Error.Within Fault.IsTabular) (readEntry data retarget) := by
  have hhash : ∀ v, Throws (Error.Within Fault.IsTabular) (liftM (readHash v) : Except Error Bytes) := fun _ =>
    throws_liftFault (throws_readHash.mono fun _ h => h.imp (fun hf => Or.inr (Or.inl hf)) Or.inl)
  have hnetwork : ∀ v, Throws (Error.Within Fault.IsTabular)
      (liftM (readNetwork v) : Except Error BitcoinNetwork) := fun _ =>
    throws_liftFault (throws_readNetwork.mono fun _ h => Or.inl (Or.inr (Or.inl h)))
  unfold readEntry
  refine throws_bind throws_field_tabular fun version _ => ?_
  refine throws_bind throws_field_tabular fun v _ => throws_bind (hhash v) fun previous _ => ?_
  refine throws_bind throws_field_tabular fun v _ => throws_bind (hhash v) fun merkleRoot _ => ?_
  refine throws_bind throws_field_tabular fun time _ => throws_bind throws_field_tabular fun bits _ => ?_
  refine throws_bind throws_field_tabular fun nonce _ => ?_
  refine throws_bind (throws_makeHeader (Or.inl (Or.inr (Or.inl rfl)))) fun header _ => ?_
  refine throws_bind throws_field_tabular fun v _ => throws_bind (hnetwork v) fun network _ => ?_
  refine throws_bind throws_field_tabular fun _ _ => throws_bind throws_toInt_tabular fun count _ => ?_
  refine throws_bind throws_field_tabular fun _ _ => throws_bind throws_toInt_tabular fun height _ => ?_
  exact throws_bind throws_field_tabular fun v _ => throws_bind (hhash v) fun declared _ => throws_pure

/-- The only fault that escapes from the entry of an anchor is an infinite number. -/
theorem escapes_ofJson_iff : Escapes (ofJson (.object fields) retarget) ↔
    readEntry (.object fields) retarget = .error (.fault .infinite) := by
  have hread : Escapes (reporting [.key, .content, .shape, .access] .malformedAnchor
      (readEntry (.object fields) retarget)) ↔ readEntry (.object fields) retarget =
        .error (.fault .infinite) := by
    rw [escapes_reporting_tabular_iff (fun _ => rfl) throws_readEntry (by decide) (by decide)]
    exact or_iff_right fun h => h.1 (by decide)
  unfold ofJson
  rw [escapes_bind_iff]
  refine (or_iff_left ?_).trans hread
  rintro ⟨anchor, -, h⟩
  split at h
  · exact not_escapes_pure h
  · exact not_escapes_genesis h

end Anchor

/-! ## Sections of tables -/

/-- A text that is hexadecimal. -/
def Json.IsHex (v : Json) : Prop := ∃ t, v = .text t ∧ (Hex.decode t).isSome

theorem Json.exists_toBytes_iff {v : Json} : (∃ bs, v.toBytes = .ok bs) ↔ v.IsHex := by
  cases v with
  | text t =>
    simp only [toBytes, IsHex, Json.text.injEq, exists_eq_left']
    cases Hex.decode t <;> simp
  | _ => simp [toBytes, IsHex]

namespace Table

variable {fs : Files} {directory : Json} {name : Text}

theorem escapes_readBytes_iff : Escapes (readBytes fs directory name) ↔ ∀ d, directory ≠ .text d := by
  unfold readBytes
  rw [escapes_bind_iff, escapes_liftFault_iff]
  cases directory with
  | text d =>
    have hpath : path (.text d) name = .ok (Path.join d name) := rfl
    refine iff_of_false ?_ (fun h => h d rfl)
    rintro (h | ⟨p, -, h⟩)
    · exact h _ hpath
    · split at h
      next hfile =>
        obtain ⟨bs, hread⟩ := Files.isFile_iff.mp hfile
        exact escapes_liftFault_iff.mp h bs hread
      next => exact not_escapes_genesis h
  | _ => exact iff_of_true (Or.inl fun _ h => by cases h) (fun _ h => by cases h)

theorem escapes_read_iff : Escapes (read fs directory name) ↔ ∀ d, directory ≠ .text d := by
  unfold read
  rw [escapes_bind_iff, escapes_readBytes_iff]
  refine or_iff_left ?_
  rintro ⟨bs, -, h⟩
  exact not_escapes_liftGenesis h

variable {t : Table} {key network : Text}

theorem numbered_of_ofBytes {bs : Bytes} (h : ofBytes name bs = .ok t) : t.toJson.Numbered := by
  unfold ofBytes at h
  split at h
  next => cases h
  next u _ =>
    split at h
    next => cases h
    next fields hfields =>
      dsimp only at h
      split at h
      · cases h
        exact Json.numbered_of_parse hfields
      · cases h
    next => cases h

theorem numbered_of_read (h : read fs directory name = .ok t) : t.toJson.Numbered := by
  obtain ⟨bs, -, hread⟩ := bind_eq_ok_iff.mp h
  exact numbered_of_ofBytes (liftGenesis_eq_ok_iff.mp hread)

theorem sectionAt_eq_ok_iff {v : Json} : t.sectionAt key = .ok v ↔ Json.lookup key t.fields = some v := by
  unfold sectionAt
  cases Json.lookup key t.fields <;> simp

/-- A section that is there and cannot be gone through. -/
def Unlisted (t : Table) (key : Text) : Prop :=
  ∃ v, Json.lookup key t.fields = some v ∧ ¬ v.HasItems

theorem escapes_entries_iff : Escapes (t.entries key) ↔ t.Unlisted key := by
  unfold entries Unlisted
  rw [escapes_bind_iff, or_iff_right not_escapes_liftGenesis]
  refine exists_congr fun v => ?_
  rw [liftGenesis_eq_ok_iff, sectionAt_eq_ok_iff, escapes_liftFault_iff, ← Json.exists_elements_iff,
    not_exists]

theorem escapes_entries_bind_iff {α : Type} {f : List Json → Except Error α} :
    Escapes (t.entries key >>= f) ↔ t.Unlisted key ∨ ∃ entries, t.entries key = .ok entries ∧
      Escapes (f entries) := by
  rw [escapes_bind_iff, escapes_entries_iff]

theorem numbered_of_entries {entries : List Json} (ht : t.toJson.Numbered) (h : t.entries key = .ok entries) :
    ∀ entry ∈ entries, entry.Numbered := by
  obtain ⟨v, hv, helements⟩ := bind_eq_ok_iff.mp h
  have hlookup := sectionAt_eq_ok_iff.mp (liftGenesis_eq_ok_iff.mp hv)
  have hsection : v.Numbered := Json.numbered_object_iff.mp ht _ (Json.mem_of_lookup hlookup)
  exact hsection.of_elements (liftFault_eq_ok_iff.mp helements)

/-- Some entry for an asset does not define one. -/
def MisstatesAssets (t : Table) : Prop :=
  t.Unlisted "assets" ∨ ∃ entries, t.entries "assets" = .ok entries ∧
    ∃ entry ∈ entries, ∀ d, AssetDefinition.ofJson entry ≠ .ok d

theorem escapes_assets_iff : Escapes t.assets ↔ t.MisstatesAssets := by
  unfold assets
  rw [escapes_entries_bind_iff]
  simp only [escapes_mapM_iff_exists]
  rfl

/-- Some account of a network is not hexadecimal. -/
def MisstatesAccounts (t : Table) (key : Text) : Prop :=
  t.Unlisted key ∨ ∃ entries, t.entries key = .ok entries ∧ ∃ entry ∈ entries, ¬ entry.IsHex

theorem escapes_accounts_iff : Escapes (t.accounts key) ↔ t.MisstatesAccounts key := by
  unfold accounts MisstatesAccounts
  rw [escapes_entries_bind_iff]
  simp only [escapes_mapM_iff_exists, ← Json.exists_toBytes_iff, not_exists]

/-- The first entry that is not taken for an authority is no object, or has another value where it should
have a text. -/
def MisstatesAuthorities (t : Table) : Prop :=
  t.Unlisted "authorities" ∨ ∃ entries, t.entries "authorities" = .ok entries ∧
    FirstLeaks (fun entry => ∃ a, Authority.ofJson entry = .ok a)
      (fun entry => (∀ fields, entry ≠ .object fields) ∨
        Authority.readEntry entry = .error .notText) entries

theorem escapes_authorities_iff (ht : t.toJson.Numbered) : Escapes t.authorities ↔ t.MisstatesAuthorities := by
  unfold authorities MisstatesAuthorities
  rw [escapes_entries_bind_iff]
  refine or_congr_right (exists_congr fun entries => and_congr_right fun hentries => ?_)
  rw [escapes_mapM_iff]
  exact firstLeaks_congr fun entry hentry =>
    Authority.escapes_ofJson_iff_of_isShowable (numbered_of_entries ht hentries entry hentry).isShowable

/-- The first entry that is not taken for a set of trustees has an infinite bound, or another value where it
should have a text. -/
def MisstatesTrustees (t : Table) : Prop :=
  t.Unlisted "candidates" ∨ ∃ entries, t.entries "candidates" = .ok entries ∧
    FirstLeaks (fun entry => ∃ set, TrusteeSet.ofJson entry = .ok set)
      (fun entry => TrusteeSet.readEntry entry = .error (.fault .notText) ∨
        TrusteeSet.readEntry entry = .error (.fault .infinite)) entries

theorem escapes_trusteeSets_iff : Escapes t.trusteeSets ↔ t.MisstatesTrustees := by
  unfold trusteeSets MisstatesTrustees
  rw [escapes_entries_bind_iff]
  simp only [escapes_mapM_iff, TrusteeSet.escapes_ofJson_iff]

/-- The administrators' keys are no object, or the one of the network is not hexadecimal. -/
def MisstatesAdminKey (t : Table) (network : Text) : Prop :=
  ∃ keys, Json.lookup "admin_keys" t.fields = some keys ∧
    ((∀ fields, keys ≠ .object fields) ∨ ∃ key, keys.field network = .ok key ∧ ¬ key.IsHex)

theorem escapes_adminKey_iff : Escapes (t.adminKey network) ↔ t.MisstatesAdminKey network := by
  unfold adminKey MisstatesAdminKey
  rw [escapes_bind_iff, or_iff_right not_escapes_liftGenesis]
  refine exists_congr fun keys => ?_
  rw [liftGenesis_eq_ok_iff, sectionAt_eq_ok_iff]
  refine and_congr_right fun _ => ?_
  rw [escapes_bind_iff, escapes_reporting_iff_of_isShowable fun _ => rfl]
  simp only [reporting_eq_ok_iff, mapError_eq_ok_iff, escapes_liftFault_iff,
    ← Json.exists_toBytes_iff, not_exists]
  refine or_congr_left ?_
  cases keys with
  | object fields =>
    refine iff_of_false ?_ (fun h => h fields rfl)
    rintro ⟨f, hf, hfamily⟩
    simp only [Json.field] at hf
    split at hf
    · cases hf
    · cases hf
      exact hfamily List.mem_cons_self
  | _ => exact iff_of_true ⟨.notIndexed, rfl, by decide⟩ (fun _ h => by cases h)

/-- A number of the anchor is infinite where all before it is in order. -/
def MisstatesAnchor (t : Table) (retarget : Retarget) : Prop :=
  Anchor.readEntry t.toJson retarget = .error (.fault .infinite)

theorem escapes_anchor_iff {retarget : Retarget} :
    Escapes (t.anchor retarget) ↔ t.MisstatesAnchor retarget := Anchor.escapes_ofJson_iff

end Table

end LedgerGenesis
