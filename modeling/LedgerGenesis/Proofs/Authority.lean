import LedgerGenesis.Authority
import LedgerGenesis.Proofs.Hexadecimal
import LedgerGenesis.Proofs.Json.Path
import LedgerGenesis.Proofs.Outcome
import LedgerGenesis.Proofs.Text.Utf8

/-! # Published entries of authorities

An entry gives the keys in hexadecimal and the label as a text. Keys of any length are read back as they were,
and a key that the entry does not give is read as an empty one, so in either case the role of a key that is no
public key is missing.
-/
namespace LedgerGenesis

variable {fields : List (Text × Json)} {entry v : Json} {k t : Text} {r : Role} {omitted : List Role}

namespace Json

/-- A mapping without the fields of the given names. -/
def without (names : List Text) : Json → Json
  | object fields => object (fields.filter fun f => !names.contains f.1)
  | v => v

theorem toUtf8_eq_ok_iff {bs : Bytes} : v.toUtf8 = .ok bs ↔ ∃ t, v = .text t ∧ t.utf8? = some bs := by
  cases v with
  | text t => cases h : t.utf8? <;> simp [toUtf8, h]
  | _ => simp [toUtf8]

end Json

/-- The name of a role's field in an entry. -/
def Role.field (r : Role) : Text := r.name

theorem Role.field_injective : Function.Injective Role.field := by
  intro r q h
  rw [field, field, Text.ofString_inj] at h
  cases r <;> cases q <;> first | rfl | exact absurd h (by decide)

theorem Role.mem_all (r : Role) : r ∈ all := by cases r <;> decide

namespace Authority

variable {a : Authority}

theorem mem_missingRoles_iff : r ∈ a.missingRoles ↔ (a.key r).length ≠ keyLength := by
  simp [missingRoles, r.mem_all]

theorem isComplete_iff : a.isComplete = true ↔ ∀ r, (a.key r).length = keyLength := by
  rw [isComplete, List.isEmpty_iff, List.eq_nil_iff_forall_not_mem]
  simp only [mem_missingRoles_iff, ne_eq, Decidable.not_not]

/-! ## Reading -/

/-- What the fields of an entry say of an authority. -/
structure GivenBy (a : Authority) (fields : List (Text × Json)) : Prop where
  account : Role.account.field ∈ Json.keys fields
  referral : ∃ label, Json.lookup "referral" fields = some label ∧ label.toUtf8 = .ok a.referral
  keys : ∀ r : Role, ((Json.lookup r.field fields).getD (.text [])).toBytes = .ok (a.key r)

theorem field_eq_ok_iff : entry.field k = .ok v ↔
    ∃ fields, entry = .object fields ∧ Json.lookup k fields = some v := by
  cases entry with
  | object fields => cases h : Json.lookup k fields <;> simp [Json.field, h]
  | _ => simp [Json.field]

theorem entryKey_object : entryKey (.object fields) r = ((Json.lookup r.field fields).getD (.text [])).toBytes :=
  rfl

theorem ofJson_eq_ok_iff : ofJson entry = .ok a ↔ ∃ fields, entry = .object fields ∧ a.GivenBy fields := by
  rw [ofJson, reporting_eq_ok_iff, mapError_eq_ok_iff]
  simp only [readEntry, bind_eq_ok_iff, pure_eq_ok_iff, field_eq_ok_iff]
  constructor
  · rintro ⟨_, ⟨fields, rfl, haccount⟩, account, hkey, _, ⟨_, hsame, hreferral⟩, label, hlabel, babe, hbabe,
      grandpa, hgrandpa, imOnline, himOnline, discovery, hdiscovery, rfl⟩
    cases hsame
    refine ⟨fields, rfl, Json.exists_lookup_iff.mp ⟨_, haccount⟩, ⟨_, hreferral, hlabel⟩, fun r => ?_⟩
    cases r with
    | account =>
      rw [Role.field, haccount]
      exact hkey
    | babe => exact hbabe
    | grandpa => exact hgrandpa
    | imOnline => exact himOnline
    | authorityDiscovery => exact hdiscovery
  · rintro ⟨fields, rfl, haccount, ⟨label, hreferral, hlabel⟩, hkeys⟩
    obtain ⟨account, haccount⟩ := Json.exists_lookup_iff.mpr haccount
    have hkey := hkeys .account
    rw [haccount, Option.getD_some] at hkey
    exact ⟨_, ⟨fields, rfl, haccount⟩, _, hkey, _, ⟨fields, rfl, hreferral⟩, _, hlabel, _, hkeys .babe, _,
      hkeys .grandpa, _, hkeys .imOnline, _, hkeys .authorityDiscovery, rfl⟩

/-! ## Writing -/

/-- The fields of the entry that is published under a label. -/
def published (a : Authority) (label : Text) : List (Text × Json) := [
  (Role.account.field, .text (Hex.encode a.account)),
  ("referral", .text label),
  (Role.babe.field, .text (Hex.encode a.babe)),
  (Role.grandpa.field, .text (Hex.encode a.grandpa)),
  (Role.imOnline.field, .text (Hex.encode a.imOnline)),
  (Role.authorityDiscovery.field, .text (Hex.encode a.authorityDiscovery))]

theorem toJson_of_label (h : Text.ofUtf8? a.referral = some t) : a.toJson = .ok (.object (a.published t)) := by
  rw [toJson, h]
  rfl

theorem lookup_published : Json.lookup r.field (a.published t) = some (.text (Hex.encode (a.key r))) := by
  cases r <;> rfl

/-- The authority without the keys of some roles. -/
def withheld (a : Authority) (omitted : List Role) : Authority :=
  let key r := if omitted.contains r then [] else a.key r
  { account := key .account
    referral := a.referral
    babe := key .babe
    grandpa := key .grandpa
    imOnline := key .imOnline
    authorityDiscovery := key .authorityDiscovery }

theorem key_withheld : (a.withheld omitted).key r = if omitted.contains r then [] else a.key r := by
  cases r <;> rfl

theorem withheld_nil : a.withheld [] = a := rfl

theorem missingRoles_withheld : (a.withheld omitted).missingRoles =
    Role.all.filter fun r => omitted.contains r || a.missingRoles.contains r := by
  unfold missingRoles
  refine List.filter_congr fun r _ => ?_
  rw [key_withheld]
  by_cases hr : omitted.contains r = true
  · simp only [hr, if_true, Bool.true_or]
    rfl
  · have hmissing : ((a.key r).length != keyLength) = a.missingRoles.contains r := by
      rw [Bool.eq_iff_iff, List.contains_iff_mem, mem_missingRoles_iff, bne_iff_ne]
    simp only [hr, Bool.false_or, Bool.false_eq_true, if_false]
    exact hmissing

theorem givenBy_without (ht : t.utf8? = some a.referral) (haccount : Role.account ∉ omitted) :
    (a.withheld omitted).GivenBy
      ((a.published t).filter fun f => !(omitted.map Role.field).contains f.1) := by
  have hlookup (k : Text) :=
    @Json.lookup_filter (a.published t) k fun l => !(omitted.map Role.field).contains l
  have hfield : ∀ r : Role, (omitted.map Role.field).contains r.field = omitted.contains r := by
    intro r
    rw [Bool.eq_iff_iff, List.contains_iff_mem, List.contains_iff_mem, List.mem_map_of_injective Role.field_injective]
  have hlabel : (omitted.map Role.field).contains (Text.ofString "referral") = false := by
    rw [Bool.eq_false_iff, Ne, List.contains_iff_mem, List.mem_map]
    rintro ⟨r, -, hr⟩
    cases r <;> exact absurd hr (by decide)
  refine ⟨?_, ⟨.text t, ?_, ?_⟩, fun r => ?_⟩
  · rw [← Json.exists_lookup_iff, hlookup, hfield, lookup_published]
    exact ⟨_, if_pos (by simpa using haccount)⟩
  · rw [hlookup, hlabel]
    rfl
  · rw [Json.toUtf8, ht]
    rfl
  · rw [hlookup, hfield, lookup_published, key_withheld]
    by_cases hr : omitted.contains r = true
    · simp only [hr]
      rfl
    · simp only [hr]
      simp [Json.toBytes]

/-- Every authority whose label is text is published, and its entry is read back as it was, whatever its keys
are. Without some of its session keys the entry is read as the authority without them, who misses those roles
and the ones that were missing before. Whichever entry an authority was read from, its own entry gives it too. -/
theorem entry_read_back :
    (∀ (a : Authority) label, Text.ofUtf8? a.referral = some label → ∃ entry, a.toJson = .ok entry ∧
      ofJson entry = .ok a ∧ ∀ omitted : List Role, Role.account ∉ omitted →
        ofJson (entry.without (omitted.map Role.field)) = .ok (a.withheld omitted) ∧
        (a.withheld omitted).missingRoles =
          Role.all.filter fun r => omitted.contains r || a.missingRoles.contains r) ∧
    ∀ entry a, ofJson entry = .ok a → ∃ entry', a.toJson = .ok entry' ∧ ofJson entry' = .ok a := by
  have hread : ∀ (a : Authority) label, Text.ofUtf8? a.referral = some label →
      ofJson (.object (a.published label)) = .ok a := by
    intro a label h
    have hgiven : (a.withheld []).GivenBy _ :=
      givenBy_without (Text.ofUtf8?_eq_some_iff.mp h) List.not_mem_nil
    have hall : (a.published label).filter (fun f => !([].map Role.field).contains f.1) = a.published label :=
      List.filter_eq_self.mpr fun _ _ => rfl
    rw [withheld_nil, hall] at hgiven
    exact ofJson_eq_ok_iff.mpr ⟨_, rfl, hgiven⟩
  constructor
  · intro a label h
    refine ⟨_, toJson_of_label h, hread a label h, fun omitted haccount => ⟨?_, missingRoles_withheld⟩⟩
    exact ofJson_eq_ok_iff.mpr ⟨_, rfl, givenBy_without (Text.ofUtf8?_eq_some_iff.mp h) haccount⟩
  · intro entry a h
    obtain ⟨fields, -, hgiven⟩ := ofJson_eq_ok_iff.mp h
    obtain ⟨v, -, hlabel⟩ := hgiven.referral
    obtain ⟨t, rfl, ht⟩ := Json.toUtf8_eq_ok_iff.mp hlabel
    have hreferral := Text.ofUtf8?_eq_some_iff.mpr ht
    exact ⟨_, toJson_of_label hreferral, hread a t hreferral⟩

/-- An entry in mixed case, with blanks and without some of the keys, and a key that is too long. -/
def looseEntry : Json := .object [("referral", .text "v\u00FC"), ("babe", .text "0XaB cD"),
  ("account", .text " 01\n"), ("grandpa", .text (Hex.encode (List.replicate 33 7)))]

/-- The authority that it gives. -/
def looseAuthority : Authority := ⟨[1], [118, 195, 188], [0xAB, 0xCD], List.replicate 33 7, [], []⟩

/-- It is read back from its own entry, also where that lacks two more keys. -/
theorem looseEntry_read_back : ofJson looseEntry = .ok looseAuthority ∧
    ∃ entry, looseAuthority.toJson = .ok entry ∧ ofJson entry = .ok looseAuthority ∧
      ofJson (entry.without ["babe", "im_online"]) = .ok { looseAuthority with babe := [] } := by
  have hentry : ofJson looseEntry = .ok looseAuthority := by decide +kernel
  have hlabel : Text.ofUtf8? looseAuthority.referral = some "v\u00FC" := by decide +kernel
  obtain ⟨entry', hwritten', hread'⟩ := entry_read_back.2 looseEntry looseAuthority hentry
  obtain ⟨entry, hwritten, -, homit⟩ := entry_read_back.1 looseAuthority _ hlabel
  cases hwritten'.symm.trans hwritten
  exact ⟨hentry, entry', hwritten', hread', (homit [.babe, .imOnline] (by decide)).1⟩

end Authority

end LedgerGenesis
