import LedgerGenesis.Proofs.Genesis.Rendering
import LedgerGenesis.Proofs.Genesis.Validators
import LedgerGenesis.Proofs.Seed

/-! # Session keys that nobody shares

A document takes the keys of a session as the authorities have them, so they are apart exactly when those of
the authorities are. Seeds keep them apart as far as derived keys do not collide, by the path of the seed and
the tag of the role. Published entries are taken as they are.
-/
namespace LedgerGenesis

/-- The roles that sign in a session. -/
def Role.session : List Role := [.grandpa, .babe, .imOnline, .authorityDiscovery]

/-- The name of a role's key among the session keys of a document. -/
def Role.sessionField : Role → String
  | .imOnline => "imOnline"
  | .authorityDiscovery => "authorityDiscovery"
  | r => r.name

/-- No key of a session is used twice: not for one role by two of the holders, nor for two roles by one of
them. -/
structure KeysApart {α β : Type} (key : α → Role → β) (holders : List α) : Prop where
  holders_nodup : ∀ r ∈ Role.session, (holders.map fun x => key x r).Nodup
  roles_nodup : ∀ x ∈ holders, (Role.session.map (key x)).Nodup

instance {α β : Type} [DecidableEq β] (key : α → Role → β) (holders : List α) :
    Decidable (KeysApart key holders) :=
  decidable_of_iff ((∀ r ∈ Role.session, (holders.map fun x => key x r).Nodup) ∧
    ∀ x ∈ holders, (Role.session.map (key x)).Nodup)
    ⟨fun h => ⟨h.1, h.2⟩, fun h => ⟨h.holders_nodup, h.roles_nodup⟩⟩

namespace Json

/-- The key that a row of a document's session holds for a role. -/
def sessionKey? (row : Json) (r : Role) : Option Json :=
  (row.item? 2).bind fun keys => keys.at? [r.sessionField]

def sessionRows (doc : Json) : List Json := doc.itemsAt ["session", "keys"]

/-- A document lets no key of a session be shared. -/
def KeepsKeysApart (doc : Json) : Prop := KeysApart sessionKey? doc.sessionRows

end Json

/-- Keys that others hold in the same places, written so that none become equal, are apart when these are. -/
theorem keysApart_iff_of_written {α β γ δ : Type} {key : α → Role → β} {key' : γ → Role → δ}
    {write : β → δ} {xs : List α} {ys : List γ} (hwrite : Function.Injective write)
    (h : List.Forall₂ (fun x y => ∀ r ∈ Role.session, key' y r = write (key x r)) xs ys) :
    KeysApart key' ys ↔ KeysApart key xs := by
  have hroles : (∀ y ∈ ys, (Role.session.map (key' y)).Nodup) ↔
      ∀ x ∈ xs, (Role.session.map (key x)).Nodup := by
    induction h with
    | nil => simp
    | @cons x y xs ys hxy _ ih =>
      have hrow : Role.session.map (key' y) = (Role.session.map (key x)).map write := by
        rw [List.map_map]
        exact List.map_congr_left hxy
      rw [List.forall_mem_cons, List.forall_mem_cons, ih, hrow, List.nodup_map_iff hwrite]
  have hholders : ∀ r ∈ Role.session,
      ((ys.map fun y => key' y r).Nodup ↔ (xs.map fun x => key x r).Nodup) := by
    intro r hr
    have hcolumn : ys.map (fun y => key' y r) = (xs.map fun x => key x r).map write := by
      clear hroles
      induction h with
      | nil => rfl
      | cons hxy _ ih => rw [List.map_cons, hxy r hr, ih, List.map_cons, List.map_cons]
    rw [hcolumn, List.nodup_map_iff hwrite]
  constructor
  · rintro ⟨hk, hr⟩
    exact ⟨fun r hmem => (hholders r hmem).mp (hk r hmem), hroles.mp hr⟩
  · rintro ⟨hk, hr⟩
    exact ⟨fun r hmem => (hholders r hmem).mpr (hk r hmem), hroles.mpr hr⟩

/-! ## Keys in a document -/

theorem Authority.sessionKey?_sessionRow (a : Authority) {r : Role} (hr : r ∈ Role.session) :
    a.sessionRow.sessionKey? r = some (.text (Hex.encode (a.key r))) := by
  cases r with
  | account => simp [Role.session] at hr
  | babe | grandpa | imOnline | authorityDiscovery => rfl

theorem State.sessionRows_of_toJson {s : State} {authorities : List Authority} {doc : Json}
    (hv : s.validators = authorities.map Validator.ofAuthority) (h : s.toJson = .ok doc) :
    doc.sessionRows = authorities.map Authority.sessionRow := by
  obtain ⟨-, trustees, labels, -, -, rfl⟩ := toJson_eq_ok_iff.mp h
  apply Json.itemsAt_eq
  rw [document_sessionKeys, sessionKeys, hv, List.map_map, List.map_map]
  rfl

theorem keepsKeysApart_iff_of_rows {doc : Json} {authorities : List Authority}
    (h : doc.sessionRows = authorities.map Authority.sessionRow) :
    doc.KeepsKeysApart ↔ KeysApart Authority.key authorities := by
  have hwrite : Function.Injective fun k : Bytes => some (Json.text (Hex.encode k)) :=
    fun _ _ hkl => Hex.encode_injective (Json.text.inj (Option.some.inj hkl))
  rw [Json.KeepsKeysApart, h]
  apply keysApart_iff_of_written hwrite
  rw [List.forall₂_map_right_iff, List.forall₂_same]
  exact fun a _ r hr => a.sessionKey?_sessionRow hr

/-! ## Keys in published entries -/

theorem Authority.keys_of_ofJson {entry : Json} {a : Authority} (h : ofJson entry = .ok a) (r : Role) :
    entryKey entry r = .ok (a.key r) := by
  obtain ⟨fields, rfl, hgiven⟩ := ofJson_eq_ok_iff.mp h
  exact entryKey_object.trans (hgiven.keys r)

theorem keysApart_entries_iff {entries : List Json} {authorities : List Authority}
    (h : entries.mapM Authority.ofJson = .ok authorities) :
    KeysApart Authority.key authorities ↔ KeysApart Authority.entryKey entries := by
  have hwrite : Function.Injective (Except.ok : Bytes → Except Fault Bytes) :=
    fun _ _ hkl => Except.ok.inj hkl
  rw [mapM_eq_ok_iff] at h
  refine (keysApart_iff_of_written hwrite (List.Forall₂.flip ?_)).symm
  exact h.imp fun entry a ha r _ => Authority.keys_of_ofJson ha r

/-! ## Keys from seeds -/

namespace Seed

/-- Different paths and tags of the given seeds give different public keys. -/
def Collisionless (seeds : List Json) : Prop :=
  ∀ t u : Text, .text t ∈ seeds → .text u ∈ seeds → ∀ r q : Role,
    publicKey (path t) r.tagBytes = publicKey (path u) q.tagBytes →
      path t = path u ∧ r.tagBytes = q.tagBytes

end Seed

/-- Each authority is derived from one of the seeds, with some label. -/
def Derived (seeds : List Json) (authorities : List Authority) : Prop :=
  ∀ a ∈ authorities, ∃ seed ∈ seeds, ∃ referral, Authority.ofSeed seed referral = .ok a

/-- Equal keys of authorities from seeds are of one role, and their holders have one account. -/
theorem Derived.eq_of_key_eq {seeds : List Json} {authorities : List Authority}
    (h : Derived seeds authorities) (hc : Seed.Collisionless seeds) {a b : Authority}
    (ha : a ∈ authorities) (hb : b ∈ authorities) {r q : Role} (hkey : a.key r = b.key q) :
    r = q ∧ a.account = b.account := by
  have hfrom : ∀ c ∈ authorities, ∃ t, Json.text t ∈ seeds ∧
      ∀ r : Role, Seed.publicKey (Seed.path t) r.tagBytes = .ok (c.key r) := by
    intro c hmem
    obtain ⟨seed, hseed, referral, hderive⟩ := h c hmem
    have hkeys := Authority.keys_of_ofSeed hderive
    obtain ⟨t, rfl, -⟩ := Seed.roleKey_eq_ok (hkeys .account)
    refine ⟨t, hseed, fun r => ?_⟩
    obtain ⟨u, hu, hpublic⟩ := Seed.roleKey_eq_ok (hkeys r)
    cases hu
    exact hpublic
  obtain ⟨t, ht, hat⟩ := hfrom a ha
  obtain ⟨u, hu, hbu⟩ := hfrom b hb
  have hpublic : Seed.publicKey (Seed.path t) r.tagBytes = Seed.publicKey (Seed.path u) q.tagBytes := by
    rw [hat, hbu, hkey]
  obtain ⟨hpath, htag⟩ := hc t u ht hu r q hpublic
  have haccount : (Except.ok (a.key .account) : Except Fault Bytes) = .ok (b.key .account) := by
    rw [← hat, ← hbu, hpath]
  exact ⟨Role.tagBytes_injective htag, Except.ok.inj haccount⟩

theorem Derived.keysApart {seeds : List Json} {authorities : List Authority}
    (h : Derived seeds authorities) (hc : Seed.Collisionless seeds)
    (haccounts : (authorities.map Authority.account).Nodup) : KeysApart Authority.key authorities := by
  constructor
  · intro r _
    apply List.Nodup.map_on _ haccounts.of_map
    intro a ha b hb hkey
    exact List.inj_on_of_nodup_map haccounts ha hb (h.eq_of_key_eq hc ha hb hkey).2
  · intro a ha
    apply List.Nodup.map_on _ (by decide)
    exact fun r _ q _ hkey => (h.eq_of_key_eq hc ha ha hkey).1

/-! ## Keys of an assembled state -/

namespace Inputs

variable {i : Inputs} {s : State} {doc : Json}

/-- The keys of a session are apart exactly when those of the authorities are. For authorities from seeds
they are, unless two derived keys collide; for published entries it depends on the keys that these give. -/
theorem keepsKeysApart_iff (h : i.assemble = .ok s) (hdoc : s.toJson = .ok doc) :
    (doc.KeepsKeysApart ↔ KeysApart Authority.key i.authorities) ∧
    (∀ seeds, Derived seeds i.authorities → Seed.Collisionless seeds → doc.KeepsKeysApart) ∧
    ∀ entries, entries.mapM Authority.ofJson = .ok i.authorities →
      (doc.KeepsKeysApart ↔ KeysApart Authority.entryKey entries) := by
  obtain ⟨-, hclean, hv⟩ := bindValidators_eq_ok_iff.mp (assemble_eq_ok_iff.mp h).validators
  have hiff := keepsKeysApart_iff_of_rows (State.sessionRows_of_toJson hv hdoc)
  refine ⟨hiff, fun seeds hseeds hc => ?_, fun entries hread => ?_⟩
  · exact hiff.mpr (hseeds.keysApart hc (Authority.clean_iff.mp hclean).2)
  · exact hiff.trans (keysApart_entries_iff hread)

/-- A published entry of an account whose session keys repeat the given bytes. -/
def publishedEntry (account : Bytes) (babe grandpa imOnline discovery : UInt8) : Json :=
  .object [("account", .text (Hex.encode account)), ("referral", .text "v"),
    ("babe", .text (Hex.encode (plainKey babe))),
    ("grandpa", .text (Hex.encode (plainKey grandpa))),
    ("im_online", .text (Hex.encode (plainKey imOnline))),
    ("authority_discovery", .text (Hex.encode (plainKey discovery)))]

/-- The authority of such an entry. -/
def publishedAuthority (account : Bytes) (babe grandpa imOnline discovery : UInt8) : Authority :=
  ⟨account, [118], plainKey babe, plainKey grandpa, plainKey imOnline, plainKey discovery⟩

/-- Entries that give eight keys to two validators keep them apart. -/
theorem published_keys_apart :
    let entries := [publishedEntry (plainKey 10) 1 2 3 4, publishedEntry (plainKey 20) 5 6 7 8]
    let authorities := [publishedAuthority (plainKey 10) 1 2 3 4, publishedAuthority (plainKey 20) 5 6 7 8]
    ∃ s doc, entries.mapM Authority.ofJson = .ok authorities ∧
      assemble { smallNetwork with authorities := authorities } = .ok s ∧ s.toJson = .ok doc ∧
        KeysApart Authority.entryKey entries ∧ doc.KeepsKeysApart := by
  intro entries authorities
  have hread : entries.mapM Authority.ofJson = .ok authorities := by decide +kernel
  have hrun : ∃ s doc, assemble { smallNetwork with authorities := authorities } = .ok s ∧
      s.toJson = .ok doc := by
    subst authorities
    exact ⟨_, _, rfl, rfl⟩
  obtain ⟨s, doc, hs, hdoc⟩ := hrun
  have hapart : KeysApart Authority.entryKey entries := by decide +kernel
  exact ⟨s, doc, hread, hs, hdoc, hapart, ((keepsKeysApart_iff hs hdoc).2.2 entries hread).mpr hapart⟩

/-- Entries that give one key to two validators in every role are accepted, and their document has that key
eight times. -/
theorem published_keys_shared :
    let entries := [publishedEntry (plainKey 10) 1 1 1 1, publishedEntry (plainKey 20) 1 1 1 1]
    let authorities := [publishedAuthority (plainKey 10) 1 1 1 1, publishedAuthority (plainKey 20) 1 1 1 1]
    ∃ s doc, entries.mapM Authority.ofJson = .ok authorities ∧
      assemble { smallNetwork with authorities := authorities } = .ok s ∧ s.toJson = .ok doc ∧
        ¬ doc.KeepsKeysApart ∧ ∀ row ∈ doc.sessionRows, ∀ r ∈ Role.session,
          row.sessionKey? r = some (.text (Hex.encode (plainKey 1))) := by
  intro entries authorities
  have hread : entries.mapM Authority.ofJson = .ok authorities := by decide +kernel
  have hrun : ∃ s doc, assemble { smallNetwork with authorities := authorities } = .ok s ∧
      s.toJson = .ok doc := by
    subst authorities
    exact ⟨_, _, rfl, rfl⟩
  obtain ⟨s, doc, hs, hdoc⟩ := hrun
  have hv := (bindValidators_eq_ok_iff.mp (assemble_eq_ok_iff.mp hs).validators).2.2
  have hrows := State.sessionRows_of_toJson hv hdoc
  refine ⟨s, doc, hread, hs, hdoc, ?_, ?_⟩
  · rw [keepsKeysApart_iff_of_rows hrows]
    decide +kernel
  · rw [hrows]
    decide +kernel

end Inputs

end LedgerGenesis
