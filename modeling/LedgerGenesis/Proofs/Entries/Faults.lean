import LedgerGenesis.Proofs.Bitcoin.DisplayedHash
import LedgerGenesis.Proofs.Bitcoin.Header
import LedgerGenesis.Proofs.Entries.Fields
import LedgerGenesis.Proofs.Vocabulary

/-! # Which entries of tables let a fault escape

The first field that is not as it should be decides what becomes of an entry, and most of what can be wrong with a
field is reported. What no report covers is a value that should be a text where one of trustees or of an authority
is read, an infinite number where an integer is, a list or a scalar in the place of a whole authority, and an
authority with an integer that cannot be shown.
-/
namespace LedgerGenesis

/-! ## Authorities -/

namespace Authority

open Json (IsHex IsText IsEncodable)

variable {fields : List (Text × Json)} {entry : Json}

/-- The key of a role in an entry. -/
def keyStep (entry : Json) (r : Role) : Step := entry.optionalStep [r.name] IsHex (¬ IsText ·)

/-- The fields of an entry in the order in which they are read. -/
def steps (entry : Json) : List Step :=
  [entry.fieldStep [Role.account.name] IsHex (¬ IsText ·), entry.fieldStep ["referral"] IsEncodable (¬ IsText ·),
    keyStep entry .babe, keyStep entry .grandpa, keyStep entry .imOnline, keyStep entry .authorityDiscovery]

theorem entryKey_eq {r : Role} :
    entryKey (.object fields) r = (((Json.object fields).at? [r.name]).getD (.text [])).toBytes := by
  have hat : (Json.object fields).at? [r.name] = Json.lookup r.name fields := by
    simp only [Json.at?]
    cases Json.lookup r.name fields <;> rfl
  rw [hat]
  rfl

theorem exists_entryKey_iff {r : Role} :
    (∃ bs, entryKey (.object fields) r = .ok bs) ↔ (keyStep (.object fields) r).passes := by
  rw [entryKey_eq, Json.exists_toBytes_iff]
  cases h : (Json.object fields).at? [r.name] with
  | none => simpa [keyStep, Json.optionalStep, h] using ⟨[], rfl, rfl⟩
  | some v => simp [keyStep, Json.optionalStep, h]

section Reports

variable {report : Fault → GenesisError} (hreport : ∀ f, (report f).isShowable = true)
include hreport

theorem escapes_entryKey_iff {r : Role} :
    Escapes (reporting [.key, .content] report (liftM (entryKey (.object fields) r))) ↔
      (keyStep (.object fields) r).leaks := by
  rw [entryKey_eq, Json.escapes_toBytes_iff hreport (by decide) (by decide)]
  cases h : (Json.object fields).at? [r.name] with
  | none => simpa [keyStep, Json.optionalStep, h] using ⟨[], rfl⟩
  | some v => simp [keyStep, Json.optionalStep, h]

/-- The keys beside the account may be absent. -/
theorem escapes_entryKey_bind_iff {α : Type} {r : Role} {rest : Bytes → Except Error α} {steps : List Step}
    (hrest : ∀ a, Escapes (reporting [.key, .content] report (rest a)) ↔ StopsInLeak steps) :
    Escapes (reporting [.key, .content] report (liftM (entryKey (.object fields) r) >>= rest)) ↔
      StopsInLeak (keyStep (.object fields) r :: steps) := by
  rw [reporting_bind]
  refine escapes_bind_iff_stopsInLeak ?_ (escapes_entryKey_iff hreport) fun a _ => hrest a
  simp only [reporting_eq_ok_iff, liftFault_eq_ok_iff, exists_entryKey_iff]

theorem escapes_readEntry_iff :
    Escapes (reporting [.key, .content] report (liftM (readEntry (.object fields)))) ↔
      StopsInLeak (steps (.object fields)) := by
  have hfield : ∀ key, Throws (·.family ∈ [.key, .content]) ((Json.object fields).field key) :=
    fun key => Json.throws_field_of_object (by decide)
  simp only [readEntry, liftFault_bind]
  refine Json.escapes_hexField_iff hreport (hfield _) (by decide) (by decide) fun account => ?_
  refine Json.escapes_labelField_iff hreport (hfield _) (by decide) (by decide) fun label => ?_
  refine escapes_entryKey_bind_iff hreport fun babe => escapes_entryKey_bind_iff hreport fun grandpa => ?_
  refine escapes_entryKey_bind_iff hreport fun imOnline => escapes_entryKey_bind_iff hreport fun discovery => ?_
  exact iff_of_false not_escapes_pure not_firstLeaks_nil

end Reports

theorem readEntry_eq_notText_iff :
    readEntry (.object fields) = .error .notText ↔ StopsInLeak (steps (.object fields)) := by
  -- any report that can be shown tells the fault apart from the reported ones
  have hreport : ∀ f : Fault, (GenesisError.malformedTrustees f).isShowable = true := fun _ => rfl
  rw [← escapes_readEntry_iff hreport]
  exact (escapes_reporting_liftFault_iff hreport throws_readEntry (by decide)).symm

theorem exists_readEntry_iff : (∃ a, readEntry (.object fields) = .ok a) ↔
    ∀ step ∈ steps (.object fields), step.passes := by
  simp only [readEntry, steps, bind_eq_ok_iff, pure_eq_ok_iff, Json.field_eq_ok_iff, List.forall_mem_cons,
    Json.fieldStep, ← exists_entryKey_iff, ← Json.exists_toBytes_iff, ← Json.exists_toUtf8_iff]
  constructor
  · rintro ⟨_, v, hv, account, ha, w, hw, label, hl, babe, hb, grandpa, hg, imOnline, hi, discovery, hd, -⟩
    exact ⟨⟨v, hv, account, ha⟩, ⟨w, hw, label, hl⟩, ⟨babe, hb⟩, ⟨grandpa, hg⟩, ⟨imOnline, hi⟩, ⟨discovery, hd⟩,
      List.forall_mem_nil _⟩
  · rintro ⟨⟨v, hv, account, ha⟩, ⟨w, hw, label, hl⟩, ⟨babe, hb⟩, ⟨grandpa, hg⟩, ⟨imOnline, hi⟩, ⟨discovery, hd⟩, -⟩
    exact ⟨_, v, hv, account, ha, w, hw, label, hl, babe, hb, grandpa, hg, imOnline, hi, discovery, hd, rfl⟩

/-- The report shows the whole entry, so where it cannot be shown, every step that does not pass leaks. -/
theorem escapes_ofJson_iff_steps : Escapes (ofJson entry) ↔
    (∀ fields, entry ≠ .object fields) ∨ StopsInLeak (steps entry) ∨
      entry.isShowable = false ∧ ∃ step ∈ steps entry, ¬ step.passes := by
  rw [escapes_ofJson_iff]
  cases entry with
  | object fields =>
    have hnone : (∀ a, readEntry (.object fields) ≠ .ok a) ↔
        ∃ step ∈ steps (.object fields), ¬ step.passes := by
      rw [← not_exists, exists_readEntry_iff]
      simp only [not_forall, exists_prop]
    rw [readEntry_eq_notText_iff, hnone]
  | _ => exact iff_of_true (Or.inl (by simp)) (Or.inl (by simp))

end Authority

/-! ## Trustees -/

open Json (IsHex IsText IsEncodable IsIntegral IsInfinite Presents)

namespace Trustee

variable {entry : Json} {report : Fault → GenesisError}

/-- The account of a trustee is in hexadecimal, where there is no seed. -/
def accountStep (entry : Json) : Step where
  passes := (∃ seed account, entry.at? ["seed"] = some seed ∧ Seed.account seed = .ok account) ∨
    entry.at? ["seed"] = none ∧ ∃ v, entry.at? ["account"] = some v ∧ v.IsHex
  leaks := entry.at? ["seed"] = none ∧ ∃ v, entry.at? ["account"] = some v ∧ ¬ v.IsText

def steps (entry : Json) : List Step :=
  [accountStep entry, entry.fieldStep ["about"] IsEncodable (¬ IsText ·),
    entry.fieldStep ["hot_key"] IsHex (¬ IsText ·), entry.fieldStep ["cold_key"] IsHex (¬ IsText ·)]

theorem entryAccount_of_seed {seed : Json} (h : entry.at? ["seed"] = some seed) :
    entryAccount entry = Seed.account seed := by
  cases entry with
  | object fields =>
    have hlookup : Json.lookup "seed" fields = some seed := by
      simpa [Json.at?, Option.bind_eq_some_iff] using h
    simp only [entryAccount, hlookup]
  | _ => cases h

theorem entryAccount_of_none (h : entry.at? ["seed"] = none) :
    entryAccount entry = liftM (entry.field "account") >>= fun v => liftM v.toBytes := by
  cases entry with
  | object fields =>
    have hlookup : Json.lookup "seed" fields = none := by
      simpa [Json.at?, Option.bind_eq_none_iff] using h
    simp only [entryAccount, hlookup]
    exact liftFault_bind
  | _ => rfl

theorem exists_entryAccount_iff : (∃ a, entryAccount entry = .ok a) ↔ (accountStep entry).passes := by
  cases h : entry.at? ["seed"] with
  | some seed => simp [entryAccount_of_seed h, accountStep, h]
  | none =>
    simp only [entryAccount_of_none h, accountStep, h, bind_eq_ok_iff, liftFault_eq_ok_iff, Json.field_eq_ok_iff,
      ← Json.exists_toBytes_iff]
    simp only [reduceCtorEq, false_and, exists_false, true_and, false_or]
    exact ⟨fun ⟨a, v, hv, ha⟩ => ⟨v, hv, a, ha⟩, fun ⟨v, hv, a, ha⟩ => ⟨a, v, hv, ha⟩⟩

section Reports

variable (hreport : ∀ f, (report f).isShowable = true)
include hreport

theorem escapes_entryAccount_iff : Escapes (reporting [.key, .content, .shape] report (entryAccount entry)) ↔
    (accountStep entry).leaks := by
  cases h : entry.at? ["seed"] with
  | some seed =>
    rw [entryAccount_of_seed h]
    have haccount : Throws (Error.Within (·.family ∈ [.key, .content, .shape])) (Seed.account seed) :=
      Seed.throws_account (by decide)
    exact iff_of_false (not_escapes_reporting hreport haccount) (by simp [accountStep, h])
  | none =>
    rw [entryAccount_of_none h, reporting_bind, escapes_bind_iff,
      or_iff_right (not_escapes_reporting_liftFault hreport (Json.throws_field_of_subset (by decide)))]
    simp only [reporting_eq_ok_iff, liftFault_eq_ok_iff, Json.field_eq_ok_iff, accountStep, h, true_and,
      Json.escapes_toBytes_iff hreport (by decide : Fault.Family.content ∈ [.key, .content, .shape])
        (by decide : Fault.Family.access ∉ [.key, .content, .shape])]

theorem escapes_ofEntry_iff :
    Escapes (reporting [.key, .content, .shape] report (ofEntry entry)) ↔ StopsInLeak (steps entry) := by
  have hfield : ∀ key, Throws (·.family ∈ [.key, .content, .shape]) (entry.field key) :=
    fun key => Json.throws_field_of_subset (by decide)
  unfold ofEntry
  rw [reporting_bind]
  refine escapes_bind_iff_stopsInLeak ?_ (escapes_entryAccount_iff hreport) fun account _ => ?_
  · simp only [reporting_eq_ok_iff, exists_entryAccount_iff]
  refine Json.escapes_labelField_iff hreport (hfield _) (by decide) (by decide) fun label => ?_
  refine Json.escapes_hexField_iff hreport (hfield _) (by decide) (by decide) fun hot => ?_
  refine Json.escapes_hexField_iff hreport (hfield _) (by decide) (by decide) fun cold => ?_
  exact iff_of_false (fun hescapes => not_escapes_liftGenesis (escapes_of_reporting hescapes)) not_firstLeaks_nil

end Reports

end Trustee

namespace TrusteeSet

variable {data : Json}

/-- The entries of a set as a step: the first that is not taken for a trustee leaks. -/
def entriesStep (data : Json) : Step :=
  data.fieldStep ["trustees"]
    (fun v => ∃ entries, v.elements = .ok entries ∧ ∀ e ∈ entries, ∃ t, Trustee.ofEntry e = .ok t)
    (fun v => ∃ entries, v.elements = .ok entries ∧
      FirstLeaks (fun e => ∃ t, Trustee.ofEntry e = .ok t) (fun e => StopsInLeak (Trustee.steps e)) entries)

def steps (data : Json) : List Step :=
  [data.fieldStep ["config", "min_trustee_count"] IsIntegral IsInfinite,
    data.fieldStep ["config", "max_trustee_count"] IsIntegral IsInfinite, entriesStep data]

/-- The trustees that the items of a value describe. -/
def readTrustees (v : Json) : Except Error (List Trustee) := do (← v.elements).mapM Trustee.ofEntry

theorem exists_readTrustees_iff {v : Json} : (∃ ts, readTrustees v = .ok ts) ↔
    ∃ entries, v.elements = .ok entries ∧ ∀ e ∈ entries, ∃ t, Trustee.ofEntry e = .ok t := by
  simp only [readTrustees, bind_eq_ok_iff, liftFault_eq_ok_iff, ← exists_mapM_eq_ok_iff]
  exact ⟨fun ⟨ts, es, he, ht⟩ => ⟨es, he, ts, ht⟩, fun ⟨es, he, ts, ht⟩ => ⟨ts, es, he, ht⟩⟩

theorem escapes_readTrustees_iff {v : Json} {report : Fault → GenesisError}
    (hreport : ∀ f, (report f).isShowable = true) :
    Escapes (reporting [.key, .content, .shape] report (readTrustees v)) ↔
      ∃ entries, v.elements = .ok entries ∧
        FirstLeaks (fun e => ∃ t, Trustee.ofEntry e = .ok t) (fun e => StopsInLeak (Trustee.steps e)) entries := by
  have helements : Throws (·.family ∈ [.key, .content, .shape]) v.elements :=
    Json.throws_elements.mono fun f hf => hf.family_mem
  rw [readTrustees, reporting_bind, escapes_bind_iff,
    or_iff_right (not_escapes_reporting_liftFault hreport helements)]
  simp only [reporting_eq_ok_iff, liftFault_eq_ok_iff, reporting_mapM, escapes_mapM_iff,
    Trustee.escapes_ofEntry_iff hreport]

theorem escapes_ofJson_iff_steps : Escapes (ofJson data) ↔ StopsInLeak (steps data) := by
  have hfield : ∀ key, Throws (·.family ∈ [.key, .content, .shape]) (data.field key) :=
    fun key => Json.throws_field_of_subset (by decide)
  have hassoc : ∀ rest : List Trustee → Except Error TrusteeSet,
      (liftM (data.field "trustees") >>= fun v => liftM v.elements >>= fun es => es.mapM Trustee.ofEntry >>= rest) =
        liftM (data.field "trustees") >>= fun v => readTrustees v >>= rest := by
    simp only [readTrustees, bind_assoc, implies_true]
  have hchain : ∀ v, Throws (·.family ∈ [.key, .content, .shape]) (readChain v) := by
    intro v f h
    unfold readChain at h
    split at h <;> cases h
    rw [Fault.family_raised rfl]
    decide
  have hreport : ∀ f, (GenesisError.malformedTrustees f).isShowable = true := fun _ => rfl
  unfold ofJson readEntry
  refine Json.escapes_nestedIntField_iff hreport (by decide) (by decide) fun least => ?_
  refine Json.escapes_nestedIntField_iff hreport (by decide) (by decide) fun greatest => ?_
  rw [hassoc]
  refine Json.escapes_field_iff hreport (hfield _) (fun v => exists_readTrustees_iff)
    (fun v => escapes_readTrustees_iff hreport) fun trustees => iff_of_false (fun h => ?_) not_firstLeaks_nil
  simp only [reporting_bind, escapes_bind_iff, reporting_pure] at h
  rcases h with h | ⟨v, -, h | ⟨chain, -, h⟩⟩
  · exact not_escapes_reporting_liftFault hreport (hfield _) h
  · exact not_escapes_reporting_liftFault hreport (hchain v) h
  · exact not_escapes_pure h

end TrusteeSet

/-! ## Anchors -/

namespace Anchor

variable {v data : Json} {retarget : Retarget}

/-- An entry states the parts of a header and its network. -/
structure StatesHeader (data : Json) : Prop where
  version : ∃ v, data.at? ["header_version"] = some v ∧ v.IsWord
  previous : ∃ v, data.at? ["previous_header_hash"] = some v ∧ v.IsHash
  merkleRoot : ∃ v, data.at? ["merkle_root_hash"] = some v ∧ v.IsHash
  time : ∃ v, data.at? ["time"] = some v ∧ v.IsWord
  bits : ∃ v, data.at? ["bits"] = some v ∧ v.IsWord
  nonce : ∃ v, data.at? ["nonce"] = some v ∧ v.IsWord
  network : ∃ n : BitcoinNetwork, data.at? ["network"] = some (.text (Text.ofString n.name))

def headerStep (data : Json) : Step where
  passes := StatesHeader data
  leaks := False

def steps (data : Json) : List Step :=
  [headerStep data, data.fieldStep ["confirmation_number"] IsIntegral IsInfinite,
    data.fieldStep ["height"] IsIntegral IsInfinite]

/-- The header and the network of an entry. -/
def readHeader (data : Json) : Except Error (Header × BitcoinNetwork) := do
  let version ← data.field "header_version"
  let previous ← readHash (← data.field "previous_header_hash")
  let merkleRoot ← readHash (← data.field "merkle_root_hash")
  let time ← data.field "time"
  let bits ← data.field "bits"
  let nonce ← data.field "nonce"
  let header ← Header.make version previous merkleRoot time bits nonce
  let network ← readNetwork (← data.field "network")
  return (header, network)

theorem readEntry_eq : readEntry data retarget = (do
    let p ← readHeader data
    let confirmations ← (← data.field "confirmation_number").toInt
    let height ← (← data.field "height").toInt
    let declaredHash ← readHash (← data.field "hash")
    return { network := p.2, confirmations, height, declaredHash, header := p.1, retarget }) := by
  simp only [readEntry, readHeader, bind_assoc, pure_bind]

theorem readNetwork_eq_ok_iff {n : BitcoinNetwork} :
    readNetwork v = .ok n ↔ v = .text (Text.ofString n.name) := by
  rw [← BitcoinNetwork.ofJson?_eq_some_iff, readNetwork]
  cases BitcoinNetwork.ofJson? v <;> simp

theorem exists_readHeader_iff : (∃ p, readHeader data = .ok p) ↔ StatesHeader data := by
  simp only [readHeader, bind_eq_ok_iff, liftFault_eq_ok_iff, pure_eq_ok_iff, Json.field_eq_ok_iff,
    Header.make_eq_ok_iff, readHash_eq_ok_iff, readNetwork_eq_ok_iff]
  constructor
  · rintro ⟨_, version, hversion, _, hprevious, _, ⟨t, raw, rfl, hraw, hlength, rfl⟩, _, hroot, _,
      ⟨u, raw', rfl, hraw', hlength', rfl⟩, time, htime, bits, hbits, nonce, hnonce, header,
      ⟨rfl, -, -, rfl, rfl, rfl⟩, _, hnetwork, n, rfl, -⟩
    exact ⟨⟨_, hversion, _, rfl⟩, ⟨_, hprevious, t, raw, rfl, hraw, hlength⟩,
      ⟨_, hroot, u, raw', rfl, hraw', hlength'⟩, ⟨_, htime, _, rfl⟩, ⟨_, hbits, _, rfl⟩, ⟨_, hnonce, _, rfl⟩,
      n, hnetwork⟩
  · rintro ⟨⟨_, hversion, version, rfl⟩, ⟨_, hprevious, t, raw, rfl, hraw, hlength⟩,
      ⟨_, hroot, u, raw', rfl, hraw', hlength'⟩, ⟨_, htime, time, rfl⟩, ⟨_, hbits, bits, rfl⟩,
      ⟨_, hnonce, nonce, rfl⟩, n, hnetwork⟩
    let header : Header := ⟨version, raw.reverse, raw'.reverse, time, bits, nonce,
      List.length_reverse.trans hlength, List.length_reverse.trans hlength'⟩
    exact ⟨(header, n), _, hversion, _, hprevious, _, ⟨t, raw, rfl, hraw, hlength, rfl⟩, _, hroot, _,
      ⟨u, raw', rfl, hraw', hlength', rfl⟩, _, htime, _, hbits, _, hnonce, header,
      ⟨rfl, rfl, rfl, rfl, rfl, rfl⟩, _, hnetwork, n, rfl, rfl⟩

theorem family_of_field {key : Text} : Throws (·.family ∈ [.key, .content, .shape, .access]) (data.field key) :=
  Json.throws_field_of_subset (by decide)

theorem family_of_readHash : Throws (·.family ∈ [.key, .content, .shape, .access]) (readHash v) := by
  refine throws_readHash.mono fun f hf => ?_
  rcases hf with hf | rfl
  · rw [hf]
    decide
  · decide

theorem throws_readHeader :
    Throws (Error.Within (·.family ∈ [.key, .content, .shape, .access])) (readHeader data) := by
  have hfield : ∀ key, Throws (Error.Within (·.family ∈ [.key, .content, .shape, .access]))
      (liftM (data.field key) : Except Error Json) := fun key => throws_liftFault family_of_field
  have hhash : ∀ v, Throws (Error.Within (·.family ∈ [.key, .content, .shape, .access]))
      (liftM (readHash v) : Except Error Bytes) := fun v => throws_liftFault family_of_readHash
  have hnetwork : ∀ v, Throws (Error.Within (·.family ∈ [.key, .content, .shape, .access]))
      (liftM (readNetwork v) : Except Error BitcoinNetwork) :=
    fun v => throws_liftFault (throws_readNetwork.mono fun f hf => by rw [hf]; decide)
  unfold readHeader
  refine throws_bind (hfield _) fun _ _ => ?_
  refine throws_bind (hfield _) fun _ _ => throws_bind (hhash _) fun _ _ => ?_
  refine throws_bind (hfield _) fun _ _ => throws_bind (hhash _) fun _ _ => ?_
  refine throws_bind (hfield _) fun _ _ => throws_bind (hfield _) fun _ _ => throws_bind (hfield _) fun _ _ => ?_
  refine throws_bind (throws_makeHeader (by decide)) fun _ _ => ?_
  exact throws_bind (hfield _) fun _ _ => throws_bind (hnetwork _) fun _ _ => throws_pure

theorem escapes_readEntry_iff {report : Fault → GenesisError} (hreport : ∀ f, (report f).isShowable = true) :
    Escapes (reporting [.key, .content, .shape, .access] report (readEntry data retarget)) ↔
      StopsInLeak (steps data) := by
  rw [readEntry_eq, reporting_bind]
  refine escapes_bind_iff_stopsInLeak ?_ (iff_of_false (not_escapes_reporting hreport throws_readHeader) id)
    fun p _ => ?_
  · simp only [reporting_eq_ok_iff]
    exact exists_readHeader_iff
  refine Json.escapes_intField_iff hreport (by decide) (by decide) fun confirmations => ?_
  refine Json.escapes_intField_iff hreport (by decide) (by decide) fun height => ?_
  refine iff_of_false (fun h => ?_) not_firstLeaks_nil
  simp only [reporting_bind, escapes_bind_iff, reporting_pure] at h
  rcases h with h | ⟨v, -, h | ⟨hash, -, h⟩⟩
  · exact not_escapes_reporting_liftFault hreport family_of_field h
  · exact not_escapes_reporting_liftFault hreport family_of_readHash h
  · exact not_escapes_pure h

/-- An anchor that is given as a text is read from what it is the text of. -/
theorem escapes_ofJson_iff_steps :
    Escapes (ofJson v retarget) ↔ ∃ data, Presents v data ∧ StopsInLeak (steps data) := by
  have hreport : ∀ f, (GenesisError.malformedAnchor f).isShowable = true := fun _ => rfl
  unfold ofJson
  rw [escapes_bind_iff]
  refine (or_iff_left ?_).trans ?_
  · rintro ⟨anchor, -, h⟩
    split at h
    · exact not_escapes_pure h
    · exact not_escapes_genesis h
  · cases v with
    | text t =>
      have hparse : Throws (·.family ∈ [.key, .content, .shape, .access]) (Json.parse t) :=
        Json.throws_parse.mono fun f hf => by rw [hf]; decide
      dsimp only
      rw [reporting_bind, escapes_bind_iff, or_iff_right (not_escapes_reporting_liftFault hreport hparse)]
      simp only [reporting_eq_ok_iff, liftFault_eq_ok_iff, escapes_readEntry_iff hreport, Json.presents_text_iff]
    | _ =>
      dsimp only
      rw [pure_bind]
      simp [Json.presents_value_iff, IsText, escapes_readEntry_iff hreport]

end Anchor

/-- What an anchor, a set of trustees and an authority are read from lets a fault escape exactly where the first
field that is not as it should be is one that no report covers. An authority that is no object lets one escape, too,
and so does one of which anything is to be reported, where it cannot be shown. All else ends in a result or in an
error of the genesis. -/
theorem escapes_entry_iff (v : Json) (retarget : Retarget) :
    (Escapes (Anchor.ofJson v retarget) ↔ ∃ data, Presents v data ∧ StopsInLeak (Anchor.steps data)) ∧
      (Escapes (TrusteeSet.ofJson v) ↔ StopsInLeak (TrusteeSet.steps v)) ∧
      (Escapes (Authority.ofJson v) ↔ (∀ fields, v ≠ .object fields) ∨ StopsInLeak (Authority.steps v) ∨
        v.isShowable = false ∧ ∃ step ∈ Authority.steps v, ¬ step.passes) :=
  ⟨Anchor.escapes_ofJson_iff_steps, TrusteeSet.escapes_ofJson_iff_steps, Authority.escapes_ofJson_iff_steps⟩

/-- The account of the trustee is an integer. -/
def numberedTrustee : Json :=
  .object [("chain", .text "Bitcoin"),
    ("config", .object [("min_trustee_count", .int 1), ("max_trustee_count", .int 2)]),
    ("trustees", .list [.object [("account", .int 1)]])]

theorem numberedTrustee_escapes : TrusteeSet.ofJson numberedTrustee = .error (.fault .notText) ∧
    ¬ ∀ v, ¬ Escapes (TrusteeSet.ofJson v) := by
  have hfault : TrusteeSet.ofJson numberedTrustee = .error (.fault .notText) := rfl
  exact ⟨hfault, fun h => h numberedTrustee ⟨.notText, hfault⟩⟩

end LedgerGenesis
