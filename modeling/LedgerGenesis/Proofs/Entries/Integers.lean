import LedgerGenesis.Asset.Registry
import LedgerGenesis.Proofs.Entries.Faults
import LedgerGenesis.Proofs.Json.Integer

/-! # The integers of entries

The words of a header are integers of the entry, as they are written there. The other integers of an entry are what
the values of their fields are taken for. Nothing else of such a value matters, so that a fraction, a truth value
or a text in its place is accepted and not to be seen in the result.
-/
namespace LedgerGenesis

namespace Json

variable {α ε : Type} {data v w : Json} {k l : Text} {path : List Text}

/-- A result takes an integer from a field: the value there is taken for it, and any other value that is taken for
it gives the same result. -/
structure TakesAt (read : Json → Except ε α) (data : Json) (path : List Text) (n : Int) (a : α) : Prop where
  denotes : ∃ v, data.at? path = some v ∧ v.IsTakenFor n
  any : ∀ w, w.IsTakenFor n → read (data.put path w) = .ok a

theorem TakesAt.of_toInt {read : Json → Except ε α} {n : Int} {a : α} (hv : data.at? path = some v)
    (hn : v.toInt = .ok n) (hread : ∀ w : Json, w.toInt = v.toInt → read (data.put path w) = .ok a) :
    TakesAt read data path n a where
  denotes := ⟨v, hv, toInt_eq_ok_iff.mp hn⟩
  any w hw := hread w ((toInt_eq_ok_iff.mpr hw).trans hn.symm)

theorem put_nil : v.put [] w = w := by
  cases v <;> rfl

theorem field_put_of_ne (h : k ≠ l) : (data.put (k :: path) w).field l = data.field l := by
  cases data with
  | object fields => simp only [put, field, lookup_setField, if_neg h]
  | _ => rfl

theorem fieldOr_put_of_ne {d : Json} (h : k ≠ l) : (data.put (k :: path) w).fieldOr l d = data.fieldOr l d := by
  cases data with
  | object fields => simp only [put, fieldOr, lookup_setField, if_neg h]
  | _ => rfl

theorem field_put_of_field (h : data.field k = .ok v) : (data.put (k :: path) w).field k = .ok (v.put path w) := by
  cases data with
  | object fields =>
    have hlookup : lookup k fields = some v := by
      simp only [field] at h
      split at h
      next u hu => rw [hu, Except.ok.inj h]
      next => cases h
    simp only [put, field, lookup_setField, if_pos, hlookup, Option.getD_some]
  | _ => cases h

theorem not_isText_put (h : data.field k = .ok v) : ¬ (data.put (k :: path) w).IsText := by
  cases data with
  | object fields =>
    rintro ⟨t, ht⟩
    cases ht
  | _ => cases h

end Json

namespace Anchor

variable {data v w : Json} {retarget : Retarget} {a : Anchor}

theorem ofJson_eq_ok_iff : ofJson v retarget = .ok a ↔
    ∃ data, v.Presents data ∧ readEntry data retarget = .ok a ∧ 0 < a.confirmations := by
  have hcheck : ∀ b : Anchor, (if 0 < b.confirmations then pure b else throw (.genesis .confirmationNotPositive) :
      Except Error Anchor) = .ok a ↔ 0 < a.confirmations ∧ b = a := by
    intro b
    split
    next hb =>
      rw [pure_eq_ok_iff]
      exact ⟨fun h => ⟨h ▸ hb, h⟩, And.right⟩
    next hb => exact iff_of_false (fun h => by cases h) fun ⟨ha, h⟩ => hb (h ▸ ha)
  unfold ofJson
  simp only [bind_eq_ok_iff, reporting_eq_ok_iff, hcheck, exists_eq_right_right]
  simp only [← and_assoc, exists_and_right]
  refine and_congr_left fun _ => ?_
  cases v with
  | text t => simp only [bind_eq_ok_iff, liftFault_eq_ok_iff, Json.presents_text_iff]
  | _ => simp [Json.presents_value_iff, Json.IsText]

theorem readEntry_put_confirmations (hv : data.field "confirmation_number" = .ok v) (h : w.toInt = v.toInt) :
    readEntry (data.put ["confirmation_number"] w) retarget = readEntry data retarget := by
  simp (disch := decide) only [readEntry, Json.field_put_of_ne, Json.field_put_of_field hv, Json.put_nil, hv,
    liftFault_ok_bind, h]

theorem readEntry_put_height (hv : data.field "height" = .ok v) (h : w.toInt = v.toInt) :
    readEntry (data.put ["height"] w) retarget = readEntry data retarget := by
  simp (disch := decide) only [readEntry, Json.field_put_of_ne, Json.field_put_of_field hv, Json.put_nil, hv,
    liftFault_ok_bind, h]

/-- The words of the header stand in the entry, and the other integers are taken from it. -/
structure Takes (data : Json) (retarget : Retarget) (a : Anchor) : Prop where
  version : data.at? ["header_version"] = some (.int a.header.version.toNat)
  time : data.at? ["time"] = some (.int a.header.time.toNat)
  bits : data.at? ["bits"] = some (.int a.header.bits.toNat)
  nonce : data.at? ["nonce"] = some (.int a.header.nonce.toNat)
  confirmations : Json.TakesAt (ofJson · retarget) data ["confirmation_number"] a.confirmations a
  height : Json.TakesAt (ofJson · retarget) data ["height"] a.height a

theorem takes_of_ofJson (h : ofJson v retarget = .ok a) : ∃ data, v.Presents data ∧ a.Takes data retarget := by
  obtain ⟨data, hdata, hread, hpositive⟩ := ofJson_eq_ok_iff.mp h
  have hput : ∀ {k u w}, data.field k = .ok u →
      readEntry (data.put [k] w) retarget = readEntry data retarget → ofJson (data.put [k] w) retarget = .ok a :=
    fun hk hr => ofJson_eq_ok_iff.mpr ⟨_, .value (Json.not_isText_put hk), hr.trans hread, hpositive⟩
  have hfields := hread
  simp only [readEntry_eq, readHeader, bind_eq_ok_iff, liftFault_eq_ok_iff, pure_eq_ok_iff,
    Header.make_eq_ok_iff] at hfields
  obtain ⟨p, ⟨version, hversion, _, -, previous, -, _, -, root, -, time, htime, bits, hbits, nonce, hnonce, header,
    ⟨rfl, -, -, rfl, rfl, rfl⟩, _, -, network, -, rfl⟩, v, hv, n, hn, u, hu, m, hm, _, -, hash, -, rfl⟩ := hfields
  refine ⟨data, hdata, ?_⟩
  exact {
    version := Json.field_eq_ok_iff.mp hversion
    time := Json.field_eq_ok_iff.mp htime
    bits := Json.field_eq_ok_iff.mp hbits
    nonce := Json.field_eq_ok_iff.mp hnonce
    confirmations := .of_toInt (Json.field_eq_ok_iff.mp hv) hn
      fun w hw => hput hv (readEntry_put_confirmations hv hw)
    height := .of_toInt (Json.field_eq_ok_iff.mp hu) hm fun w hw => hput hu (readEntry_put_height hu hw) }

end Anchor

namespace TrusteeSet

variable {data c v w : Json} {s : TrusteeSet}

/-- The bounds on the number of trustees are taken from the entry. -/
structure Takes (data : Json) (s : TrusteeSet) : Prop where
  least : Json.TakesAt ofJson data ["config", "min_trustee_count"] s.least s
  greatest : Json.TakesAt ofJson data ["config", "max_trustee_count"] s.greatest s

theorem ofJson_put_least (hc : data.field "config" = .ok c) (hv : c.field "min_trustee_count" = .ok v)
    (h : w.toInt = v.toInt) : ofJson (data.put ["config", "min_trustee_count"] w) = ofJson data := by
  simp (disch := decide) only [ofJson, readEntry, Json.field_put_of_ne, Json.field_put_of_field hc,
    Json.field_put_of_field hv, Json.put_nil, hc, hv, liftFault_ok_bind, h]

theorem ofJson_put_greatest (hc : data.field "config" = .ok c) (hv : c.field "max_trustee_count" = .ok v)
    (h : w.toInt = v.toInt) : ofJson (data.put ["config", "max_trustee_count"] w) = ofJson data := by
  simp (disch := decide) only [ofJson, readEntry, Json.field_put_of_ne, Json.field_put_of_field hc,
    Json.field_put_of_field hv, Json.put_nil, hc, hv, liftFault_ok_bind, h]

theorem takes_of_ofJson (h : ofJson data = .ok s) : s.Takes data := by
  have hread := reporting_eq_ok_iff.mp h
  simp only [readEntry, bind_eq_ok_iff, liftFault_eq_ok_iff, pure_eq_ok_iff] at hread
  obtain ⟨c, hc, v, hv, least, hleast, d, hd, u, hu, greatest, hgreatest, _, -, _, -, _, -, _, -, _, -, rfl⟩ := hread
  have hat : ∀ {c v k}, data.field "config" = .ok c → c.field k = .ok v → data.at? ["config", k] = some v :=
    fun hc hv => Json.at?_cons_eq_some_iff.mpr ⟨_, Json.field_eq_ok_iff.mp hc, Json.field_eq_ok_iff.mp hv⟩
  exact {
    least := .of_toInt (hat hc hv) hleast fun w hw => (ofJson_put_least hc hv hw).trans h
    greatest := .of_toInt (hat hd hu) hgreatest fun w hw => (ofJson_put_greatest hd hu hw).trans h }

end TrusteeSet

namespace AssetDefinition

variable {data v w : Json} {d : AssetDefinition}

/-- The id and the number of decimals are taken from the entry. -/
structure Takes (data : Json) (d : AssetDefinition) : Prop where
  id : Json.TakesAt ofJson data ["id"] d.id d
  decimals : Json.TakesAt ofJson data ["decimals"] d.info.decimals d

theorem ofJson_put_id (hv : data.field "id" = .ok v) (h : w.toInt = v.toInt) :
    ofJson (data.put ["id"] w) = ofJson data := by
  simp (disch := decide) only [ofJson, Json.field_put_of_ne, Json.fieldOr_put_of_ne, Json.field_put_of_field hv,
    Json.put_nil, hv, ok_bind, h]

theorem ofJson_put_decimals (hv : data.field "decimals" = .ok v) (h : w.toInt = v.toInt) :
    ofJson (data.put ["decimals"] w) = ofJson data := by
  simp (disch := decide) only [ofJson, Json.field_put_of_ne, Json.fieldOr_put_of_ne, Json.field_put_of_field hv,
    Json.put_nil, hv, ok_bind, h]

theorem takes_of_ofJson (h : ofJson data = .ok d) : d.Takes data := by
  have hread := h
  simp only [ofJson, bind_eq_ok_iff, pure_eq_ok_iff] at hread
  obtain ⟨v, hv, id, hid, _, -, _, -, _, -, _, -, u, hu, decimals, hdecimals, _, -, _, -, _, -, _, -, _, -, rfl⟩ :=
    hread
  exact {
    id := .of_toInt (Json.field_eq_ok_iff.mp hv) hid fun w hw => (ofJson_put_id hv hw).trans h
    decimals := .of_toInt (Json.field_eq_ok_iff.mp hu) hdecimals fun w hw => (ofJson_put_decimals hu hw).trans h }

end AssetDefinition

/-- The integers of an accepted entry: the words of a header are integers of the entry as they stand, and all others
are what their fields are taken for, whatever values of that kind these hold. -/
theorem integers_of_entries (v : Json) :
    (∀ retarget a, Anchor.ofJson v retarget = .ok a → ∃ data, v.Presents data ∧ a.Takes data retarget) ∧
      (∀ s, TrusteeSet.ofJson v = .ok s → s.Takes v) ∧ ∀ d, AssetDefinition.ofJson v = .ok d → d.Takes v :=
  ⟨fun _ _ => Anchor.takes_of_ofJson, fun _ => TrusteeSet.takes_of_ofJson, fun _ => AssetDefinition.takes_of_ofJson⟩

/-- An anchor with four and a half confirmations. -/
def halfConfirmed : Json :=
  let zeros : Json := .text (List.replicate 64 (.char '0'))
  .object [("network", .text "Testnet"), ("confirmation_number", .float (.finite false 0x12000000000000 (-50))),
    ("height", .int 0), ("hash", zeros), ("header_version", .int 1), ("previous_header_hash", zeros),
    ("merkle_root_hash", zeros), ("time", .int 0), ("bits", .int 0), ("nonce", .int 0)]

/-- A set of trustees with a truth value and a text for its bounds. -/
def looselyBounded : Json :=
  .object [("chain", .text "Bitcoin"), ("trustees", .list []),
    ("config", .object [("min_trustee_count", .bool false), ("max_trustee_count", .text "+2")])]

/-- An asset whose id is written as a text. -/
def spelledAsset : Json :=
  .object [("id", .text " 7"), ("token", .text "T"), ("token_name", .text "Token"), ("chain", .text "Bitcoin"),
    ("decimals", .bool true), ("desc", .text "")]

theorem looseEntries_take : ∃ a s d data, Anchor.ofJson halfConfirmed .testnet = .ok a ∧
    halfConfirmed.Presents data ∧ a.Takes data .testnet ∧ a.confirmations = 4 ∧
      Anchor.ofJson (data.put ["confirmation_number"] (.int 4)) .testnet = .ok a ∧
    TrusteeSet.ofJson looselyBounded = .ok s ∧ s.Takes looselyBounded ∧ s.greatest = 2 ∧
    AssetDefinition.ofJson spelledAsset = .ok d ∧ d.Takes spelledAsset ∧ d.id = 7 := by
  obtain ⟨a, ha, hfour⟩ : ∃ a, Anchor.ofJson halfConfirmed .testnet = .ok a ∧ a.confirmations = 4 := ⟨_, rfl, rfl⟩
  obtain ⟨s, hs, htwo⟩ : ∃ s, TrusteeSet.ofJson looselyBounded = .ok s ∧ s.greatest = 2 := ⟨_, rfl, rfl⟩
  obtain ⟨d, hd, hseven⟩ : ∃ d, AssetDefinition.ofJson spelledAsset = .ok d ∧ d.id = 7 := ⟨_, rfl, rfl⟩
  obtain ⟨data, hdata, htakes⟩ := (integers_of_entries halfConfirmed).1 .testnet a ha
  have hliteral := htakes.confirmations.any (.int 4) (hfour ▸ .int 4)
  exact ⟨a, s, d, data, ha, hdata, htakes, hfour, hliteral, hs, (integers_of_entries looselyBounded).2.1 s hs, htwo,
    hd, (integers_of_entries spelledAsset).2.2 d hd, hseven⟩

/-- A fraction is accepted in the place of an integer, and cut off. -/
theorem halfConfirmed_accepted :
    ∃ a, Anchor.ofJson halfConfirmed .testnet = .ok a ∧ a.confirmations = 4 ∧
      halfConfirmed.at? ["confirmation_number"] = some (.float (.finite false 0x12000000000000 (-50))) ∧
      ∀ n, halfConfirmed.at? ["confirmation_number"] ≠ some (.int n) := by
  refine ⟨_, rfl, rfl, rfl, fun n h => ?_⟩
  cases h

end LedgerGenesis
