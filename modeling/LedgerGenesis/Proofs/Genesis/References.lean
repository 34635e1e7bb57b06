import LedgerGenesis.Proofs.Asset.Registry
import LedgerGenesis.Proofs.Genesis.Assembly
import LedgerGenesis.Proofs.Genesis.Document

/-! # References to assets

The sections on mining and trading come from the profile, while the registry comes from the definitions of
the inputs. No check relates the two, so a document may refer to an asset that its registry lacks.
-/
namespace LedgerGenesis

namespace Json

/-- The ids of the assets that the registry of a document has. -/
def registeredIds (doc : Json) : List Json := doc.columnAt ["xAssetsRegistrar", "assets"] 0

/-- The ids of the assets that the rules of mining refer to. -/
def minedIds (doc : Json) : List Json :=
  doc.columnAt ["xMiningAsset", "claimRestrictions"] 0 ++ doc.columnAt ["xMiningAsset", "miningPowerMap"] 0

/-- The ids of the assets that are the base or the quote of a pair. -/
def tradedIds (doc : Json) : List Json :=
  doc.columnAt ["xSpot", "tradingPairs"] 0 ++ doc.columnAt ["xSpot", "tradingPairs"] 1

/-- A document refers to an id that its registry lacks. The native currency is never registered, and only
a trading pair may refer to it. -/
def Dangles (doc id : Json) : Prop :=
  (id ∈ doc.minedIds ∨ id ∈ doc.tradedIds ∧ id ≠ .int 0) ∧ id ∉ doc.registeredIds

end Json

namespace State

variable {s : State} {doc id : Json}

theorem registeredIds_eq (h : s.toJson = .ok doc) :
    doc.registeredIds = s.registry.entries.map fun e => .int e.id := by
  have hat : doc.at? ["xAssetsRegistrar", "assets"] =
      some (.list (s.registry.entries.map AssetEntry.toJson)) :=
    at?_of_toJson h (by decide) fun _ _ => rfl
  rw [Json.registeredIds, Json.columnAt_eq hat]
  exact Json.column_list_map fun _ => rfl

theorem minedIds_eq (h : s.toJson = .ok doc) : doc.minedIds =
    (s.parameters.claimRestrictions.map fun c => .int c.1) ++
      s.parameters.miningPower.map fun m => .int m.1 := by
  have hc : doc.at? ["xMiningAsset", "claimRestrictions"] =
      some (.list (s.parameters.claimRestrictions.map fun c => .list [.int c.1, pairJson c.2])) :=
    at?_of_toJson h (by decide) fun _ _ => rfl
  have hm : doc.at? ["xMiningAsset", "miningPowerMap"] =
      some (.list (s.parameters.miningPower.map fun m => .list [.int m.1, .int m.2])) :=
    at?_of_toJson h (by decide) fun _ _ => rfl
  rw [Json.minedIds, Json.columnAt_eq hc, Json.columnAt_eq hm, Json.column_list_map fun _ => rfl,
    Json.column_list_map fun _ => rfl]

theorem tradedIds_eq (h : s.toJson = .ok doc) : doc.tradedIds =
    (s.parameters.tradingPairs.map fun t => .int t.base) ++
      s.parameters.tradingPairs.map fun t => .int t.quote := by
  have ht : doc.at? ["xSpot", "tradingPairs"] =
      some (.list (s.parameters.tradingPairs.map tradingPairJson)) :=
    at?_of_toJson h (by decide) fun _ _ => rfl
  have hb : Json.column 0 (.list (s.parameters.tradingPairs.map tradingPairJson)) =
      s.parameters.tradingPairs.map fun t => .int t.base := Json.column_list_map fun _ => rfl
  have hq : Json.column 1 (.list (s.parameters.tradingPairs.map tradingPairJson)) =
      s.parameters.tradingPairs.map fun t => .int t.quote := Json.column_list_map fun _ => rfl
  rw [Json.tradedIds, Json.columnAt_eq ht, Json.columnAt_eq ht, hb, hq]

/-- Every profile has mining rules for bridged bitcoin alone, and one market, of it and the native
currency. -/
theorem dangles_iff_of_toJson (h : s.toJson = .ok doc) :
    doc.Dangles id ↔ id = .int bridgedBitcoin ∧ bridgedBitcoin ∉ s.registry.entries.map AssetEntry.id := by
  have hm : doc.minedIds = [.int bridgedBitcoin, .int bridgedBitcoin] := by
    rw [minedIds_eq h, parameters]
    cases s.profile <;> rfl
  have ht : doc.tradedIds = [.int nativeAsset, .int bridgedBitcoin] := by
    rw [tradedIds_eq h, parameters]
    cases s.profile <;> rfl
  -- the native currency is traded but needs no registration, which leaves bridged bitcoin
  have href : (id ∈ doc.minedIds ∨ id ∈ doc.tradedIds ∧ id ≠ .int 0) ↔ id = .int bridgedBitcoin := by
    rw [hm, ht]
    constructor
    · rintro (hid | ⟨hid, hne⟩)
      · simpa using hid
      · simpa [nativeAsset, hne] using hid
    · rintro rfl
      exact Or.inl List.mem_cons_self
  have hreg : id = .int bridgedBitcoin →
      (id ∈ doc.registeredIds ↔ bridgedBitcoin ∈ s.registry.entries.map AssetEntry.id) := by
    rintro rfl
    rw [registeredIds_eq h]
    simp
  rw [Json.Dangles, href]
  exact and_congr_right fun hid => not_congr (hreg hid)

end State

namespace Inputs

variable {i : Inputs} {s : State} {doc : Json}

/-- The references of a document are all to registered assets exactly when the definitions have one of
bridged bitcoin. Nothing else can be missing. -/
theorem dangles_iff (hs : i.assemble = .ok s) (hd : s.toJson = .ok doc) :
    ((∀ id, ¬ doc.Dangles id) ↔ ∃ d ∈ i.assets, d.id = bridgedBitcoin) ∧
      ∀ id, doc.Dangles id → id = .int bridgedBitcoin := by
  have h := assemble_eq_ok_iff.mp hs
  obtain ⟨-, hr⟩ := Registry.ofDefinitions_eq_ok_iff.mp h.registry
  have hmem : bridgedBitcoin ∈ s.registry.entries.map AssetEntry.id ↔
      ∃ d ∈ i.assets, d.id = bridgedBitcoin := by
    simp [hr, AssetDefinition.entry]
  refine ⟨⟨fun hn => ?_, fun hd1 id hid => ?_⟩, fun id hid => ((State.dangles_iff_of_toJson hd).mp hid).1⟩
  · rw [← hmem]
    by_contra hne
    exact hn _ ((State.dangles_iff_of_toJson hd).mpr ⟨rfl, hne⟩)
  · exact ((State.dangles_iff_of_toJson hd).mp hid).2 (hmem.mpr hd1)

theorem smallNetwork_references : ∃ s doc, smallNetwork.assemble = .ok s ∧ s.toJson = .ok doc ∧
    ∀ id, ¬ doc.Dangles id :=
  ⟨_, _, rfl, rfl, (dangles_iff (i := smallNetwork) rfl rfl).1.mpr ⟨_, List.mem_cons_self, rfl⟩⟩

/-- The network without any definition of an asset. -/
def bareNetwork : Inputs :=
  { smallNetwork with assets := [], endowment := { smallNetwork.endowment with assets := [] } }

theorem bareNetwork_dangles : ∃ s doc, bareNetwork.assemble = .ok s ∧ s.toJson = .ok doc ∧
    doc.Dangles (.int 1) := by
  have hstate : ∃ s doc, bareNetwork.assemble = .ok s ∧ s.toJson = .ok doc ∧ s.registry.entries = [] :=
    ⟨_, _, rfl, rfl, rfl⟩
  obtain ⟨s, doc, hs, hd, hr⟩ := hstate
  refine ⟨s, doc, hs, hd, (State.dangles_iff_of_toJson hd).mpr ⟨rfl, ?_⟩⟩
  rw [hr]
  exact List.not_mem_nil

end Inputs

end LedgerGenesis
