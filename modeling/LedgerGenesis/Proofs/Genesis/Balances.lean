import LedgerGenesis.Proofs.Asset.Registry
import LedgerGenesis.Proofs.Endowment
import LedgerGenesis.Proofs.Genesis.Checks
import LedgerGenesis.Proofs.Genesis.Assembly
import LedgerGenesis.Proofs.Genesis.Document

/-! # Balances have one place, and every asset is registered

Native balances come from the allocation alone, in the order of its accounts. Other assets keep what the
allocation grants them, each under the id of a registered asset, and the native currency is not among them.
-/
namespace LedgerGenesis

namespace State

/-- The native balances are one amount for each account, and the total is what they add up to. -/
structure HoldsNative (s : State) (accounts : List Bytes) (n : Int) : Prop where
  accounts_nodup : accounts.Nodup
  balances : (s.balances.map fun b => (b.1, (b.2 : Int))) = accounts.map (·, n)
  total_eq_sum : s.totalEndowed = (s.balances.map Prod.snd).sum
  total_eq : (s.totalEndowed : Int) = accounts.length * n
  document : ∀ doc, s.toJson = .ok doc → doc.at? ["balances", "balances"] =
    some (.list (accounts.map fun a => .list [.text (Hex.encode a), .int n]))

/-- The endowed assets are those granted, apart from the native currency, with their grants unchanged. Each
is registered, and the document lists each under its id. -/
structure HoldsAssets (s : State) (grants : List (Int × Grants)) : Prop where
  grants_perm : (s.assetsEndowed.map fun a => (a.1, Endowment.asGrants a.2)).Perm
    (grants.filter fun g => g.1 ≠ 0)
  registered : ∀ a ∈ s.assetsEndowed, a.1 ∈ s.registry.entries.map AssetEntry.id
  accounts_nodup : ∀ a ∈ s.assetsEndowed, (a.2.map Prod.fst).Nodup
  document : ∀ doc, s.toJson = .ok doc → ∃ fields, doc.at? ["xAssets", "endowed"] = some (.object fields) ∧
    Json.keys fields = (s.assetsEndowed.map fun a => Text.ofInt a.1) ∧
      Text.ofString "0" ∉ Json.keys fields ∧
        ((grants.map Prod.fst).Nodup → (Json.keys fields).Nodup)

variable {s : State} {doc : Json}

theorem document_balances (h : s.toJson = .ok doc) :
    doc.at? ["balances", "balances"] = some (Endowment.balancesJson s.balances) := by
  exact at?_of_toJson h (by decide) fun _ _ => rfl

theorem document_endowed (h : s.toJson = .ok doc) : doc.at? ["xAssets", "endowed"] =
    some (.object (s.assetsEndowed.map fun a => (Text.ofInt a.1, Endowment.balancesJson a.2))) := by
  exact at?_of_toJson h (by decide) fun _ _ => rfl

end State

namespace Inputs

variable {i : Inputs} {s : State} {accounts : List Bytes} {amount : Json} {stake n : Int}
  {grants : List (Int × Grants)}

theorem Yields.holdsNative (h : i.Yields s) (ha : i.endowment.Allocates accounts n) :
    s.HoldsNative accounts n := by
  have hb : (s.balances.map fun b => (b.1, (b.2 : Int))) = accounts.map (·, n) := by
    rw [h.balances]
    exact ha.native
  refine ⟨ha.accounts_nodup, hb, ?_, ?_, fun doc hd => ?_⟩
  · rw [h.totalEndowed, h.balances]
    exact ha.total
  · rw [h.totalEndowed]
    exact ha.total_eq
  · have hrows := congrArg
      (List.map fun p : Bytes × Int => Json.list [.text (Hex.encode p.1), .int p.2]) hb
    rw [List.map_map, List.map_map] at hrows
    rw [State.document_balances hd]
    exact congrArg (fun rows => some (Json.list rows)) hrows

/-- What is endowed are registered assets of the endowment, and not the native one. -/
theorem Yields.of_mem_assetsEndowed (h : i.Yields s) {a : Int × Balances} (ha : a ∈ s.assetsEndowed) :
    a ∈ i.endowment.assets ∧ a.1 ≠ nativeAsset ∧ a.1 ∈ s.registry.entries.map AssetEntry.id := by
  obtain ⟨hreg, hothers⟩ := checkEndowedAssets_eq_ok_iff.mp h.assetsEndowed
  obtain ⟨hmem, hne⟩ : a ∈ i.endowment.assets ∧ a.1 ≠ nativeAsset := by
    rw [hothers] at ha
    simpa using List.mem_filter.mp ha
  rw [← (Registry.sound_of_ofDefinitions h.registry).restrictions_keys]
  exact ⟨hmem, hne, hreg a hmem hne⟩

/-- What is endowed is what was granted, without the native currency. -/
theorem Yields.assetsEndowed_perm (h : i.Yields s)
    (ha : Endowment.allocateAssets grants = .ok i.endowment.assets) :
    (s.assetsEndowed.map fun a => (a.1, Endowment.asGrants a.2)).Perm
      (grants.filter fun g => g.1 ≠ 0) := by
  have hp := (Endowment.sortById_perm grants).filter fun g => decide (g.1 ≠ 0)
  rw [(Endowment.allocateAssets_eq_ok_iff.mp ha).1, List.filter_map] at hp
  rw [(checkEndowedAssets_eq_ok_iff.mp h.assetsEndowed).2]
  exact hp

/-- Ids that were allocated have numerals. -/
theorem Yields.numbersIds (h : i.Yields s)
    (ha : Endowment.allocateAssets grants = .ok i.endowment.assets) : s.NumbersIds :=
  fun a hm => ((Endowment.allocateAssets_eq_ok_iff.mp ha).2 a (h.of_mem_assetsEndowed hm).1).1

theorem Yields.holdsAssets (h : i.Yields s)
    (ha : Endowment.allocateAssets grants = .ok i.endowment.assets) : s.HoldsAssets grants := by
  have hnodup := (Endowment.allocateAssets_eq_ok_iff.mp ha).2
  have hperm := h.assetsEndowed_perm ha
  refine ⟨hperm, fun a hm => (h.of_mem_assetsEndowed hm).2.2,
    fun a hm => (hnodup a (h.of_mem_assetsEndowed hm).1).2, fun doc hd => ?_⟩
  refine ⟨_, State.document_endowed hd, ?_, ?_, ?_⟩
  · rw [Json.keys, List.map_map]
    rfl
  · rw [Json.keys, List.map_map]
    intro hm
    obtain ⟨a, ha, h0⟩ := List.mem_map.mp hm
    exact (h.of_mem_assetsEndowed ha).2.1 (Text.ofInt_injective h0)
  · intro hn
    have hids : (s.assetsEndowed.map Prod.fst).Nodup := by
      have hp := hperm.map Prod.fst
      rw [List.map_map] at hp
      refine hp.nodup_iff.mpr ?_
      exact hn.sublist (List.filter_sublist.map Prod.fst)
    have hkeys := hids.map Text.ofInt_injective
    rw [List.map_map] at hkeys
    rw [Json.keys, List.map_map]
    exact hkeys

/-- A state from an allocation has a sound registry, holds the native amounts of the allocation and the
assets that it grants, and nothing of the native currency among them. -/
theorem assemble_holds_allocation (hs : i.assemble = .ok s)
    (ha : Endowment.allocate accounts amount stake grants = .ok i.endowment) :
    s.registry.Sound ∧ (∃ n, amount = .int n ∧ s.HoldsNative accounts n) ∧ s.HoldsAssets grants := by
  have h := assemble_eq_ok_iff.mp hs
  obtain ⟨⟨n, hn, hnative⟩, hassets⟩ := Endowment.allocate_eq_ok ha
  exact ⟨Registry.sound_of_ofDefinitions h.registry, ⟨n, hn, h.holdsNative hnative⟩,
    h.holdsAssets hassets⟩

theorem smallNetwork_holds_allocation :
    let grants := [(1, [(plainKey 10, Json.int 7)]), (0, [(plainKey 10, .int 5)])]
    ∃ s, smallNetwork.assemble = .ok s ∧
      Endowment.allocate [plainKey 10, plainKey 20] (.int 100) 50 grants = .ok smallNetwork.endowment ∧
      s.registry.Sound ∧ (∃ n, Json.int 100 = .int n ∧ s.HoldsNative [plainKey 10, plainKey 20] n) ∧
      s.HoldsAssets grants := by
  intro grants
  obtain ⟨s, hs⟩ := exists_assemble_smallNetwork
  have ha : Endowment.allocate [plainKey 10, plainKey 20] (.int 100) 50 grants =
      .ok smallNetwork.endowment := rfl
  exact ⟨s, hs, ha, assemble_holds_allocation hs ha⟩

end Inputs

end LedgerGenesis
