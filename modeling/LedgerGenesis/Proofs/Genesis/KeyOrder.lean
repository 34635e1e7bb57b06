import LedgerGenesis.Proofs.Endowment.Assets
import LedgerGenesis.Proofs.Genesis.Digest
import LedgerGenesis.Proofs.Json.Reordering

/-! # Canonical bytes and the order of keys

An allocation sorts its assets, so the order in which they are mapped is lost. Migration data keeps its order: the
bytes of a state hold its form at one place, and data in another order gives the same bytes in another order. They
are the same in the same order exactly when the data has one order throughout.
-/
namespace LedgerGenesis

open MessagePack (Exchanges IsPlain exchanges_object)

namespace State

variable {s : State} {v : Json} {bs : Bytes}

def withBuilderParams (s : State) (v : Json) : State := { s with builderParams := v }

/-- The section of the genesis builder. -/
def builderJson (labels : List Json) (v : Json) : Json :=
  .object [("params", v), ("initialAuthorities", .list labels)]

/-- Migration data is shown at one place, and nothing else depends on it. -/
theorem exists_document_withBuilderParams (s : State) (trustees labels : List Json) :
    ∃ before after : List (Text × Json), ∀ v, (s.withBuilderParams v).document trustees labels =
      .object (before ++ (Text.ofString "xGenesisBuilder", builderJson labels v) :: after) := by
  -- the genesis builder comes after twenty-two common sections
  let sections := s.commonSections (Endowment.numberedJson s.assetsEndowed) trustees labels
  refine ⟨s.sudoSection ++ sections.take 22, sections.drop 23, fun v => ?_⟩
  rw [List.append_assoc]
  rfl

/-- The bytes of a state hold the form of its migration data. -/
theorem exchanges_encode (s : State) : Exchanges fun v => (s.withBuilderParams v).encode := by
  intro v bs h
  obtain ⟨doc, hdoc, hpack⟩ := encode_eq_ok_iff.mp h
  obtain ⟨hids, trustees, labels, ht, hl, rfl⟩ := toJson_eq_ok_iff.mp hdoc
  obtain ⟨before, after, hshown⟩ := s.exists_document_withBuilderParams trustees labels
  have hsection : Exchanges fun v => MessagePack.pack (builderJson labels v) :=
    exchanges_object [] [("initialAuthorities", .list labels)] "params"
  have hplace := (exchanges_object before after "xGenesisBuilder").comp hsection
  rw [hshown] at hpack
  obtain ⟨pre, form, post, hform, hbs, hexchange⟩ := hplace v bs hpack
  refine ⟨pre, form, post, hform, hbs, fun w form' hw => ?_⟩
  refine encode_eq_ok_iff.mpr ⟨_, toJson_eq_ok_iff.mpr ⟨hids, trustees, labels, ht, hl, rfl⟩, ?_⟩
  rw [hshown]
  exact hexchange w form' hw

/-- Two states have bytes alike, and these are the same bytes up to order. Their order is one, and so is the hash,
exactly when the migration data is. -/
structure EncodesUpToOrder (s t : State) : Prop where
  exists_iff : (∃ bs, s.encode = .ok bs) ↔ ∃ bs, t.encode = .ok bs
  perm : ∀ bs cs, s.encode = .ok bs → t.encode = .ok cs → bs.Perm cs
  eq_iff : (∃ bs, s.encode = .ok bs) →
    (s.encode = t.encode ∧ s.hash = t.hash ↔ s.builderParams = t.builderParams)

theorem exists_encode_of_reordered (h : s.builderParams.Reordered v) (hbs : s.encode = .ok bs) :
    ∃ cs, (s.withBuilderParams v).encode = .ok cs ∧ bs.Perm cs :=
  s.exchanges_encode.perm (fun _ => h.pack_perm) hbs

theorem encodesUpToOrder (h : s.builderParams.Reordered v) (hplain : s.builderParams.Throughout IsPlain) :
    s.EncodesUpToOrder (s.withBuilderParams v) where
  exists_iff := by
    constructor
    · rintro ⟨bs, hbs⟩
      obtain ⟨cs, hcs, -⟩ := exists_encode_of_reordered h hbs
      exact ⟨cs, hcs⟩
    · rintro ⟨cs, hcs⟩
      obtain ⟨bs, hbs, -⟩ := exists_encode_of_reordered (s := s.withBuilderParams v) h.symm hcs
      exact ⟨bs, hbs⟩
  perm bs cs hbs hcs := by
    obtain ⟨ds, hds, hperm⟩ := exists_encode_of_reordered h hbs
    obtain rfl : cs = ds := Except.ok.inj (hcs.symm.trans hds)
    exact hperm
  eq_iff := by
    rintro ⟨bs, hbs⟩
    constructor
    · rintro ⟨hsame, -⟩
      have hcs : (s.withBuilderParams v).encode = .ok bs := hsame.symm.trans hbs
      exact s.exchanges_encode.injective hplain (h.plain hplain) hbs hcs
    · intro hv
      obtain rfl : s.builderParams = v := hv
      exact ⟨rfl, rfl⟩

end State

namespace Inputs

open Endowment (allocate allocate_eq_of_perm)

variable {i : Inputs} {s : State} {accounts : List Bytes} {amount : Json} {stake : Int}
  {grants grants' : List (Int × Grants)} {fields fields' : List (Text × Json)} {e : Endowment}

theorem builderMapping_object : builderMapping (.object fields) = .ok (.object fields) := by
  unfold builderMapping Json.isTruthy
  cases fields <;> rfl

/-- Migration data goes into the state as it is, and no check looks at it. -/
theorem Yields.withBuilderParams (h : i.Yields s) (fields' : List (Text × Json)) :
    { i with builderParams := .object fields' }.Yields (s.withBuilderParams (.object fields')) :=
  { h with builderParams := builderMapping_object }

/-- Inputs that differ in the order of the assets to allocate and in the order of the fields of migration data, at
any depth, are assembled to states that encode alike up to order. Their bytes and hashes are the same exactly when
the migration data is in one order. -/
theorem assemble_encodes_up_to_order (hids : (grants.map Prod.fst).Nodup) (hgrants : grants'.Perm grants)
    (hfields : (Json.object fields).Reordered (.object fields'))
    (hplain : (Json.object fields).Throughout IsPlain)
    (he : allocate accounts amount stake grants = .ok e)
    (hs : assemble { i with endowment := e, builderParams := .object fields } = .ok s) :
    ∃ e' t, allocate accounts amount stake grants' = .ok e' ∧
      assemble { i with endowment := e', builderParams := .object fields' } = .ok t ∧
        s.EncodesUpToOrder t ∧ s.builderParams = .object fields ∧ t.builderParams = .object fields' := by
  have h := assemble_eq_ok_iff.mp hs
  have hparams : s.builderParams = .object fields :=
    Except.ok.inj (h.builderParams.symm.trans builderMapping_object)
  rw [← hparams] at hfields hplain
  refine ⟨e, _, ?_, assemble_eq_ok_iff.mpr (h.withBuilderParams fields'),
    State.encodesUpToOrder hfields hplain, hparams, rfl⟩
  rw [allocate_eq_of_perm hids hgrants, he]

/-- Migration data with two fields, the second of which has two fields itself. -/
def migrationData : List (Text × Json) :=
  [("a", .int 1), ("b", .object [("c", .int 2), ("d", .null)])]

/-- The same data in another order at both depths. -/
def reorderedData : List (Text × Json) :=
  [("b", .object [("d", .null), ("c", .int 2)]), ("a", .int 1)]

theorem reordered_migrationData :
    (Json.object migrationData).Reordered (.object reorderedData) := by
  have hinner : (Json.object [("c", .int 2), ("d", .null)]).Reordered
      (.object [("d", .null), ("c", .int 2)]) := .fields (.swap _ _ _)
  exact .trans (.field [("a", .int 1)] [] "b" hinner) (.fields (.swap _ _ _))

theorem plain_migrationData : (Json.object migrationData).Throughout IsPlain := by
  simp [migrationData]

/-- A network with migration data. -/
def networkWith (fields : List (Text × Json)) : Inputs :=
  { smallNetwork with builderParams := .object fields }

theorem exists_encode_networkWith :
    ∃ s bs, (networkWith migrationData).assemble = .ok s ∧ s.encode = .ok bs := by
  have hrun : ∃ s, (networkWith migrationData).assemble = .ok s ∧ s.encode.isOk = true :=
    ⟨_, rfl, by decide +kernel⟩
  obtain ⟨s, hs, hok⟩ := hrun
  cases hbs : s.encode with
  | error e =>
    rw [hbs] at hok
    cases hok
  | ok bs => exact ⟨s, bs, hs, hbs⟩

theorem smallNetwork_encodes_up_to_order :
    let grants := [(1, [(plainKey 10, Json.int 7)]), (0, [(plainKey 10, .int 5)])]
    (grants.map Prod.fst).Nodup ∧
      allocate [plainKey 10, plainKey 20] (.int 100) 50 grants = .ok smallNetwork.endowment ∧
      allocate [plainKey 10, plainKey 20] (.int 100) 50 grants.reverse = .ok smallNetwork.endowment ∧
      ∃ s t bs cs, (networkWith migrationData).assemble = .ok s ∧
        (networkWith reorderedData).assemble = .ok t ∧ s.encode = .ok bs ∧ t.encode = .ok cs ∧
          bs.Perm cs ∧ s.EncodesUpToOrder t := by
  intro grants
  have hids : (grants.map Prod.fst).Nodup := by decide
  have he : allocate [plainKey 10, plainKey 20] (.int 100) 50 grants = .ok smallNetwork.endowment := rfl
  obtain ⟨s, bs, hs, hbs⟩ := exists_encode_networkWith
  obtain ⟨e', t, he', ht, halike, -⟩ := assemble_encodes_up_to_order hids (List.reverse_perm grants)
    reordered_migrationData plain_migrationData he hs
  have hsame : allocate [plainKey 10, plainKey 20] (.int 100) 50 grants.reverse =
      .ok smallNetwork.endowment := rfl
  obtain rfl : smallNetwork.endowment = e' := Except.ok.inj (hsame.symm.trans he')
  obtain ⟨cs, hcs⟩ := halike.exists_iff.mp ⟨bs, hbs⟩
  exact ⟨hids, he, hsame, s, t, bs, cs, hs, ht, hbs, hcs, halike.perm bs cs hbs hcs, halike⟩

/-- Two fields of migration data in either order give different bytes. -/
theorem migrationData_order_matters : ∃ s t bs cs,
    (Json.object migrationData).Reordered (.object reorderedData) ∧
      (networkWith migrationData).assemble = .ok s ∧
        (networkWith reorderedData).assemble = .ok t ∧ s.encode = .ok bs ∧ t.encode = .ok cs ∧ bs ≠ cs := by
  have hreordered := reordered_migrationData
  obtain ⟨s, bs, hs, hbs⟩ := exists_encode_networkWith
  have h := assemble_eq_ok_iff.mp hs
  have hparams : .object migrationData = s.builderParams :=
    Except.ok.inj (builderMapping_object.symm.trans h.builderParams)
  have hplain : s.builderParams.Throughout IsPlain := hparams ▸ plain_migrationData
  have ht := assemble_eq_ok_iff.mpr (h.withBuilderParams reorderedData)
  obtain ⟨cs, hcs, -⟩ := State.exists_encode_of_reordered (hparams ▸ hreordered) hbs
  refine ⟨s, _, bs, cs, hreordered, hs, ht, hbs, hcs, ?_⟩
  rintro rfl
  have hsame := s.exchanges_encode.injective hplain (hreordered.plain plain_migrationData) hbs hcs
  rw [← hparams] at hsame
  exact absurd hsame (by decide +kernel)

end Inputs

end LedgerGenesis
