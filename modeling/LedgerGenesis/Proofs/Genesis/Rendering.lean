import LedgerGenesis.Genesis.State
import LedgerGenesis.Proofs.Hexadecimal
import LedgerGenesis.Proofs.Json.Showable
import LedgerGenesis.Proofs.Outcome
import LedgerGenesis.Proofs.Text.Utf8
import LedgerGenesis.Proofs.Vocabulary

/-! # The values in a document determine what they show

Each part of a state has one form in the document, and no other value of its kind has that form.
-/
namespace LedgerGenesis

theorem list_map_inj {α : Type} {f : α → Json} (hf : Function.Injective f) {xs ys : List α}
    (h : Json.list (xs.map f) = .list (ys.map f)) : xs = ys :=
  List.map_injective_iff.mpr hf (Json.list.inj h)

theorem SessionKeys.toJson_injective : Function.Injective SessionKeys.toJson := by
  intro k l h
  simp only [toJson, Json.object.injEq, List.cons.injEq, Prod.mk.injEq, Json.text.injEq,
    Hex.encode_inj, true_and, and_true] at h
  obtain ⟨hg, hb, hi, ha⟩ := h
  cases k
  cases l
  simp_all only

theorem AssetInfo.toJson_injective : Function.Injective AssetInfo.toJson := by
  intro i j h
  simp only [toJson, Json.object.injEq, List.cons.injEq, Prod.mk.injEq, Json.text.injEq,
    Json.int.injEq, Text.ofString_inj, Chain.name_injective.eq_iff, true_and, and_true] at h
  obtain ⟨ht, hn, hc, hd, he⟩ := h
  cases i
  cases j
  simp_all only

theorem AssetEntry.toJson_injective : Function.Injective AssetEntry.toJson := by
  intro d e h
  simp only [toJson, Json.list.injEq, List.cons.injEq, Json.int.injEq, Json.bool.injEq,
    AssetInfo.toJson_injective.eq_iff, and_true] at h
  obtain ⟨hid, hinfo, honline, hrights⟩ := h
  cases d
  cases e
  simp_all only

theorem Retarget.toJson_injective : Function.Injective Retarget.toJson := by
  intro p q h
  simp only [toJson, Json.object.injEq, List.cons.injEq, Prod.mk.injEq, Json.int.injEq, true_and] at h
  obtain ⟨hb, hf, ht, hs, hr, -⟩ := h
  cases p
  cases q
  simp_all only

theorem Header.toJson_injective : Function.Injective Header.toJson := by
  intro g h hgh
  simp only [toJson, Json.object.injEq, List.cons.injEq, Prod.mk.injEq, Json.int.injEq,
    Json.text.injEq, Hex.encode_inj, Int.natCast_inj, UInt32.toNat_inj, true_and, and_true] at hgh
  obtain ⟨hv, hp, hm, ht, hb, hn⟩ := hgh
  cases g
  cases h
  simp_all only

namespace Endowment

theorem balancesJson_injective : Function.Injective balancesJson := by
  refine fun bs cs h => list_map_inj ?_ h
  rintro ⟨a, m⟩ ⟨b, n⟩ hp
  simpa using hp

/-- Balances under the numerals of their ids, where all ids have one. -/
def numberedJson (assets : List (Int × Balances)) : Json :=
  .object (assets.map fun a => (Text.ofInt a.1, balancesJson a.2))

theorem assetsJson_eq_ok_iff {assets : List (Int × Balances)} {v : Json} :
    assetsJson assets = .ok v ↔ (∀ a ∈ assets, HasNumeral a.1) ∧ numberedJson assets = v := by
  simp only [assetsJson, bind_eq_ok_iff, Json.report_eq_ok_iff, exists_const, pure_eq_ok_iff,
    List.forall_mem_map, Json.isShowable_int_iff]
  rfl

theorem numberedJson_injective : Function.Injective numberedJson := by
  intro xs ys h
  refine List.map_injective_iff.mpr (fun a b hab => ?_) (Json.object.inj h)
  obtain ⟨hid, hbs⟩ := Prod.mk.inj hab
  exact Prod.ext (Text.ofInt_injective hid) (balancesJson_injective hbs)

end Endowment

theorem Trustee.toJson_eq_ok_iff {t : Trustee} {v : Json} : t.toJson = .ok v ↔
    ∃ about : Text, about.utf8? = some t.about ∧ v = .list [.text (Hex.encode t.account), .text about,
      .text (Hex.encode t.hotKey), .text (Hex.encode t.coldKey)] := by
  simp only [← Text.ofUtf8?_eq_some_iff]
  unfold toJson
  cases Text.ofUtf8? t.about with
  | none => simp
  | some about => simp [eq_comm]

theorem Trustee.eq_of_toJson (t u : Trustee) (v : Json) (ht : t.toJson = .ok v)
    (hu : u.toJson = .ok v) : t = u := by
  obtain ⟨about, ha, rfl⟩ := toJson_eq_ok_iff.mp ht
  obtain ⟨about', ha', hv⟩ := toJson_eq_ok_iff.mp hu
  simp only [Json.list.injEq, List.cons.injEq, Json.text.injEq, Hex.encode_inj, and_true] at hv
  obtain ⟨haccount, rfl, hhot, hcold⟩ := hv
  rw [ha] at ha'
  cases t
  cases u
  simp_all only [Option.some.injEq]

theorem TrusteeSet.toJson_eq_ok_iff {set : TrusteeSet} {v : Json} : set.toJson = .ok v ↔
    ∃ trustees, set.trustees.mapM Trustee.toJson = .ok trustees ∧
      v = .list [.text set.chain.name, set.boundsJson, .list trustees] := by
  simp only [toJson, bind_eq_ok_iff, pure_eq_ok_iff]
  exact exists_congr fun _ => and_congr_right fun _ => eq_comm

theorem TrusteeSet.eq_of_toJson (p q : TrusteeSet) (v : Json) (hp : p.toJson = .ok v)
    (hq : q.toJson = .ok v) : p = q := by
  obtain ⟨ts, ht, rfl⟩ := toJson_eq_ok_iff.mp hp
  obtain ⟨us, hu, hv⟩ := toJson_eq_ok_iff.mp hq
  simp only [boundsJson, Json.list.injEq, List.cons.injEq, Json.text.injEq, Json.object.injEq,
    Prod.mk.injEq, Json.int.injEq, Text.ofString_inj, Chain.name_injective.eq_iff, true_and,
    and_true] at hv
  obtain ⟨hchain, ⟨hleast, hgreatest⟩, rfl⟩ := hv
  have htrustees := mapM_injective Trustee.eq_of_toJson ht hu
  cases p
  cases q
  simp_all only

namespace State

theorem referralJson_eq_ok_iff {referral : Bytes} {v : Json} : referralJson referral = .ok v ↔
    ∃ label : Text, label.utf8? = some referral ∧ v = .text label := by
  simp only [← Text.ofUtf8?_eq_some_iff]
  unfold referralJson
  cases Text.ofUtf8? referral with
  | none => simp
  | some label => simp [eq_comm]

theorem eq_of_referralJson (b c : Bytes) (v : Json) (hb : referralJson b = .ok v)
    (hc : referralJson c = .ok v) : b = c := by
  obtain ⟨label, hl, rfl⟩ := referralJson_eq_ok_iff.mp hb
  obtain ⟨label', hl', hv⟩ := referralJson_eq_ok_iff.mp hc
  rw [← Json.text.inj hv, hl] at hl'
  exact Option.some.inj hl'

theorem hexList_injective : Function.Injective hexList :=
  fun _ _ h => list_map_inj (fun _ _ h => Hex.encode_injective (Json.text.inj h)) h

end State

end LedgerGenesis
