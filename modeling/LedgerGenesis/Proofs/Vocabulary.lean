import LedgerGenesis.Parameters
import LedgerGenesis.Proofs.Text.Spelling

/-! # Reading names of closed sets

A name stands for the one member of its set that is spelled so, and nothing else stands for a member.
-/
namespace LedgerGenesis

theorem findNamed_eq_some_iff {α : Type} {all : List α} {name : α → String} {v : Json} {a : α}
    (hall : ∀ b, b ∈ all) (hname : Function.Injective name) :
    findNamed all name v = some a ↔ v = .text (Text.ofString (name a)) := by
  cases v with
  | text t =>
    constructor
    · intro h
      have hn := List.find?_some h
      rw [of_decide_eq_true hn]
    · intro h
      obtain rfl := Json.text.inj h
      have hs : (findNamed all name (.text (Text.ofString (name a)))).isSome :=
        List.find?_isSome.mpr ⟨a, hall a, decide_eq_true rfl⟩
      obtain ⟨b, hb⟩ := Option.isSome_iff_exists.mp hs
      have hn : Text.ofString (name b) = Text.ofString (name a) := by
        simpa using List.find?_some (p := fun c => decide (Text.ofString (name c) = _)) hb
      rw [hb, hname (Text.ofString_inj.mp hn)]
  | _ => simp [findNamed]

namespace Profile

theorem name_injective : Function.Injective name := by
  intro p q h
  cases p <;> cases q <;> first | rfl | simp [name] at h

theorem ofJson_eq_ok_iff {v : Json} {p : Profile} :
    ofJson v = .ok p ↔ v = .text (Text.ofString p.name) := by
  have h : ofJson? v = some p ↔ v = .text (Text.ofString p.name) :=
    findNamed_eq_some_iff (by intro b; cases b <;> simp [all]) name_injective
  rw [← h, ofJson]
  cases ofJson? v <;> simp

/-- Anything else is refused as an unknown profile, in a text that shows it. -/
theorem ofJson_eq_error_iff {v : Json} {x : Error} : ofJson v = .error x ↔
    (∀ p, ofJson v ≠ .ok p) ∧ (GenesisError.unknownProfile v).raised = x := by
  simp only [ofJson]
  split <;> simp

end Profile

theorem ChainType.name_injective : Function.Injective ChainType.name := by
  intro c d h
  cases c <;> cases d <;> first | rfl | simp [name] at h

theorem ChainType.ofJson?_eq_some_iff {v : Json} {c : ChainType} :
    ofJson? v = some c ↔ v = .text (Text.ofString c.name) :=
  findNamed_eq_some_iff (by intro d; cases d <;> simp [all]) name_injective

theorem Chain.name_injective : Function.Injective Chain.name := by
  intro c d h
  cases c <;> cases d <;> first | rfl | simp [name] at h

theorem BitcoinNetwork.name_injective : Function.Injective BitcoinNetwork.name := by
  intro m n h
  cases m <;> cases n <;> first | rfl | simp [name] at h

theorem BitcoinNetwork.ofJson?_eq_some_iff {v : Json} {n : BitcoinNetwork} :
    ofJson? v = some n ↔ v = .text (Text.ofString n.name) :=
  findNamed_eq_some_iff (by intro m; cases m <;> simp [all]) name_injective

end LedgerGenesis
