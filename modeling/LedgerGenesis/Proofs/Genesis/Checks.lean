import LedgerGenesis.Genesis.Assembly
import LedgerGenesis.Proofs.Json.Showable
import LedgerGenesis.Proofs.Outcome

/-! # What each check of an assembly demands

One equivalence for each check says exactly when it passes, and one fact for each says of which class its
failures are and which values their texts show.
-/
namespace LedgerGenesis

/-- A set serves a chain, and no set before it does. -/
def TrusteeSet.IsFirst (sets : List TrusteeSet) (chain : Chain) (s : TrusteeSet) : Prop :=
  s.chain = chain ∧ ∃ before after, sets = before ++ s :: after ∧ ∀ t ∈ before, t.chain ≠ chain

/-- The number of trustees is within the bounds of their set. -/
def TrusteeSet.Sized (s : TrusteeSet) : Prop :=
  s.least ≤ s.trustees.length ∧ s.trustees.length ≤ s.greatest

instance (s : TrusteeSet) : Decidable s.Sized := inferInstanceAs (Decidable (_ ∧ _))

/-- The bound that the size of a set misses, if it misses one. -/
def TrusteeSet.missedBound (s : TrusteeSet) : Int :=
  if (s.trustees.length : Int) < s.least then s.least else s.greatest

namespace TrusteeSet

variable {sets : List TrusteeSet} {chain : Chain} {s t : TrusteeSet} {e : GenesisError}

theorem find?_eq_some_iff_isFirst :
    (sets.find? fun s => s.chain = chain) = some s ↔ IsFirst sets chain s := by
  rw [List.find?_eq_some_iff_append]
  simp [IsFirst]

theorem checkSize_eq_ok_iff : s.checkSize = .ok t ↔ s.Sized ∧ s = t := by
  have hs : s.Sized ↔ ¬ (s.trustees.length : Int) < s.least ∧ ¬ s.greatest < s.trustees.length := by
    unfold Sized
    omega
  rw [hs]
  unfold checkSize
  by_cases hl : (s.trustees.length : Int) < s.least
  · simp [hl]
  · by_cases hg : s.greatest < s.trustees.length
    · simp [hl, hg]
    · simp only [hl, hg, if_false, Except.ok.injEq, not_false_iff, true_and]

theorem select_eq_ok_iff : select sets chain = .ok s ↔ IsFirst sets chain s ∧ s.Sized := by
  unfold select
  cases h : sets.find? fun s => s.chain = chain with
  | none =>
    have hn : ¬ IsFirst sets chain s := by
      rw [← find?_eq_some_iff_isFirst, h]
      simp
    simp [hn]
  | some t =>
    rw [← find?_eq_some_iff_isFirst, h, checkSize_eq_ok_iff, Option.some.injEq]
    constructor
    · rintro ⟨hs, rfl⟩
      exact ⟨rfl, hs⟩
    · rintro ⟨rfl, hs⟩
      exact ⟨hs, rfl⟩

theorem error_of_checkSize (h : s.checkSize = .error e) :
    ¬ s.Sized ∧ e.kind = .insufficientTrustees ∧ e.shown = [.int s.missedBound] := by
  refine ⟨fun hs => ?_, ?_⟩
  · rw [checkSize_eq_ok_iff.mpr ⟨hs, rfl⟩] at h
    cases h
  · unfold checkSize missedBound at *
    dsimp only at h
    split at h
    next hl =>
      cases h
      exact ⟨rfl, by rw [if_pos hl]; rfl⟩
    next hl =>
      split at h
      · cases h
        exact ⟨rfl, by rw [if_neg hl]; rfl⟩
      · cases h

/-- A chain without a set has no committee, and a set out of its bounds makes none. -/
theorem error_of_select (h : select sets chain = .error e) :
    (∀ s ∈ sets, s.chain ≠ chain) ∧ e.kind = .noTrusteesForChain ∧ e.shown = [] ∨
      ∃ s, IsFirst sets chain s ∧ ¬ s.Sized ∧ e.kind = .insufficientTrustees ∧
        e.shown = [.int s.missedBound] := by
  unfold select at h
  cases hf : sets.find? fun s => s.chain = chain with
  | none =>
    simp only [hf] at h
    cases h
    exact Or.inl ⟨fun s hs => by simpa using List.find?_eq_none.mp hf s hs, rfl, rfl⟩
  | some s =>
    simp only [hf] at h
    exact Or.inr ⟨s, find?_eq_some_iff_isFirst.mp hf, error_of_checkSize h⟩

end TrusteeSet

namespace Inputs

variable {registry : Registry} {assets others : List (Int × Balances)} {endowment : Endowment}
  {vs : List Validator} {profile : Profile} {key : Option Bytes} {p : Parameters} {anchor : Anchor}
  {e : GenesisError}

theorem checkEndowedAssets_eq_ok_iff : checkEndowedAssets registry assets = .ok others ↔
    (∀ a ∈ assets, a.1 ≠ nativeAsset → a.1 ∈ registry.restrictions.map Prod.fst) ∧
      others = assets.filter fun a => a.1 ≠ nativeAsset := by
  unfold checkEndowedAssets
  dsimp only
  split
  next id bs hf =>
    have hm := List.mem_filter.mp (List.mem_of_find?_eq_some hf)
    have hn := List.find?_some hf
    simp only [decide_eq_true_eq] at hm hn
    constructor
    · intro h
      cases h
    · rintro ⟨h, -⟩
      exact absurd (h _ hm.1 hm.2) hn
  next hf =>
    have hall : ∀ a ∈ assets, a.1 ≠ nativeAsset → a.1 ∈ registry.restrictions.map Prod.fst := by
      intro a ha hne
      have hn := List.find?_eq_none.mp hf a (List.mem_filter.mpr ⟨ha, decide_eq_true hne⟩)
      simpa using hn
    rw [Except.ok.injEq, eq_comm]
    exact ⟨fun h => ⟨hall, h⟩, And.right⟩

theorem error_of_checkEndowedAssets (h : checkEndowedAssets registry assets = .error e) :
    ∃ a ∈ assets, e = .endowmentOfUnknownAsset a.1 := by
  unfold checkEndowedAssets at h
  dsimp only at h
  split at h
  next id bs hf =>
    cases h
    exact ⟨(id, bs), (List.mem_filter.mp (List.mem_of_find?_eq_some hf)).1, rfl⟩
  next => cases h

theorem checkStashes_eq_ok_iff : checkStashes endowment vs = .ok () ↔
    endowment.native = [] ∨ ∀ v ∈ vs, v.stash ∈ endowment.accounts := by
  unfold checkStashes
  by_cases he : endowment.native = []
  · simp [he]
  · rw [if_neg (by simpa using he)]
    split
    next v hf =>
      have hn : v.stash ∉ endowment.accounts := by simpa using List.find?_some hf
      constructor
      · intro h
        cases h
      · rintro (h | h)
        · exact absurd h he
        · exact absurd (h v (List.mem_of_find?_eq_some hf)) hn
    next hf =>
      have hall : ∀ v ∈ vs, v.stash ∈ endowment.accounts := by
        intro v hv
        simpa using List.find?_eq_none.mp hf v hv
      exact ⟨fun _ => Or.inr hall, fun _ => rfl⟩

theorem kind_of_checkStashes (h : checkStashes endowment vs = .error e) : e.kind = .unendowedValidator := by
  unfold checkStashes at h
  split at h
  · cases h
  · split at h
    · cases h; rfl
    · cases h

theorem checkAdminKey_eq_ok_iff :
    checkAdminKey profile key = .ok () ↔ key.isSome = profile.parameters.hasAdminKey := by
  unfold checkAdminKey
  cases profile.parameters.hasAdminKey <;> cases key <;> simp

theorem kind_of_checkAdminKey (h : checkAdminKey profile key = .error e) : e.kind = .adminKeyMismatch := by
  unfold checkAdminKey at h
  split at h <;> cases h <;> rfl

theorem checkAnchor_eq_ok_iff : checkAnchor p anchor = .ok () ↔
    anchor.network = bridgedNetwork p.network ∧ anchor.retarget = p.retarget := by
  unfold checkAnchor
  by_cases hn : anchor.network = bridgedNetwork p.network
  · by_cases hr : anchor.retarget = p.retarget
    · simp [hn, hr]
    · simp [hn, hr]
  · simp [hn]

theorem kind_of_checkAnchor (h : checkAnchor p anchor = .error e) : e.kind = .invalidAnchor := by
  unfold checkAnchor at h
  split at h
  · cases h; rfl
  · split at h
    · cases h; rfl
    · cases h

end Inputs

end LedgerGenesis
