import LedgerGenesis.Proofs.Genesis.Checks
import Mathlib.Logic.Relation

/-! # Which set of trustees becomes the committee

The committee of a chain is the first set that serves it. Sets that serve other chains and sets that come
after the first have no part in it, so a list may be edited in them at will.
-/
namespace LedgerGenesis

namespace TrusteeSet

variable {sets xs ys : List TrusteeSet} {chain : Chain} {anchor : Option Anchor} {s t : TrusteeSet}

/-- The chain that a committee is for, which is Bitcoin wherever there is an anchor. -/
def requested (anchor : Option Anchor) (chain : Chain) : Chain :=
  if anchor.isSome then .bitcoin else chain

/-- The first set that serves the chain is the result if its size is within its bounds. Otherwise the class
of the error says whether there is such a set. The error shows the bound that the size misses, and where that
cannot be shown, a fault is raised in its place. -/
structure Selects (sets : List TrusteeSet) (chain : Chain) (r : Except Error TrusteeSet) : Prop where
  ok_iff : ∀ s, r = .ok s ↔ IsFirst sets chain s ∧ s.Sized
  insufficient_iff : (∃ e, r = .error (.genesis e) ∧ e.kind = .insufficientTrustees) ↔
    ∃ s, IsFirst sets chain s ∧ ¬ s.Sized ∧ HasNumeral s.missedBound
  absent_iff : (∃ e, r = .error (.genesis e) ∧ e.kind = .noTrusteesForChain) ↔
    ∀ s ∈ sets, s.chain ≠ chain
  fault_iff : ∀ f, r = .error (.fault f) ↔
    f = .longNumeral ∧ ∃ s, IsFirst sets chain s ∧ ¬ s.Sized ∧ ¬ HasNumeral s.missedBound

/-- One change that leaves every set of the chain up to the first where it is. -/
inductive Edit (chain : Chain) : List TrusteeSet → List TrusteeSet → Prop
  | insert {before after t} (h : t.chain ≠ chain) : Edit chain (before ++ after) (before ++ t :: after)
  | remove {before after t} (h : t.chain ≠ chain) : Edit chain (before ++ t :: after) (before ++ after)
  | alter {before after t u} (ht : t.chain ≠ chain) (hu : u.chain ≠ chain) :
      Edit chain (before ++ t :: after) (before ++ u :: after)
  | swap {before after t u} (h : t.chain ≠ chain ∨ u.chain ≠ chain) :
      Edit chain (before ++ t :: u :: after) (before ++ u :: t :: after)
  | follow {before after others s} (h : s.chain = chain) :
      Edit chain (before ++ s :: after) (before ++ s :: others)

/-- Any number of such changes. -/
abbrev Edits (chain : Chain) : List TrusteeSet → List TrusteeSet → Prop :=
  Relation.ReflTransGen (Edit chain)

theorem IsFirst.mem (h : IsFirst sets chain s) : s ∈ sets := by
  obtain ⟨-, before, after, rfl, -⟩ := h
  simp

theorem IsFirst.unique (hs : IsFirst sets chain s) (ht : IsFirst sets chain t) : s = t := by
  rw [← find?_eq_some_iff_isFirst] at hs ht
  exact Option.some.inj (hs.symm.trans ht)

theorem IsFirst.exists_iff {p : TrusteeSet → Prop} (hs : IsFirst sets chain s) :
    (∃ t, IsFirst sets chain t ∧ p t) ↔ p s := by
  constructor
  · rintro ⟨t, ht, hp⟩
    exact hs.unique ht ▸ hp
  · exact fun hp => ⟨s, hs, hp⟩

theorem selects_of_absent (h : ∀ s ∈ sets, s.chain ≠ chain) :
    Selects sets chain (.error (GenesisError.noTrustees chain).raised) := by
  have hnone : ∀ s, ¬ IsFirst sets chain s := fun s hs => h s hs.mem hs.1
  have hraised : (GenesisError.noTrustees chain).raised = .genesis (.noTrustees chain) := rfl
  constructor
  · simp [hnone]
  · simp [hnone, hraised, GenesisError.kind]
  · simpa [hraised, GenesisError.kind] using h
  · simp [hnone, hraised]

theorem selects_of_isFirst (h : IsFirst sets chain s) : Selects sets chain (raising s.checkSize) := by
  have hpresent : ¬ ∀ t ∈ sets, t.chain ≠ chain := fun hn => hn s h.mem h.1
  cases hc : s.checkSize with
  | ok t =>
    obtain ⟨hsized, rfl⟩ := checkSize_eq_ok_iff.mp hc
    constructor
    · intro u
      rw [raising_eq_ok_iff, Except.ok.injEq]
      exact ⟨fun hu => hu ▸ ⟨h, hsized⟩, fun hu => h.unique hu.1⟩
    · simp [h.exists_iff, hsized, raising_eq_error_iff]
    · simp [hpresent, raising_eq_error_iff]
    · simp [h.exists_iff, hsized, raising_eq_error_iff]
  | error e =>
    obtain ⟨hsize, hkind, hshown⟩ := error_of_checkSize hc
    have hshowable : e.isShowable = true ↔ HasNumeral s.missedBound :=
      GenesisError.isShowable_iff_of_shown_eq_int hshown
    constructor
    · intro u
      simp only [raising_eq_ok_iff, reduceCtorEq, false_iff]
      exact fun hu => hsize (h.unique hu.1 ▸ hu.2)
    · simp [h.exists_iff, hsize, hkind, raising_eq_error_iff, GenesisError.raised_eq_genesis_iff, hshowable]
    · simp [hpresent, hkind, raising_eq_error_iff, GenesisError.raised_eq_genesis_iff]
    · simp [h.exists_iff, hsize, raising_eq_error_iff, GenesisError.raised_eq_fault_iff, ← hshowable]

theorem selects_select (sets : List TrusteeSet) (chain : Chain) :
    Selects sets chain (raising (select sets chain)) := by
  unfold select
  cases hf : sets.find? fun s => s.chain = chain with
  | none =>
    refine selects_of_absent fun s hs => ?_
    simpa using List.find?_eq_none.mp hf s hs
  | some s => exact selects_of_isFirst (find?_eq_some_iff_isFirst.mp hf)

theorem committee_eq_select :
    committee sets anchor chain = raising (select sets (requested anchor chain)) := by
  cases anchor <;> rfl

theorem committee_eq_ok_iff : committee sets anchor chain = .ok s ↔
    IsFirst sets (requested anchor chain) s ∧ s.Sized := by
  rw [committee_eq_select, raising_eq_ok_iff, select_eq_ok_iff]

theorem Edit.find?_eq (h : Edit chain xs ys) :
    (ys.find? fun s => s.chain = chain) = xs.find? fun s => s.chain = chain := by
  cases h with
  | insert h | remove h | follow h => simp [List.find?_append, h]
  | alter ht hu => simp [List.find?_append, ht, hu]
  | swap h => rcases h with h | h <;> simp [List.find?_append, List.find?_cons, h]

theorem Edits.find?_eq (h : Edits chain xs ys) :
    (ys.find? fun s => s.chain = chain) = xs.find? fun s => s.chain = chain := by
  induction h with
  | refl => rfl
  | tail _ hstep ih => exact hstep.find?_eq.trans ih

/-- The committee of a chain, and the error where it has none, stay the same under edits. -/
theorem Edits.select_eq (h : Edits chain xs ys) : select ys chain = select xs chain := by
  rw [select, select, h.find?_eq]

theorem Edits.committee_eq (h : Edits (requested anchor chain) xs ys) :
    committee ys anchor chain = committee xs anchor chain := by
  rw [committee_eq_select, committee_eq_select, h.select_eq]

end TrusteeSet

/-! ## Sets that were read -/

/-- A trustee has the account that its entry names, by a seed or in hexadecimal, and its description. -/
theorem Trustee.parts_of_ofEntry {entry : Json} {t : Trustee} (h : ofEntry entry = .ok t) :
    entryAccount entry = .ok t.account ∧ ∃ v : Json, v.toUtf8 = .ok t.about := by
  simp only [ofEntry, bind_eq_ok_iff, liftFault_eq_ok_iff, liftGenesis_eq_ok_iff] at h
  obtain ⟨account, haccount, v, -, about, hv, w, -, hot, -, x, -, cold, -, hmake⟩ := h
  unfold make at hmake
  split_ifs at hmake
  cases hmake
  exact ⟨haccount, v, hv⟩

/-- The trustees of a set are those of its entries, in their order. -/
theorem TrusteeSet.entries_of_ofJson {data : Json} {set : TrusteeSet} (h : ofJson data = .ok set) :
    ∃ v entries, data.field "trustees" = .ok v ∧ v.elements = .ok entries ∧
      entries.mapM Trustee.ofEntry = .ok set.trustees := by
  have hread := reporting_eq_ok_iff.mp h
  simp only [readEntry, bind_eq_ok_iff, liftFault_eq_ok_iff, pure_eq_ok_iff] at hread
  obtain ⟨_, -, _, -, least, -, _, -, _, -, greatest, -, v, hv, entries, he, trustees, ht, _, -, chain, -,
    rfl⟩ := hread
  exact ⟨v, entries, hv, he, ht⟩

theorem TrusteeSet.accounts_of_ofJson {data : Json} {set : TrusteeSet} (h : ofJson data = .ok set) :
    ∃ v entries, data.field "trustees" = .ok v ∧ v.elements = .ok entries ∧
      entries.mapM Trustee.entryAccount = .ok set.accounts := by
  obtain ⟨v, entries, hv, he, ht⟩ := entries_of_ofJson h
  refine ⟨v, entries, hv, he, ?_⟩
  rw [mapM_eq_ok_iff] at ht
  rw [accounts, mapM_eq_ok_iff, List.forall₂_map_right_iff]
  exact ht.imp fun _ _ hentry => (Trustee.parts_of_ofEntry hentry).1

end LedgerGenesis
