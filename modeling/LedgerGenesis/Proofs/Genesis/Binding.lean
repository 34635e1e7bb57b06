import LedgerGenesis.Genesis.Assembly
import LedgerGenesis.Proofs.Authority
import LedgerGenesis.Proofs.Screening

/-! # Which authorities become validators

Authorities are screened for missing keys and for repeated stashes. Those that pass become validators one
by one, in their order.
-/
namespace LedgerGenesis

namespace Authority

variable {a : Authority}

/-- An authority has all its keys, and not the stash of an earlier one. -/
def screening : Screening Authority Bytes GenesisError where
  defect a :=
    if a.isComplete then none else some fun index => .missingRoles index a.referral a.missingRoles
  key := account
  repeated a := .duplicateStash a.account

theorem defect_eq_none_iff :
    screening.defect a = none ↔ ∀ r, (a.key r).length = keyLength := by
  rw [← isComplete_iff]
  simp [screening]

theorem kind_of_defect {fault : Nat → GenesisError} (h : screening.defect a = some fault) (n : Nat) :
    (fault n).kind = .incompleteAuthority := by
  simp only [screening] at h
  split at h
  · cases h
  · cases h; rfl

theorem clean_iff {authorities : List Authority} : screening.Clean authorities ↔
    (∀ a ∈ authorities, ∀ r, (a.key r).length = keyLength) ∧ (authorities.map account).Nodup := by
  constructor
  · rintro ⟨hn, hk⟩
    exact ⟨fun a h => defect_eq_none_iff.mp (hn a h), hk⟩
  · rintro ⟨hn, hk⟩
    exact ⟨fun a h => defect_eq_none_iff.mpr (hn a h), hk⟩

end Authority

namespace Inputs

open Authority (screening)

variable {seen : List Bytes} {earlier authorities : List Authority} {vs : List Validator}
  {e : GenesisError}

theorem bindFrom_cons {index : Nat} {a : Authority} :
    bindFrom index seen (a :: authorities) =
      if !a.isComplete then .error (.missingRoles index a.referral a.missingRoles)
      else if a.account ∈ seen then .error (.duplicateStash a.account)
      else (bindFrom (index + 1) (a.account :: seen) authorities).map (Validator.ofAuthority a :: ·) :=
  rfl

/-- The walk that binds authorities is their screening. -/
theorem bindFrom_eq (hs : ∀ k, k ∈ seen ↔ k ∈ earlier.map Authority.account) :
    bindFrom earlier.length seen authorities = match screening.firstFault earlier authorities with
      | some e => .error e
      | none => .ok (authorities.map Validator.ofAuthority) := by
  -- the position of an authority is the number of those before it, and their accounts are the seen ones
  induction authorities generalizing seen earlier with
  | nil => rfl
  | cons a rest ih =>
    by_cases hc : a.isComplete = true
    · by_cases hm : a.account ∈ seen
      · have hf : screening.faultAfter earlier a = some (.duplicateStash a.account) :=
          screening.faultAfter_eq_some_iff.mpr
            (Or.inr ⟨by simp [screening, hc], (hs a.account).mp hm, rfl⟩)
        simp [bindFrom_cons, hc, hm, Screening.firstFault, hf]
      · have hf : screening.faultAfter earlier a = none :=
          screening.faultAfter_eq_none_iff.mpr ⟨by simp [screening, hc], mt (hs a.account).mpr hm⟩
        have hs' : ∀ k, k ∈ a.account :: seen ↔ k ∈ (earlier ++ [a]).map Authority.account := by
          intro k
          simp [hs k, or_comm]
        have hr := ih hs'
        rw [List.length_append, List.length_singleton] at hr
        simp only [bindFrom_cons, hc, Bool.not_true, Bool.false_eq_true, if_false, if_neg hm, hr,
          Screening.firstFault, hf]
        cases screening.firstFault (earlier ++ [a]) rest <;> rfl
    · have hf : screening.faultAfter earlier a =
          some (.missingRoles earlier.length a.referral a.missingRoles) :=
        screening.faultAfter_eq_some_iff.mpr (Or.inl ⟨_, if_neg hc, rfl⟩)
      simp [bindFrom_cons, hc, Screening.firstFault, hf]

theorem bindValidators_eq (h : authorities ≠ []) :
    bindValidators authorities = match screening.firstFault [] authorities with
      | some e => .error e
      | none => .ok (authorities.map Validator.ofAuthority) := by
  have hs : ∀ k, k ∈ ([] : List Bytes) ↔ k ∈ ([] : List Authority).map Authority.account := by simp
  rw [bindValidators, if_neg (by simpa using h)]
  exact bindFrom_eq hs

theorem bindValidators_nil : bindValidators [] = .error .noAuthorities := rfl

theorem bindValidators_eq_ok_iff : bindValidators authorities = .ok vs ↔
    authorities ≠ [] ∧ screening.Clean authorities ∧ vs = authorities.map Validator.ofAuthority := by
  by_cases h : authorities = []
  · simp [h, bindValidators_nil]
  · have hc : screening.firstFault [] authorities = none ↔ screening.Clean authorities :=
      screening.firstFault_eq_none_iff screening.clean_nil
    rw [bindValidators_eq h, ← hc]
    cases screening.firstFault [] authorities <;> simp [h, eq_comm]

end Inputs

end LedgerGenesis
