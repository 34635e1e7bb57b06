import LedgerGenesis.Proofs.Genesis.Assembly
import Mathlib.Algebra.Order.Ring.Int

/-! # The window of retargeting

Parameters are made of a positive spacing, a multiple of it and a positive factor. The window is then a
whole number of spacings, and its bounds are what the factor makes of it. That it has a block in it and
lies between its bounds is so exactly when it is positive. Nothing asks for this when parameters are made,
but an assembly takes those of a profile only, and the windows of all profiles are positive.
-/
namespace LedgerGenesis.Retarget

variable {maxBits blockMaxFuture timespan spacing factor : Int} {r : Retarget}

/-- The window is at least one spacing long, and its bounds are on either side of it. -/
structure Usable (r : Retarget) : Prop where
  interval_mul : r.interval * r.spacing = r.timespan
  interval_pos : 1 ≤ r.interval
  minTimespan_le : r.minTimespan ≤ r.timespan
  le_maxTimespan : r.timespan ≤ r.maxTimespan
  minTimespan_mul_le : r.minTimespan * r.factor ≤ r.timespan
  maxTimespan_eq : r.maxTimespan = r.timespan * r.factor

/-! ## Construction -/

theorem make_eq_ok_iff : make maxBits blockMaxFuture timespan spacing factor = .ok r ↔
    r.maxBits = maxBits ∧ r.blockMaxFuture = blockMaxFuture ∧ r.timespan = timespan ∧
      r.spacing = spacing ∧ r.factor = factor := by
  unfold make
  constructor
  · intro h
    split_ifs at h
    cases h
    exact ⟨rfl, rfl, rfl, rfl, rfl⟩
  · rintro ⟨rfl, rfl, rfl, rfl, rfl⟩
    rw [dif_pos r.spacing_pos, dif_pos r.timespan_multiple, dif_pos r.factor_pos]

theorem exists_make_iff : (∃ r, make maxBits blockMaxFuture timespan spacing factor = .ok r) ↔
    0 < spacing ∧ spacing ∣ timespan ∧ 0 < factor := by
  simp only [make_eq_ok_iff]
  constructor
  · rintro ⟨r, -, -, rfl, rfl, rfl⟩
    exact ⟨r.spacing_pos, Int.dvd_of_emod_eq_zero r.timespan_multiple, r.factor_pos⟩
  · rintro ⟨hspacing, hdvd, hfactor⟩
    exact ⟨⟨maxBits, blockMaxFuture, timespan, spacing, factor, hspacing, Int.emod_eq_zero_of_dvd hdvd,
      hfactor⟩, rfl, rfl, rfl, rfl, rfl⟩

/-! ## Derived values -/

theorem interval_mul_spacing (r : Retarget) : r.interval * r.spacing = r.timespan :=
  Int.ediv_mul_cancel (Int.dvd_of_emod_eq_zero r.timespan_multiple)

theorem minTimespan_mul_factor_le (r : Retarget) : r.minTimespan * r.factor ≤ r.timespan :=
  Int.ediv_mul_le r.timespan r.factor_pos.ne'

theorem interval_pos_iff : 1 ≤ r.interval ↔ 0 < r.timespan := by
  rw [← interval_mul_spacing r, mul_pos_iff_of_pos_right r.spacing_pos]
  rfl

/-- A negative window is not between its bounds, unless the factor is one. -/
theorem bounds_iff : r.minTimespan ≤ r.timespan ∧ r.timespan ≤ r.maxTimespan ↔
    0 ≤ r.timespan ∨ r.factor = 1 := by
  have hfactor := r.factor_pos
  constructor
  · rintro ⟨-, hmax⟩
    by_contra hneither
    obtain ⟨hneg, hone⟩ := not_or.mp hneither
    have hdouble : r.timespan * r.factor ≤ r.timespan * 2 :=
      mul_le_mul_of_nonpos_left (by omega) (by omega)
    unfold maxTimespan at hmax
    omega
  · rintro (hpos | hone)
    · exact ⟨Int.ediv_le_self _ hpos, le_mul_of_one_le_right hpos hfactor⟩
    · unfold minTimespan maxTimespan
      rw [hone, Int.ediv_one, mul_one]
      exact ⟨le_rfl, le_rfl⟩

theorem usable_iff : r.Usable ↔ 0 < r.timespan := by
  constructor
  · intro h
    exact interval_pos_iff.mp h.interval_pos
  · intro hpos
    obtain ⟨hmin, hmax⟩ := bounds_iff.mpr (Or.inl hpos.le)
    exact ⟨interval_mul_spacing r, interval_pos_iff.mpr hpos, hmin, hmax, minTimespan_mul_factor_le r, rfl⟩

/-- Parameters are made of a positive spacing, a multiple of it and a positive factor. The window is a whole
number of spacings, and its bounds are within what the factor makes of it. They are usable exactly
when the window is positive. -/
theorem make_usable_iff (maxBits blockMaxFuture timespan spacing factor : Int) :
    ((∃ r, make maxBits blockMaxFuture timespan spacing factor = .ok r) ↔
      0 < spacing ∧ spacing ∣ timespan ∧ 0 < factor) ∧
    ∀ r, make maxBits blockMaxFuture timespan spacing factor = .ok r →
      (r.interval * spacing = timespan ∧ r.minTimespan * factor ≤ timespan ∧
        r.maxTimespan = timespan * factor) ∧
      (1 ≤ r.interval ↔ 0 < timespan) ∧
      (r.minTimespan ≤ timespan ∧ timespan ≤ r.maxTimespan ↔ 0 ≤ timespan ∨ factor = 1) ∧
      (r.Usable ↔ 0 < timespan) := by
  refine ⟨exists_make_iff, fun r h => ?_⟩
  obtain ⟨-, -, rfl, rfl, rfl⟩ := make_eq_ok_iff.mp h
  exact ⟨⟨interval_mul_spacing r, minTimespan_mul_factor_le r, rfl⟩, interval_pos_iff, bounds_iff, usable_iff⟩

/-- Two weeks of ten-minute blocks make usable parameters. -/
theorem mainnet_usable : make 486604799 7200 1209600 600 4 = .ok mainnet ∧ mainnet.Usable :=
  ⟨rfl, ((make_usable_iff 486604799 7200 1209600 600 4).2 mainnet rfl).2.2.2.mpr (by decide)⟩

/-- Parameters are made with an empty window, which has no block in it, and with a negative one, which is
above its upper bound and below its lower one. -/
theorem emptyWindow_made :
    (∃ r, make 486604799 7200 0 600 4 = .ok r ∧ r.interval = 0) ∧
      ∃ r, make 486604799 7200 (-1209600) 600 4 = .ok r ∧
        r.maxTimespan < r.timespan ∧ r.timespan < r.minTimespan :=
  ⟨⟨_, rfl, rfl⟩, _, rfl, by decide, by decide⟩

/-! ## Windows of networks -/

theorem usable_of_profile (p : Profile) : p.parameters.retarget.Usable :=
  usable_iff.mpr (by cases p <;> decide)

/-- An assembly takes the parameters of its profile only, and these are usable. -/
theorem usable_of_assemble {i : Inputs} {s : State} (h : i.assemble = .ok s) :
    s.bridge.anchor.retarget.Usable := by
  have hyields := Inputs.assemble_eq_ok_iff.mp h
  have hretarget := (Inputs.checkAnchor_eq_ok_iff.mp hyields.anchor_checked).2
  rw [hyields.anchor, hretarget]
  exact usable_of_profile s.profile

end LedgerGenesis.Retarget
