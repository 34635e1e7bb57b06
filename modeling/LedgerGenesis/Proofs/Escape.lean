import LedgerGenesis.Proofs.Outcome

/-! # Faults that escape

A fault escapes a computation when nothing in it reports the fault as an error of the genesis. In a sequence
of steps only the first one that fails can let a fault escape; whether it does is up to that step.
-/
namespace LedgerGenesis

/-- A computation ends in a fault. -/
def Escapes {α : Type} (x : Except Error α) : Prop := ∃ f, x = .error (.fault f)

/-- Every error that ends a computation has the property. -/
def Throws {ε α : Type} (p : ε → Prop) (x : Except ε α) : Prop := ∀ e, x = .error e → p e

/-- An error is one of the genesis, or a fault with the property. -/
def Error.Within (p : Fault → Prop) : Error → Prop
  | .genesis _ => True
  | .fault f => p f

variable {α β : Type} {x : Except Error α} {f : α → Except Error β}

/-! ## Faults that escape from parts -/

theorem escapes_bind_iff : Escapes (x >>= f) ↔ Escapes x ∨ ∃ a, x = .ok a ∧ Escapes (f a) := by
  simp only [Escapes, bind_eq_error_iff, exists_or]
  refine or_congr_right ⟨?_, ?_⟩
  · rintro ⟨e, a, ha, he⟩
    exact ⟨a, ha, e, he⟩
  · rintro ⟨a, ha, e, he⟩
    exact ⟨e, a, ha, he⟩

theorem not_escapes_ok {a : α} : ¬ Escapes (.ok a) := by
  rintro ⟨f, h⟩
  cases h

theorem not_escapes_pure {a : α} : ¬ Escapes (pure a : Except Error α) := not_escapes_ok

theorem not_escapes_genesis {e : GenesisError} : ¬ Escapes (.error (.genesis e) : Except Error α) := by
  rintro ⟨f, h⟩
  cases h

theorem not_escapes_liftGenesis {y : Except GenesisError α} :
    ¬ Escapes (liftM y : Except Error α) := by
  rintro ⟨f, h⟩
  obtain ⟨e, -, he⟩ := liftGenesis_eq_error_iff.mp h
  cases he

/-- Nothing reports the faults of a computation that has no other errors. -/
theorem escapes_liftFault_iff {y : Except Fault α} :
    Escapes (liftM y : Except Error α) ↔ ∀ a, y ≠ .ok a := by
  cases y with
  | ok a => simp [Escapes, liftM, monadLift, MonadLift.monadLift, Except.mapError]
  | error f => simp [Escapes, liftM, monadLift, MonadLift.monadLift, Except.mapError]

theorem escapes_mapError_fault_iff {y : Except Fault α} :
    Escapes (y.mapError .fault) ↔ ∀ a, y ≠ .ok a := escapes_liftFault_iff

theorem escapes_map_iff {g : α → β} : Escapes (x.map g) ↔ Escapes x := by
  cases x <;> simp [Escapes, Except.map]

/-- A report stops the faults of its families, where it can be shown itself. -/
theorem escapes_reporting_iff {families : List Fault.Family} {report : Fault → GenesisError} :
    Escapes (reporting families report x) ↔
      ∃ f, x = .error (.fault f) ∧ (f.family ∈ families → (report f).isShowable = false) := by
  cases x with
  | ok a => simp [Escapes, reporting]
  | error e =>
    cases e with
    | genesis e => simp [Escapes, reporting]
    | fault f =>
      by_cases hf : f.family ∈ families
      · simp [Escapes, reporting, hf, GenesisError.raised_eq_fault_iff]
      · simp [Escapes, reporting, hf]

theorem escapes_of_reporting {families : List Fault.Family} {report : Fault → GenesisError}
    (h : Escapes (reporting families report x)) : Escapes x := by
  obtain ⟨f, hf, -⟩ := escapes_reporting_iff.mp h
  exact ⟨f, hf⟩

section Reports

variable {families : List Fault.Family} {report : Fault → GenesisError}

section Showable

variable (hreport : ∀ f, (report f).isShowable = true)
include hreport

theorem escapes_reporting_iff_of_isShowable :
    Escapes (reporting families report x) ↔ ∃ f, x = .error (.fault f) ∧ f.family ∉ families := by
  simp only [escapes_reporting_iff, hreport, Bool.true_eq_false, imp_false]

theorem escapes_reporting_fault_iff {y : Except Fault α} :
    Escapes (reporting families report (y.mapError .fault)) ↔ ∃ f, y = .error f ∧ f.family ∉ families := by
  rw [escapes_reporting_iff_of_isShowable hreport]
  cases y <;> simp [Except.mapError]

theorem not_escapes_reporting (h : Throws (Error.Within (·.family ∈ families)) x) :
    ¬ Escapes (reporting families report x) := by
  intro hescapes
  obtain ⟨f, hf, hfamily⟩ := (escapes_reporting_iff_of_isShowable hreport).mp hescapes
  exact hfamily (h _ hf)

theorem not_escapes_reporting_liftFault {y : Except Fault α} (h : Throws (·.family ∈ families) y) :
    ¬ Escapes (reporting families report (liftM y)) := by
  intro hescapes
  obtain ⟨f, hf, hfamily⟩ := (escapes_reporting_fault_iff hreport).mp hescapes
  exact hfamily (h f hf)

/-- Where a report covers all faults of a conversion but one, it is that one that escapes. -/
theorem escapes_reporting_liftFault_iff {y : Except Fault α} {f : Fault}
    (hy : Throws (fun g => g.family ∈ families ∨ g = f) y) (hf : f.family ∉ families) :
    Escapes (reporting families report (liftM y)) ↔ y = .error f := by
  refine (escapes_reporting_fault_iff hreport).trans ⟨?_, fun h => ⟨f, h, hf⟩⟩
  rintro ⟨g, hg, hfamily⟩
  rcases hy g hg with hmem | rfl
  · exact absurd hmem hfamily
  · exact hg

end Showable

theorem reporting_pure {a : α} : reporting families report (pure a) = pure a := rfl

/-- A report of a sequence of steps is one of each of them. -/
theorem reporting_bind : reporting families report (x >>= f) =
    reporting families report x >>= fun a => reporting families report (f a) := by
  cases x with
  | ok a => rfl
  | error e =>
    cases e with
    | genesis g => rfl
    | fault g =>
      by_cases hg : g.family ∈ families
      · simp [reporting, bind, Except.bind, hg]
      · simp [reporting, bind, Except.bind, hg]

theorem reporting_mapM {xs : List α} :
    reporting families report (xs.mapM f) = xs.mapM fun a => reporting families report (f a) := by
  induction xs with
  | nil => rfl
  | cons a xs ih => simp only [List.mapM_cons, reporting_bind, ih, reporting_pure]

end Reports

/-! ## The first that fails -/

/-- An item leaks, and all those before it pass. -/
def FirstLeaks {α : Type} (passes leaks : α → Prop) (xs : List α) : Prop :=
  ∃ before x after, xs = before ++ x :: after ∧ (∀ y ∈ before, passes y) ∧ leaks x

section FirstLeaks

variable {passes leaks : α → Prop} {a : α} {xs : List α}

theorem not_firstLeaks_nil : ¬ FirstLeaks passes leaks [] := by
  rintro ⟨before, x, after, hxs, -⟩
  simp at hxs

theorem firstLeaks_cons_iff :
    FirstLeaks passes leaks (a :: xs) ↔ leaks a ∨ passes a ∧ FirstLeaks passes leaks xs := by
  constructor
  · rintro ⟨before, x, after, hxs, hbefore, hx⟩
    cases before with
    | nil =>
      cases hxs
      exact Or.inl hx
    | cons y ys =>
      cases hxs
      obtain ⟨hy, hys⟩ := List.forall_mem_cons.mp hbefore
      exact Or.inr ⟨hy, ys, x, after, rfl, hys, hx⟩
  · rintro (ha | ⟨ha, before, x, after, rfl, hbefore, hx⟩)
    · exact ⟨[], a, xs, rfl, List.forall_mem_nil _, ha⟩
    · exact ⟨a :: before, x, after, rfl, List.forall_mem_cons.mpr ⟨ha, hbefore⟩, hx⟩

theorem firstLeaks_congr {leaks' : α → Prop} (h : ∀ a ∈ xs, (leaks a ↔ leaks' a)) :
    FirstLeaks passes leaks xs ↔ FirstLeaks passes leaks' xs := by
  induction xs with
  | nil => exact iff_of_false not_firstLeaks_nil not_firstLeaks_nil
  | cons a xs ih =>
    obtain ⟨ha, hxs⟩ := List.forall_mem_cons.mp h
    rw [firstLeaks_cons_iff, firstLeaks_cons_iff, ha, ih hxs]

theorem firstLeaks_append_iff {ys : List α} : FirstLeaks passes leaks (xs ++ ys) ↔
    FirstLeaks passes leaks xs ∨ (∀ x ∈ xs, passes x) ∧ FirstLeaks passes leaks ys := by
  induction xs with
  | nil => simp [not_firstLeaks_nil]
  | cons a xs ih =>
    rw [List.cons_append, firstLeaks_cons_iff, firstLeaks_cons_iff, ih, List.forall_mem_cons, and_or_left,
      or_assoc, and_assoc]

/-- Where each item passes or leaks, one that leaks is enough. -/
theorem firstLeaks_iff_exists (h : ∀ a, passes a ↔ ¬ leaks a) :
    FirstLeaks passes leaks xs ↔ ∃ a ∈ xs, leaks a := by
  induction xs with
  | nil => exact iff_of_false not_firstLeaks_nil (by simp)
  | cons a xs ih =>
    rw [firstLeaks_cons_iff, ih, h, List.exists_mem_cons_iff]
    by_cases ha : leaks a
    · exact iff_of_true (Or.inl ha) (Or.inl ha)
    · simp only [ha, not_false_eq_true, true_and, false_or]

theorem escapes_mapM_iff {xs : List α} : Escapes (xs.mapM f) ↔
    FirstLeaks (fun a => ∃ b, f a = .ok b) (fun a => Escapes (f a)) xs := by
  induction xs with
  | nil => exact iff_of_false not_escapes_pure not_firstLeaks_nil
  | cons a xs ih =>
    rw [List.mapM_cons, escapes_bind_iff, firstLeaks_cons_iff, ← ih]
    refine or_congr_right ⟨?_, ?_⟩
    · rintro ⟨b, hb, hrest⟩
      rcases escapes_bind_iff.mp hrest with hrest | ⟨bs, -, hpure⟩
      · exact ⟨⟨b, hb⟩, hrest⟩
      · exact absurd hpure not_escapes_pure
    · rintro ⟨⟨b, hb⟩, hrest⟩
      exact ⟨b, hb, escapes_bind_iff.mpr (Or.inl hrest)⟩

/-- A check of items whose failures are all faults lets one escape as soon as one item fails. -/
theorem escapes_mapM_iff_exists {g : α → Except Fault β} {xs : List α} :
    Escapes (xs.mapM fun a => (g a).mapError .fault) ↔ ∃ a ∈ xs, ∀ b, g a ≠ .ok b := by
  simp only [escapes_mapM_iff, escapes_mapError_fault_iff, mapError_eq_ok_iff]
  refine firstLeaks_iff_exists fun a => ?_
  rw [not_forall]
  simp only [not_not]

end FirstLeaks

/-- A step of a computation: when it succeeds, and when it lets a fault escape. -/
structure Step where
  passes : Prop
  leaks : Prop

/-- The first step of a computation that does not pass leaks. -/
def StopsInLeak : List Step → Prop := FirstLeaks Step.passes Step.leaks

/-- A computation whose first step is described by one, and whose further ones by the rest. -/
theorem escapes_bind_iff_stopsInLeak {step : Step} {rest : List Step}
    (hpasses : (∃ a, x = .ok a) ↔ step.passes) (hleaks : Escapes x ↔ step.leaks)
    (hrest : ∀ a, x = .ok a → (Escapes (f a) ↔ StopsInLeak rest)) :
    Escapes (x >>= f) ↔ StopsInLeak (step :: rest) := by
  rw [escapes_bind_iff, StopsInLeak, firstLeaks_cons_iff, ← hpasses, ← hleaks]
  refine or_congr_right ⟨?_, ?_⟩
  · rintro ⟨a, ha, hf⟩
    exact ⟨⟨a, ha⟩, (hrest a ha).mp hf⟩
  · rintro ⟨⟨a, ha⟩, hstops⟩
    exact ⟨a, ha, (hrest a ha).mpr hstops⟩

/-! ## Which errors a computation can have -/

section Throws

variable {ε : Type} {p : ε → Prop} {q : Fault → Prop}

theorem Throws.mono {p' : ε → Prop} {x : Except ε α} (h : Throws p x) (hp : ∀ e, p e → p' e) :
    Throws p' x := fun e he => hp e (h e he)

theorem throws_bind {x : Except ε α} {f : α → Except ε β} (hx : Throws p x)
    (hf : ∀ a, x = .ok a → Throws p (f a)) : Throws p (x >>= f) := by
  intro e he
  rcases bind_eq_error_iff.mp he with he | ⟨a, ha, he⟩
  · exact hx e he
  · exact hf a ha e he

theorem throws_pure {a : α} : Throws p (pure a : Except ε α) := fun _ h => absurd h pure_ne_error

theorem throws_mapM {f : α → Except ε β} {xs : List α} (h : ∀ a, Throws p (f a)) :
    Throws p (xs.mapM f) := by
  intro e he
  obtain ⟨a, -, hfa⟩ := exists_mem_of_mapM_eq_error he
  exact h a e hfa

theorem throws_liftGenesis {y : Except GenesisError α} :
    Throws (Error.Within q) (liftM y : Except Error α) := by
  intro e he
  obtain ⟨g, -, rfl⟩ := liftGenesis_eq_error_iff.mp he
  exact trivial

theorem within_raised (e : GenesisError) (h : q .longNumeral) : e.raised.Within q := by
  unfold GenesisError.raised
  split
  · exact trivial
  · exact h

theorem throws_raising {y : Except GenesisError α} (h : q .longNumeral) :
    Throws (Error.Within q) (raising y) := by
  intro e he
  obtain ⟨g, -, rfl⟩ := raising_eq_error_iff.mp he
  exact within_raised g h

theorem throws_liftFault {y : Except Fault α} (h : Throws q y) :
    Throws (Error.Within q) (liftM y : Except Error α) := by
  intro e he
  obtain ⟨f, hf, rfl⟩ := liftFault_eq_error_iff.mp he
  exact h f hf

end Throws

end LedgerGenesis
