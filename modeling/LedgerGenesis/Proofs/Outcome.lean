import LedgerGenesis.Error
import Mathlib.Data.List.Forall2

/-! # Outcomes of checks in sequence

A sequence of checks succeeds when each of them does, and fails with the error of the first that does
not. The lifts between the kinds of error change neither which check fails nor what it reports.
-/
namespace LedgerGenesis

variable {ε α β : Type}

theorem bind_eq_ok_iff {x : Except ε α} {f : α → Except ε β} {b : β} :
    x >>= f = .ok b ↔ ∃ a, x = .ok a ∧ f a = .ok b := by
  cases x <;> simp [bind, Except.bind]

theorem bind_eq_error_iff {x : Except ε α} {f : α → Except ε β} {e : ε} :
    x >>= f = .error e ↔ x = .error e ∨ ∃ a, x = .ok a ∧ f a = .error e := by
  cases x <;> simp [bind, Except.bind]

theorem ok_bind {a : α} {f : α → Except ε β} : (Except.ok a : Except ε α) >>= f = f a := rfl

theorem pure_eq_ok_iff {a b : α} : (pure a : Except ε α) = .ok b ↔ a = b := by
  simp [pure, Except.pure]

theorem pure_ne_error {a : α} {e : ε} : (pure a : Except ε α) ≠ .error e := by
  simp [pure, Except.pure]

theorem map_eq_ok_iff {x : Except ε α} {f : α → β} {b : β} :
    x.map f = .ok b ↔ ∃ a, x = .ok a ∧ f a = b := by
  cases x <;> simp [Except.map]

theorem map_eq_error_iff {x : Except ε α} {f : α → β} {e : ε} : x.map f = .error e ↔ x = .error e := by
  cases x <;> simp [Except.map]

theorem exists_map_eq_ok_iff {x : Except ε α} {f : α → β} :
    (∃ b, x.map f = .ok b) ↔ ∃ a, x = .ok a := by
  cases x <;> simp [Except.map]

theorem map_bind {γ : Type} {x : Except ε α} {f : α → Except ε β} {g : β → γ} :
    (x >>= f).map g = x >>= fun a => (f a).map g := by
  cases x <;> rfl

theorem exists_bind_pure_eq_ok_iff {x : Except ε α} {f : α → β} :
    (∃ b, (x >>= fun a => pure (f a)) = .ok b) ↔ ∃ a, x = .ok a := by
  cases x <;> simp [bind, Except.bind, pure, Except.pure]

theorem liftGenesis_eq_ok_iff {x : Except GenesisError α} {a : α} :
    (liftM x : Except Error α) = .ok a ↔ x = .ok a := by
  cases x <;> simp [liftM, monadLift, MonadLift.monadLift, Except.mapError]

theorem liftGenesis_eq_error_iff {x : Except GenesisError α} {e : Error} :
    (liftM x : Except Error α) = .error e ↔ ∃ g, x = .error g ∧ .genesis g = e := by
  cases x <;> simp [liftM, monadLift, MonadLift.monadLift, Except.mapError]

theorem liftFault_eq_ok_iff {x : Except Fault α} {a : α} :
    (liftM x : Except Error α) = .ok a ↔ x = .ok a := by
  cases x <;> simp [liftM, monadLift, MonadLift.monadLift, Except.mapError]

theorem liftFault_eq_error_iff {x : Except Fault α} {e : Error} :
    (liftM x : Except Error α) = .error e ↔ ∃ f, x = .error f ∧ .fault f = e := by
  cases x <;> simp [liftM, monadLift, MonadLift.monadLift, Except.mapError]

theorem liftFault_bind {x : Except Fault α} {f : α → Except Fault β} :
    (liftM (x >>= f) : Except Error β) = liftM x >>= fun a => liftM (f a) := by
  cases x <;> rfl

theorem liftFault_ok_bind {a : α} {f : α → Except Error β} :
    (liftM (.ok a : Except Fault α) : Except Error α) >>= f = f a := rfl

theorem mapError_eq_ok_iff {ε' : Type} {x : Except ε α} {f : ε → ε'} {a : α} :
    x.mapError f = .ok a ↔ x = .ok a := by
  cases x <;> simp [Except.mapError]

theorem mapError_eq_error_iff {ε' : Type} {x : Except ε α} {f : ε → ε'} {e : ε'} :
    x.mapError f = .error e ↔ ∃ e', x = .error e' ∧ f e' = e := by
  cases x <;> simp [Except.mapError]

/-! ## Errors as they are raised -/

theorem GenesisError.raised_of_isShowable {e : GenesisError} (h : e.isShowable = true) :
    e.raised = .genesis e := if_pos h

theorem GenesisError.raised_eq_genesis_iff {e g : GenesisError} :
    e.raised = .genesis g ↔ e = g ∧ e.isShowable = true := by
  unfold raised
  split <;> simp [*]

theorem GenesisError.raised_eq_fault_iff {e : GenesisError} {f : Fault} :
    e.raised = .fault f ↔ f = .longNumeral ∧ e.isShowable = false := by
  unfold raised
  split <;> simp [*, eq_comm]

theorem raising_eq_ok_iff {x : Except GenesisError α} {a : α} : raising x = .ok a ↔ x = .ok a :=
  mapError_eq_ok_iff

theorem raising_eq_error_iff {x : Except GenesisError α} {e : Error} :
    raising x = .error e ↔ ∃ g, x = .error g ∧ g.raised = e := mapError_eq_error_iff

theorem Json.report_eq_ok_iff {vs : List Json} {u : Unit} :
    report vs = .ok u ↔ ∀ v ∈ vs, v.isShowable = true := by
  simp [report]

theorem Json.report_eq_error_iff {vs : List Json} {f : Fault} :
    report vs = .error f ↔ (¬ ∀ v ∈ vs, v.isShowable = true) ∧ f = .longNumeral := by
  rw [← List.all_eq_true]
  unfold report
  split
  next h => simp [h]
  next h => exact ⟨fun he => ⟨h, (Except.error.inj he).symm⟩, fun he => congrArg _ he.2.symm⟩

theorem liftReport_eq_error_iff {vs : List Json} {x : Error} :
    (liftM (Json.report vs) : Except Error Unit) = .error x ↔
      (¬ ∀ v ∈ vs, v.isShowable = true) ∧ x = .fault .longNumeral := by
  simp only [liftFault_eq_error_iff, Json.report_eq_error_iff]
  exact ⟨fun ⟨_, ⟨hn, hf⟩, hx⟩ => ⟨hn, hx ▸ congrArg _ hf⟩, fun ⟨hn, hx⟩ => ⟨_, ⟨hn, rfl⟩, hx.symm⟩⟩

/-- What follows a report is the rest, once its values can be shown. -/
theorem report_bind_eq_ok_iff {vs : List Json} {f : Unit → Except Error α} {a : α} :
    (liftM (Json.report vs) : Except Error Unit) >>= f = .ok a ↔
      (∀ v ∈ vs, v.isShowable = true) ∧ f () = .ok a := by
  simp only [bind_eq_ok_iff, liftFault_eq_ok_iff, Json.report_eq_ok_iff]
  exact ⟨fun ⟨_, h⟩ => h, fun h => ⟨(), h⟩⟩

theorem report_bind_eq_error_iff {vs : List Json} {f : Unit → Except Error α} {x : Error} :
    (liftM (Json.report vs) : Except Error Unit) >>= f = .error x ↔
      (¬ ∀ v ∈ vs, v.isShowable = true) ∧ x = .fault .longNumeral ∨
        (∀ v ∈ vs, v.isShowable = true) ∧ f () = .error x := by
  simp only [bind_eq_error_iff, liftReport_eq_error_iff, liftFault_eq_ok_iff, Json.report_eq_ok_iff]
  exact or_congr_right ⟨fun ⟨_, h⟩ => h, fun h => ⟨(), h⟩⟩

theorem reporting_eq_ok_iff {families : List Fault.Family} {report : Fault → GenesisError}
    {x : Except Error α} {a : α} : reporting families report x = .ok a ↔ x = .ok a := by
  unfold reporting
  split
  · split <;> simp
  · rfl

theorem reporting_fault_eq_error_iff {families : List Fault.Family} {report : Fault → GenesisError}
    {x : Except Fault α} {e : Error} : reporting families report (x.mapError .fault) = .error e ↔
      ∃ f, x = .error f ∧ (if f.family ∈ families then (report f).raised else .fault f) = e := by
  cases x with
  | ok a => simp [reporting, Except.mapError]
  | error f =>
    simp only [reporting, Except.mapError, Except.error.injEq, exists_eq_left']
    split <;> simp

theorem toOption_congr {x y : Except ε α} (h : ∀ a, x = .ok a ↔ y = .ok a) : x.toOption = y.toOption := by
  refine Option.ext fun a => ?_
  have hsome : ∀ z : Except ε α, z.toOption = some a ↔ z = .ok a := by
    intro z
    cases z <;> simp [Except.toOption]
  rw [hsome, hsome]
  exact h a

theorem exists_error_of_ne_ok {x : Except ε α} (h : ∀ a, x ≠ .ok a) : ∃ e, x = .error e := by
  cases x with
  | error e => exact ⟨e, rfl⟩
  | ok a => exact absurd rfl (h a)

/-- A check of every item succeeds when each item passes, and gives their results in order. -/
theorem mapM_eq_ok_iff {f : α → Except ε β} {xs : List α} {ys : List β} :
    xs.mapM f = .ok ys ↔ List.Forall₂ (fun x y => f x = .ok y) xs ys := by
  induction xs generalizing ys with
  | nil => rw [List.mapM_nil, pure_eq_ok_iff, List.forall₂_nil_left_iff, eq_comm]
  | cons x xs ih =>
    simp only [List.mapM_cons, bind_eq_ok_iff, pure_eq_ok_iff, ih, List.forall₂_cons_left_iff]
    constructor
    · rintro ⟨y, hy, zs, hzs, rfl⟩
      exact ⟨y, zs, hy, hzs, rfl⟩
    · rintro ⟨y, zs, hy, hzs, rfl⟩
      exact ⟨y, hy, zs, hzs, rfl⟩

/-- What a check says of its results is what it asks of the items. -/
theorem forall_mem_iff_of_mapM_eq_ok {f : α → Except ε β} {p : β → Prop} {q : α → Prop}
    {xs : List α} {ys : List β} (hf : ∀ x y, f x = .ok y → (p y ↔ q x)) (h : xs.mapM f = .ok ys) :
    (∀ y ∈ ys, p y) ↔ ∀ x ∈ xs, q x := by
  rw [mapM_eq_ok_iff] at h
  induction h with
  | nil => simp
  | cons hxy _ ih => simp only [List.forall_mem_cons, hf _ _ hxy, ih]

theorem forall_mem_of_mapM_eq_ok {f : α → Except ε β} {p : β → Prop} {xs : List α} {ys : List β}
    (hf : ∀ x y, f x = .ok y → p y) (h : xs.mapM f = .ok ys) : ∀ y ∈ ys, p y :=
  (forall_mem_iff_of_mapM_eq_ok (fun x y hxy => iff_true_intro (hf x y hxy)) h).mpr fun _ _ => trivial

theorem exists_mem_of_mapM_eq_ok {f : α → Except ε β} {xs : List α} {ys : List β} {y : β}
    (h : xs.mapM f = .ok ys) (hy : y ∈ ys) : ∃ x ∈ xs, f x = .ok y := by
  rw [mapM_eq_ok_iff] at h
  induction h with
  | nil => cases hy
  | cons hxy _ ih =>
    rcases List.mem_cons.mp hy with rfl | hrest
    · exact ⟨_, List.mem_cons_self, hxy⟩
    · obtain ⟨x, hx, hfx⟩ := ih hrest
      exact ⟨x, List.mem_cons_of_mem _ hx, hfx⟩

theorem length_eq_of_mapM_eq_ok {f : α → Except ε β} {xs : List α} {ys : List β}
    (h : xs.mapM f = .ok ys) : ys.length = xs.length :=
  (mapM_eq_ok_iff.mp h).length_eq.symm

/-- Items with the same results are the same when the check tells items apart. -/
theorem mapM_injective {f : α → Except ε β} {xs ys : List α} {zs : List β}
    (hf : ∀ x y z, f x = .ok z → f y = .ok z → x = y) (hx : xs.mapM f = .ok zs)
    (hy : ys.mapM f = .ok zs) : xs = ys := by
  rw [mapM_eq_ok_iff] at hx hy
  induction hx generalizing ys with
  | nil => exact (List.forall₂_nil_right_iff.mp hy).symm
  | cons h _ ih =>
    obtain ⟨y, ys, hz, hrest, rfl⟩ := List.forall₂_cons_right_iff.mp hy
    rw [hf _ _ _ h hz, ih hrest]

theorem mapM_eq_ok_of_forall {f : α → Except ε β} {g : α → β} {xs : List α}
    (h : ∀ x ∈ xs, f x = .ok (g x)) : xs.mapM f = .ok (xs.map g) := by
  rw [mapM_eq_ok_iff, List.forall₂_map_right_iff, List.forall₂_same]
  exact h

/-- Where the result of a check determines the item, the items are those of the results. -/
theorem mapM_eq_ok_iff_eq_map {f : α → Except ε β} {g : β → α} {p : β → Prop} {xs : List α}
    {ys : List β} (h : ∀ x y, f x = .ok y ↔ x = g y ∧ p y) :
    xs.mapM f = .ok ys ↔ xs = ys.map g ∧ ∀ y ∈ ys, p y := by
  simp only [mapM_eq_ok_iff, h]
  induction ys generalizing xs with
  | nil => simp
  | cons y ys ih =>
    simp only [List.forall₂_cons_right_iff, ih, List.map_cons, List.forall_mem_cons]
    constructor
    · rintro ⟨x, xs, ⟨rfl, hy⟩, ⟨rfl, hys⟩, rfl⟩
      exact ⟨rfl, hy, hys⟩
    · rintro ⟨rfl, hy, hys⟩
      exact ⟨_, _, ⟨rfl, hy⟩, ⟨rfl, hys⟩, rfl⟩

theorem exists_mapM_eq_ok_iff {f : α → Except ε β} {xs : List α} :
    (∃ ys, xs.mapM f = .ok ys) ↔ ∀ x ∈ xs, ∃ y, f x = .ok y := by
  induction xs with
  | nil => simp [pure_eq_ok_iff]
  | cons x xs ih =>
    simp only [List.mapM_cons, bind_eq_ok_iff, pure_eq_ok_iff, List.forall_mem_cons, ← ih]
    constructor
    · rintro ⟨_, y, hy, zs, hzs, -⟩
      exact ⟨⟨y, hy⟩, zs, hzs⟩
    · rintro ⟨⟨y, hy⟩, zs, hzs⟩
      exact ⟨_, y, hy, zs, hzs, rfl⟩

/-- A check of every item fails with the error of the first item that does not pass. -/
theorem mapM_eq_error_iff {f : α → Except ε β} {xs : List α} {e : ε} : xs.mapM f = .error e ↔
    ∃ before x after, xs = before ++ x :: after ∧ (∀ y ∈ before, ∃ b, f y = .ok b) ∧ f x = .error e := by
  induction xs with
  | nil =>
    constructor
    · exact fun h => absurd h pure_ne_error
    · rintro ⟨before, x, after, hxs, -⟩
      simp at hxs
  | cons x xs ih =>
    simp only [List.mapM_cons, bind_eq_error_iff, ih, pure_ne_error, and_false, exists_false, or_false]
    constructor
    · rintro (hx | ⟨b, hb, before, y, after, rfl, hbefore, hy⟩)
      · exact ⟨[], x, xs, rfl, List.forall_mem_nil _, hx⟩
      · exact ⟨x :: before, y, after, rfl, List.forall_mem_cons.mpr ⟨⟨b, hb⟩, hbefore⟩, hy⟩
    · rintro ⟨before, y, after, hxs, hbefore, hy⟩
      cases before with
      | nil =>
        obtain ⟨rfl, -⟩ := List.cons.inj hxs
        exact Or.inl hy
      | cons z before =>
        obtain ⟨rfl, rfl⟩ := List.cons.inj hxs
        obtain ⟨⟨b, hb⟩, hbefore⟩ := List.forall_mem_cons.mp hbefore
        exact Or.inr ⟨b, hb, before, y, after, rfl, hbefore, hy⟩

theorem exists_mem_of_mapM_eq_error {f : α → Except ε β} {xs : List α} {e : ε}
    (h : xs.mapM f = .error e) : ∃ x ∈ xs, f x = .error e := by
  obtain ⟨before, x, after, rfl, -, hx⟩ := mapM_eq_error_iff.mp h
  exact ⟨x, by simp, hx⟩

end LedgerGenesis
