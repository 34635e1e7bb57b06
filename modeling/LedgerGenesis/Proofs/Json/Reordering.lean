import LedgerGenesis.Proofs.Json.Packing

/-! # Forms of reordered values

The form of a value is part of the form of each list and object that holds it: where the value is exchanged, its
form is exchanged and all other bytes stay. Values that differ in the order of fields only, at any depth, both
have forms or neither has one, and the forms are the same bytes in another order.
-/
namespace LedgerGenesis

namespace MessagePack

variable {f : Json → Except Fault Bytes} {v w : Json} {vs : List Json} {fs gs : List (Text × Json)}
  {bs cs : Bytes}

/-! ## Forms inside forms -/

/-- What holds a value has the form of the value at one place. Other values take their forms to that place. -/
def Exchanges (f : Json → Except Fault Bytes) : Prop :=
  ∀ v bs, f v = .ok bs → ∃ pre form post, pack v = .ok form ∧ bs = pre ++ (form ++ post) ∧
    ∀ w form', pack w = .ok form' → f w = .ok (pre ++ (form' ++ post))

theorem Exchanges.comp {g : Json → Json} (hf : Exchanges f) (hg : Exchanges fun v => pack (g v)) :
    Exchanges fun v => f (g v) := by
  intro v bs h
  obtain ⟨pre, outer, post, houter, rfl, hexchange⟩ := hf _ _ h
  obtain ⟨pre', form, post', hform, rfl, hexchange'⟩ := hg _ _ houter
  refine ⟨pre ++ pre', form, post' ++ post, hform, by simp only [List.append_assoc], fun w form' hw => ?_⟩
  have hw' := hexchange _ _ (hexchange' w form' hw)
  simpa only [List.append_assoc] using hw'

/-- Plain values with one form in their place are one value. -/
theorem Exchanges.injective (hf : Exchanges f) (hv : v.Throughout IsPlain) (hw : w.Throughout IsPlain)
    (h : f v = .ok bs) (h' : f w = .ok bs) : v = w := by
  obtain ⟨pre, form, post, hform, rfl, hexchange⟩ := hf v bs h
  obtain ⟨-, form', -, hform', -, -⟩ := hf w _ h'
  rw [hexchange w form' hform', Except.ok.injEq, List.append_cancel_left_eq,
    List.append_cancel_right_eq] at h'
  obtain rfl : form' = form := h'
  exact pack_injective hv hw hform hform'

/-- A value whose form has the bytes in another order does the same to what holds it. -/
theorem Exchanges.perm (hf : Exchanges f)
    (hvw : ∀ form, pack v = .ok form → ∃ form', pack w = .ok form' ∧ form.Perm form')
    (h : f v = .ok bs) : ∃ cs, f w = .ok cs ∧ bs.Perm cs := by
  obtain ⟨pre, form, post, hform, rfl, hexchange⟩ := hf v bs h
  obtain ⟨form', hform', hperm⟩ := hvw form hform
  exact ⟨_, hexchange w form' hform', (hperm.append_right post).append_left pre⟩

theorem exchanges_packItems (before after : List Json) :
    Exchanges fun v => packItems (before ++ v :: after) := by
  intro v bs h
  induction before generalizing bs with
  | nil =>
    simp only [List.nil_append, packItems, bind_eq_ok_iff, pure_eq_ok_iff] at h ⊢
    obtain ⟨form, hform, post, hpost, rfl⟩ := h
    exact ⟨[], form, post, hform, rfl, fun w form' hw => ⟨form', hw, post, hpost, rfl⟩⟩
  | cons u before ih =>
    simp only [List.cons_append, packItems, bind_eq_ok_iff, pure_eq_ok_iff] at h ⊢
    obtain ⟨first, hfirst, rest, hrest, rfl⟩ := h
    obtain ⟨pre, form, post, hform, rfl, hexchange⟩ := ih _ hrest
    refine ⟨first ++ pre, form, post, hform, (List.append_assoc _ _ _).symm, fun w form' hw => ?_⟩
    exact ⟨first, hfirst, _, hexchange w form' hw, (List.append_assoc _ _ _).symm⟩

theorem exchanges_packFields (before after : List (Text × Json)) (k : Text) :
    Exchanges fun v => packFields (before ++ (k, v) :: after) := by
  intro v bs h
  induction before generalizing bs with
  | nil =>
    simp only [List.nil_append, packFields, bind_eq_ok_iff, pure_eq_ok_iff] at h ⊢
    obtain ⟨key, hkey, form, hform, post, hpost, rfl⟩ := h
    exact ⟨key, form, post, hform, rfl, fun w form' hw => ⟨key, hkey, form', hw, post, hpost, rfl⟩⟩
  | cons f before ih =>
    obtain ⟨l, u⟩ := f
    simp only [List.cons_append, packFields, bind_eq_ok_iff, pure_eq_ok_iff] at h ⊢
    obtain ⟨key, hkey, first, hfirst, rest, hrest, rfl⟩ := h
    obtain ⟨pre, form, post, hform, rfl, hexchange⟩ := ih _ hrest
    refine ⟨key ++ (first ++ pre), form, post, hform, by simp only [List.append_assoc], fun w form' hw => ?_⟩
    exact ⟨key, hkey, first, hfirst, _, hexchange w form' hw, by simp only [List.append_assoc]⟩

/-- A header in front that does not depend on the value. -/
theorem Exchanges.headed (hf : Exchanges f) (header : Except Fault Bytes) :
    Exchanges fun v => do let h ← header; let body ← f v; return h ++ body := by
  intro v bs h
  simp only [bind_eq_ok_iff, pure_eq_ok_iff] at h ⊢
  obtain ⟨head, hhead, body, hbody, rfl⟩ := h
  obtain ⟨pre, form, post, hform, rfl, hexchange⟩ := hf v body hbody
  refine ⟨head ++ pre, form, post, hform, (List.append_assoc _ _ _).symm, fun w form' hw => ?_⟩
  exact ⟨head, hhead, _, hexchange w form' hw, (List.append_assoc _ _ _).symm⟩

theorem exchanges_list (before after : List Json) :
    Exchanges fun v => pack (.list (before ++ v :: after)) := by
  have h := (exchanges_packItems before after).headed (listHeader (before.length + (after.length + 1)))
  simpa only [pack, List.length_append, List.length_cons] using h

theorem exchanges_object (before after : List (Text × Json)) (k : Text) :
    Exchanges fun v => pack (.object (before ++ (k, v) :: after)) := by
  have h := (exchanges_packFields before after k).headed (mapHeader (before.length + (after.length + 1)))
  simpa only [pack, List.length_append, List.length_cons] using h

/-! ## Fields in another order -/

theorem packFields_perm (h : fs.Perm gs) (hbs : packFields fs = .ok bs) :
    ∃ cs, packFields gs = .ok cs ∧ bs.Perm cs := by
  induction h generalizing bs with
  | nil => exact ⟨bs, hbs, .refl bs⟩
  | cons f _ ih =>
    obtain ⟨k, v⟩ := f
    simp only [packFields, bind_eq_ok_iff, pure_eq_ok_iff] at hbs ⊢
    obtain ⟨key, hkey, form, hform, rest, hrest, rfl⟩ := hbs
    obtain ⟨rest', hrest', hperm⟩ := ih hrest
    exact ⟨_, ⟨key, hkey, form, hform, rest', hrest', rfl⟩, (hperm.append_left form).append_left key⟩
  | swap f g fs =>
    obtain ⟨k, v⟩ := f
    obtain ⟨l, w⟩ := g
    simp only [packFields, bind_eq_ok_iff, pure_eq_ok_iff] at hbs ⊢
    obtain ⟨key, hkey, form, hform, _, ⟨key', hkey', form', hform', rest, hrest, rfl⟩, rfl⟩ := hbs
    refine ⟨_, ⟨key', hkey', form', hform', _, ⟨key, hkey, form, hform, rest, hrest, rfl⟩, rfl⟩, ?_⟩
    -- the two fields change places as wholes, each with its key
    simp only [← List.append_assoc]
    refine List.Perm.append_right rest ?_
    simp only [List.append_assoc (key ++ form), List.append_assoc (key' ++ form')]
    exact List.perm_append_comm
  | trans _ _ ih ih' =>
    obtain ⟨cs, hcs, hperm⟩ := ih hbs
    obtain ⟨ds, hds, hperm'⟩ := ih' hcs
    exact ⟨ds, hds, hperm.trans hperm'⟩

end MessagePack

namespace Json

open MessagePack (pack IsPlain)

/-- Fields are permuted in one object after another, which may be inside lists and other objects. -/
inductive Reordered : Json → Json → Prop
  | refl (v : Json) : Reordered v v
  | fields {fs gs : List (Text × Json)} (h : fs.Perm gs) : Reordered (.object fs) (.object gs)
  | item (before after : List Json) {v w : Json} (h : Reordered v w) :
      Reordered (.list (before ++ v :: after)) (.list (before ++ w :: after))
  | field (before after : List (Text × Json)) (k : Text) {v w : Json} (h : Reordered v w) :
      Reordered (.object (before ++ (k, v) :: after)) (.object (before ++ (k, w) :: after))
  | trans {u v w : Json} (h : Reordered u v) (h' : Reordered v w) : Reordered u w

namespace Reordered

variable {v w : Json} {bs : Bytes}

theorem symm (h : v.Reordered w) : w.Reordered v := by
  induction h with
  | refl v => exact .refl v
  | fields h => exact .fields h.symm
  | item before after _ ih => exact .item before after ih
  | field before after k _ ih => exact .field before after k ih
  | trans _ _ ih ih' => exact ih'.trans ih

theorem plain (h : v.Reordered w) (hv : v.Throughout IsPlain) : w.Throughout IsPlain := by
  induction h with
  | refl v => exact hv
  | fields h =>
    have hfields := (Throughout.object_iff.mp hv).2
    exact Throughout.object_iff.mpr ⟨trivial, fun f hf => hfields f (h.mem_iff.mpr hf)⟩
  | item before after _ ih =>
    simp only [Throughout.list_iff, List.forall_mem_append, List.forall_mem_cons] at hv ⊢
    exact ⟨trivial, hv.2.1, ih hv.2.2.1, hv.2.2.2⟩
  | field before after k _ ih =>
    simp only [Throughout.object_iff, List.forall_mem_append, List.forall_mem_cons] at hv ⊢
    exact ⟨trivial, hv.2.1, ih hv.2.2.1, hv.2.2.2⟩
  | trans _ _ ih ih' => exact ih' (ih hv)

/-- A reordered value has a form too, with the same bytes in another order. -/
theorem pack_perm (h : v.Reordered w) (hbs : pack v = .ok bs) : ∃ cs, pack w = .ok cs ∧ bs.Perm cs := by
  induction h generalizing bs with
  | refl v => exact ⟨bs, hbs, .refl bs⟩
  | fields h =>
    simp only [pack, bind_eq_ok_iff, pure_eq_ok_iff] at hbs ⊢
    obtain ⟨header, hheader, body, hbody, rfl⟩ := hbs
    obtain ⟨body', hbody', hperm⟩ := MessagePack.packFields_perm h hbody
    rw [h.length_eq] at hheader
    exact ⟨_, ⟨header, hheader, body', hbody', rfl⟩, hperm.append_left header⟩
  | item before after _ ih => exact (MessagePack.exchanges_list before after).perm (fun _ => ih) hbs
  | field before after k _ ih => exact (MessagePack.exchanges_object before after k).perm (fun _ => ih) hbs
  | trans _ _ ih ih' =>
    obtain ⟨cs, hcs, hperm⟩ := ih hbs
    obtain ⟨ds, hds, hperm'⟩ := ih' hcs
    exact ⟨ds, hds, hperm.trans hperm'⟩

end Reordered

end Json

end LedgerGenesis
