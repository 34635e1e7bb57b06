import LedgerGenesis.Json.MessagePack
import LedgerGenesis.Proofs.Hexadecimal
import LedgerGenesis.Proofs.Json.Parts
import LedgerGenesis.Proofs.Outcome
import LedgerGenesis.Proofs.Text.Utf8

/-! # Which values have a MessagePack form

Integers must fit in sixty-four bits, signed or not, texts must be well formed, and the lengths of texts,
lists and mappings must fit in thirty-two bits. Nothing else stands in the way.
-/
namespace LedgerGenesis.MessagePack

variable {n : Int} {b : Bool} {t : Text} {vs : List Json} {fields : List (Text × Json)}
  {rows : List (Json × Json)}

def lengthLimit : Nat := 0x100000000

def InRange (n : Int) : Prop := -0x8000000000000000 ≤ n ∧ n < 0x10000000000000000

def TextFits (t : Text) : Prop := ∃ bs, t.utf8? = some bs ∧ bs.length < lengthLimit

/-- The value itself does not keep a form from existing; the values inside may. -/
def IsPackable : Json → Prop
  | .int n => InRange n
  | .text t => TextFits t
  | .list vs => vs.length < lengthLimit
  | .object fields => fields.length < lengthLimit ∧ ∀ f ∈ fields, TextFits f.1
  | .table rows => rows.length < lengthLimit
  | _ => True

@[simp] theorem isPackable_null : IsPackable .null := trivial

@[simp] theorem isPackable_bool : IsPackable (.bool b) := trivial

@[simp] theorem isPackable_int : IsPackable (.int n) ↔ InRange n := Iff.rfl

@[simp] theorem isPackable_text : IsPackable (.text t) ↔ TextFits t := Iff.rfl

@[simp] theorem isPackable_list : IsPackable (.list vs) ↔ vs.length < lengthLimit := Iff.rfl

@[simp] theorem isPackable_object : IsPackable (.object fields) ↔
    fields.length < lengthLimit ∧ ∀ f ∈ fields, TextFits f.1 := Iff.rfl

theorem exists_packNat_iff {n : Nat} :
    (∃ bs, packNat n = .ok bs) ↔ n < 0x10000000000000000 := by
  unfold packNat
  split_ifs <;> simp <;> omega

theorem exists_packNegative_iff {n : Nat} :
    (∃ bs, packNegative n = .ok bs) ↔ n < 0x8000000000000000 := by
  unfold packNegative
  split_ifs <;> simp <;> omega

theorem exists_packInt_iff {n : Int} : (∃ bs, packInt n = .ok bs) ↔ InRange n := by
  unfold InRange
  cases n with
  | ofNat n =>
    rw [packInt, exists_packNat_iff, Int.ofNat_eq_natCast]
    omega
  | negSucc n =>
    rw [packInt, exists_packNegative_iff]
    omega

theorem exists_textHeader_iff {n : Nat} : (∃ bs, textHeader n = .ok bs) ↔ n < lengthLimit := by
  unfold textHeader lengthLimit
  split_ifs <;> simp <;> omega

theorem exists_listHeader_iff {n : Nat} : (∃ bs, listHeader n = .ok bs) ↔ n < lengthLimit := by
  unfold listHeader lengthLimit
  split_ifs <;> simp <;> omega

theorem exists_mapHeader_iff {n : Nat} : (∃ bs, mapHeader n = .ok bs) ↔ n < lengthLimit := by
  unfold mapHeader lengthLimit
  split_ifs <;> simp <;> omega

theorem exists_packText_iff : (∃ bs, packText t = .ok bs) ↔ TextFits t := by
  unfold packText TextFits
  cases t.utf8? with
  | none => simp
  | some bs => simp [exists_map_eq_ok_iff, exists_textHeader_iff]

theorem exists_packItems_iff :
    (∃ bs, packItems vs = .ok bs) ↔ ∀ v ∈ vs, ∃ bs, pack v = .ok bs := by
  induction vs with
  | nil => simp [packItems]
  | cons v vs ih =>
    simp only [packItems, bind_eq_ok_iff, pure_eq_ok_iff, List.forall_mem_cons, ← ih]
    constructor
    · rintro ⟨_, b, hb, c, hc, -⟩
      exact ⟨⟨b, hb⟩, c, hc⟩
    · rintro ⟨⟨b, hb⟩, c, hc⟩
      exact ⟨_, b, hb, c, hc, rfl⟩

theorem exists_packFields_iff : (∃ bs, packFields fields = .ok bs) ↔
    ∀ f ∈ fields, TextFits f.1 ∧ ∃ bs, pack f.2 = .ok bs := by
  induction fields with
  | nil => simp [packFields]
  | cons f fields ih =>
    obtain ⟨k, v⟩ := f
    rw [List.forall_mem_cons, ← ih, ← exists_packText_iff]
    simp only [packFields, bind_eq_ok_iff, pure_eq_ok_iff]
    constructor
    · rintro ⟨_, b, hb, c, hc, d, hd, -⟩
      exact ⟨⟨⟨b, hb⟩, c, hc⟩, d, hd⟩
    · rintro ⟨⟨⟨b, hb⟩, c, hc⟩, d, hd⟩
      exact ⟨_, b, hb, c, hc, d, hd, rfl⟩

theorem exists_packRows_iff : (∃ bs, packRows rows = .ok bs) ↔
    ∀ r ∈ rows, (∃ bs, pack r.1 = .ok bs) ∧ ∃ bs, pack r.2 = .ok bs := by
  induction rows with
  | nil => simp [packRows]
  | cons r rows ih =>
    obtain ⟨k, v⟩ := r
    simp only [packRows, bind_eq_ok_iff, pure_eq_ok_iff, List.forall_mem_cons, ← ih]
    constructor
    · rintro ⟨_, b, hb, c, hc, d, hd, -⟩
      exact ⟨⟨⟨b, hb⟩, c, hc⟩, d, hd⟩
    · rintro ⟨⟨⟨b, hb⟩, c, hc⟩, d, hd⟩
      exact ⟨_, b, hb, c, hc, d, hd, rfl⟩

theorem exists_bind_append_iff {ε : Type} {x y : Except ε Bytes} :
    (∃ bs, (do let h ← x; let c ← y; return h ++ c) = .ok bs) ↔
      (∃ h, x = .ok h) ∧ ∃ c, y = .ok c := by
  cases x <;> cases y <;> simp [bind, Except.bind, pure, Except.pure]

/-- A value has a form exactly when neither it nor a value inside stands in the way. -/
theorem exists_pack_iff {v : Json} : (∃ bs, pack v = .ok bs) ↔ v.Throughout IsPackable := by
  induction v using Json.induct with
  | null | bool | float => simp [pack, IsPackable]
  | int n => simpa [pack, IsPackable] using exists_packInt_iff
  | text t => simpa [pack, IsPackable] using exists_packText_iff
  | list vs ih =>
    rw [pack, exists_bind_append_iff, exists_listHeader_iff, exists_packItems_iff,
      Json.Throughout.list_iff]
    exact and_congr_right fun _ => forall₂_congr ih
  | object fields ih =>
    rw [pack, exists_bind_append_iff, exists_mapHeader_iff, exists_packFields_iff,
      Json.Throughout.object_iff, IsPackable, and_assoc, forall₂_and]
    exact and_congr_right fun _ => and_congr_right fun _ => forall₂_congr ih
  | table rows ih =>
    rw [pack, exists_bind_append_iff, exists_mapHeader_iff, exists_packRows_iff,
      Json.Throughout.table_iff]
    exact and_congr_right fun _ => forall₂_congr fun r hr => and_congr (ih r hr).1 (ih r hr).2

/-! ## Texts -/

instance : Decidable (TextFits t) :=
  match h : t.utf8? with
  | some bs => decidable_of_iff (bs.length < lengthLimit) (by simp [TextFits, h])
  | none => .isFalse (by simp [TextFits, h])

instance : DecidablePred IsPackable
  | .int n => inferInstanceAs (Decidable (-0x8000000000000000 ≤ n ∧ n < 0x10000000000000000))
  | .text t => inferInstanceAs (Decidable (TextFits t))
  | .list vs => inferInstanceAs (Decidable (vs.length < lengthLimit))
  | .object fields =>
    inferInstanceAs (Decidable (fields.length < lengthLimit ∧ ∀ f ∈ fields, TextFits f.1))
  | .table rows => inferInstanceAs (Decidable (rows.length < lengthLimit))
  | .null | .bool _ | .float _ => .isTrue trivial

/-- Byte strings whose hexadecimal form is not too long. -/
def HexFits (bs : Bytes) : Prop := 2 * bs.length + 2 < lengthLimit

theorem length_encode_of_ascii {cs : List Char} (h : ∀ c ∈ cs, c.toNat < 0x80) :
    (Utf8.encode cs).length = cs.length := by
  induction cs with
  | nil => rfl
  | cons c cs ih =>
    obtain ⟨hc, hcs⟩ := List.forall_mem_cons.mp h
    have hone : Utf8.encodeChar c = [c.toNat.toUInt8] := if_pos hc
    rw [Utf8.encode, List.flatMap_cons, hone, List.singleton_append, List.length_cons,
      List.length_cons]
    exact congrArg Nat.succ (ih hcs)

theorem textFits_ofChars_iff {cs : List Char} (h : ∀ c ∈ cs, c.toNat < 0x80) :
    TextFits (Text.ofChars cs) ↔ cs.length < lengthLimit := by
  simp [TextFits, length_encode_of_ascii h]

@[simp] theorem textFits_hex_iff {bs : Bytes} : TextFits (Hex.encode bs) ↔ HexFits bs := by
  have hdigit : ∀ n, (Nat.digitChar (n % 16)).toNat < 0x80 := by
    intro n
    have hn := Nat.mod_lt n (show 0 < 16 by omega)
    interval_cases n % 16 <;> decide
  have hdigits : (∀ c ∈ Hex.digits bs, c.toNat < 0x80) ∧ (Hex.digits bs).length = 2 * bs.length := by
    induction bs with
    | nil => simp [Hex.digits]
    | cons b bs ih =>
      rw [Hex.digits_cons]
      simp only [List.forall_mem_cons, List.length_cons]
      exact ⟨⟨hdigit _, hdigit _, ih.1⟩, by omega⟩
  rw [Hex.encode, textFits_ofChars_iff, HexFits, List.length_cons, List.length_cons, hdigits.2]
  simp only [List.forall_mem_cons]
  exact ⟨by decide, by decide, hdigits.1⟩

end LedgerGenesis.MessagePack
