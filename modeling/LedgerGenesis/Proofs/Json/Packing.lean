import LedgerGenesis.Json.MessagePack
import LedgerGenesis.Proofs.Bytes
import LedgerGenesis.Proofs.Json.Parts
import LedgerGenesis.Proofs.Number.Interchange
import LedgerGenesis.Proofs.Outcome
import LedgerGenesis.Proofs.Text.Utf8

/-! # The MessagePack form determines the value

The first bytes of a form say of which kind the value is and how long its content, so no form is the
beginning of another one. Two values whose forms start alike are one value, and what follows the forms is
the same.
-/
namespace LedgerGenesis

namespace MessagePack

variable {n : Nat} {bs r : Bytes}

/-- What the first bytes of a form announce. -/
inductive Lead where
  | null
  | bool (b : Bool)
  | int (n : Int)
  | float (bits : Nat)
  | text (length : Nat)
  | list (length : Nat)
  | map (length : Nat)

/-- A lead that is followed by a number of `k` bytes, and what comes after it. -/
def word (k : Nat) (f : Nat → Lead) (bs : Bytes) : Lead × Bytes :=
  (f (Bytes.ofBigEndian (bs.take k)), bs.drop k)

def readLead : Bytes → Option (Lead × Bytes)
  | [] => none
  | b :: r =>
    if b.toNat < 0x80 then some (.int b.toNat, r)
    else if b.toNat < 0x90 then some (.map (b.toNat - 0x80), r)
    else if b.toNat < 0xA0 then some (.list (b.toNat - 0x90), r)
    else if b.toNat < 0xC0 then some (.text (b.toNat - 0xA0), r)
    else if 0xE0 ≤ b.toNat then some (.int (.negSucc (0xFF - b.toNat)), r)
    else match b.toNat with
      | 0xC0 => some (.null, r)
      | 0xC2 => some (.bool false, r)
      | 0xC3 => some (.bool true, r)
      | 0xCB => some (word 8 .float r)
      | 0xCC => some (word 1 (fun n => .int n) r)
      | 0xCD => some (word 2 (fun n => .int n) r)
      | 0xCE => some (word 4 (fun n => .int n) r)
      | 0xCF => some (word 8 (fun n => .int n) r)
      | 0xD0 => some (word 1 (fun n => .int (.negSucc (0xFF - n))) r)
      | 0xD1 => some (word 2 (fun n => .int (.negSucc (0xFFFF - n))) r)
      | 0xD2 => some (word 4 (fun n => .int (.negSucc (0xFFFFFFFF - n))) r)
      | 0xD3 => some (word 8 (fun n => .int (.negSucc (0xFFFFFFFFFFFFFFFF - n))) r)
      | 0xD9 => some (word 1 .text r)
      | 0xDA => some (word 2 .text r)
      | 0xDB => some (word 4 .text r)
      | 0xDC => some (word 2 .list r)
      | 0xDD => some (word 4 .list r)
      | 0xDE => some (word 2 .map r)
      | 0xDF => some (word 4 .map r)
      | _ => none

theorem word_bigEndian {k : Nat} {f : Nat → Lead} (h : n < 256 ^ k) :
    word k f (Bytes.bigEndian k n ++ r) = (f n, r) := by
  rw [word, List.take_left' (Bytes.length_bigEndian k n), List.drop_left' (Bytes.length_bigEndian k n),
    Bytes.ofBigEndian_bigEndian h]

theorem readLead_packNat (h : packNat n = .ok bs) : readLead (bs ++ r) = some (.int n, r) := by
  unfold packNat at h
  split_ifs at h with h1 h2 h3 h4 h5 <;> cases h
  · have hb : n.toUInt8.toNat = n := Utf8.toNat_toUInt8 (by omega)
    simp [readLead, hb, h1]
  · exact congrArg some (word_bigEndian h2)
  · exact congrArg some (word_bigEndian h3)
  · exact congrArg some (word_bigEndian h4)
  · exact congrArg some (word_bigEndian h5)

/-- A negative integer is written by what is missing to the greatest word. -/
theorem word_complement {k top : Nat} (hn : n ≤ top) (htop : top < 256 ^ k) :
    word k (fun m => .int (.negSucc (top - m))) (Bytes.bigEndian k (top - n) ++ r) =
      (.int (.negSucc n), r) := by
  rw [word_bigEndian (by omega), Nat.sub_sub_self hn]

theorem readLead_packNegative (h : packNegative n = .ok bs) :
    readLead (bs ++ r) = some (.int (.negSucc n), r) := by
  unfold packNegative at h
  split_ifs at h with h1 h2 h3 h4 h5 <;> cases h
  · have hb : (0xFF - n).toUInt8.toNat = 0xFF - n := Utf8.toNat_toUInt8 (by omega)
    have hback : 0xFF - (0xFF - n) = n := Nat.sub_sub_self (by omega)
    rw [List.singleton_append, readLead, hb, if_neg (by omega), if_neg (by omega), if_neg (by omega),
      if_neg (by omega), if_pos (by omega), hback]
  · exact congrArg some (word_complement (by omega) (by decide))
  · exact congrArg some (word_complement (by omega) (by decide))
  · exact congrArg some (word_complement (by omega) (by decide))
  · exact congrArg some (word_complement (by omega) (by decide))

theorem readLead_textHeader (h : textHeader n = .ok bs) :
    readLead (bs ++ r) = some (.text n, r) := by
  unfold textHeader at h
  split_ifs at h with h1 h2 h3 h4 <;> cases h
  · have hb : (0xA0 + n).toUInt8.toNat = 0xA0 + n := Utf8.toNat_toUInt8 (by omega)
    rw [List.singleton_append, readLead, hb, if_neg (by omega), if_neg (by omega), if_neg (by omega),
      if_pos (by omega), Nat.add_sub_cancel_left]
  · exact congrArg some (word_bigEndian h2)
  · exact congrArg some (word_bigEndian h3)
  · exact congrArg some (word_bigEndian h4)

theorem readLead_listHeader (h : listHeader n = .ok bs) :
    readLead (bs ++ r) = some (.list n, r) := by
  unfold listHeader at h
  split_ifs at h with h1 h2 h3 <;> cases h
  · have hb : (0x90 + n).toUInt8.toNat = 0x90 + n := Utf8.toNat_toUInt8 (by omega)
    rw [List.singleton_append, readLead, hb, if_neg (by omega), if_neg (by omega), if_pos (by omega),
      Nat.add_sub_cancel_left]
  · exact congrArg some (word_bigEndian h2)
  · exact congrArg some (word_bigEndian h3)

theorem readLead_mapHeader (h : mapHeader n = .ok bs) :
    readLead (bs ++ r) = some (.map n, r) := by
  unfold mapHeader at h
  split_ifs at h with h1 h2 h3 <;> cases h
  · have hb : (0x80 + n).toUInt8.toNat = 0x80 + n := Utf8.toNat_toUInt8 (by omega)
    rw [List.singleton_append, readLead, hb, if_neg (by omega), if_pos (by omega),
      Nat.add_sub_cancel_left]
  · exact congrArg some (word_bigEndian h2)
  · exact congrArg some (word_bigEndian h3)

/-! ## Values -/

/-- No mapping with other keys than texts, and doubles in canonical form only. -/
def IsPlain : Json → Prop
  | .float x => x.IsCanonical
  | .table _ => False
  | _ => True

section

variable {b : Bool} {n : Int} {t : Text} {vs : List Json} {fields : List (Text × Json)}

@[simp] theorem isPlain_null : IsPlain .null := trivial

@[simp] theorem isPlain_bool : IsPlain (.bool b) := trivial

@[simp] theorem isPlain_int : IsPlain (.int n) := trivial

@[simp] theorem isPlain_text : IsPlain (.text t) := trivial

@[simp] theorem isPlain_list : IsPlain (.list vs) := trivial

@[simp] theorem isPlain_object : IsPlain (.object fields) := trivial

end

/-- What the form of a value announces, and the content that follows. -/
def Opens : Json → Lead → Bytes → Prop
  | .null, l, body => l = .null ∧ body = []
  | .bool b, l, body => l = .bool b ∧ body = []
  | .int n, l, body => l = .int n ∧ body = []
  | .float x, l, body => l = .float x.toBits ∧ body = []
  | .text t, l, body => l = .text body.length ∧ t.utf8? = some body
  | .list vs, l, body => l = .list vs.length ∧ packItems vs = .ok body
  | .object fields, l, body => l = .map fields.length ∧ packFields fields = .ok body
  | .table rows, l, body => l = .map rows.length ∧ packRows rows = .ok body

theorem opens_packText {t : Text} (h : packText t = .ok bs) :
    ∃ body, t.utf8? = some body ∧ ∀ r, readLead (bs ++ r) = some (.text body.length, body ++ r) := by
  unfold packText at h
  split at h
  next body ht =>
    obtain ⟨header, hh, rfl⟩ := map_eq_ok_iff.mp h
    refine ⟨body, ht, fun r => ?_⟩
    rw [List.append_assoc]
    exact readLead_textHeader hh
  next => cases h

/-- The form of a value starts with its lead and goes on with its content. -/
theorem exists_opens {v : Json} (hv : IsPlain v) (h : pack v = .ok bs) :
    ∃ l body, Opens v l body ∧ ∀ r, readLead (bs ++ r) = some (l, body ++ r) := by
  cases v with
  | null =>
    cases h
    exact ⟨.null, [], ⟨rfl, rfl⟩, fun r => rfl⟩
  | bool b =>
    cases h
    exact ⟨.bool b, [], ⟨rfl, rfl⟩, fun r => by cases b <;> rfl⟩
  | int n =>
    cases n with
    | ofNat n => exact ⟨.int n, [], ⟨rfl, rfl⟩, fun r => readLead_packNat h⟩
    | negSucc n => exact ⟨.int (.negSucc n), [], ⟨rfl, rfl⟩, fun r => readLead_packNegative h⟩
  | float x =>
    cases h
    exact ⟨.float x.toBits, [], ⟨rfl, rfl⟩,
      fun r => congrArg some (word_bigEndian (Binary64.toBits_lt hv))⟩
  | text t =>
    rw [pack] at h
    obtain ⟨body, ht, hread⟩ := opens_packText h
    exact ⟨.text body.length, body, ⟨rfl, ht⟩, hread⟩
  | list vs =>
    simp only [pack, bind_eq_ok_iff, pure_eq_ok_iff] at h
    obtain ⟨header, hh, body, hbody, rfl⟩ := h
    refine ⟨.list vs.length, body, ⟨rfl, hbody⟩, fun r => ?_⟩
    rw [List.append_assoc]
    exact readLead_listHeader hh
  | object fields =>
    simp only [pack, bind_eq_ok_iff, pure_eq_ok_iff] at h
    obtain ⟨header, hh, body, hbody, rfl⟩ := h
    refine ⟨.map fields.length, body, ⟨rfl, hbody⟩, fun r => ?_⟩
    rw [List.append_assoc]
    exact readLead_mapHeader hh
  | table rows => exact absurd hv id

theorem packText_prefix {t u : Text} {cs s : Bytes} (ht : packText t = .ok bs)
    (hu : packText u = .ok cs) (h : bs ++ r = cs ++ s) : t = u ∧ r = s := by
  obtain ⟨body, hb, hread⟩ := opens_packText ht
  obtain ⟨body', hb', hread'⟩ := opens_packText hu
  have heq := hread r
  rw [h, hread' s] at heq
  obtain ⟨hlead, hbody⟩ := Prod.mk.inj (Option.some.inj heq)
  obtain ⟨rfl, rfl⟩ := List.append_inj hbody (Lead.text.inj hlead)
  exact ⟨Text.utf8?_injective hb hb', rfl⟩

/-- No other value has a form that starts as the forms of this one do. -/
def Determined (v : Json) : Prop := ∀ w bs cs r s, w.Throughout IsPlain → pack v = .ok bs →
  pack w = .ok cs → bs ++ r = cs ++ s → v = w ∧ r = s

theorem packItems_prefix {vs ws : List Json} {cs s : Bytes} (hv : ∀ v ∈ vs, Determined v)
    (hw : ∀ w ∈ ws, w.Throughout IsPlain) (hlen : vs.length = ws.length)
    (hvs : packItems vs = .ok bs) (hws : packItems ws = .ok cs) (h : bs ++ r = cs ++ s) :
    vs = ws ∧ r = s := by
  induction vs generalizing ws bs cs with
  | nil =>
    obtain rfl := List.length_eq_zero_iff.mp hlen.symm
    cases hvs
    cases hws
    exact ⟨rfl, h⟩
  | cons v vs ih =>
    obtain ⟨w, ws, rfl⟩ := List.exists_cons_of_length_eq_add_one hlen.symm
    simp only [packItems, bind_eq_ok_iff, pure_eq_ok_iff] at hvs hws
    obtain ⟨b, hb, bs, hbs, rfl⟩ := hvs
    obtain ⟨c, hc, cs, hcs, rfl⟩ := hws
    rw [List.append_assoc, List.append_assoc] at h
    obtain ⟨rfl, hrest⟩ := hv v List.mem_cons_self w b c _ _ (hw w List.mem_cons_self) hb hc h
    obtain ⟨rfl, rfl⟩ := ih (fun u hu => hv u (List.mem_cons_of_mem v hu))
      (fun u hu => hw u (List.mem_cons_of_mem v hu)) (Nat.succ.inj hlen) hbs hcs hrest
    exact ⟨rfl, rfl⟩

theorem packFields_prefix {fs gs : List (Text × Json)} {cs s : Bytes}
    (hf : ∀ f ∈ fs, Determined f.2) (hg : ∀ g ∈ gs, g.2.Throughout IsPlain)
    (hlen : fs.length = gs.length) (hfs : packFields fs = .ok bs) (hgs : packFields gs = .ok cs)
    (h : bs ++ r = cs ++ s) : fs = gs ∧ r = s := by
  induction fs generalizing gs bs cs with
  | nil =>
    obtain rfl := List.length_eq_zero_iff.mp hlen.symm
    cases hfs
    cases hgs
    exact ⟨rfl, h⟩
  | cons f fs ih =>
    obtain ⟨⟨l, w⟩, gs, rfl⟩ := List.exists_cons_of_length_eq_add_one hlen.symm
    obtain ⟨k, v⟩ := f
    simp only [packFields, bind_eq_ok_iff, pure_eq_ok_iff] at hfs hgs
    obtain ⟨key, hkey, b, hb, bs, hbs, rfl⟩ := hfs
    obtain ⟨key', hkey', c, hc, cs, hcs, rfl⟩ := hgs
    simp only [List.append_assoc] at h
    obtain ⟨rfl, hvalue⟩ := packText_prefix hkey hkey' h
    obtain ⟨rfl, hrest⟩ := hf (k, v) List.mem_cons_self w b c _ _ (hg (k, w) List.mem_cons_self) hb hc
      hvalue
    obtain ⟨rfl, rfl⟩ := ih (fun f hm => hf f (List.mem_cons_of_mem _ hm))
      (fun g hm => hg g (List.mem_cons_of_mem _ hm)) (Nat.succ.inj hlen) hbs hcs hrest
    exact ⟨rfl, rfl⟩

/-- Of two values whose forms start alike, the leads are the same and the contents start alike. -/
theorem determined_of_content {v : Json} (hv : IsPlain v) (h : ∀ w l body body' r s,
      w.Throughout IsPlain → Opens v l body → Opens w l body' → body ++ r = body' ++ s →
        v = w ∧ r = s) : Determined v := by
  intro w bs cs r s hw hbs hcs heq
  obtain ⟨l, body, ho, hread⟩ := exists_opens hv hbs
  obtain ⟨l', body', ho', hread'⟩ := exists_opens hw.self hcs
  have hleads := hread r
  rw [heq, hread' s] at hleads
  obtain ⟨rfl, hbody⟩ := Prod.mk.inj (Option.some.inj hleads)
  exact h w _ body body' r s hw ho ho' hbody.symm

/-- A value without content is determined where no other one has its lead. -/
theorem determined_of_lead {v : Json} {l : Lead} (hv : IsPlain v)
    (ho : ∀ l' body, Opens v l' body → l' = l ∧ body = [])
    (h : ∀ w body, w.Throughout IsPlain → Opens w l body → v = w ∧ body = []) : Determined v := by
  refine determined_of_content hv fun w l' body body' r s hw hopens hopens' hbody => ?_
  obtain ⟨rfl, rfl⟩ := ho l' body hopens
  obtain ⟨rfl, rfl⟩ := h w body' hw hopens'
  exact ⟨rfl, hbody⟩

theorem determined {v : Json} (hv : v.Throughout IsPlain) : Determined v := by
  -- in each case a value of another kind has another lead
  induction v using Json.induct with
  | null =>
    refine determined_of_lead hv.self (fun _ _ => id) fun w body hw ho => ?_
    cases w with
    | null => exact ⟨rfl, ho.2⟩
    | _ => cases ho.1
  | bool b =>
    refine determined_of_lead hv.self (fun _ _ => id) fun w body hw ho => ?_
    cases w with
    | bool c => exact ⟨congrArg _ (Lead.bool.inj ho.1), ho.2⟩
    | _ => cases ho.1
  | int n =>
    refine determined_of_lead hv.self (fun _ _ => id) fun w body hw ho => ?_
    cases w with
    | int m => exact ⟨congrArg _ (Lead.int.inj ho.1), ho.2⟩
    | _ => cases ho.1
  | float x =>
    refine determined_of_lead hv.self (fun _ _ => id) fun w body hw ho => ?_
    cases w with
    | float y =>
      have hbits := Lead.float.inj ho.1
      exact ⟨congrArg _ (Binary64.toBits_injective hv.self hw.self hbits), ho.2⟩
    | _ => cases ho.1
  | text t =>
    refine determined_of_content hv.self fun w l body body' r s hw ho ho' hbody => ?_
    obtain ⟨rfl, ht⟩ := ho
    cases w with
    | text u =>
      obtain ⟨hlen, hu⟩ := ho'
      obtain ⟨rfl, rfl⟩ := List.append_inj hbody (Lead.text.inj hlen)
      exact ⟨congrArg _ (Text.utf8?_injective ht hu), rfl⟩
    | _ => cases ho'.1
  | list vs ih =>
    refine determined_of_content hv.self fun w l body body' r s hw ho ho' hbody => ?_
    obtain ⟨rfl, hitems⟩ := ho
    have hvs := (Json.Throughout.list_iff.mp hv).2
    cases w with
    | list ws =>
      obtain ⟨hlen, hitems'⟩ := ho'
      obtain ⟨rfl, rfl⟩ := packItems_prefix (fun v hm => ih v hm (hvs v hm))
        (Json.Throughout.list_iff.mp hw).2 (Lead.list.inj hlen) hitems hitems' hbody
      exact ⟨rfl, rfl⟩
    | _ => cases ho'.1
  | object fields ih =>
    refine determined_of_content hv.self fun w l body body' r s hw ho ho' hbody => ?_
    obtain ⟨rfl, hfields⟩ := ho
    have hfs := (Json.Throughout.object_iff.mp hv).2
    cases w with
    | object gs =>
      obtain ⟨hlen, hfields'⟩ := ho'
      obtain ⟨rfl, rfl⟩ := packFields_prefix (fun f hm => ih f hm (hfs f hm))
        (Json.Throughout.object_iff.mp hw).2 (Lead.map.inj hlen) hfields hfields' hbody
      exact ⟨rfl, rfl⟩
    | table rows => exact absurd hw.self id
    | _ => cases ho'.1
  | table rows => exact absurd hv.self id

theorem pack_injective {v w : Json} (hv : v.Throughout IsPlain) (hw : w.Throughout IsPlain)
    (hbs : pack v = .ok bs) (hws : pack w = .ok bs) : v = w :=
  (determined hv w bs bs [] [] hw hbs hws rfl).1

end MessagePack

end LedgerGenesis
