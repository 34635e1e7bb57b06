import LedgerGenesis.Authority
import LedgerGenesis.Proofs.Outcome
import LedgerGenesis.Proofs.Text.Utf8

/-! # Which values are seeds

A seed consists of segments without slashes, joined by single or double slashes. The walk over a seed counts
the slashes that may still follow, so that it can be compared with the grammar and with what the grammar
forbids: a slash at either end, and three of them in a row. Every role has a key for a seed that has a UTF-8
form, and whatever else is given for a seed is refused as such.
-/
namespace LedgerGenesis

namespace Seed

variable {a t r : Text} {k : Nat} {p : CodePoint} {v : Json}

/-- What stands between the slashes of a seed. -/
structure IsSegment (a : Text) : Prop where
  nonempty : a ≠ []
  slashless : slash ∉ a

/-- One or more segments, joined by single or double slashes. -/
inductive Segmented : Text → Prop
  | one {a : Text} (ha : IsSegment a) : Segmented a
  | soft {a t : Text} (ha : IsSegment a) (ht : Segmented t) : Segmented (a ++ slash :: t)
  | hard {a t : Text} (ha : IsSegment a) (ht : Segmented t) : Segmented (a ++ slash :: slash :: t)

/-- No slash at either end, and never three of them in a row. -/
structure Spaced (t : Text) : Prop where
  nonempty : t ≠ []
  head : t.head? ≠ some slash
  last : t.getLast? ≠ some slash
  runs : ¬ [slash, slash, slash] <:+: t

/-! ## The walk and the grammar -/

theorem isSegment_singleton (hp : p ≠ slash) : IsSegment [p] :=
  ⟨List.cons_ne_nil p [], fun h => hp (List.mem_singleton.mp h).symm⟩

theorem IsSegment.concat (ha : IsSegment a) (hp : p ≠ slash) : IsSegment (a ++ [p]) := by
  refine ⟨by simp, fun h => ?_⟩
  rcases List.mem_append.mp h with h | h
  · exact ha.slashless h
  · exact hp (List.mem_singleton.mp h).symm

theorem continues_cons_of_ne (hp : p ≠ slash) : continues k (p :: t) = continues 2 t := by
  cases k <;> simp only [continues, if_neg hp]

@[simp] theorem continues_zero_slash : continues 0 (slash :: t) = false := rfl

@[simp] theorem continues_succ_slash : continues (k + 1) (slash :: t) = continues k t := rfl

/-- After a segment two slashes may follow, however many could before it. -/
theorem continues_segment (ha : IsSegment a) (k : Nat) (r : Text) :
    continues k (a ++ r) = continues 2 r := by
  obtain ⟨hne, hslash⟩ := ha
  induction a generalizing k with
  | nil => exact absurd rfl hne
  | cons p a ih =>
    simp only [List.mem_cons, not_or] at hslash
    rw [List.cons_append, continues_cons_of_ne (Ne.symm hslash.1)]
    cases a with
    | nil => rfl
    | cons q a => exact ih 2 (List.cons_ne_nil q a) hslash.2

theorem continues_of_segmented (h : Segmented t) (k : Nat) : continues k t = true := by
  induction h generalizing k with
  | @one a ha =>
    rw [← List.append_nil a, continues_segment ha]
    rfl
  | soft ha _ ih => rw [continues_segment ha, continues_succ_slash, ih]
  | hard ha _ ih => rw [continues_segment ha, continues_succ_slash, continues_succ_slash, ih]

/-- Where the walk goes on with fewer slashes left, those already met stand behind a segment. -/
theorem segmented_of_continues (hk : k ≤ 2) (h : continues k t = true) (ha : IsSegment a) :
    Segmented (a ++ (List.replicate (2 - k) slash ++ t)) := by
  induction t generalizing k a with
  | nil =>
    obtain rfl : k = 2 := by simpa [continues] using h
    simpa using Segmented.one ha
  | cons p t ih =>
    by_cases hp : p = slash
    · subst hp
      cases k with
      | zero => cases h
      | succ k =>
        -- the slash moves from the text to those before it
        have hslashes : List.replicate (2 - k) slash ++ t =
            List.replicate (2 - (k + 1)) slash ++ slash :: t := by
          rw [show 2 - k = 2 - (k + 1) + 1 by omega, List.replicate_succ']
          simp
        rw [← hslashes]
        exact ih (by omega) h ha
    · rw [continues_cons_of_ne hp] at h
      have hrest : Segmented (p :: t) := ih le_rfl h (isSegment_singleton hp)
      match k, hk with
      | 0, _ => exact .hard ha hrest
      | 1, _ => exact .soft ha hrest
      | 2, _ => simpa using ih le_rfl h (ha.concat hp)

theorem isSeed_iff_segmented : isSeed t = true ↔ Segmented t := by
  refine ⟨fun h => ?_, fun h => continues_of_segmented h 0⟩
  cases t with
  | nil => cases h
  | cons p t =>
    by_cases hp : p = slash
    · subst hp
      cases h
    · rw [isSeed, continues_cons_of_ne hp] at h
      exact segmented_of_continues le_rfl h (isSegment_singleton hp)

/-! ## The walk and its neighbouring slashes -/

theorem getLast?_slash_cons : (slash :: t).getLast? ≠ some slash ↔ t ≠ [] ∧ t.getLast? ≠ some slash := by
  cases t with
  | nil => simp
  | cons p t => simp [List.getLast?_cons_cons]

theorem getLast?_cons_of_ne (hp : p ≠ slash) :
    (p :: t).getLast? ≠ some slash ↔ t.getLast? ≠ some slash := by
  cases t with
  | nil => simpa using hp
  | cons q t => rw [List.getLast?_cons_cons]

/-- A walk succeeds where the text ends as it may, starts with no more slashes than may follow, and has no
three slashes in a row. -/
theorem continues_iff (hk : k ≤ 2) : continues k t = true ↔ (k = 2 ∨ t ≠ []) ∧
    ¬ List.replicate (k + 1) slash <+: t ∧ t.getLast? ≠ some slash ∧ ¬ [slash, slash, slash] <:+: t := by
  induction t generalizing k with
  | nil => simp [continues]
  | cons p t ih =>
    rw [List.infix_cons_iff]
    by_cases hp : p = slash
    · subst hp
      cases k with
      | zero => simp
      | succ k =>
        -- three slashes in front are no fewer than the walk may not meet
        have hrun : [slash, slash, slash] <+: slash :: t → List.replicate (k + 1) slash <+: t := by
          intro h
          rw [List.cons_prefix_cons] at h
          refine List.IsPrefix.trans ?_ h.2
          match k, hk with
          | 0, _ => exact ⟨[slash], rfl⟩
          | 1, _ => exact ⟨[], rfl⟩
        have hfront : List.replicate (k + 1 + 1) slash <+: slash :: t ↔
            List.replicate (k + 1) slash <+: t := by
          rw [List.replicate_succ, List.cons_prefix_cons]
          simp
        have hk2 : k ≠ 2 := by omega
        rw [continues_succ_slash, ih (by omega), getLast?_slash_cons, hfront]
        simp only [hk2, false_or, ne_eq, reduceCtorEq, not_false_eq_true, or_true, true_and]
        tauto
    · have hfront : ∀ n, ¬ List.replicate (n + 1) slash <+: p :: t := by
        intro n h
        rw [List.replicate_succ, List.cons_prefix_cons] at h
        exact hp h.1.symm
      have hrun : [slash, slash, slash] <+: t → [slash, slash, slash] <:+: t := List.IsPrefix.isInfix
      rw [continues_cons_of_ne hp, ih le_rfl, getLast?_cons_of_ne hp]
      have hk1 := hfront k
      have hk3 : ¬ [slash, slash, slash] <+: p :: t := hfront 2
      rw [show List.replicate (2 + 1) slash = [slash, slash, slash] from rfl]
      simp only [ne_eq, reduceCtorEq, not_false_eq_true, or_true, true_and, true_or, hk3, false_or]
      tauto

theorem segmented_iff_spaced : Segmented t ↔ Spaced t := by
  rw [← isSeed_iff_segmented, isSeed, continues_iff (Nat.zero_le 2)]
  have hhead : List.replicate (0 + 1) slash <+: t ↔ t.head? = some slash := by
    cases t <;> simp [eq_comm]
  rw [hhead]
  constructor
  · rintro ⟨hne, hfirst, hlast, hruns⟩
    exact ⟨hne.resolve_left (by decide), hfirst, hlast, hruns⟩
  · rintro ⟨hne, hfirst, hlast, hruns⟩
    exact ⟨.inr hne, hfirst, hlast, hruns⟩

instance : Decidable (Segmented t) := decidable_of_iff _ isSeed_iff_segmented

example : Segmented "Alice//stash/1" := by decide

example : ¬ Segmented "Alice///stash" := by decide

/-! ## Keys of seeds -/

/-- The values that are seeds: texts of the grammar that have a UTF-8 form. -/
def Derivable (v : Json) : Prop := ∃ t, v = .text t ∧ t.WellFormed ∧ Segmented t

theorem derivable_text_iff : Derivable (.text t) ↔ ∃ bs, t.utf8? = some bs ∧ Segmented t := by
  simp only [Derivable, Json.text.injEq, exists_eq_left', exists_and_right, Text.exists_utf8?_iff]

theorem ofJson_eq_ok {v : Json} {t : Text} (h : ofJson v = .ok t) : v = .text t := by
  cases v with
  | text u =>
    by_cases hu : isSeed u = true
    · rw [ofJson, if_pos hu] at h
      cases h
      rfl
    · rw [ofJson, if_neg hu] at h
      cases h
  | _ => cases h

theorem roleKey_eq_ok {seed : Json} {r : Role} {k : Bytes} (h : roleKey seed r = .ok k) :
    ∃ t, seed = .text t ∧ publicKey (path t) r.tagBytes = .ok k := by
  obtain ⟨t, hseed, hkey⟩ := bind_eq_ok_iff.mp h
  exact ⟨t, ofJson_eq_ok hseed, mapError_eq_ok_iff.mp (raising_eq_ok_iff.mp hkey)⟩

theorem ofJson_text (h : Segmented t) : ofJson (.text t) = .ok t := by
  rw [ofJson, if_pos (isSeed_iff_segmented.mpr h)]

/-- Two slashes in UTF-8. -/
def root : Bytes := [47, 47]

theorem utf8?_path : (path t).utf8? = t.utf8?.map (root ++ ·) := by
  simp only [path, slash, Text.utf8?, Text.chars?, Option.map_map]
  rfl

/-- The public key of a message under a tag. -/
def derivedKey (message tag : Bytes) : Bytes := Ed25519.publicKey (blake2b256 tag message)

theorem length_derivedKey (message tag : Bytes) : (derivedKey message tag).length = Authority.keyLength :=
  Bytes.length_littleEndian _ _

theorem publicKey_tagBytes (r : Role) : publicKey t r.tagBytes = match t.utf8? with
    | none => .error .loneSurrogate
    | some message => .ok (derivedKey message r.tagBytes) := by
  have htag : ¬ Blake2b.maxKeyLength < r.tagBytes.length := by cases r <;> decide
  unfold publicKey
  cases t.utf8? with
  | none => rfl
  | some message => exact if_neg htag

theorem roleKey_of_segmented (h : Segmented t) (r : Role) :
    roleKey (.text t) r = raising ((publicKey (path t) r.tagBytes).mapError (.seedRejected t)) := by
  unfold roleKey key
  rw [ofJson_text h]
  rfl

theorem roleKey_text {bs : Bytes} (ht : t.utf8? = some bs) (h : Segmented t) (r : Role) :
    roleKey (.text t) r = .ok (derivedKey (root ++ bs) r.tagBytes) := by
  rw [roleKey_of_segmented h, publicKey_tagBytes, utf8?_path, ht]
  rfl

theorem roleKey_text_of_not_wellFormed (ht : ¬ t.WellFormed) (h : Segmented t) (r : Role) :
    roleKey (.text t) r = .error (GenesisError.seedRejected t .loneSurrogate).raised := by
  rw [roleKey_of_segmented h, publicKey_tagBytes, utf8?_path, Text.utf8?_eq_none_iff.mpr ht]
  rfl

theorem ofJson_of_not_segmented (h : ∀ t, v = .text t → ¬ Segmented t) :
    ofJson v = .error (GenesisError.invalidSeed v).raised := by
  cases v with
  | text t => rw [ofJson, if_neg fun hseed => h t rfl (isSeed_iff_segmented.mp hseed)]
  | _ => rfl

theorem isShowable_invalidSeed : (GenesisError.invalidSeed v).isShowable = v.isShowable := Bool.and_true _

/-- Whatever is no seed is refused as such, for every role with the same error, whose text shows the value. -/
theorem exists_refusal (h : ¬ Derivable v) : ∃ e : GenesisError,
    e.kind = .invalidSeed ∧ e.isShowable = v.isShowable ∧ ∀ r, roleKey v r = .error e.raised := by
  by_cases hv : ∃ t, v = .text t ∧ Segmented t
  · obtain ⟨t, rfl, ht⟩ := hv
    have hform : ¬ t.WellFormed := fun hform => h ⟨t, rfl, hform, ht⟩
    exact ⟨_, rfl, rfl, roleKey_text_of_not_wellFormed hform ht⟩
  · refine ⟨.invalidSeed v, rfl, isShowable_invalidSeed, fun r => ?_⟩
    unfold roleKey key
    rw [ofJson_of_not_segmented fun t htext ht => hv ⟨t, htext, ht⟩]
    rfl

theorem exists_roleKey_iff (r : Role) : (∃ k, roleKey v r = .ok k) ↔ Derivable v := by
  constructor
  · rintro ⟨k, hk⟩
    by_contra hv
    obtain ⟨e, -, -, he⟩ := exists_refusal hv
    rw [he] at hk
    cases hk
  · rintro ⟨t, rfl, hform, ht⟩
    obtain ⟨bs, hbs⟩ := Text.exists_utf8?_iff.mpr hform
    exact ⟨_, roleKey_text hbs ht r⟩

end Seed

theorem Role.tagBytes_injective : Function.Injective Role.tagBytes := by
  intro r q h
  cases r <;> cases q <;> first | rfl | exact absurd h (by decide)

namespace Authority

theorem keys_of_ofSeed {seed : Json} {referral : Option Json} {a : Authority}
    (h : ofSeed seed referral = .ok a) (r : Role) : Seed.roleKey seed r = .ok (a.key r) := by
  simp only [ofSeed, bind_eq_ok_iff, liftFault_eq_ok_iff, pure_eq_ok_iff] at h
  obtain ⟨account, haccount, label, -, babe, hbabe, grandpa, hgrandpa, imOnline, himOnline, discovery,
    hdiscovery, rfl⟩ := h
  cases r with
  | account => exact haccount
  | babe => exact hbabe
  | grandpa => exact hgrandpa
  | imOnline => exact himOnline
  | authorityDiscovery => exact hdiscovery

/-- The identity of a seed with this UTF-8 form, which is its label too. -/
def derived (bs : Bytes) : Authority where
  account := Seed.derivedKey (Seed.root ++ bs) Role.account.tagBytes
  referral := bs
  babe := Seed.derivedKey (Seed.root ++ bs) Role.babe.tagBytes
  grandpa := Seed.derivedKey (Seed.root ++ bs) Role.grandpa.tagBytes
  imOnline := Seed.derivedKey (Seed.root ++ bs) Role.imOnline.tagBytes
  authorityDiscovery := Seed.derivedKey (Seed.root ++ bs) Role.authorityDiscovery.tagBytes

theorem ofSeed_text {t : Text} {bs : Bytes} (ht : t.utf8? = some bs) (h : Seed.Segmented t)
    (referral : Option Json) : ofSeed (.text t) referral = do
      let label ← (referral.getD (.text t)).toUtf8
      return { derived bs with referral := label } := by
  simp only [ofSeed, Seed.roleKey_text ht h]
  rfl

theorem ofSeed_eq_error {v : Json} {x : Error} (h : Seed.roleKey v .account = .error x)
    (referral : Option Json) : ofSeed v referral = .error x := by
  rw [ofSeed, h]
  rfl

end Authority

/-- A value gives no key, no account and no identity, whatever the label would be, and always for one reason. -/
structure Seed.IsRefused (v : Json) (x : Error) : Prop where
  keys : ∀ r, roleKey v r = .error x
  account : account v = .error x
  identity : ∀ referral, Authority.ofSeed v referral = .error x

theorem Seed.isRefused_of_keys {v : Json} {x : Error} (h : ∀ r, roleKey v r = .error x) : IsRefused v x :=
  ⟨h, h .account, Authority.ofSeed_eq_error (h .account)⟩

end LedgerGenesis
