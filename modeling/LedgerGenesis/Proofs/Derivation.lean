import LedgerGenesis.Proofs.Authority
import LedgerGenesis.Proofs.Seed
import Mathlib.Data.Set.Function

/-! # Keys derived from seeds

The key of a role is the public key of the digest of the path under the tag of the role, so keys are as far
apart as this map does not collide: paths differ as their seeds do, and every role has its own tag. The label
is no part of what is digested.
-/
namespace LedgerGenesis

namespace Seed

variable {s t : Text} {bs cs : Bytes} {r p q : Role}

/-- The paths and tags of which the keys of a seed are derived. -/
def keyInputs (t : Text) : Set (Bytes × Bytes) :=
  {i | (path t).utf8? = some i.1 ∧ ∃ r : Role, r.tagBytes = i.2}

/-- No two of the given inputs have one key. -/
def Uncollided (inputs : Set (Bytes × Bytes)) : Prop :=
  Set.InjOn (fun i => derivedKey i.1 i.2) inputs

theorem mem_keyInputs_iff (ht : t.utf8? = some bs) {i : Bytes × Bytes} :
    i ∈ keyInputs t ↔ ∃ r : Role, (root ++ bs, r.tagBytes) = i := by
  obtain ⟨message, tag⟩ := i
  have hpath : (path t).utf8? = some (root ++ bs) := by rw [utf8?_path, ht, Option.map_some]
  change (path t).utf8? = some message ∧ (∃ r : Role, r.tagBytes = tag) ↔ _
  rw [hpath, Option.some.injEq]
  simp only [Prod.mk.injEq, exists_and_left]

/-- The keys of two seeds are equal for one seed and one role only. -/
theorem derivedKey_inj (hc : Uncollided (keyInputs s ∪ keyInputs t)) (hs : s.utf8? = some bs)
    (ht : t.utf8? = some cs) :
    derivedKey (root ++ bs) p.tagBytes = derivedKey (root ++ cs) q.tagBytes ↔ s = t ∧ p = q := by
  constructor
  · intro h
    have hinput := hc (.inl ((mem_keyInputs_iff hs).mpr ⟨p, rfl⟩))
      (.inr ((mem_keyInputs_iff ht).mpr ⟨q, rfl⟩)) h
    obtain ⟨hpath, htag⟩ := Prod.mk.inj hinput
    have hbytes : bs = cs := List.append_cancel_left hpath
    exact ⟨Text.utf8?_injective (hbytes ▸ hs) ht, Role.tagBytes_injective htag⟩
  · rintro ⟨rfl, rfl⟩
    have hbytes : bs = cs := Option.some.inj (hs.symm.trans ht)
    rw [hbytes]

end Seed

namespace Authority

variable {t : Text} {bs : Bytes}

theorem key_derived (bs : Bytes) (r : Role) :
    (derived bs).key r = Seed.derivedKey (Seed.root ++ bs) r.tagBytes := by
  cases r <;> rfl

/-- What the identity of a seed is: a complete one with the account of the seed, whose label is the seed where no
other is given. Another label changes the label alone, and nothing else can make it fail. -/
structure IsDerivedFrom (a : Authority) (t : Text) : Prop where
  unlabelled : ofSeed (.text t) none = .ok a
  label : t.utf8? = some a.referral
  account : Seed.account (.text t) = .ok a.account
  complete : a.isComplete = true
  lengths : ∀ r, (a.key r).length = 32
  labelled : ∀ u bs, u.utf8? = some bs → ofSeed (.text t) (some (.text u)) = .ok { a with referral := bs }
  unencodable : ∀ u : Text, ¬ u.WellFormed → ofSeed (.text t) (some (.text u)) = .error (.fault .loneSurrogate)

theorem isDerivedFrom_derived (ht : t.utf8? = some bs) (h : Seed.Segmented t) :
    (derived bs).IsDerivedFrom t where
  unlabelled := by
    rw [ofSeed_text ht h, Option.getD_none, Json.toUtf8, ht]
    rfl
  label := ht
  account := Seed.roleKey_text ht h .account
  complete := by
    rw [isComplete_iff]
    intro r
    rw [key_derived, Seed.length_derivedKey]
  lengths r := by
    rw [key_derived, Seed.length_derivedKey]
    rfl
  labelled u cs hu := by
    rw [ofSeed_text ht h, Option.getD_some, Json.toUtf8, hu]
    rfl
  unencodable u hu := by
    rw [ofSeed_text ht h, Option.getD_some, Json.toUtf8, Text.utf8?_eq_none_iff.mpr hu]
    rfl

end Authority

/-- Every seed has its identity, and two identities share a key only where seed and role are the same, provided
that the inputs of which their keys are derived do not collide. -/
theorem Seed.identities_apart {s t : Text} (hs : Derivable (.text s)) (ht : Derivable (.text t)) :
    ∃ a b : Authority, a.IsDerivedFrom s ∧ b.IsDerivedFrom t ∧
      (Uncollided (keyInputs s ∪ keyInputs t) → ∀ p q : Role, a.key p = b.key q ↔ s = t ∧ p = q) := by
  obtain ⟨bs, hbs, hseg⟩ := derivable_text_iff.mp hs
  obtain ⟨cs, hcs, hseg'⟩ := derivable_text_iff.mp ht
  refine ⟨.derived bs, .derived cs, Authority.isDerivedFrom_derived hbs hseg,
    Authority.isDerivedFrom_derived hcs hseg', fun hc p q => ?_⟩
  rw [Authority.key_derived, Authority.key_derived]
  exact derivedKey_inj hc hbs hcs

/-- The message of a seed, or of its stash junction. -/
def stashMessage : Bool → Bytes
  | false => Utf8.encode "//Alice".toList
  | true => Utf8.encode "//Alice//stash".toList

/-- The first bytes of their keys. -/
def stashMark : Bool → Role → UInt8
  | false, .account => 8
  | false, .babe => 28
  | false, .grandpa => 126
  | false, .imOnline => 105
  | false, .authorityDiscovery => 141
  | true, .account => 198
  | true, .babe => 95
  | true, .grandpa => 127
  | true, .imOnline => 161
  | true, .authorityDiscovery => 101

theorem stashMark_inj {b c : Bool} {p q : Role} (h : stashMark b p = stashMark c q) : b = c ∧ p = q := by
  cases b <;> cases c <;> cases p <;> cases q <;> first | exact ⟨rfl, rfl⟩ | exact absurd h (by decide)

theorem Seed.head?_derivedKey (b : Bool) (r : Role) :
    (derivedKey (stashMessage b) r.tagBytes).head? = some (stashMark b r) := by
  cases b <;> cases r <;> decide +kernel

theorem Seed.uncollided_stash : Uncollided (keyInputs "Alice" ∪ keyInputs "Alice//stash") := by
  have hinput : ∀ i ∈ keyInputs "Alice" ∪ keyInputs "Alice//stash", ∃ b, ∃ r : Role,
      (stashMessage b, r.tagBytes) = i := by
    rintro i (hi | hi)
    · exact ⟨false, (mem_keyInputs_iff rfl).mp hi⟩
    · exact ⟨true, (mem_keyInputs_iff rfl).mp hi⟩
  intro i hi j hj h
  obtain ⟨b, p, rfl⟩ := hinput i hi
  obtain ⟨c, q, rfl⟩ := hinput j hj
  have hhead := congrArg List.head? h
  rw [head?_derivedKey, head?_derivedKey] at hhead
  obtain ⟨rfl, rfl⟩ := stashMark_inj (Option.some.inj hhead)
  rfl

/-- A seed and its stash junction have ten different keys. -/
theorem Seed.stash_apart : Derivable (.text "Alice") ∧ Derivable (.text "Alice//stash") ∧
    Uncollided (keyInputs "Alice" ∪ keyInputs "Alice//stash") ∧
      ∃ a b : Authority, a.IsDerivedFrom "Alice" ∧ b.IsDerivedFrom "Alice//stash" ∧
        ∀ p q : Role, a.key p ≠ b.key q := by
  have hs : Derivable (.text "Alice") := derivable_text_iff.mpr ⟨_, rfl, by decide⟩
  have ht : Derivable (.text "Alice//stash") := derivable_text_iff.mpr ⟨_, rfl, by decide⟩
  obtain ⟨a, b, ha, hb, hkeys⟩ := identities_apart hs ht
  refine ⟨hs, ht, uncollided_stash, a, b, ha, hb, fun p q h => ?_⟩
  exact absurd ((hkeys uncollided_stash p q).mp h).1 (by decide)

end LedgerGenesis
