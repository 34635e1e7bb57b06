import LedgerGenesis.Cache
import LedgerGenesis.Error
import LedgerGenesis.Files.Basic
import Mathlib.Data.List.Basic

/-! # Stores in use

A store loads values from files by name and keeps what it loaded. While it is in use the files change in any way
between the requests. A store that is no more than a cache gives one version of each value: the first that it
could read.
-/
namespace LedgerGenesis

/-- What happens while a store is in use: the files become others, or something is requested. -/
inductive Event (ρ : Type) where
  | change (files : Files)
  | request (r : ρ)

/-- The files that the events bring. -/
def Event.changes {ρ : Type} : List (Event ρ) → List Files
  | [] => []
  | .change fs :: es => fs :: changes es
  | .request _ :: es => changes es

/-- The files and the store at one moment. -/
structure Moment (σ : Type) where
  files : Files
  store : σ

/-- How a store is used: it is loaded from by name, and each request loads from it under one name. -/
structure Usage (σ ρ α : Type) where
  load : Files → Text → σ → Except Error α × σ
  serve : Files → ρ → σ → σ
  name : ρ → Text

namespace Usage

variable {σ ρ α : Type} (u : Usage σ ρ α)

/-- What a load would give at a moment. -/
def answer (m : Moment σ) (name : Text) : Except Error α := (u.load m.files name m.store).1

def step (m : Moment σ) : Event ρ → Moment σ
  | .change fs => { m with files := fs }
  | .request r => { m with store := u.serve m.files r m.store }

def run (m : Moment σ) (es : List (Event ρ)) : Moment σ := es.foldl u.step m

theorem run_append_cons {m : Moment σ} {es later : List (Event ρ)} {e : Event ρ} :
    u.run m (es ++ e :: later) = u.run (u.step (u.run m es) e) later :=
  List.foldl_append

/-- Whether an event can matter to a name: the files may have changed, or the request is for it. -/
def concerns (name : Text) : Event ρ → Bool
  | .change _ => true
  | .request r => u.name r = name

/-- From a new store on, whatever happens to the files, there is one version of each value. -/
structure ServesOneVersion (read : Files → Text → Except Error α) (new : σ) : Prop where
  /-- The first load for a name reads its file. -/
  first : ∀ fs es name, (∀ r, .request r ∈ es → u.name r ≠ name) →
    u.answer (u.run ⟨fs, new⟩ es) name = read (u.run ⟨fs, new⟩ es).files name
  /-- What a load gives once, every later one gives, whatever the files hold by then. -/
  kept : ∀ fs es r a later, u.answer (u.run ⟨fs, new⟩ es) (u.name r) = .ok a →
    u.answer (u.run ⟨fs, new⟩ (es ++ .request r :: later)) (u.name r) = .ok a
  /-- A load that fails leaves the store as it was. -/
  failed : ∀ fs es r e, u.answer (u.run ⟨fs, new⟩ es) (u.name r) = .error e →
    u.run ⟨fs, new⟩ (es ++ [.request r]) = u.run ⟨fs, new⟩ es
  /-- After a load that failed the next one for its name reads the file as it is then. -/
  afresh : ∀ fs es r e later, u.answer (u.run ⟨fs, new⟩ es) (u.name r) = .error e →
    (∀ q, .request q ∈ later → u.name q ≠ u.name r) →
    u.answer (u.run ⟨fs, new⟩ (es ++ .request r :: later)) (u.name r) =
      read (u.run ⟨fs, new⟩ (es ++ .request r :: later)).files (u.name r)
  /-- Requests for other names make no difference. -/
  apart : ∀ fs es name, u.answer (u.run ⟨fs, new⟩ es) name =
    u.answer (u.run ⟨fs, new⟩ (es.filter (u.concerns name))) name
  /-- What a load gives was read from files that were there. -/
  origin : ∀ fs es name a, u.answer (u.run ⟨fs, new⟩ es) name = .ok a →
    ∃ fs' ∈ fs :: Event.changes es, read fs' name = .ok a

end Usage

namespace Cache

/-! ## What a fetch does -/

section Fetch

variable {α ε : Type} {c : Cache α} {get : Text → Except ε α} {name n : Text} {a : α} {e : ε}

theorem fetch_of_kept (h : c.lookup name = some a) : c.fetch name get = (.ok a, c) := by
  rw [fetch, h]

theorem fetch_of_read (h : c.lookup name = none) (hread : get name = .ok a) :
    c.fetch name get = (.ok a, (name, a) :: c) := by
  rw [fetch, h, hread]

theorem fetch_of_unread (h : c.lookup name = none) (hread : get name = .error e) :
    c.fetch name get = (.error e, c) := by
  rw [fetch, h, hread]

theorem fetch_snd_of_error (h : (c.fetch name get).1 = .error e) : (c.fetch name get).2 = c := by
  cases hkept : c.lookup name with
  | some a => rw [fetch_of_kept hkept]
  | none =>
    cases hread : get name with
    | ok a =>
      rw [fetch_of_read hkept hread] at h
      cases h
    | error e => rw [fetch_of_unread hkept hread]

/-- Under its name a fetch adds what it reads where nothing is kept, and under other names it changes nothing. -/
theorem lookup_fetch : (c.fetch n get).2.lookup name =
    if n = name then (c.lookup name).or (get name).toOption else c.lookup name := by
  by_cases hname : n = name
  · subst hname
    rw [if_pos rfl]
    cases hkept : c.lookup n with
    | some a => rw [fetch_of_kept hkept, hkept, Option.some_or]
    | none =>
      cases hread : get n with
      | ok a => rw [fetch_of_read hkept hread, List.lookup_cons_self, Option.none_or, Except.toOption]
      | error e => rw [fetch_of_unread hkept hread, hkept, Option.none_or, Except.toOption]
  · rw [if_neg hname]
    cases hkept : c.lookup n with
    | some a => rw [fetch_of_kept hkept]
    | none =>
      cases hread : get n with
      | ok a =>
        have hne : (name == n) = false := beq_false_of_ne (Ne.symm hname)
        rw [fetch_of_read hkept hread, List.lookup_cons, hne]
      | error e => rw [fetch_of_unread hkept hread]

end Fetch

/-! ## A cache in use -/

variable {ρ α : Type} {read : Files → Text → Except Error α} {nameOf : ρ → Text} {m m' : Moment (Cache α)}
  {es : List (Event ρ)} {e : Event ρ} {name : Text} {a : α}

/-- A cache by itself as a store. -/
def usage (read : Files → Text → Except Error α) (nameOf : ρ → Text) : Usage (Cache α) ρ α where
  load fs name c := c.fetch name (read fs)
  serve fs r c := (c.fetch (nameOf r) (read fs)).2
  name := nameOf

theorem answer_of_kept (h : m.store.lookup name = some a) : (usage read nameOf).answer m name = .ok a :=
  congrArg Prod.fst (fetch_of_kept h)

theorem answer_of_lacking (h : m.store.lookup name = none) :
    (usage read nameOf).answer m name = read m.files name := by
  cases hread : read m.files name with
  | ok a => exact congrArg Prod.fst (fetch_of_read h hread)
  | error e => exact congrArg Prod.fst (fetch_of_unread h hread)

theorem lookup_of_answer_error {f : Error} (h : (usage read nameOf).answer m name = .error f) :
    m.store.lookup name = none := by
  cases hkept : m.store.lookup name with
  | none => rfl
  | some a =>
    rw [answer_of_kept hkept] at h
    cases h

theorem lookup_step_request {r : ρ} : ((usage read nameOf).step m (.request r)).store.lookup name =
    if nameOf r = name then (m.store.lookup name).or (read m.files name).toOption else m.store.lookup name :=
  lookup_fetch

/-- What is kept is kept by every step. -/
theorem lookup_step_of_kept (h : m.store.lookup name = some a) :
    ((usage read nameOf).step m e).store.lookup name = some a := by
  cases e with
  | change fs => exact h
  | request r => rw [lookup_step_request, h, Option.some_or, ite_self]

theorem lookup_run_of_kept (h : m.store.lookup name = some a) :
    ((usage read nameOf).run m es).store.lookup name = some a := by
  induction es generalizing m with
  | nil => exact h
  | cons e es ih => exact ih (lookup_step_of_kept h)

/-- An event that does not concern a name changes neither the files nor what is kept under it. -/
theorem step_of_not_concerns (h : (usage read nameOf).concerns name e = false) :
    ((usage read nameOf).step m e).files = m.files ∧
      ((usage read nameOf).step m e).store.lookup name = m.store.lookup name := by
  cases e with
  | change fs => cases h
  | request r =>
    have hname : nameOf r ≠ name := of_decide_eq_false h
    exact ⟨rfl, lookup_step_request.trans (if_neg hname)⟩

/-- Without a request for a name nothing more is kept under it. -/
theorem lookup_run_of_unrequested (h : ∀ r, .request r ∈ es → nameOf r ≠ name) :
    ((usage read nameOf).run m es).store.lookup name = m.store.lookup name := by
  induction es generalizing m with
  | nil => rfl
  | cons e es ih =>
    have hstep : ((usage read nameOf).step m e).store.lookup name = m.store.lookup name := by
      cases e with
      | change fs => rfl
      | request r =>
        have hconcerns : (usage read nameOf).concerns name (.request r) = false :=
          decide_eq_false (h r List.mem_cons_self)
        exact (step_of_not_concerns hconcerns).2
    have hrun := @ih ((usage read nameOf).step m e) fun r hr => h r (List.mem_cons_of_mem e hr)
    exact hrun.trans hstep

/-- Two moments at which a name has the same answer. -/
def Alike (name : Text) (m m' : Moment (Cache α)) : Prop :=
  m.files = m'.files ∧ m.store.lookup name = m'.store.lookup name

theorem Alike.answer_eq (h : Alike name m m') :
    (usage read nameOf).answer m name = (usage read nameOf).answer m' name := by
  cases hkept : m.store.lookup name with
  | some a => rw [answer_of_kept hkept, answer_of_kept (h.2.symm.trans hkept)]
  | none => rw [answer_of_lacking hkept, answer_of_lacking (h.2.symm.trans hkept), h.1]

theorem Alike.step (h : Alike name m m') (e : Event ρ) :
    Alike name ((usage read nameOf).step m e) ((usage read nameOf).step m' e) := by
  cases e with
  | change fs => exact ⟨rfl, h.2⟩
  | request r =>
    refine ⟨h.1, ?_⟩
    rw [lookup_step_request, lookup_step_request, h.1, h.2]

theorem Alike.run_filter (h : Alike name m m') : Alike name ((usage read nameOf).run m es)
    ((usage read nameOf).run m' (es.filter ((usage read nameOf).concerns name))) := by
  induction es generalizing m m' with
  | nil => exact h
  | cons e es ih =>
    by_cases hconcerns : (usage read nameOf).concerns name e = true
    · rw [List.filter_cons_of_pos hconcerns]
      exact ih (h.step e)
    · rw [List.filter_cons_of_neg hconcerns]
      obtain ⟨hfiles, hlookup⟩ := step_of_not_concerns (m := m) (Bool.eq_false_iff.mpr hconcerns)
      exact ih ⟨hfiles.trans h.1, hlookup.trans h.2⟩

/-- What is kept after a step was kept before, or is read in it. -/
theorem kept_or_read_of_step (h : ((usage read nameOf).step m e).store.lookup name = some a) :
    m.store.lookup name = some a ∨ read m.files name = .ok a := by
  cases e with
  | change fs => exact Or.inl h
  | request r =>
    rw [lookup_step_request] at h
    split at h
    · cases hlookup : m.store.lookup name with
      | some b =>
        rw [hlookup, Option.some_or] at h
        exact Or.inl h
      | none =>
        cases hread : read m.files name with
        | ok b =>
          rw [hlookup, hread, Option.none_or, Except.toOption] at h
          exact Or.inr (congrArg Except.ok (Option.some.inj h))
        | error f =>
          rw [hlookup, hread, Option.none_or, Except.toOption] at h
          cases h
    · exact Or.inl h

/-- What is answered was read from some of the files, if what is kept was. -/
theorem exists_read_of_answer {p : Files → Prop} (hfiles : p m.files) (hchanges : ∀ fs ∈ Event.changes es, p fs)
    (hkept : ∀ a, m.store.lookup name = some a → ∃ fs, p fs ∧ read fs name = .ok a)
    (h : (usage read nameOf).answer ((usage read nameOf).run m es) name = .ok a) :
    ∃ fs, p fs ∧ read fs name = .ok a := by
  induction es generalizing m with
  | nil =>
    cases hlookup : m.store.lookup name with
    | some b =>
      have hb : (usage read nameOf).answer m name = .ok b := answer_of_kept hlookup
      obtain rfl : b = a := Except.ok.inj (hb.symm.trans h)
      exact hkept b hlookup
    | none => exact ⟨m.files, hfiles, (answer_of_lacking hlookup).symm.trans h⟩
  | cons e es ih =>
    have hkept' : ∀ b, ((usage read nameOf).step m e).store.lookup name = some b →
        ∃ fs, p fs ∧ read fs name = .ok b := by
      intro b hb
      rcases kept_or_read_of_step hb with hbefore | hread
      · exact hkept b hbefore
      · exact ⟨m.files, hfiles, hread⟩
    cases e with
    | change fs =>
      have hrest : ∀ fs' ∈ Event.changes es, p fs' := fun fs' h' => hchanges fs' (List.mem_cons_of_mem fs h')
      exact ih (m := ⟨fs, m.store⟩) (hchanges fs List.mem_cons_self) hrest hkept' h
    | request r => exact ih (m := (usage read nameOf).step m (.request r)) hfiles hchanges hkept' h

/-- A request that is answered is kept. -/
theorem lookup_step_of_answer {r : ρ} (h : (usage read nameOf).answer m (nameOf r) = .ok a) :
    ((usage read nameOf).step m (.request r)).store.lookup (nameOf r) = some a := by
  rw [lookup_step_request, if_pos rfl]
  cases hkept : m.store.lookup (nameOf r) with
  | some b =>
    have hb : (usage read nameOf).answer m (nameOf r) = .ok b := answer_of_kept hkept
    rw [Option.some_or, Except.ok.inj (hb.symm.trans h)]
  | none =>
    have hlacking : (usage read nameOf).answer m (nameOf r) = read m.files (nameOf r) := answer_of_lacking hkept
    rw [Option.none_or, hlacking.symm.trans h, Except.toOption]

/-- A request that fails changes nothing. -/
theorem step_of_answer_error {r : ρ} {f : Error} (h : (usage read nameOf).answer m (nameOf r) = .error f) :
    (usage read nameOf).step m (.request r) = m := by
  have hstore : (m.store.fetch (nameOf r) (read m.files)).2 = m.store := fetch_snd_of_error h
  exact congrArg (Moment.mk m.files) hstore

theorem usage_servesOneVersion : (usage read nameOf).ServesOneVersion read [] where
  first _ _ _ h := answer_of_lacking (lookup_run_of_unrequested h)
  kept fs es r a later h := by
    have hkept := lookup_step_of_answer h
    rw [Usage.run_append_cons]
    exact answer_of_kept (lookup_run_of_kept hkept)
  failed fs es r f h := by
    rw [Usage.run_append_cons]
    exact step_of_answer_error h
  afresh fs es r f later h hlater := by
    have hlacking := lookup_of_answer_error h
    rw [Usage.run_append_cons]
    refine answer_of_lacking ((lookup_run_of_unrequested hlater).trans ?_)
    rw [step_of_answer_error h]
    exact hlacking
  apart fs es name := Alike.answer_eq (Alike.run_filter ⟨rfl, rfl⟩)
  origin fs es name a h :=
    exists_read_of_answer (p := (· ∈ fs :: Event.changes es)) List.mem_cons_self
      (fun _ => List.mem_cons_of_mem fs) (fun _ h => by cases h) h

end Cache

namespace Usage

variable {σ ρ α : Type} {u : Usage σ ρ α} {read : Files → Text → Except Error α} {embed : Cache α → σ}
  {m : Moment (Cache α)}

/-- The store is a cache and things that no request changes. -/
structure WrapsCache (u : Usage σ ρ α) (read : Files → Text → Except Error α) (embed : Cache α → σ) : Prop where
  load : ∀ fs name c, u.load fs name (embed c) =
    ((c.fetch name (read fs)).1, embed (c.fetch name (read fs)).2)
  serve : ∀ fs r c, u.serve fs r (embed c) = embed (c.fetch (u.name r) (read fs)).2

namespace WrapsCache

variable (h : u.WrapsCache read embed)

/-- The moment at which a store wraps the cache. -/
def wrap (embed : Cache α → σ) (m : Moment (Cache α)) : Moment σ := ⟨m.files, embed m.store⟩

include h

theorem answer_wrap (name : Text) :
    u.answer (wrap embed m) name = (Cache.usage read u.name).answer m name :=
  congrArg Prod.fst (h.load m.files name m.store)

theorem step_wrap (e : Event ρ) : u.step (wrap embed m) e = wrap embed ((Cache.usage read u.name).step m e) := by
  cases e with
  | change fs => rfl
  | request r => exact congrArg (Moment.mk m.files) (h.serve m.files r m.store)

theorem run_wrap (es : List (Event ρ)) :
    u.run (wrap embed m) es = wrap embed ((Cache.usage read u.name).run m es) := by
  induction es generalizing m with
  | nil => rfl
  | cons e es ih =>
    have hstep := h.step_wrap (m := m) e
    exact (congrArg (u.run · es) hstep).trans ih

/-- A store that wraps a cache serves one version of each value. -/
theorem servesOneVersion : u.ServesOneVersion read (embed []) := by
  have hcache : (Cache.usage read u.name).ServesOneVersion read [] := Cache.usage_servesOneVersion
  have hrun : ∀ fs es, u.run ⟨fs, embed []⟩ es = wrap embed ((Cache.usage read u.name).run ⟨fs, []⟩ es) :=
    fun fs es => h.run_wrap (m := ⟨fs, []⟩) es
  constructor
  · intro fs es name
    rw [hrun, h.answer_wrap]
    exact hcache.first fs es name
  · intro fs es r a later
    rw [hrun, hrun, h.answer_wrap, h.answer_wrap]
    exact hcache.kept fs es r a later
  · intro fs es r f hf
    rw [hrun, h.answer_wrap] at hf
    rw [hrun, hrun]
    exact congrArg (wrap embed) (hcache.failed fs es r f hf)
  · intro fs es r f later
    rw [hrun, hrun, h.answer_wrap, h.answer_wrap]
    exact hcache.afresh fs es r f later
  · intro fs es name
    rw [hrun, hrun, h.answer_wrap, h.answer_wrap]
    exact hcache.apart fs es name
  · intro fs es name a
    rw [hrun, h.answer_wrap]
    exact hcache.origin fs es name a

end WrapsCache

end Usage

end LedgerGenesis
