import LedgerGenesis.Proofs.Endowment.Native
import LedgerGenesis.Proofs.Genesis.Accounts

/-! # One source of governance

The profile decides who governs a network. Where it derives the seats they are those of the endowment, and the
members that the governance names make no difference. Elsewhere those members are the technical committee,
nobody is elected, and the seats and the stake of the endowment make no difference. An administrator is shown
exactly where the profile has one.
-/
namespace LedgerGenesis

namespace State

variable {s : State} {doc : Json}

/-- A document shows the seats of its state. -/
structure ShowsSeats (s : State) (doc : Json) : Prop where
  technicalMembers : doc.at? ["technicalMembership", "members"] = some (.list (shownAs s.technicalMembers))
  electionsMembers : doc.at? ["elections", "members"] =
    some (.list (s.electionsMembers.map fun m => .list [.text (Hex.encode m.1), .int m.2]))

theorem showsSeats_of_toJson (h : s.toJson = .ok doc) : s.ShowsSeats doc where
  technicalMembers := at?_of_toJson h (by decide) fun _ _ => rfl
  electionsMembers := at?_of_toJson h (by decide) fun _ _ => rfl

end State

namespace Inputs

open Endowment (seats_eq_ceilDiv)

variable {i : Inputs} {s : State} {members technical : List Bytes} {elected : List (Bytes × Int)}

theorem derivesGovernance_iff {p : Profile} :
    p.parameters.derivesGovernance = true ↔ p = .development ∨ p = .«local» := by
  cases p <;> simp [Profile.parameters]

/-- The inputs with other members in the governance, and other seats in the endowment. -/
def withSeats (i : Inputs) (members technical : List Bytes) (elected : List (Bytes × Int)) : Inputs :=
  { i with
    endowment := { i.endowment with technicalMembers := technical, electionsMembers := elected }
    governance := { i.governance with technicalMembers := members } }

/-- Seats are looked at where they are taken, and nowhere else. -/
theorem Yields.withSeats (h : i.Yields s)
    (hseats : seats s.parameters (i.withSeats members technical elected).endowment
      (i.withSeats members technical elected).governance = seats s.parameters i.endowment i.governance) :
    (i.withSeats members technical elected).Yields s := by
  refine { h with technicalMembers := ?_, electionsMembers := ?_ }
  · rw [hseats, h.technicalMembers]
  · rw [hseats, h.electionsMembers]

/-- The seats of a state are those of the endowment, whatever members the governance names. -/
structure GovernedByEndowment (i : Inputs) (s : State) : Prop where
  members_unused : ∀ members,
    { i with governance := { i.governance with technicalMembers := members } }.assemble = .ok s
  technicalMembers : s.technicalMembers = i.endowment.technicalMembers
  electionsMembers : s.electionsMembers = i.endowment.electionsMembers
  /-- An allocation seats the first half of its accounts, rounded up. -/
  allocated : ∀ accounts amount stake grants,
    Endowment.allocate accounts amount stake grants = .ok i.endowment →
      s.balances.map Prod.fst = accounts ∧ s.technicalMembers = accounts.take (accounts.length ⌈/⌉ 2) ∧
        s.electionsMembers = s.technicalMembers.map (·, stake)

/-- The technical committee of a state is the one that the governance names and nobody is elected, whatever
seats and stake the endowment has. -/
structure GovernedByMembers (i : Inputs) (s : State) : Prop where
  seats_unused : ∀ technical elected,
    { i with endowment := { i.endowment with technicalMembers := technical, electionsMembers := elected } }.assemble
      = .ok s
  /-- Allocating with another stake is no exception. -/
  stake_unused : ∀ accounts amount stake stake' grants,
    Endowment.allocate accounts amount stake grants = .ok i.endowment →
      ∃ e, Endowment.allocate accounts amount stake' grants = .ok e ∧
        { i with endowment := e }.assemble = .ok s
  technicalMembers : s.technicalMembers = i.governance.technicalMembers
  electionsMembers : s.electionsMembers = []

theorem Yields.governedByEndowment (h : i.Yields s) (hd : s.parameters.derivesGovernance = true) :
    i.GovernedByEndowment s := by
  have htaken (e : Endowment) (g : Governance) :
      seats s.parameters e g = (e.technicalMembers, e.electionsMembers) := if_pos hd
  have htechnical : s.technicalMembers = i.endowment.technicalMembers := by rw [h.technicalMembers, htaken]
  have helected : s.electionsMembers = i.endowment.electionsMembers := by rw [h.electionsMembers, htaken]
  refine ⟨fun members => ?_, htechnical, helected, fun accounts amount stake grants ha => ?_⟩
  · have hsame : (i.withSeats members i.endowment.technicalMembers i.endowment.electionsMembers).Yields s := by
      refine h.withSeats ?_
      rw [htaken, htaken]
      rfl
    exact assemble_eq_ok_iff.mpr hsame
  · obtain ⟨haccounts, hfirst, hcouncil⟩ := Endowment.seats_of_allocate ha
    rw [h.balances, htechnical, helected, ← seats_eq_ceilDiv]
    exact ⟨haccounts, hfirst, hcouncil⟩

theorem Yields.governedByMembers (h : i.Yields s) (hd : s.parameters.derivesGovernance = false) :
    i.GovernedByMembers s := by
  have htaken (e : Endowment) (g : Governance) : seats s.parameters e g = (g.technicalMembers, []) :=
    if_neg (Bool.eq_false_iff.mp hd)
  have hsame (technical : List Bytes) (elected : List (Bytes × Int)) :
      (i.withSeats i.governance.technicalMembers technical elected).assemble = .ok s := by
    refine assemble_eq_ok_iff.mpr (h.withSeats ?_)
    rw [htaken, htaken]
    rfl
  refine ⟨hsame, fun accounts amount stake stake' grants ha => ?_, ?_, ?_⟩
  · exact ⟨_, Endowment.allocate_withStake ha stake', hsame _ _⟩
  · rw [h.technicalMembers, htaken]
  · rw [h.electionsMembers, htaken]

/-- A document has a section of an administrator where the profile has one, with the key that was given. -/
structure ShowsAdministrator (i : Inputs) (p : Parameters) (doc : Json) : Prop where
  shown : p.hasAdminKey = true →
    ∃ key, i.governance.adminKey = some key ∧ doc.at? ["sudo"] = some (State.administratorJson key)
  absent : p.hasAdminKey = false → doc.at? ["sudo"] = none

theorem Yields.showsAdministrator {doc : Json} (h : i.Yields s) (hdoc : s.toJson = .ok doc) :
    i.ShowsAdministrator s.parameters doc := by
  have hsome : i.governance.adminKey.isSome = s.parameters.hasAdminKey :=
    checkAdminKey_eq_ok_iff.mp h.adminKey_checked
  have hsudo := State.document_sudo hdoc
  rw [h.adminKey] at hsudo
  refine ⟨fun hp => ?_, fun hp => ?_⟩
  · rw [hp, Option.isSome_iff_exists] at hsome
    obtain ⟨key, hkey⟩ := hsome
    rw [hkey] at hsudo
    exact ⟨key, hkey, hsudo⟩
  · rw [hp, Option.isSome_eq_false_iff, Option.isNone_iff_eq_none] at hsome
    rw [hsome] at hsudo
    exact hsudo

/-- A state has its seats from the endowment where the profile derives them, as the development and the local one
do, and from the governance elsewhere, the other source making no difference. Its document shows these seats, and
the administrator exactly where the profile has one. -/
theorem assemble_governance (hs : i.assemble = .ok s) :
    (s.parameters.derivesGovernance = true ↔ s.profile = .development ∨ s.profile = .«local») ∧
      (s.parameters.derivesGovernance = true → i.GovernedByEndowment s) ∧
        (s.parameters.derivesGovernance = false → i.GovernedByMembers s) ∧
          ∀ doc, s.toJson = .ok doc → s.ShowsSeats doc ∧ i.ShowsAdministrator s.parameters doc := by
  have h := assemble_eq_ok_iff.mp hs
  refine ⟨derivesGovernance_iff, h.governedByEndowment, h.governedByMembers, fun doc hdoc => ?_⟩
  exact ⟨State.showsSeats_of_toJson hdoc, h.showsAdministrator hdoc⟩

/-- A network whose seats are not derived. -/
def publicNetwork : Inputs :=
  { smallNetwork with
    profile := .text "public-test"
    governance := { adminKey := some (plainKey 30), technicalMembers := [plainKey 50, plainKey 60] } }

/-- The same endowment seats one account on the development network, and none on the public one. -/
theorem smallNetworks_governance :
    let grants := [(1, [(plainKey 10, Json.int 7)]), (0, [(plainKey 10, .int 5)])]
    Endowment.allocate [plainKey 10, plainKey 20] (.int 100) 50 grants = .ok smallNetwork.endowment ∧
    (∃ s, smallNetwork.assemble = .ok s ∧ s.parameters.derivesGovernance = true ∧
      smallNetwork.GovernedByEndowment s ∧ s.technicalMembers = [plainKey 10]) ∧
    ∃ s, publicNetwork.assemble = .ok s ∧ s.parameters.derivesGovernance = false ∧
      publicNetwork.GovernedByMembers s ∧ s.technicalMembers = [plainKey 50, plainKey 60] ∧
        ∃ doc, s.toJson = .ok doc ∧ doc.at? ["sudo"] = some (State.administratorJson (plainKey 30)) := by
  intro grants
  obtain ⟨s, hs⟩ := exists_assemble_smallNetwork
  obtain ⟨t, doc, ht, hd⟩ : ∃ t doc, publicNetwork.assemble = .ok t ∧ t.toJson = .ok doc := ⟨_, _, rfl, rfl⟩
  have hsp : .development = s.profile := Except.ok.inj (assemble_eq_ok_iff.mp hs).profile
  have htp : .publicTest = t.profile := Except.ok.inj (assemble_eq_ok_iff.mp ht).profile
  have hsd : s.parameters.derivesGovernance = true := by
    rw [State.parameters, ← hsp]
    rfl
  have htd : t.parameters.derivesGovernance = false := by
    rw [State.parameters, ← htp]
    rfl
  have hadmin : t.parameters.hasAdminKey = true := by
    rw [State.parameters, ← htp]
    rfl
  obtain ⟨-, hderived, -⟩ := assemble_governance hs
  obtain ⟨-, -, hnamed, hdoc⟩ := assemble_governance ht
  obtain ⟨key, hkey, hsudo⟩ := (hdoc doc hd).2.shown hadmin
  obtain rfl : plainKey 30 = key := Option.some.inj hkey
  exact ⟨rfl, ⟨s, hs, hsd, hderived hsd, (hderived hsd).technicalMembers⟩, t, ht, htd, hnamed htd,
    (hnamed htd).technicalMembers, doc, hd, hsudo⟩

end Inputs

end LedgerGenesis
