import LedgerGenesis.Proofs.Spec.Numerals
import LedgerGenesis.Proofs.Spec.Rereading

/-! # Where building a specification lets a fault escape

Each preset reads its inputs in a fixed order of steps. Here every step is described by what the settings
and the tables say: when it succeeds, and what in it is neither accepted nor reported.
-/
namespace LedgerGenesis

/-! ## Assembly and images -/

namespace Inputs

variable {i : Inputs}

theorem escapes_builderMapping_iff {v : Json} :
    Escapes (liftM (builderMapping v) : Except Error Json) ↔
      v.isTruthy = true ∧ ∀ m, v.toMapping ≠ .ok m := by
  rw [escapes_liftFault_iff, builderMapping]
  by_cases hv : v.isTruthy = true
  · rw [if_pos hv]
    exact (and_iff_right hv).symm
  · rw [if_neg hv]
    exact iff_of_false (fun h => h _ rfl) (fun h => hv h.1)

/-- Numbered inputs leave nothing that fails to be shown. Once all requirements are met, only the migration data
are left to refuse, and nothing reports that. -/
theorem escapes_assemble_iff (hi : i.Numbered) : Escapes i.assemble ↔
    (∀ r : Requirement, r.Met i) ∧ i.builderParams.isTruthy = true ∧
      ∀ m, i.builderParams.toMapping ≠ .ok m := by
  rw [← escapes_builderMapping_iff]
  by_cases met : ∀ r : Requirement, r.Met i
  · simp only [Escapes, assemble_eq_error_iff_of_met met, hi.tokens, hi.total, not_true_eq_false, false_and,
      false_or, and_false, or_false, true_and, met, implies_true]
  · refine iff_of_false ?_ fun h => met h.1
    rintro ⟨f, hf⟩
    obtain ⟨r, hr⟩ := exists_isFirstUnmet met
    obtain ⟨e, -, he | ⟨-, hn⟩⟩ := refuses_of_isFirstUnmet hr
    · rw [hf] at he
      cases he
    · exact hn hi

end Inputs

namespace Image

variable {fs : Files} {paths : ImagePaths} {runtime : Text}

/-- A value that is neither the path nor the handle of a file. -/
def NamesNoFile : Json → Prop
  | .text _ | .bool _ => False
  | .int n => isHandle n = false
  | _ => True

theorem exists_readFile_iff {path : Json} : (∃ bs, readFile fs path = .ok bs) ↔ ¬ NamesNoFile path := by
  cases path with
  | int n => cases h : isHandle n <;> simp [readFile, NamesNoFile, h]
  | _ => simp [readFile, NamesNoFile]

/-- An image is configured with a value that names no file. -/
def IsMisconfigured (paths : ImagePaths) (runtime : Text) : Prop :=
  ((Json.lookup runtime paths).getD .null).isTruthy = true ∧
    NamesNoFile ((Json.lookup runtime paths).getD .null)

theorem escapes_readAccepted_iff {accepts : Validator} :
    Escapes (readAccepted accepts fs paths runtime) ↔ IsMisconfigured paths runtime := by
  unfold readAccepted IsMisconfigured
  generalize (Json.lookup runtime paths).getD .null = path
  dsimp only
  by_cases hpath : path.isTruthy = true
  · simp only [hpath, Bool.not_true, Bool.false_eq_true, if_false, true_and]
    rw [escapes_bind_iff, escapes_liftFault_iff, ← not_exists, exists_readFile_iff, not_not]
    refine or_iff_left ?_
    rintro ⟨bs, -, h⟩
    split at h
    next => exact not_escapes_genesis h
    next =>
      split at h
      · exact not_escapes_pure h
      · exact not_escapes_genesis h
  · simp only [hpath, Bool.not_false, if_true]
    exact iff_of_false not_escapes_genesis fun h => by cases h.1

end Image

/-! ## Steps of the presets -/

/-- The addresses of a network's telemetry, as settings give them. -/
def Settings.addresses (s : Settings) : Network → Json
  | .mainnet => s.mainnetTelemetry
  | .testnet => s.testnetTelemetry

namespace Sources

variable (src : Sources)

/-- The directory of the tables is no text, or a table that is there misstates something. -/
def Misreads (name : Text) (misstates : Table → Prop) : Prop :=
  (∀ d, src.settings.tableDirectory ≠ .text d) ∨ ∃ t, src.table name = .ok t ∧ misstates t

def authorities (name : Text) : Except Error (List Authority) := do (← src.table name).authorities

def technicalMembers (p : Parameters) : Except Error (List Bytes) := do
  (← src.table technicalCommittee).accounts p.network.name

def builderParams : Except Error Json := do (← src.table Table.defaultBuilderParams).builderParams

/-- The inputs that the published tables give for a profile. -/
def published (profile : Profile) (authoritiesTable : Text) : Except Error Inputs := do
  let p := profile.parameters
  let adminKey ← src.adminKey p
  let code ← src.image p
  let authorities ← src.authorities authoritiesTable
  let assets ← src.assets
  let endowment ← Endowment.allocate [] (.int p.endowment) p.reservedStake []
  let trusteeSets ← src.trusteeSets mainnetTrustees
  let anchor ← src.anchor p
  let technicalMembers ← src.technicalMembers p
  let builderParams ← src.builderParams
  return {
    profile := .text profile.name
    code, authorities, assets, endowment, trusteeSets, anchor
    governance := { adminKey, technicalMembers }
    builderParams }

/-- The endowments of all profiles are far from the numerals that are too long. -/
theorem isReportable_endowment (profile : Profile) {count : Nat} (h : count ≤ 12) :
    Endowment.IsReportable count profile.parameters.endowment := by
  have hsmall : profile.parameters.endowment ≤ 10 ^ 15 := by
    cases profile <;> decide
  have hlimit : 12 * 10 ^ 15 < 10 ^ Numeral.maxDigits := by
    calc 12 * 10 ^ 15 < 10 ^ 17 := by norm_num
      _ ≤ 10 ^ Numeral.maxDigits := Nat.pow_le_pow_right (by decide) (by decide)
  have hcount := Nat.mul_le_mul h hsmall
  exact ⟨by omega, by omega⟩

theorem rebuilt_eq {profile : Profile} {table : Text} {m : Spec.Metadata} :
    src.rebuilt profile table m = (do
      let i ← src.published profile table
      let state ← i.assemble
      return Spec.ofState state m) := by
  simp only [rebuilt, published, authorities, technicalMembers, builderParams, bind_assoc, pure_bind]

def telemetryStep (n : Network) : Step where
  passes := (src.settings.addresses n).HasItems
  leaks := ¬ (src.settings.addresses n).HasItems

def snapshotStep : Step where
  passes := True
  leaks := ∀ d, src.settings.tableDirectory ≠ .text d

def imageStep (p : Parameters) : Step where
  passes := ∃ code, src.image p = .ok code
  leaks := Image.IsMisconfigured src.settings.imagePaths p.runtime

def assetsStep : Step where
  passes := ∃ assets, src.assets = .ok assets
  leaks := src.Misreads Table.defaultAssets Table.MisstatesAssets

def trusteesStep (name : Text) : Step where
  passes := ∃ sets, src.trusteeSets name = .ok sets
  leaks := src.Misreads name Table.MisstatesTrustees

def anchorStep (p : Parameters) : Step where
  passes := ∃ a, src.anchor p = .ok a
  leaks := src.Misreads p.anchorTable fun t => t.MisstatesAnchor p.retarget

/-- The steps in which the inputs are read from the published tables. -/
def publishedSteps (profile : Profile) (authoritiesTable : Text) : List Step :=
  let p := profile.parameters
  [{ passes := ∃ key, src.adminKey p = .ok key
     leaks := p.hasAdminKey = true ∧ src.Misreads adminKeys fun t => t.MisstatesAdminKey p.network.name },
    src.imageStep p,
    { passes := ∃ authorities, src.authorities authoritiesTable = .ok authorities
      leaks := src.Misreads authoritiesTable Table.MisstatesAuthorities },
    src.assetsStep,
    src.trusteesStep mainnetTrustees,
    src.anchorStep p,
    { passes := ∃ members, src.technicalMembers p = .ok members
      leaks := src.Misreads technicalCommittee fun t => t.MisstatesAccounts p.network.name },
    { passes := ∃ params, src.builderParams = .ok params
      leaks := src.Misreads Table.defaultBuilderParams fun _ => False }]

/-- The inputs are read and meet all that is asked of them, but the migration data are no mapping. -/
def assemblyStep (profile : Profile) (authoritiesTable : Text) : Step where
  passes := True
  leaks := ∃ i, src.published profile authoritiesTable = .ok i ∧ (∀ r : Inputs.Requirement, r.Met i) ∧
    i.builderParams.isTruthy = true ∧ ∀ m, i.builderParams.toMapping ≠ .ok m

def endowedBy (endowed : List Text) : Except Error (List Bytes) :=
  endowed.mapM fun seed => Seed.account (.text seed)

def derivedAuthorities (seeds : List Text) : Except Error (List Authority) :=
  seeds.mapM fun seed => Authority.ofSeed (.text seed) none

/-- The steps of a specification whose validators and accounts come from seeds. -/
def seededSteps (profile : Profile) (validators endowed : List Text) : List Step :=
  let p := profile.parameters
  [{ passes := ∃ accounts, endowedBy endowed = .ok accounts, leaks := False },
    src.imageStep p,
    { passes := ∃ authorities, derivedAuthorities validators = .ok authorities, leaks := False },
    src.assetsStep,
    { passes := ∃ accounts e, endowedBy endowed = .ok accounts ∧
        Endowment.allocate accounts (.int p.endowment) p.reservedStake [] = .ok e
      leaks := False },
    src.trusteesStep testnetTrustees,
    src.anchorStep p]

variable {src : Sources} {name : Text} {p : Parameters}

theorem escapes_table_bind_iff {α : Type} {f : Table → Except Error α} :
    Escapes (src.table name >>= f) ↔ src.Misreads name fun t => Escapes (f t) := by
  rw [escapes_bind_iff, table, Table.escapes_read_iff]
  rfl

theorem misreads_congr {p q : Table → Prop} (h : ∀ t, src.table name = .ok t → (p t ↔ q t)) :
    src.Misreads name p ↔ src.Misreads name q :=
  or_congr_right (exists_congr fun t => and_congr_right fun ht => h t ht)

theorem escapes_assets_iff : Escapes src.assets ↔ src.assetsStep.leaks := by
  unfold assets
  rw [escapes_table_bind_iff]
  simp only [Table.escapes_assets_iff]
  rfl

theorem escapes_trusteeSets_iff : Escapes (src.trusteeSets name) ↔ (src.trusteesStep name).leaks := by
  unfold trusteeSets
  rw [escapes_table_bind_iff]
  simp only [Table.escapes_trusteeSets_iff]
  rfl

theorem escapes_authorities_iff :
    Escapes (src.authorities name) ↔ src.Misreads name Table.MisstatesAuthorities := by
  unfold authorities
  rw [escapes_table_bind_iff]
  exact misreads_congr fun t ht => Table.escapes_authorities_iff (Table.numbered_of_read ht)

theorem escapes_technicalMembers_iff : Escapes (src.technicalMembers p) ↔
    src.Misreads technicalCommittee fun t => t.MisstatesAccounts p.network.name := by
  unfold technicalMembers
  rw [escapes_table_bind_iff]
  simp only [Table.escapes_accounts_iff]

theorem escapes_builderParams_iff :
    Escapes src.builderParams ↔ src.Misreads Table.defaultBuilderParams fun _ => False := by
  unfold builderParams
  rw [escapes_table_bind_iff]
  simp only [not_escapes_liftGenesis]

theorem escapes_image_iff : Escapes (src.image p) ↔ (src.imageStep p).leaks :=
  Image.escapes_readAccepted_iff

/-- A verifier that reports what it refuses leaves the reading of the anchor as the only risk. -/
theorem escapes_anchor_iff (hverify : src.verify = Anchor.Verifier.headerHash) :
    Escapes (src.anchor p) ↔ (src.anchorStep p).leaks := by
  unfold anchor
  rw [escapes_table_bind_iff]
  refine misreads_congr fun t ht => ?_
  rw [Table.verifiedAnchor, escapes_bind_iff, Table.escapes_anchor_iff]
  refine or_iff_left ?_
  rintro ⟨a, ha, h⟩
  -- the height that a verified anchor is reported with comes from the table
  have hheight : Json.report [.int a.height] = .ok () := Json.report_eq_ok_iff.mpr <|
    List.forall_mem_singleton.mpr <| Json.isShowable_int_iff.mpr <|
      Table.hasNumeral_of_anchor (Table.numbered_of_read ht) ha
  simp only [hverify, Anchor.Verifier.headerHash, escapes_bind_iff, not_escapes_liftGenesis, not_escapes_pure,
    escapes_liftFault_iff, hheight, and_false, exists_false, or_false, ne_eq, not_true_eq_false,
    forall_const] at h

theorem escapes_adminKey_iff : Escapes (src.adminKey p) ↔
    p.hasAdminKey = true ∧ src.Misreads adminKeys fun t => t.MisstatesAdminKey p.network.name := by
  unfold adminKey
  by_cases hp : p.hasAdminKey = true
  · rw [if_pos hp, escapes_table_bind_iff, and_iff_right hp]
    have hkey : ∀ t : Table, Escapes (some <$> t.adminKey p.network.name) ↔
        t.MisstatesAdminKey p.network.name := fun t => escapes_map_iff.trans Table.escapes_adminKey_iff
    simp only [hkey]
  · rw [if_neg hp]
    exact iff_of_false not_escapes_ok fun h => hp h.1

/-! ## Steps one after the other -/

variable {profile : Profile} {table : Text} {m : Spec.Metadata}

theorem allocate_nobody (profile : Profile) (stake : Int) :
    Endowment.allocate [] (.int profile.parameters.endowment) stake [] = .ok ⟨[], 0, [], [], []⟩ :=
  Endowment.allocate_eq_ok_iff.mpr
    ⟨_, [], [], rfl, rfl, rfl, isReportable_endowment profile (Nat.zero_le _), rfl⟩

theorem escapes_published_iff (hverify : src.verify = Anchor.Verifier.headerHash) :
    Escapes (src.published profile table) ↔ StopsInLeak (src.publishedSteps profile table) := by
  unfold published publishedSteps
  dsimp only
  refine escapes_bind_iff_stopsInLeak Iff.rfl escapes_adminKey_iff fun key _ => ?_
  refine escapes_bind_iff_stopsInLeak Iff.rfl escapes_image_iff fun code _ => ?_
  refine escapes_bind_iff_stopsInLeak Iff.rfl escapes_authorities_iff fun authorities _ => ?_
  refine escapes_bind_iff_stopsInLeak Iff.rfl escapes_assets_iff fun assets _ => ?_
  -- an allocation to nobody succeeds
  rw [allocate_nobody, ok_bind]
  refine escapes_bind_iff_stopsInLeak Iff.rfl escapes_trusteeSets_iff fun sets _ => ?_
  refine escapes_bind_iff_stopsInLeak Iff.rfl (escapes_anchor_iff hverify) fun anchor _ => ?_
  refine escapes_bind_iff_stopsInLeak Iff.rfl escapes_technicalMembers_iff fun members _ => ?_
  refine escapes_bind_iff_stopsInLeak Iff.rfl escapes_builderParams_iff fun params _ => ?_
  exact iff_of_false not_escapes_pure not_firstLeaks_nil

theorem numbered_of_published {i : Inputs} (h : src.published profile table = .ok i) : i.Numbered := by
  simp only [published, bind_eq_ok_iff, pure_eq_ok_iff] at h
  obtain ⟨_, -, _, -, _, -, assets, hassets, endowment, hendowment, sets, hsets, _, -, _, -, _, -, rfl⟩ := h
  exact numbered_of_read rfl hassets hsets hendowment

theorem passes_of_published {i : Inputs} (h : src.published profile table = .ok i) :
    ∀ step ∈ src.publishedSteps profile table, step.passes := by
  simp only [published, bind_eq_ok_iff] at h
  obtain ⟨key, hkey, code, hcode, authorities, hauthorities, assets, hassets, _, -, sets, hsets, anchor,
    hanchor, members, hmembers, params, hparams, -⟩ := h
  simp only [publishedSteps, List.forall_mem_cons]
  exact ⟨⟨key, hkey⟩, ⟨code, hcode⟩, ⟨authorities, hauthorities⟩, ⟨assets, hassets⟩, ⟨sets, hsets⟩,
    ⟨anchor, hanchor⟩, ⟨members, hmembers⟩, ⟨params, hparams⟩, List.forall_mem_nil _⟩

theorem escapes_rebuilt_iff (hverify : src.verify = Anchor.Verifier.headerHash) :
    Escapes (src.rebuilt profile table m) ↔
      StopsInLeak (src.publishedSteps profile table ++ [src.assemblyStep profile table]) := by
  have hassembly : StopsInLeak [src.assemblyStep profile table] ↔ (src.assemblyStep profile table).leaks := by
    rw [StopsInLeak, firstLeaks_cons_iff]
    exact or_iff_left fun h => not_firstLeaks_nil h.2
  rw [rebuilt_eq, escapes_bind_iff, escapes_published_iff hverify]
  unfold StopsInLeak at hassembly ⊢
  rw [firstLeaks_append_iff, hassembly]
  refine or_congr_right ⟨?_, ?_⟩
  · rintro ⟨i, hi, h⟩
    rcases escapes_bind_iff.mp h with h | ⟨state, -, h⟩
    · exact ⟨passes_of_published hi, i, hi, (Inputs.escapes_assemble_iff (numbered_of_published hi)).mp h⟩
    · exact absurd h not_escapes_pure
  · rintro ⟨-, i, hi, h⟩
    have hescapes := (Inputs.escapes_assemble_iff (numbered_of_published hi)).mpr h
    exact ⟨i, hi, escapes_bind_iff.mpr (Or.inl hescapes)⟩

/-- What is wrong with a seed that is a text can be shown. -/
theorem not_escapes_roleKey {seed : Text} {r : Role} : ¬ Escapes (Seed.roleKey (.text seed) r) := by
  rintro ⟨f, hf⟩
  rcases bind_eq_error_iff.mp hf with h | ⟨t, -, h⟩
  · simp only [Seed.ofJson] at h
    split at h
    · cases h
    · obtain ⟨-, hshow⟩ := GenesisError.raised_eq_fault_iff.mp (Except.error.inj h)
      cases hshow
  · obtain ⟨e, he, hraised⟩ := raising_eq_error_iff.mp h
    obtain ⟨cause, -, rfl⟩ := mapError_eq_error_iff.mp he
    obtain ⟨-, hshow⟩ := GenesisError.raised_eq_fault_iff.mp hraised
    cases hshow

theorem not_escapes_endowedBy {seeds : List Text} : ¬ Escapes (endowedBy seeds) := by
  intro h
  obtain ⟨_, seed, _, -, -, hseed⟩ := escapes_mapM_iff.mp h
  exact not_escapes_roleKey hseed

/-- Seeds that are written out are texts, so labels of their authorities are as well. -/
theorem not_escapes_derivedAuthorities {seeds : List Text} (h : ∀ t ∈ seeds, t.utf8?.isSome) :
    ¬ Escapes (derivedAuthorities seeds) := by
  intro hescapes
  obtain ⟨before, seed, after, rfl, -, hseed⟩ := escapes_mapM_iff.mp hescapes
  obtain ⟨label, hlabel⟩ := Option.isSome_iff_exists.mp (h seed (by simp))
  have hutf8 : (Json.text seed).toUtf8 = .ok label := by simp [Json.toUtf8, hlabel]
  simp only [Authority.ofSeed, escapes_bind_iff, not_escapes_roleKey, not_escapes_pure,
    Option.getD_none, escapes_liftFault_iff, hutf8, false_or, or_false, and_false, exists_false] at hseed
  obtain ⟨_, -, hseed⟩ := hseed
  exact hseed label rfl

/-- So few accounts have totals with numerals. -/
theorem not_escapes_allocate (profile : Profile) {accounts : List Bytes} (hcount : accounts.length ≤ 12)
    (stake : Int) :
    ¬ Escapes (Endowment.allocate accounts (.int profile.parameters.endowment) stake []) := by
  rintro ⟨f, hf⟩
  obtain ⟨g, hg⟩ := Endowment.allocate_eq_error_of_isReportable (isReportable_endowment profile hcount) hf
  cases hg

theorem escapes_seeded_iff (hverify : src.verify = Anchor.Verifier.headerHash) {administrator : Text}
    {others endowed : List Text} (hseeds : ∀ t ∈ administrator :: others, t.utf8?.isSome)
    (hcount : endowed.length ≤ 12) :
    Escapes (src.seeded profile administrator others endowed m) ↔
      StopsInLeak (src.seededSteps profile (administrator :: others) endowed) := by
  unfold seeded seededSteps
  dsimp only
  refine escapes_bind_iff_stopsInLeak Iff.rfl (iff_of_false not_escapes_endowedBy id) fun accounts ha => ?_
  refine escapes_bind_iff_stopsInLeak Iff.rfl escapes_image_iff fun code _ => ?_
  refine escapes_bind_iff_stopsInLeak Iff.rfl
    (iff_of_false (not_escapes_derivedAuthorities hseeds) id) fun authorities _ => ?_
  refine escapes_bind_iff_stopsInLeak Iff.rfl escapes_assets_iff fun assets hassets => ?_
  have hallocation : ∀ stake : Int,
      (∃ e, Endowment.allocate accounts (.int profile.parameters.endowment) stake [] = .ok e) ↔
        ∃ as e, endowedBy endowed = .ok as ∧
          Endowment.allocate as (.int profile.parameters.endowment) stake [] = .ok e := by
    intro stake
    have has : ∀ as, endowedBy endowed = .ok as ↔ as = accounts := by
      intro as
      rw [endowedBy, ha, Except.ok.injEq, eq_comm]
    simp only [has, exists_and_left, exists_eq_left]
  have hendowed := not_escapes_allocate profile ((length_eq_of_mapM_eq_ok ha).trans_le hcount)
  refine escapes_bind_iff_stopsInLeak (hallocation _) (iff_of_false (hendowed _) id) fun endowment hendowment => ?_
  refine escapes_bind_iff_stopsInLeak Iff.rfl escapes_trusteeSets_iff fun sets hsets => ?_
  refine escapes_bind_iff_stopsInLeak Iff.rfl (escapes_anchor_iff hverify) fun anchor _ => ?_
  -- seeded specifications have no migration data, so their assembly reports all it refuses
  refine iff_of_false (fun h => ?_) not_firstLeaks_nil
  rcases escapes_bind_iff.mp h with h | ⟨key, -, h⟩
  · exact not_escapes_roleKey h
  rcases escapes_bind_iff.mp h with h | ⟨state, -, h⟩
  · obtain ⟨-, htruthy, -⟩ :=
      (Inputs.escapes_assemble_iff (numbered_of_read rfl hassets hsets hendowment)).mp h
    cases htruthy
  · exact not_escapes_pure h

theorem exists_metadata_iff {settings : Settings} {name id protocolId : Json} :
    (∃ m, settings.metadata profile name id protocolId true = .ok m) ↔
      (settings.addresses profile.parameters.network).HasItems := by
  have htelemetry : ∀ n, (∃ t, settings.telemetry n = .ok t) ↔ (settings.addresses n).HasItems := by
    intro n
    unfold Settings.telemetry
    rw [exists_bind_pure_eq_ok_iff]
    cases n <;> exact Json.exists_elements_iff
  unfold Settings.metadata
  dsimp only
  rw [if_pos rfl, exists_bind_pure_eq_ok_iff, htelemetry]

/-- Metadata with telemetry come first, and then what follows. -/
theorem escapes_metadata_bind_iff {α : Type} {name id protocolId : Json} {steps : List Step}
    {f : Spec.Metadata → Except Error α} (hf : ∀ m, Escapes (f m) ↔ StopsInLeak steps) :
    Escapes ((liftM (src.settings.metadata profile name id protocolId true) :
      Except Error Spec.Metadata) >>= f) ↔
        StopsInLeak (src.telemetryStep profile.parameters.network :: steps) := by
  refine escapes_bind_iff_stopsInLeak ?_ ?_ fun m _ => hf m
  · simp only [liftFault_eq_ok_iff]
    exact exists_metadata_iff
  · rw [escapes_liftFault_iff, ← not_exists, exists_metadata_iff]
    rfl

theorem escapes_snapshot_iff : Escapes (src.snapshot name m) ↔ StopsInLeak [src.snapshotStep] := by
  have hread : ∀ bs, ¬ Escapes (Spec.ofSnapshot bs m) := by
    rintro bs h
    rcases escapes_bind_iff.mp h with ⟨f, hf⟩ | ⟨s, -, h⟩
    · obtain ⟨g, hg, -⟩ := Spec.isMalformed_of_ofBytes hf
      cases hg
    · split at h
      · exact not_escapes_pure h
      · exact not_escapes_genesis h
  rw [StopsInLeak, firstLeaks_cons_iff, snapshot, escapes_bind_iff, snapshotBytes,
    Table.escapes_readBytes_iff]
  refine or_congr_right (iff_of_false ?_ fun h => not_firstLeaks_nil h.2)
  rintro ⟨bs, -, h⟩
  exact hread bs h

end Sources

/-! ## The presets -/

namespace Preset

/-- The steps in which a preset makes its specification. -/
def steps (src : Sources) : Preset → List Step
  | development => src.seededSteps .development [alice] [alice, bob, stash alice, stash bob]
  | «local» => src.seededSteps .local [alice, bob] (localNames ++ localNames.map stash)
  | malan => [src.telemetryStep .testnet, src.snapshotStep]
  | mainnet => [src.telemetryStep .mainnet, src.snapshotStep]
  | newMalan => src.telemetryStep .testnet ::
      (src.publishedSteps .publicTest "authorities_malan.json" ++
        [src.assemblyStep .publicTest "authorities_malan.json"])
  | newMainnet => src.telemetryStep .mainnet ::
      (src.publishedSteps .main "authorities_mainnet.json" ++
        [src.assemblyStep .main "authorities_mainnet.json"])

theorem escapes_build_iff {src : Sources} (hverify : src.verify = Anchor.Verifier.headerHash)
    {p : Preset} : Escapes (p.build src) ↔ StopsInLeak (p.steps src) := by
  cases p with
  | development =>
    have hbuild : ∃ m, build src development =
        src.seeded .development alice [] [alice, bob, stash alice, stash bob] m := ⟨_, rfl⟩
    obtain ⟨m, hm⟩ := hbuild
    rw [hm]
    exact Sources.escapes_seeded_iff hverify (by decide) (by decide)
  | «local» =>
    have hbuild : ∃ m, build src «local» =
        src.seeded .local alice [bob] (localNames ++ localNames.map stash) m := ⟨_, rfl⟩
    obtain ⟨m, hm⟩ := hbuild
    rw [hm]
    exact Sources.escapes_seeded_iff hverify (by decide) (by decide)
  | malan | mainnet => exact Sources.escapes_metadata_bind_iff fun _ => Sources.escapes_snapshot_iff
  | newMalan | newMainnet =>
    exact Sources.escapes_metadata_bind_iff fun _ => Sources.escapes_rebuilt_iff hverify

end Preset

/-! ## Specifications that are asked for -/

namespace Spec

variable {src : Sources} {id : Text} {s : Spec}

/-- The file at a path is a specification, or what is wrong with it is reported. -/
theorem not_escapes_ofFile {fs : Files} {path : Text} (h : fs.isFile path = true) :
    ¬ Escapes (ofFile fs path) := by
  intro hescapes
  obtain ⟨bs, hread⟩ := Files.isFile_iff.mp h
  rcases escapes_bind_iff.mp hescapes with ⟨f, hf⟩ | ⟨bs, -, f, hf⟩
  · rw [hread] at hf
    cases hf
  · obtain ⟨g, hg, -⟩ := isMalformed_of_ofBytes hf
    cases hg

/-- Only the specifications of presets let faults escape when they are asked for. -/
theorem escapes_load_iff (hverify : src.verify = Anchor.Verifier.headerHash) :
    Escapes (load src id) ↔ ∃ p, Preset.ofId? id = some p ∧ StopsInLeak (p.steps src) := by
  unfold load
  cases hid : Preset.ofId? id with
  | some p =>
    simp only [Option.some.injEq, exists_eq_left']
    exact Preset.escapes_build_iff hverify
  | none =>
    refine iff_of_false ?_ (by simp)
    dsimp only
    split
    next hfile => exact not_escapes_ofFile hfile
    next => exact not_escapes_genesis

/-- Snapshots of presets need a directory to be looked for in. -/
theorem escapes_snapshotBytes_iff : Escapes (snapshotBytes src id) ↔
    ((Preset.ofId? id).bind Preset.snapshotTable?).isSome ∧ ∀ d, src.settings.tableDirectory ≠ .text d := by
  unfold snapshotBytes
  cases (Preset.ofId? id).bind Preset.snapshotTable? with
  | some name =>
    rw [and_iff_right Option.isSome_some]
    exact Table.escapes_readBytes_iff
  | none =>
    refine iff_of_false ?_ fun h => Bool.noConfusion h.1
    dsimp only
    split
    next hfile =>
      obtain ⟨bs, hread⟩ := Files.isFile_iff.mp hfile
      rw [escapes_mapError_fault_iff]
      exact fun h => h bs hread
    next => exact not_escapes_genesis

theorem escapes_isByteStable_iff {bs : Bytes} : Escapes (isByteStable bs) ↔ HoldsHalf bs := by
  rw [← isByteStable_eq_loneSurrogate_iff]
  constructor
  · rintro ⟨f, hf⟩
    rcases isMalformed_or_loneSurrogate_of_isByteStable hf with ⟨g, hg, -⟩ | hlone
    · cases hg
    · rw [← hlone, hf]
  · exact fun h => ⟨.loneSurrogate, h⟩

/-! ## Specifications that cannot be written -/

/-- An integer of the document has no numeral, or half of a pair is in one of its texts or labels. -/
def Unprintable (s : Spec) : Prop := ∃ v, s.toJson = .ok v ∧
  ¬ (v.isShowable = true ∧ v.labelled.Throughout Json.IsWellFormed)

/-- Something in the assembled state is too large for its canonical bytes. -/
def Oversized (s : Spec) : Prop := ∃ state, s.genesis = .assembled state ∧ ¬ state.Fits

theorem exists_toJson_of_load (h : load src id = .ok s) : ∃ v, s.toJson = .ok v := by
  rcases read_or_made_of_load h with ⟨bs, hs⟩ | ⟨profile, hfeeds, hassemble, -, -, rfl⟩
  · obtain ⟨d, hsource, -⟩ := source_of_ofBytes hs
    rw [toJson, hsource]
    exact ⟨_, rfl⟩
  · obtain ⟨v, hv⟩ := hfeeds.exists_toJson hassemble
    exact ⟨_, toJson_ofState_eq_ok_iff.mpr ⟨v, hv, rfl⟩⟩

theorem unprintable_iff_of_load (h : load src id = .ok s) :
    s.Unprintable ↔ ∀ bs, s.toBytes ≠ .ok bs := by
  obtain ⟨v, hv⟩ := exists_toJson_of_load h
  rw [← not_exists, exists_toBytes_iff_of_toJson hv]
  simp only [Unprintable, hv, Except.ok.injEq, exists_eq_left']

theorem exists_genesisHash_iff {state : State} {m : Metadata} (h : state.NumbersIds ∧ state.HasLabels) :
    (∃ hash, (ofState state m).genesisHash = .ok hash) ↔ state.Fits :=
  exists_map_eq_ok_iff.trans
    (State.exists_hash_iff.trans (State.exists_encode_iff.trans (and_iff_right h)))

theorem oversized_iff_of_load (h : load src id = .ok s) :
    s.Oversized ↔ ∀ hash, s.genesisHash ≠ .ok hash := by
  rcases read_or_made_of_load h with ⟨bs, hs⟩ | ⟨profile, hfeeds, hassemble, -, -, rfl⟩
  · -- a snapshot has no state and no digest of its own
    obtain ⟨d, -, hd⟩ := ofBytes_eq_ok_iff.mp hs
    obtain ⟨data, -, hg⟩ := (mirrors_of_ofDocument hd).genesis
    have hhash : s.genesisHash = .ok none := by rw [genesisHash, hg]
    refine iff_of_false ?_ fun hn => hn none hhash
    rintro ⟨state, hstate, -⟩
    rw [hg] at hstate
    cases hstate
  · rw [← not_exists, exists_genesisHash_iff (hfeeds.publishes hassemble)]
    simp only [Oversized, ofState, Genesis.assembled.injEq, exists_eq_left']

end Spec

end LedgerGenesis
