import NpuStack.Runtime.Inspect
import NpuStack.Schemes.SortUnique

/-! The report of a diagnostic run and its exit status. `finalize` sorts the collections and derives
    the overall status by precedence; the exit code follows from it.

        required fail ─▶ failed      required blocked ─▶ blocked      (exit 1)
        anything not passing ─▶ degraded        otherwise ─▶ passed   (exit 0)

    A required warning would exit 0. No check is one (`inspectDoctor_weighs`), so a doctor run exits
    0 exactly when everything but the activity passes (`doctor_exit_status`). -/

namespace NpuStack.Runtime
open Interaction Interaction.Prog Text Schema NpuStack.Core

/-- Aggregate diagnostic outcome. -/
inductive OverallStatus where
  | passed | degraded | failed | blocked
  deriving DecidableEq, Repr

/-- Selected profile identity included in a report. -/
structure ProfileSummary where
  id : String
  stackRelease : String
  status : ProfileStatus
  deriving DecidableEq, Repr

/-- Platform facts included in reports. -/
structure PlatformSummary where
  osId : String
  osVersionId : String
  arch : String
  kernel : String
  pciIds : List String
  deriving DecidableEq, Repr

structure DiagnosticReport where
  schemaVersion : ℕ
  toolVersion : String
  command : DiagnosticCommand
  overall : OverallStatus
  profile : Option ProfileSummary
  platform : PlatformSummary
  rebootRequired : Bool
  reloginRequired : Bool
  checks : List DiagnosticCheck

/-- The aggregate of some checks, by precedence. -/
def overallOf (checks : List DiagnosticCheck) : OverallStatus :=
  if checks.any fun c => c.requirement = .required && c.status = .fail then .failed
  else if checks.any fun c => c.requirement = .required && c.status = .blocked then .blocked
  else if checks.any fun c => c.status ≠ .pass then .degraded
  else .passed

namespace DiagnosticReport

/-- Sorts collection fields and derives the aggregate status. -/
def finalize (report : DiagnosticReport) : DiagnosticReport :=
  { report with
    checks := sortChecks report.checks
    platform := { report.platform with
      pciIds := SortUnique.sortUnique (fun left right => left < right) report.platform.pciIds }
    overall := overallOf (sortChecks report.checks) }

def exitCode (report : DiagnosticReport) : ℕ :=
  match report.overall with
  | .passed | .degraded => 0
  | .failed | .blocked => 1

end DiagnosticReport

def baseReport (toolVersion : String) (command : DiagnosticCommand) (facts : PlatformFacts) :
    DiagnosticReport where
  schemaVersion := 1
  toolVersion
  command
  overall := .blocked
  profile := none
  platform := {
    osId := facts.osId
    osVersionId := facts.osVersionId
    arch := facts.arch
    kernel := facts.kernel.major.repr ++ "." ++ facts.kernel.minor.repr ++ "." ++
      facts.kernel.patch.repr
    pciIds := facts.pciIds.map fun id => id.vendor ++ ":" ++ id.device }
  rebootRequired := false
  reloginRequired := false
  checks := []

/-- The report of a run over a selected profile, before it is finalized. -/
def selectedReport (toolVersion : String) (command : DiagnosticCommand) (facts : PlatformFacts)
    (profile : Profile) (inspection : InspectionResult) : DiagnosticReport :=
  { baseReport toolVersion command facts with
    profile := some ⟨profile.id, profile.stackRelease, profile.status⟩
    checks := inspection.checks
    rebootRequired := inspection.rebootRequired
    reloginRequired := inspection.reloginRequired }

/-! ### The verdict and the order of checks -/

theorem overallOf_perm {checks checks' : List DiagnosticCheck} (h : checks.Perm checks') :
    overallOf checks = overallOf checks' := by
  have hany : ∀ p : DiagnosticCheck → Bool, checks.any p = checks'.any p := by
    intro p
    rw [Bool.eq_iff_iff, List.any_eq_true, List.any_eq_true]
    exact exists_congr fun c => and_congr_left' h.mem_iff
  rw [overallOf, overallOf, hany, hany, hany]

theorem sortChecks_perm (checks : List DiagnosticCheck) : (sortChecks checks).Perm checks :=
  List.mergeSort_perm _ _

theorem sortChecks_sorted (checks : List DiagnosticCheck) :
    (sortChecks checks).Pairwise fun left right => decide (left.id ≤ right.id) = true := by
  refine List.pairwise_mergeSort ?_ ?_ checks
  · intro a b c hab hbc
    simp only [decide_eq_true_eq] at hab hbc ⊢
    exact hab.trans hbc
  · intro a b
    simp only [Bool.or_eq_true, decide_eq_true_eq]
    exact le_total _ _

theorem sortChecks_sortChecks (checks : List DiagnosticCheck) :
    sortChecks (sortChecks checks) = sortChecks checks :=
  List.mergeSort_of_pairwise (sortChecks_sorted checks)

theorem overall_finalize (report : DiagnosticReport) :
    report.finalize.overall = overallOf report.checks :=
  overallOf_perm (sortChecks_perm _)

theorem finalize_finalize (report : DiagnosticReport) :
    report.finalize.finalize = report.finalize := by
  have hpci : ∀ ids : List String,
      SortUnique.sortUnique (fun left right => decide (left < right))
        (SortUnique.sortUnique (fun left right => decide (left < right)) ids) =
      SortUnique.sortUnique (fun left right => decide (left < right)) ids := by
    intro ids
    have hless : ∀ a b : String, decide (a < b) = true ↔ id a < id b := by simp
    exact SortUnique.sortUnique_congr Function.injective_id hless fun x => SortUnique.mem_sortUnique
  simp only [DiagnosticReport.finalize, sortChecks_sortChecks, hpci]

/-! ### What every check weighs -/

/-- A required check, and not a warning. -/
def Weighed (c : DiagnosticCheck) : Prop := c.requirement = .required ∧ c.status ≠ .warn

/-- The doctor's checks of the devices: under root, access is not granted. -/
def Accessed (effectiveRoot : Bool) (checks : List DiagnosticCheck) : Prop :=
  (∀ c ∈ checks, Weighed c) ∧
    (effectiveRoot = true → ∃ c ∈ checks, c.id = "device.access" ∧ c.status ≠ .pass)

theorem weighed_check {id summary : String} {status : CheckStatus} {details : Details}
    (h : status ≠ .warn) : Weighed (check id status summary details) := ⟨rfl, h⟩

theorem weighed_failedCheck {id summary code : String} : Weighed (failedCheck id summary code) :=
  ⟨rfl, nofun⟩

theorem accessed_missing (effectiveRoot : Bool) : Accessed effectiveRoot missingInspection.checks := by
  refine ⟨fun c hc => ?_, fun _ => ⟨_, List.mem_cons_of_mem _ List.mem_cons_self, rfl, nofun⟩⟩
  rcases List.mem_cons.mp hc with rfl | hc
  · exact weighed_check nofun
  · rw [List.mem_singleton.mp hc]
    exact ⟨rfl, nofun⟩

theorem accessed_failed (effectiveRoot : Bool) (code : String) :
    Accessed effectiveRoot (failedInspection code).checks := by
  refine ⟨fun c hc => ?_, fun _ => ⟨_, List.mem_cons_of_mem _ List.mem_cons_self, rfl, nofun⟩⟩
  rcases List.mem_cons.mp hc with rfl | hc
  · exact weighed_check nofun
  · rw [List.mem_singleton.mp hc]
    exact ⟨rfl, nofun⟩

theorem inspectAccess_weighs (candidates : List (String × String)) (effectiveRoot : Bool) :
    (inspectAccess candidates effectiveRoot .doctor).Yields fun c =>
      c.id = "device.access" ∧ Weighed c ∧ (effectiveRoot = true → c.status ≠ .pass) := by
  rw [inspectAccess]
  cases effectiveRoot with
  | true => exact yields_pure ⟨rfl, ⟨rfl, by decide⟩, fun _ => by decide⟩
  | false =>
    refine yields_any_bind fun openings => ?_
    split
    · exact yields_pure ⟨rfl, weighed_check (by decide), fun hroot => by cases hroot⟩
    · exact yields_pure ⟨rfl, weighed_check (by decide), fun hroot => by cases hroot⟩

theorem inspectDevices_weighs (root : String) (effectiveRoot : Bool) :
    (inspectDevices root effectiveRoot .doctor).Yields fun r => Accessed effectiveRoot r.checks := by
  refine yields_any_bind fun entries => ?_
  match entries with
  | .error .notFound => exact yields_pure (accessed_missing _)
  | .error .permissionDenied => exact yields_pure (accessed_failed _ _)
  | .error .other => exact yields_pure (accessed_failed _ _)
  | .ok entries =>
    refine yields_any_bind fun found => ?_
    match found with
    | none => exact yields_pure (accessed_failed _ _)
    | some (found, invalidCandidate) =>
      dsimp only
      split
      · refine yields_pure ?_
        cases invalidCandidate
        · exact accessed_missing _
        · exact accessed_failed _ _
      · refine yields_bind (inspectAccess_weighs _ effectiveRoot) ?_
        rintro access ⟨hid, hweighed, hroot⟩
        refine yields_pure ⟨fun c hc => ?_, fun h => ?_⟩
        · rcases List.mem_cons.mp hc with rfl | hc
          · exact weighed_check nofun
          · rw [List.mem_singleton.mp hc]
            exact hweighed
        · exact ⟨access, List.mem_cons_of_mem _ List.mem_cons_self, hid, hroot h⟩

/-! ### Providers -/

theorem weighed_providerFailure {capability code package : String}
    {x : List (String × Value)} : Weighed (providerFailure capability code package x) :=
  ⟨rfl, nofun⟩

theorem inspectProviderFiles_weighs (inspector : RpmPackageInspector) (capability : String)
    (provider : NativeProvider) (installed : InstalledPackage) (files : List InstalledFile) :
    ∀ observed, (inspectProviderFiles inspector capability provider installed files observed).Yields
      fun r => Weighed r.1 := by
  induction files with
  | nil =>
    intro observed
    exact yields_pure (weighed_check (by decide))
  | cons expected rest ih =>
    intro observed
    rw [inspectProviderFiles]
    refine yields_any_bind ?_
    rintro ⟨file, files⟩
    cases file with
    | failed code => exact yields_pure weighed_providerFailure
    | digest actual =>
      dsimp only
      split
      · exact yields_pure weighed_providerFailure
      refine yields_any_bind ?_
      rintro ⟨owner, owners⟩
      cases owner with
      | error code => exact yields_pure weighed_providerFailure
      | ok actual =>
        dsimp only
        split
        · exact yields_pure weighed_providerFailure
        · exact ih _

theorem inspectComponent_weighs (inspector : RpmPackageInspector)
    (queries : List (String × PackageQuery)) (capability : String) (provider : NativeProvider)
    (observed : Observed) :
    (inspectComponent inspector queries capability provider observed).Yields fun r => Weighed r.1 := by
  refine yields_any_bind fun found => ?_
  cases found with
  | missing => exact yields_pure weighed_providerFailure
  | failed code => exact yields_pure weighed_providerFailure
  | present installed =>
    dsimp only
    split
    · exact yields_pure weighed_providerFailure
    · exact inspectProviderFiles_weighs _ _ _ _ _ _

theorem withConflict_weighs {capability : String} {conflict : Option ConflictFailure}
    {c : DiagnosticCheck} (hc : Weighed c) : Weighed (withConflict capability conflict c) := by
  cases conflict with
  | none => exact hc
  | some failure =>
    rw [withConflict]
    split
    · exact weighed_providerFailure
    · exact hc

theorem inspect_weighs (inspector : RpmPackageInspector) (profile : Profile) :
    (inspector.inspect profile).Yields fun r => ∀ c ∈ r.checks, Weighed c := by
  rw [RpmPackageInspector.inspect]
  split
  · refine yields_pure fun c hc => ?_
    obtain ⟨entry, -, rfl⟩ := List.mem_map.mp hc
    exact weighed_check (by decide)
  refine yields_any_bind fun queries => yields_any_bind fun conflict => ?_
  refine yields_bind (yields_foldlM (I := fun acc => ∀ c ∈ acc.1, Weighed c) ?_ (by simp)) ?_
  · intro acc entry _ hacc
    refine yields_bind (inspectComponent_weighs _ _ _ _ _) ?_
    rintro ⟨c, observed⟩ hc
    refine yields_pure ?_
    rw [List.forall_mem_append]
    exact ⟨hacc, List.forall_mem_singleton.mpr (withConflict_weighs hc)⟩
  · rintro ⟨checks, observed⟩ hchecks
    refine yields_pure fun c hc => ?_
    exact hchecks c ((sortChecks_perm checks).mem_iff.mp hc)

/-! ### The run -/

theorem kernelCheck_weighs (facts : PlatformFacts) : Weighed (kernelCheck facts) := by
  rw [kernelCheck]
  split
  · exact weighed_check (by decide)
  · exact weighed_failedCheck

theorem firmwareCheck_weighs {checks : List DiagnosticCheck} (activation : ActivationState)
    (hchecks : ∀ c ∈ checks, Weighed c) : Weighed (firmwareCheck checks activation) := by
  rw [firmwareCheck]
  split
  · exact weighed_failedCheck
  next provider hfound =>
    have hprovider := hchecks provider (List.mem_of_find?_eq_some hfound)
    split
    · exact weighed_check hprovider.2
    split
    · exact weighed_check (by decide)
    · exact weighed_check (by decide)

/-- The activity is optional, and passes or warns. -/
theorem evaluateActivity_weighs (before after : BusyCounterSnapshot) :
    (evaluateActivity before after).id = "runtime.activity" ∧
      (evaluateActivity before after).requirement = .optional ∧
      ((evaluateActivity before after).status = .pass ∨ (evaluateActivity before after).status = .warn) := by
  rw [evaluateActivity]
  split
  · exact ⟨rfl, rfl, .inl rfl⟩
  · exact ⟨rfl, rfl, .inr rfl⟩

theorem openvinoInferFailure_weighs (code : String) (discovered : Bool) :
    ∀ c ∈ openvinoInferFailure code discovered, Weighed c := by
  intro c hc
  rcases List.mem_cons.mp hc with rfl | hc
  · cases discovered
    · exact weighed_failedCheck
    · exact weighed_check nofun
  · rw [List.mem_singleton.mp hc]
    exact weighed_failedCheck

namespace RuntimeInspector

variable (inspector : RuntimeInspector)

theorem inspectPreflight_weighs (profile : Profile) (facts : PlatformFacts) :
    (inspector.inspectPreflight profile facts).Yields fun r => ∀ c ∈ r.checks, Weighed c := by
  refine yields_bind (inspect_weighs inspector.packages profile) fun r hr => yields_pure ?_
  intro c hc
  have hc := (sortChecks_perm _).mem_iff.mp hc
  simp only [List.mem_cons, List.mem_append, List.not_mem_nil, or_false] at hc
  rcases hc with rfl | hc | rfl | rfl
  · exact weighed_check nofun
  · exact hr c hc
  · exact kernelCheck_weighs facts
  · exact firmwareCheck_weighs _ hr

theorem inspectCommon_weighs (profile : Profile) (facts : PlatformFacts) :
    (inspector.inspectCommon profile facts .doctor).Yields fun r =>
      Accessed facts.effectiveRoot r.checks := by
  refine yields_bind (inspector.inspectPreflight_weighs profile facts) fun result hresult => ?_
  refine yields_bind (inspectDevices_weighs _ _) ?_
  rintro devices ⟨hdevices, hroot⟩
  refine yields_pure ⟨List.forall_mem_append.mpr ⟨hresult, hdevices⟩, fun h => ?_⟩
  obtain ⟨c, hc, hdenied⟩ := hroot h
  exact ⟨c, List.mem_append_right _ hc, hdenied⟩

theorem runLevelZero_weighs (profile : Profile) :
    (inspector.runLevelZero profile).Yields fun c => Weighed c.check := by
  refine yields_any_bind fun answer => ?_
  cases answer with
  | error failure => exact yields_pure weighed_failedCheck
  | ok report =>
    dsimp only
    split
    · exact yields_any_bind fun code => yields_pure weighed_failedCheck
    split
    · split
      · exact yields_pure (weighed_check nofun)
      · exact yields_pure weighed_failedCheck
    · exact yields_pure weighed_failedCheck

theorem openvinoDoctor_weighs (unsafeToContinue : Bool) :
    (inspector.openvinoDoctor unsafeToContinue).Yields fun checks => ∀ c ∈ checks, Weighed c := by
  rw [openvinoDoctor]
  split
  · exact yields_pure (openvinoInferFailure_weighs _ _)
  refine yields_any_bind fun answer => ?_
  cases answer with
  | error failure => exact yields_pure (openvinoInferFailure_weighs _ _)
  | ok report =>
    dsimp only
    split
    · exact yields_any_bind fun code => yields_pure (openvinoInferFailure_weighs _ _)
    split
    · refine yields_pure fun c hc => ?_
      rcases List.mem_cons.mp hc with rfl | hc
      · exact weighed_check (by decide)
      · rw [List.mem_singleton.mp hc]
        exact weighed_check (by decide)
    · exact yields_pure (openvinoInferFailure_weighs _ _)

/-- The checks of a doctor run: weighed ones and the activity. -/
structure Judged (effectiveRoot : Bool) (checks : List DiagnosticCheck) : Prop where
  others : ∀ c ∈ checks, c.id ≠ "runtime.activity" → Weighed c
  activity : ∃ c ∈ checks, c.id = "runtime.activity" ∧ c.requirement = .optional ∧
    (c.status = .pass ∨ c.status = .warn)
  root : effectiveRoot = true → ∃ c ∈ checks, c.id = "device.access" ∧ c.status ≠ .pass

theorem inspectDoctor_weighs (profile : Profile) (facts : PlatformFacts) :
    (inspector.inspectDoctor profile facts).Yields fun r => Judged facts.effectiveRoot r.checks := by
  refine yields_bind (inspector.inspectCommon_weighs profile facts) ?_
  rintro result ⟨hcommon, hroot⟩
  refine yields_bind (inspector.runLevelZero_weighs profile) fun levelZero hlevel => ?_
  refine yields_any_bind fun before => ?_
  refine yields_bind (inspector.openvinoDoctor_weighs _) fun openvino hopenvino => ?_
  refine yields_any_bind fun after => yields_pure ?_
  have hmem : ∀ c, c ∈ (finish { result with checks := result.checks ++ [levelZero.check] ++ openvino ++
      [evaluateActivity before after] }).checks ↔ c ∈ result.checks ++ [levelZero.check] ++ openvino ++
        [evaluateActivity before after] := fun c => (sortChecks_perm _).mem_iff
  obtain ⟨hid, hweight⟩ := evaluateActivity_weighs before after
  refine ⟨fun c hc hne => ?_, ⟨_, (hmem _).mpr (by simp), hid, hweight⟩, fun h => ?_⟩
  · have hc := (hmem c).mp hc
    simp only [List.mem_append, List.mem_singleton] at hc
    rcases hc with ((hc | rfl) | hc) | rfl
    · exact hcommon c hc
    · exact hlevel
    · exact hopenvino c hc
    · exact absurd hid hne
  · obtain ⟨c, hc, hdenied⟩ := hroot h
    exact ⟨c, (hmem c).mpr (by simp [hc]), hdenied⟩

end RuntimeInspector

/-! ### The exit status -/

/-- What the exit status of a finalized doctor report says. -/
structure ExitStatus (effectiveRoot : Bool) (report : DiagnosticReport) : Prop where
  success : report.exitCode = 0 ↔
    ∀ c ∈ report.checks, c.id ≠ "runtime.activity" → c.status = .pass
  passed : report.overall = .passed ↔
    (∀ c ∈ report.checks, c.id ≠ "runtime.activity" → c.status = .pass) ∧
      ∀ c ∈ report.checks, c.id = "runtime.activity" → c.status = .pass
  degraded : report.overall = .degraded ↔
    (∀ c ∈ report.checks, c.id ≠ "runtime.activity" → c.status = .pass) ∧
      ∃ c ∈ report.checks, c.id = "runtime.activity" ∧ c.status = .warn
  root : effectiveRoot = true → report.exitCode ≠ 0

/-- The precedence, read as conditions on the checks. -/
theorem overallOf_cases (checks : List DiagnosticCheck) :
    (overallOf checks = .passed ↔ ∀ c ∈ checks, c.status = .pass) ∧
      (overallOf checks = .passed ∨ overallOf checks = .degraded ↔ ∀ c ∈ checks,
        c.requirement = .required → c.status ≠ .fail ∧ c.status ≠ .blocked) := by
  have hany : ∀ status : CheckStatus,
      (checks.any fun c => c.requirement = .required && c.status = status) = true ↔
        ∃ c ∈ checks, c.requirement = .required ∧ c.status = status := by
    intro status
    simp [List.any_eq_true]
  have hother : (checks.any fun c => c.status ≠ .pass) = true ↔ ∃ c ∈ checks, c.status ≠ .pass := by
    simp [List.any_eq_true]
  rw [overallOf]
  split
  · next hfail =>
    obtain ⟨c, hc, hrequired, hstatus⟩ := (hany .fail).mp hfail
    refine ⟨⟨nofun, fun h => ?_⟩, ⟨by simp, fun h => absurd hstatus (h c hc hrequired).1⟩⟩
    cases (h c hc).symm.trans hstatus
  next hfail =>
  split
  · next hblocked =>
    obtain ⟨c, hc, hrequired, hstatus⟩ := (hany .blocked).mp hblocked
    refine ⟨⟨nofun, fun h => ?_⟩, ⟨by simp, fun h => absurd hstatus (h c hc hrequired).2⟩⟩
    cases (h c hc).symm.trans hstatus
  next hblocked =>
  have hclear : ∀ c ∈ checks, c.requirement = .required → c.status ≠ .fail ∧ c.status ≠ .blocked := by
    intro c hc hrequired
    refine ⟨fun h => hfail ((hany .fail).mpr ⟨c, hc, hrequired, h⟩), fun h => ?_⟩
    exact hblocked ((hany .blocked).mpr ⟨c, hc, hrequired, h⟩)
  split
  · next hdegraded =>
    obtain ⟨c, hc, hstatus⟩ := hother.mp hdegraded
    exact ⟨⟨nofun, fun h => absurd (h c hc) hstatus⟩, fun _ => hclear, fun _ => .inr rfl⟩
  · next hpassed =>
    refine ⟨⟨fun _ c hc => ?_, fun _ => rfl⟩, fun _ => hclear, fun _ => .inl rfl⟩
    by_contra hstatus
    exact hpassed (hother.mpr ⟨c, hc, hstatus⟩)

theorem exitCode_eq_zero {report : DiagnosticReport} :
    report.exitCode = 0 ↔ report.overall = .passed ∨ report.overall = .degraded := by
  rw [DiagnosticReport.exitCode]
  cases report.overall <;> simp

/-- Judged checks that each occur once give the exit status. -/
theorem exitStatus_of_judged {effectiveRoot : Bool} {report : DiagnosticReport}
    (honce : (report.checks.map (·.id)).Nodup)
    (hjudged : RuntimeInspector.Judged effectiveRoot report.checks) :
    ExitStatus effectiveRoot report.finalize := by
  have hmem : ∀ c, c ∈ report.finalize.checks ↔ c ∈ report.checks := fun c =>
    (sortChecks_perm _).mem_iff
  obtain ⟨activity, hin, hid, hoptional, hstatus⟩ := hjudged.activity
  have hactivity : ∀ c ∈ report.checks, c.id = "runtime.activity" → c = activity := by
    intro c hc h
    exact List.inj_on_of_nodup_map honce hc hin (h.trans hid.symm)
  obtain ⟨hpassed, hclear⟩ := overallOf_cases report.checks
  -- required checks neither fail nor are blocked exactly when they pass: none of them warns
  have hothers : (∀ c ∈ report.checks, c.requirement = .required → c.status ≠ .fail ∧ c.status ≠ .blocked) ↔
      ∀ c ∈ report.checks, c.id ≠ "runtime.activity" → c.status = .pass := by
    constructor
    · intro h c hc hne
      obtain ⟨hrequired, hwarn⟩ := hjudged.others c hc hne
      obtain ⟨hfail, hblocked⟩ := h c hc hrequired
      cases hcase : c.status with
      | pass => rfl
      | warn => exact absurd hcase hwarn
      | fail => exact absurd hcase hfail
      | blocked => exact absurd hcase hblocked
    · intro h c hc hrequired
      have hne : c.id ≠ "runtime.activity" := by
        intro h'
        rw [hactivity c hc h', hoptional] at hrequired
        cases hrequired
      rw [h c hc hne]
      exact ⟨nofun, nofun⟩
  have hsplit : (∀ c ∈ report.checks, c.status = .pass) ↔
      (∀ c ∈ report.checks, c.id ≠ "runtime.activity" → c.status = .pass) ∧
        ∀ c ∈ report.checks, c.id = "runtime.activity" → c.status = .pass := by
    constructor
    · intro h
      exact ⟨fun c hc _ => h c hc, fun c hc _ => h c hc⟩
    · rintro ⟨h, h'⟩ c hc
      by_cases hc' : c.id = "runtime.activity"
      · exact h' c hc hc'
      · exact h c hc hc'
  rw [hothers] at hclear
  constructor
  · simp only [hmem, exitCode_eq_zero, overall_finalize, hclear]
  · simp only [hmem, overall_finalize, hpassed, hsplit]
  · simp only [hmem, overall_finalize]
    constructor
    · intro h
      have hall := hclear.mp (.inr h)
      refine ⟨hall, activity, hin, hid, ?_⟩
      rcases hstatus with hpass | hwarn
      · have hp : overallOf report.checks = .passed := by
          refine hpassed.mpr (hsplit.mpr ⟨hall, fun c hc hc' => ?_⟩)
          rw [hactivity c hc hc', hpass]
        cases hp.symm.trans h
      · exact hwarn
    · rintro ⟨hall, c, hc, hc', hwarn⟩
      rcases hclear.mpr hall with hp | hd
      · cases (hpassed.mp hp c hc).symm.trans hwarn
      · exact hd
  · intro hroot h
    obtain ⟨c, hc, haccess, hdenied⟩ := hjudged.root hroot
    have hall := hclear.mp (by rwa [exitCode_eq_zero, overall_finalize] at h)
    have hne : "device.access" ≠ "runtime.activity" := by decide
    exact hdenied (hall c hc (haccess ▸ hne))

/-- A doctor run exits 0 exactly when everything but the activity passes, and never under root;
    finalizing again changes nothing, and the verdict does not depend on the order of the checks. -/
theorem doctor_exit_status (inspector : RuntimeInspector) {profile : Profile}
    (hvalid : profile.validate = .ok ()) (facts : PlatformFacts) (toolVersion : String) :
    (∀ t r, Runs (inspector.inspectDoctor profile facts) t r → ∃ result, r = .ok result ∧
      ExitStatus facts.effectiveRoot
        (selectedReport toolVersion .doctor facts profile result).finalize) ∧
    (∀ report : DiagnosticReport, report.finalize.finalize = report.finalize) ∧
    ∀ report report' : DiagnosticReport, report.checks.Perm report'.checks →
      report.finalize.overall = report'.finalize.overall ∧
        report.finalize.exitCode = report'.finalize.exitCode := by
  refine ⟨fun t r hrun => ?_, finalize_finalize, fun report report' hperm => ?_⟩
  · obtain ⟨result, rfl, hshape, -, -⟩ := returns_runs (inspector.inspectDoctor_returns hvalid facts) hrun
    have hjudged := inspector.inspectDoctor_weighs profile facts t result hrun
    exact ⟨result, rfl, exitStatus_of_judged hshape.once hjudged⟩
  · have hoverall : report.finalize.overall = report'.finalize.overall := by
      rw [overall_finalize, overall_finalize, overallOf_perm hperm]
    exact ⟨hoverall, by rw [DiagnosticReport.exitCode, DiagnosticReport.exitCode, hoverall]⟩

/-- On a machine that answers nothing, the doctor's exit status is read off its checks. -/
theorem doctor_exit_status_silent : ∃ result, Silent.doctor.2 = .ok result ∧
    ExitStatus false (selectedReport "0.1.0" .doctor Silent.facts Silent.profile result).finalize :=
  (@doctor_exit_status Silent.inspector Silent.profile rfl Silent.facts "0.1.0").1 _ _
    (runs_run Silent.machine _ [])

end NpuStack.Runtime
