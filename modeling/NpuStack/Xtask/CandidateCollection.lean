import NpuStack.Runtime.Boundaries
import NpuStack.Xtask.KernelCandidate

/-! One observation of a candidate: a metadata preflight and, when asked for and ready, the probes.

        admitted ─▶ preflight ──not ready──▶ blocked check ─▶ failed or blocked
                        └─probe ∧ ready──▶ doctor ─────────▶ passed only if both helpers ran

    The observation is never a qualification, whatever the boundaries answer. -/

namespace NpuStack.Xtask
open Interaction Interaction.Prog Text Schema NpuStack.Runtime NpuStack.Core

/-- Metadata-only preparation versus explicitly requested normal-user probes. -/
inductive CollectionMode where
  | preflight | probe
  deriving DecidableEq, Repr

/-- A single candidate observation, never a qualification or promotion receipt. -/
structure CandidateObservation where
  schemaVersion : ℕ
  mode : CollectionMode
  profileSha256 : String
  kernelRelease : String
  qualificationComplete : Bool
  diagnostic : DiagnosticReport

/-- The refusals before anything is inspected. -/
def admitted (toml : String → Except String Profile) (profileText : String) (facts : PlatformFacts)
    (kernelRelease : String) : Except String Profile := do
  let profile ← (Profile.parseToml toml profileText).mapError display
  refuse (profile.status ≠ .candidate ∨ profile.qualification.isSome = true)
    "collection requires an unqualified candidate"
  refuse (facts.effectiveRoot = true) "candidate collection requires a normal user"
  refuse (platformMatches profile facts = false) "candidate does not match the observed platform"
  let kernel ← (KernelVersion.parseRelease kernelRelease).mapError display
  refuse (kernel ≠ facts.kernel) "kernel release is inconsistent with discovered facts"
  return profile

/-- Nothing is pending, and every required check passes. -/
def ready (preflight : InspectionResult) : Bool :=
  !preflight.rebootRequired && !preflight.reloginRequired &&
    preflight.checks.all fun check => check.requirement ≠ .required || check.status = .pass

/-- The check of an observation without probes. -/
def probesNotExecuted (mode : CollectionMode) : DiagnosticCheck :=
  check "qualification.probes" .blocked "Hardware probes were not executed"
    (details [("error_code", .str (match mode with
      | .preflight => "PREFLIGHT_ONLY"
      | .probe => "PREFLIGHT_NOT_READY"))])

/-- The observation of an inspection. -/
def observe (inspector : RuntimeInspector) (toolVersion profileText : String) (facts : PlatformFacts)
    (kernelRelease : String) (mode : CollectionMode) (profile : Profile)
    (inspection : InspectionResult) : CandidateObservation where
  schemaVersion := 1
  mode
  profileSha256 := inspector.sha256 (utf8 profileText)
  kernelRelease
  qualificationComplete := false
  diagnostic := (selectedReport toolVersion
    (match mode with | .preflight => .status | .probe => .doctor) facts profile inspection).finalize

/-- Collects one observation after checking candidate status and real platform facts. -/
def collect (inspector : RuntimeInspector) (toml : String → Except String Profile)
    (toolVersion profileText : String) (facts : PlatformFacts) (kernelRelease : String)
    (mode : CollectionMode) : Injected (Except String CandidateObservation) :=
  match admitted toml profileText facts kernelRelease with
  | .error e => pure (.error e)
  | .ok profile => do
    let preflight ← Injected.inspectPreflight profile facts
    let inspection ← if mode = .probe && ready preflight then
        Injected.inspectDoctor inspector profile facts
      else pure preflight
    let inspection := if mode = .preflight || !ready preflight then
        { inspection with checks := inspection.checks ++ [probesNotExecuted mode] }
      else inspection
    return .ok (observe inspector toolVersion profileText facts kernelRelease mode profile inspection)

/-! ### What was collected -/

/-- No reboot or relogin is pending, and every required check of the preflight passes. -/
def PreflightPassed (result : InspectionResult) : Prop :=
  result.rebootRequired = false ∧ result.reloginRequired = false ∧
    ∀ c ∈ result.checks, c.requirement = .required → c.status = .pass

theorem ready_iff {result : InspectionResult} : ready result = true ↔ PreflightPassed result := by
  simp only [ready, PreflightPassed, Bool.and_eq_true, Bool.not_eq_true', List.all_eq_true,
    Bool.or_eq_true, decide_eq_true_eq, and_assoc, ne_eq, ← imp_iff_not_or]

/-- The input is an unqualified candidate for this machine, its user and its kernel. -/
structure Admitted (toml : String → Except String Profile) (profileText : String)
    (facts : PlatformFacts) (kernelRelease : String) (profile : Profile) : Prop where
  parsed : Profile.parseToml toml profileText = .ok profile
  candidate : profile.status = .candidate
  unqualified : profile.qualification = none
  user : facts.effectiveRoot = false
  platform : platformMatches profile facts = true
  kernel : KernelVersion.parseRelease kernelRelease = .ok facts.kernel

theorem admitted_ok {toml : String → Except String Profile} {profileText kernelRelease : String}
    {facts : PlatformFacts} {profile : Profile} :
    admitted toml profileText facts kernelRelease = .ok profile ↔
      Admitted toml profileText facts kernelRelease profile := by
  simp only [admitted, except_bind_ok, mapError_ok, refuse_ok, not_or, not_not, Bool.not_eq_true,
    Bool.not_eq_false, Option.isSome_eq_false_iff, Option.isNone_iff_eq_none, pure, Except.pure,
    Except.ok.injEq]
  constructor
  · rintro ⟨found, hparsed, _, ⟨hcandidate, hunqualified⟩, _, huser, _, hplatform, kernel, hkernel, _, rfl, rfl⟩
    exact ⟨hparsed, hcandidate, hunqualified, huser, hplatform, hkernel⟩
  · rintro ⟨hparsed, hcandidate, hunqualified, huser, hplatform, hkernel⟩
    exact ⟨profile, hparsed, (), ⟨hcandidate, hunqualified⟩, (), huser, (), hplatform, facts.kernel, hkernel,
      (), rfl, rfl⟩

/-- What a collection called and returned. After the first package inspection it goes on only to
    probe, and only if that preflight passed. -/
structure Collected (inspector : RuntimeInspector) (toml : String → Except String Profile)
    (profileText : String) (facts : PlatformFacts) (kernelRelease : String) (mode : CollectionMode)
    (t : List (Event Reply)) (outcome : Except String CandidateObservation) : Prop where
  calls : t = [] ∨ ∃ (profile : Profile) (found : PackageInspection) (rest : List (Event Reply)),
    Admitted toml profileText facts kernelRelease profile ∧ t = ⟨.packages profile, found⟩ :: rest ∧
      (rest = [] ∨ mode = .probe ∧ PreflightPassed (preflightResult profile facts found))
  refused : ∀ message, outcome = .error message → t = []
  unprobed : ∀ observation, outcome = .ok observation →
    (¬Launched inspector.levelZeroRequest t ∨ ¬Launched (inspector.openvinoRequest .infer) t) →
    observation.diagnostic.overall = .failed ∨ observation.diagnostic.overall = .blocked
  incomplete : ∀ observation, outcome = .ok observation → observation.qualificationComplete = false
  admitted : ∀ observation, outcome = .ok observation →
    ∃ profile, Admitted toml profileText facts kernelRelease profile

section
variable (inspector : RuntimeInspector) (toml : String → Except String Profile)
  (toolVersion profileText : String) (facts : PlatformFacts) (kernelRelease : String)
  (mode : CollectionMode)

theorem observe_refuted {profile : Profile} {inspection : InspectionResult}
    (h : Refuted inspection.checks) :
    (observe inspector toolVersion profileText facts kernelRelease mode profile
      inspection).diagnostic.overall = .failed ∨
    (observe inspector toolVersion profileText facts kernelRelease mode profile
      inspection).diagnostic.overall = .blocked := by
  have hoverall := overallOf_refuted h
  simp only [observe, overall_finalize]
  exact hoverall

/-- The injected check refutes by itself. -/
theorem refuted_probesNotExecuted (checks : List DiagnosticCheck) :
    Refuted (checks ++ [probesNotExecuted mode]) :=
  ⟨probesNotExecuted mode, by simp, rfl, .inr rfl⟩

/-- An observation of the first preflight alone carries the injected check. -/
theorem collected_preflight {profile : Profile} {found : PackageInspection}
    (hadmitted : Admitted toml profileText facts kernelRelease profile) {inspection : InspectionResult}
    (hrefuted : Refuted inspection.checks) :
    Collected inspector toml profileText facts kernelRelease mode [⟨.packages profile, found⟩]
      (.ok (observe inspector toolVersion profileText facts kernelRelease mode profile inspection)) where
  calls := .inr ⟨profile, found, [], hadmitted, rfl, .inl rfl⟩
  refused := nofun
  unprobed := by
    rintro _ ⟨⟩ -
    exact observe_refuted inspector toolVersion profileText facts kernelRelease mode hrefuted
  incomplete := by
    rintro _ ⟨⟩
    rfl
  admitted := fun _ _ => ⟨profile, hadmitted⟩

/-- A doctor run after a passed preflight: a helper that did not run leaves a required check unmet. -/
theorem collected_doctor {profile : Profile} {found : PackageInspection}
    (hadmitted : Admitted toml profileText facts kernelRelease profile)
    (hpassed : PreflightPassed (preflightResult profile facts found)) {t : List (Event Reply)}
    {result : InspectionResult} (hdoctor : inspector.InjectedDoctor profile facts t result.checks) :
    Collected inspector toml profileText facts kernelRelease .probe (⟨.packages profile, found⟩ :: t)
      (.ok (observe inspector toolVersion profileText facts kernelRelease .probe profile result)) where
  calls := .inr ⟨profile, found, t, hadmitted, rfl, .inr ⟨rfl, hpassed⟩⟩
  refused := nofun
  unprobed := by
    rintro _ ⟨⟩ hunlaunched
    have hrest : ∀ request, ¬Launched request (⟨.packages profile, found⟩ :: t) → ¬Launched request t := by
      rintro request h ⟨e, he, hrun⟩
      exact h ⟨e, List.mem_cons_of_mem _ he, hrun⟩
    refine observe_refuted inspector toolVersion profileText facts kernelRelease .probe ?_
    rcases hunlaunched with h | h
    · exact hdoctor.levelZero.resolve_left (hrest _ h)
    · exact hdoctor.openvino.resolve_left (hrest _ h)
  incomplete := by
    rintro _ ⟨⟩
    rfl
  admitted := fun _ _ => ⟨profile, hadmitted⟩

theorem collect_returns :
    (collect inspector toml toolVersion profileText facts kernelRelease mode).Returns
      (Collected inspector toml profileText facts kernelRelease mode) := by
  rw [collect]
  cases hadmitted : admitted toml profileText facts kernelRelease with
  | error message =>
    dsimp only
    rw [returns_pure]
    exact ⟨.inl rfl, fun _ _ => rfl, by simp, by simp, by simp⟩
  | ok profile =>
    have hadmitted := admitted_ok.mp hadmitted
    simp only [Injected.inspectPreflight, Injected.call, returns_bind, returns_query, returns_pure]
    intro found
    by_cases hprobe : mode = .probe ∧ ready (preflightResult profile facts found) = true
    · obtain ⟨rfl, hready⟩ := hprobe
      simp only [hready, decide_true, Bool.and_true, if_true, reduceCtorEq, decide_false, Bool.not_true,
        Bool.or_false, Bool.false_eq_true, if_false, returns_bind, returns_pure]
      refine (inspector.injectedDoctor_returns profile facts).mono fun t result hdoctor => ?_
      rw [List.append_nil, List.append_nil]
      exact collected_doctor inspector toml toolVersion profileText facts kernelRelease hadmitted
        (ready_iff.mp hready) hdoctor
    · have hskip : (mode = .probe && ready (preflightResult profile facts found)) = false := by
        simpa using hprobe
      have hblocked : (mode = .preflight || !ready (preflightResult profile facts found)) = true := by
        cases mode with
        | preflight => rfl
        | probe => simpa using hprobe
      simp only [hskip, hblocked, Bool.false_eq_true, if_false, if_true]
      exact collected_preflight inspector toml toolVersion profileText facts kernelRelease mode hadmitted
        (refuted_probesNotExecuted mode _)

end

/-! ### The production boundaries -/

theorem production_returns (inspector : RuntimeInspector) :
    ∀ c, (inspector.production c).Returns fun _ _ => True := by
  intro c
  cases c with
  | packages profile => exact Returns.mono (inspect_gives inspector.packages profile) fun _ _ _ => trivial
  | devices root effectiveRoot command =>
    exact Returns.mono (inspectDevices_gives root effectiveRoot command) fun _ _ _ => trivial
  | snapshot root => exact Returns.mono (readBusyCounters_gives root) fun _ _ _ => trivial
  | own q => exact returns_query.mpr fun _ => trivial

/-- For every behaviour of the injected boundaries, and on the machine itself: nothing beyond package
    metadata is inspected unless probes are asked for and the preflight passed, an observation whose
    helpers did not both run is failed or blocked, none is a qualification, and only an unqualified
    candidate that fits machine, user and kernel gives one. -/
theorem collect_never_overclaims (inspector : RuntimeInspector) (toml : String → Except String Profile)
    (toolVersion profileText : String) (facts : PlatformFacts) (kernelRelease : String)
    (mode : CollectionMode) :
    (∀ t r, Runs (collect inspector toml toolVersion profileText facts kernelRelease mode) t r →
      ∃ outcome, r = .ok outcome ∧
        Collected inspector toml profileText facts kernelRelease mode t outcome) ∧
    ∀ t r, Runs ((collect inspector toml toolVersion profileText facts kernelRelease mode).handle
        inspector.production) t r →
      ∃ calls outcome, r = .ok outcome ∧ Implements inspector.production calls t ∧
        Collected inspector toml profileText facts kernelRelease mode calls outcome ∧
        ((∃ e ∈ t, ∀ profile, Admitted toml profileText facts kernelRelease profile →
            ¬PackageQuestion inspector.paths.rpm (criticalFiles inspector.paths.root profile) e.question) →
          mode = .probe ∧ ∃ (profile : Profile) (found : PackageInspection) (rest : List (Event Reply)),
            calls = ⟨.packages profile, found⟩ :: rest ∧
              PreflightPassed (preflightResult profile facts found)) := by
  have hcollect := collect_returns inspector toml toolVersion profileText facts kernelRelease mode
  refine ⟨fun t r hrun => returns_runs hcollect hrun, fun t r hrun => ?_⟩
  obtain ⟨outcome, rfl, calls, himpl, hcollected⟩ :=
    returns_runs (returns_handle (production_returns inspector) hcollect) hrun
  refine ⟨calls, outcome, rfl, himpl, hcollected, ?_⟩
  rintro ⟨e, he, hforeign⟩
  rcases hcollected.calls with rfl | ⟨profile, found, rest, hadmitted, rfl, rfl | ⟨hmode, hpassed⟩⟩
  · cases himpl
    cases he
  · have hasks := himpl.asks fun e' he' => by
      cases List.mem_singleton.mp he'
      exact inspect_asks inspector.packages profile
    exact absurd (hasks e he) (hforeign profile hadmitted)
  · exact ⟨hmode, profile, found, rest, rfl, hpassed⟩

end NpuStack.Xtask
