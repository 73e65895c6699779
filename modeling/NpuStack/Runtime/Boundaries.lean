import NpuStack.Runtime.Report
import NpuStack.Schemes.Handler

/-! The inspector over injected boundaries: packages, devices and activity counters answer anything,
    and so do the files and processes of the helpers.

        preflight = packages
        doctor    = packages, devices, Level Zero, counters, OpenVINO, counters

    The production inspector is this one with its own boundaries (`inspectDoctor_production`). -/

namespace NpuStack.Runtime
open Interaction Interaction.Prog Text Schema NpuStack.Core

/-- A call of an injected boundary, or a question of the inspector itself. -/
inductive Call where
  | packages (profile : Profile)
  | devices (root : String) (effectiveRoot : Bool) (command : DiagnosticCommand)
  | snapshot (root : String)
  | own (q : Question)

abbrev Reply : Call → Type
  | .packages _ => PackageInspection
  | .devices _ _ _ => DeviceInspection
  | .snapshot _ => BusyCounterSnapshot
  | .own q => Answer q

/-- Code that inspects through the boundaries. -/
abbrev Injected (α : Type) := Prog Reply Panic α

/-- A question the inspector asks without a boundary. -/
def ownCall (q : Question) : Injected (Answer q) := query (Call.own q)

def own {α : Type} (p : Inspection α) : Injected α := p.handle ownCall

/-- The result of a preflight, from what the packages boundary found. -/
def preflightResult (profile : Profile) (facts : PlatformFacts) (found : PackageInspection) :
    InspectionResult :=
  let activation := inspectActivation profile found.packages (some facts.bootTimeEpoch)
  finish {
    checks := check "platform.profile" .pass "Compatible platform profile is selected" [] ::
      (found.checks ++ [kernelCheck facts, firmwareCheck found.checks activation.state])
    rebootRequired := activation.rebootRequired
    reloginRequired := activation.reloginRequired }

namespace Injected

abbrev call (c : Call) : Injected (Reply c) := query c

def inspectPreflight (profile : Profile) (facts : PlatformFacts) : Injected InspectionResult := do
  let found : PackageInspection ← call (.packages profile)
  return preflightResult profile facts found

def inspectCommon (inspector : RuntimeInspector) (profile : Profile) (facts : PlatformFacts)
    (command : DiagnosticCommand) : Injected InspectionResult := do
  let result ← inspectPreflight profile facts
  let devices : DeviceInspection ← call (.devices inspector.paths.root facts.effectiveRoot command)
  return { result with checks := result.checks ++ devices.checks }

def inspectDoctor (inspector : RuntimeInspector) (profile : Profile) (facts : PlatformFacts) :
    Injected InspectionResult := do
  let result ← inspectCommon inspector profile facts .doctor
  let levelZero ← own (inspector.runLevelZero profile)
  let before : BusyCounterSnapshot ← call (.snapshot inspector.paths.root)
  let openvino ← own (inspector.openvinoDoctor levelZero.unsafeToContinue)
  let after : BusyCounterSnapshot ← call (.snapshot inspector.paths.root)
  return finish { result with
    checks := result.checks ++ [levelZero.check] ++ openvino ++ [evaluateActivity before after] }

end Injected

/-! ### The production boundaries -/

namespace RuntimeInspector

variable (inspector : RuntimeInspector)

/-- The boundaries that read the machine. -/
def production : ∀ c : Call, Inspection (Reply c)
  | .packages profile => inspector.packages.inspect profile
  | .devices root effectiveRoot command => inspectDevices root effectiveRoot command
  | .snapshot root => readBusyCounters root
  | .own q => ask q

theorem own_production {α : Type} (p : Inspection α) : (own p).handle inspector.production = p := by
  rw [own, handle_handle]
  simp only [ownCall, handle_query]
  exact handle_ask

theorem inspectPreflight_production (profile : Profile) (facts : PlatformFacts) :
    (Injected.inspectPreflight profile facts).handle inspector.production =
      inspector.inspectPreflight profile facts := by
  rw [Injected.inspectPreflight, handle_bind, handle_query]
  rfl

theorem inspectCommon_production (profile : Profile) (facts : PlatformFacts)
    (command : DiagnosticCommand) :
    (Injected.inspectCommon inspector profile facts command).handle inspector.production =
      inspector.inspectCommon profile facts command := by
  rw [Injected.inspectCommon, handle_bind, inspectPreflight_production, inspectCommon]
  simp only [handle_bind, handle_query, handle_pure]
  rfl

theorem inspectDoctor_production (profile : Profile) (facts : PlatformFacts) :
    (Injected.inspectDoctor inspector profile facts).handle inspector.production =
      inspector.inspectDoctor profile facts := by
  rw [Injected.inspectDoctor, handle_bind, inspectCommon_production, inspectDoctor]
  simp only [handle_bind, own_production, handle_query, handle_pure]
  rfl

end RuntimeInspector

/-! ### What package inspection asks -/

/-- The critical files of a profile, below a root. -/
def criticalFiles (root : String) (profile : Profile) : List String :=
  profile.components.values.flatMap fun c =>
    c.provider.files.filterMap fun f => (stripPrefix "/" f.path).map (joinPath root)

/-- Runs of the package manager, and looks at these files: nothing is listed or opened for writing. -/
def PackageQuestion (rpmExecutable : String) (paths : List String) : Question → Prop
  | .run request => request.executable = rpmExecutable ∧ request.environment = []
  | .symlinkMetadata path | .openRead path | .handleMetadata path | .readToEnd path => path ∈ paths
  | .readDir _ | .openReadWrite _ => False

section
variable (inspector : RpmPackageInspector) {paths : List String}

theorem hashRegularFile_asks {path : String} (hpath : path ∈ paths) :
    (inspector.hashRegularFile path).Asks (PackageQuestion inspector.rpmExecutable paths) := by
  refine asks_bind ((asks_query _).mpr hpath) fun before => ?_
  cases before with
  | error e => exact asks_pure _
  | ok before =>
    dsimp only
    split
    · exact asks_pure _
    split
    · exact asks_pure _
    refine asks_bind ((asks_query _).mpr hpath) fun opened => ?_
    cases opened with
    | error e => exact asks_pure _
    | ok _ =>
      refine asks_bind ((asks_query _).mpr hpath) fun opened => ?_
      cases opened with
      | error e => exact asks_pure _
      | ok opened =>
        refine asks_bind ((asks_query _).mpr hpath) fun after => ?_
        cases after with
        | error e => exact asks_pure _
        | ok after =>
          dsimp only
          split
          · exact asks_pure _
          refine asks_bind ((asks_query _).mpr hpath) fun bytes => ?_
          cases bytes with
          | error e => exact asks_pure _
          | ok bytes => exact asks_pure _

/-- A file of the profile is looked at below the root, or not at all. -/
theorem inspectFile_asks {path : String}
    (hpath : ∀ relative, stripPrefix "/" path = some relative → joinPath inspector.root relative ∈ paths) :
    (inspector.inspectFile path).Asks (PackageQuestion inspector.rpmExecutable paths) := by
  rw [RpmPackageInspector.inspectFile]
  split
  · exact asks_pure _
  next relative hrelative => exact hashRegularFile_asks inspector (hpath relative hrelative)

theorem queryOwner_asks (path : String) :
    (inspector.queryOwner path).Asks (PackageQuestion inspector.rpmExecutable paths) :=
  asks_bind ((asks_query _).mpr ⟨rfl, rfl⟩) fun _ => asks_pure _

theorem entryOr_asks {α : Type} {P : Question → Prop} {path : String} {known : List (String × α)}
    {make : Inspection α} (hmake : make.Asks P) : (entryOr path known make).Asks P := by
  rw [entryOr]
  split
  · exact asks_pure _
  · exact asks_bind hmake fun _ => asks_pure _

theorem inspectProviderFiles_asks (capability : String) (provider : NativeProvider)
    (installed : InstalledPackage) (files : List InstalledFile)
    (hfiles : ∀ f ∈ files, ∀ relative, stripPrefix "/" f.path = some relative →
      joinPath inspector.root relative ∈ paths) :
    ∀ observed, (inspectProviderFiles inspector capability provider installed files observed).Asks
      (PackageQuestion inspector.rpmExecutable paths) := by
  induction files with
  | nil =>
    intro observed
    exact asks_pure _
  | cons expected rest ih =>
    intro observed
    obtain ⟨hfirst, hrest⟩ := List.forall_mem_cons.mp hfiles
    rw [inspectProviderFiles]
    refine asks_bind (entryOr_asks (inspectFile_asks inspector hfirst)) ?_
    rintro ⟨file, files⟩
    cases file with
    | failed code => exact asks_pure _
    | digest actual =>
      dsimp only
      split
      · exact asks_pure _
      refine asks_bind (entryOr_asks (queryOwner_asks inspector _)) ?_
      rintro ⟨owner, owners⟩
      cases owner with
      | error code => exact asks_pure _
      | ok actual =>
        dsimp only
        split
        · exact asks_pure _
        · exact ih hrest _

/-- A package inspection runs the package manager and looks at the profile's critical files. -/
theorem inspect_asks (profile : Profile) : (inspector.inspect profile).Asks
    (PackageQuestion inspector.rpmExecutable (criticalFiles inspector.root profile)) := by
  rw [RpmPackageInspector.inspect]
  split
  · exact asks_pure _
  refine asks_bind (asks_mapM fun package _ => ?_) fun queries => ?_
  · refine asks_bind (asks_bind ((asks_query _).mpr ⟨rfl, rfl⟩) fun _ => asks_pure _) fun _ => asks_pure _
  refine asks_lift_bind fun conflict => asks_bind (asks_foldlM fun acc entry hentry => ?_) fun _ => asks_pure _
  refine asks_bind (asks_lift_bind fun found => ?_) fun _ => asks_pure _
  cases found with
  | missing => exact asks_pure _
  | failed code => exact asks_pure _
  | present installed =>
    dsimp only
    split
    · exact asks_pure _
    refine inspectProviderFiles_asks inspector _ _ _ _ (fun f hf relative hrelative => ?_) _
    refine List.mem_flatMap.mpr ⟨entry.2, List.mem_map_of_mem hentry, ?_⟩
    exact List.mem_filterMap.mpr ⟨f, hf, by rw [hrelative]; rfl⟩

end

/-! ### What a doctor run launches -/

/-- A question of the inspector itself, as an event of the injected run. -/
def ownEvent (e : Event Answer) : Event Reply := ⟨.own e.question, e.answer⟩

theorem implements_own {t : List (Event Answer)} {t' : List (Event Reply)}
    (h : Implements ownCall t t') : t' = t.map ownEvent := by
  induction h with
  | nil => rfl
  | cons hrun _ ih =>
    obtain ⟨_, hs, ha⟩ := runs_query.mp hrun
    cases ha
    rw [hs, ih]
    rfl

theorem returns_own {α : Type} {p : Inspection α} {P : List (Event Answer) → α → Prop}
    (hp : p.Returns P) : (own p).Returns fun t' a => ∃ t, t' = t.map ownEvent ∧ P t a := by
  have hcalls : ∀ q, (ownCall q).Returns fun _ _ => True := by
    intro q
    exact returns_query.mpr fun _ => trivial
  refine (returns_handle hcalls hp).mono ?_
  rintro t' a ⟨t, himpl, hP⟩
  exact ⟨t, implements_own himpl, hP⟩

/-- A run of this request. -/
def Launched (request : ProcessRequest) (t : List (Event Reply)) : Prop :=
  ∃ e ∈ t, e.question = .own (.run request)

theorem launched_own {request : ProcessRequest} {t : List (Event Answer)} {e : Event Answer}
    (he : e ∈ t) (hrun : e.question = .run request) : Launched request (t.map ownEvent) :=
  ⟨ownEvent e, List.mem_map_of_mem he, congrArg Call.own hrun⟩

/-- A required check fails or is blocked. -/
def Refuted (checks : List DiagnosticCheck) : Prop :=
  ∃ c ∈ checks, c.requirement = .required ∧ (c.status = .fail ∨ c.status = .blocked)

theorem refuted_of_weighed {c : DiagnosticCheck} {checks : List DiagnosticCheck} (hc : c ∈ checks)
    (hweighed : Weighed c) (hstatus : c.status ≠ .pass) : Refuted checks := by
  obtain ⟨hrequired, hwarn⟩ := hweighed
  refine ⟨c, hc, hrequired, ?_⟩
  cases hcase : c.status with
  | pass => exact absurd hcase hstatus
  | warn => exact absurd hcase hwarn
  | fail => exact .inl rfl
  | blocked => exact .inr rfl

/-- A refuted report is never passed or degraded. -/
theorem overallOf_refuted {checks : List DiagnosticCheck} (h : Refuted checks) :
    overallOf checks = .failed ∨ overallOf checks = .blocked := by
  obtain ⟨c, hc, hrequired, hstatus⟩ := h
  have hclear := (overallOf_cases checks).2
  cases hcase : overallOf checks with
  | failed => exact .inl rfl
  | blocked => exact .inr rfl
  | passed =>
    obtain ⟨hfail, hblocked⟩ := hclear.mp (.inl hcase) c hc hrequired
    rcases hstatus with h | h
    · exact absurd h hfail
    · exact absurd h hblocked
  | degraded =>
    obtain ⟨hfail, hblocked⟩ := hclear.mp (.inr hcase) c hc hrequired
    rcases hstatus with h | h
    · exact absurd h hfail
    · exact absurd h hblocked

namespace RuntimeInspector

variable (inspector : RuntimeInspector)

/-- The Level Zero check passes only on the output of its helper. -/
theorem runLevelZero_launched (profile : Profile) :
    (inspector.runLevelZero profile).Returns fun t c => c.check.status = .pass →
      ∃ e ∈ t, e.question = .run inspector.levelZeroRequest := by
  rw [runLevelZero, returns_bind]
  refine (runProbe_returns _ _).mono fun t r hprobed => ?_
  cases r with
  | error failure =>
    intro hpass
    cases hpass
  | ok report =>
    obtain ⟨output, hin, hparse⟩ := hprobed.report report rfl
    obtain ⟨-, -, haccepted⟩ := parseProbeOutput_ok hparse
    have hlaunched : ∃ e ∈ t ++ [], e.question = .run inspector.levelZeroRequest :=
      ⟨_, List.mem_append_left _ hin, rfl⟩
    dsimp only
    split
    · next hfail =>
      obtain ⟨code, -, heq⟩ := failedReportCode_ok haccepted hfail
      rw [heq]
      exact fun _ => hlaunched
    split
    · split
      · exact fun _ => hlaunched
      · exact fun _ => hlaunched
    · exact fun _ => hlaunched

/-- What an injected doctor run called and concluded. -/
structure InjectedDoctor (profile : Profile) (facts : PlatformFacts) (t : List (Event Reply))
    (checks : List DiagnosticCheck) : Prop where
  packages : ∃ (found : PackageInspection) (rest : List (Event Reply)),
    t = ⟨.packages profile, found⟩ :: rest
  devices : ∃ e ∈ t, e.question = .devices inspector.paths.root facts.effectiveRoot .doctor
  levelZero : Launched inspector.levelZeroRequest t ∨ Refuted checks
  openvino : Launched (inspector.openvinoRequest .infer) t ∨ Refuted checks

theorem injectedDoctor_returns (profile : Profile) (facts : PlatformFacts) :
    (Injected.inspectDoctor inspector profile facts).Returns fun t result =>
      inspector.InjectedDoctor profile facts t result.checks := by
  have hlevel := returns_own ((inspector.runLevelZero_launched profile).and_yields
    (inspector.runLevelZero_weighs profile))
  rw [Injected.inspectDoctor, Injected.inspectCommon, Injected.inspectPreflight]
  simp only [Injected.call, returns_bind, returns_query, returns_pure]
  intro found devices
  refine hlevel.mono ?_
  rintro _ levelZero ⟨tz, rfl, hpass, hweighed⟩ before
  refine (returns_own ((inspector.openvinoDoctor_returns levelZero).and_yields
    (inspector.openvinoDoctor_weighs _))).mono ?_
  rintro _ openvino ⟨tv, rfl, ⟨-, hrun⟩, hopenvino⟩ after
  have hmem : ∀ c ∈ levelZero.check :: openvino, c ∈ (finish { preflightResult profile facts found with
      checks := (preflightResult profile facts found).checks ++ devices.checks ++ [levelZero.check] ++
        openvino ++ [evaluateActivity before after] }).checks := by
    intro c hc
    refine (sortChecks_perm _).mem_iff.mpr ?_
    rcases List.mem_cons.mp hc with rfl | hc
    · simp
    · simp [hc]
  refine ⟨⟨found, _, rfl⟩, ⟨⟨Call.devices _ _ _, devices⟩, by simp, rfl⟩, ?_, ?_⟩
  · by_cases hstatus : levelZero.check.status = .pass
    · obtain ⟨e, he, hquestion⟩ := hpass hstatus
      obtain ⟨e', he', hlaunched⟩ := launched_own he hquestion
      exact .inl ⟨e', by simp [he'], hlaunched⟩
    · exact .inr (refuted_of_weighed (hmem _ List.mem_cons_self) hweighed hstatus)
  · obtain ⟨c, hc, hid⟩ : ∃ c ∈ openvino, c.id = "runtime.inference" := by
      have hin : "runtime.inference" ∈ openvino.map (·.id) := by
        rw [hrun.ids]
        simp
      exact List.mem_map.mp hin
    by_cases hstatus : c.status = .pass
    · obtain ⟨-, output, report, observation, hin, -⟩ := hrun.passed ⟨c, hc, hid, hstatus⟩
      obtain ⟨e', he', hlaunched⟩ := launched_own hin rfl
      exact .inl ⟨e', by simp [he'], hlaunched⟩
    · exact .inr (refuted_of_weighed (hmem _ (List.mem_cons_of_mem _ hc)) (hopenvino c hc) hstatus)

end RuntimeInspector

end NpuStack.Runtime
