import NpuStack.Runtime.Protocol
import NpuStack.Runtime.Provider

/-! The status and doctor runs. Packages, kernel and firmware come first, then the devices, then the
    two native helpers one after the other; the doctor also samples the busy-time counters around
    the OpenVINO run.

        preflight ─▶ devices ─▶ Level Zero ──ordinary──▶ OpenVINO ─▶ sort by identifier
                                    └─process broken──▶ OpenVINO not launched

    Every run, whatever the machine answers, ends with the same identifiers (`doctor_run_shape`). -/

namespace NpuStack.Runtime
open Interaction Interaction.Prog Text Schema NpuStack.Core

def LEVEL_ZERO_TIMEOUT : ℕ := 10
def OPENVINO_ENUMERATE_TIMEOUT : ℕ := 15
def OPENVINO_INFER_TIMEOUT : ℕ := 120
def PROBE_STDOUT_LIMIT : ℕ := 65536
def PROBE_STDERR_LIMIT : ℕ := 16384
def DRIVER_DISK_CACHE_SIZE : String × String := ("ZE_INTEL_NPU_CACHE_SIZE", "0")

/-- Installed and injected paths used by runtime inspection. -/
structure RuntimePaths where
  root : String
  levelZeroHelper : String
  openvinoHelper : String
  rpm : String
  deriving DecidableEq, Repr

structure InspectionResult where
  checks : List DiagnosticCheck
  rebootRequired : Bool
  reloginRequired : Bool

/-- The inspector, with the number reader and the digest of its libraries. -/
structure RuntimeInspector where
  paths : RuntimePaths
  f64 : String → Option ℚ
  sha256 : Bytes → String

structure ProbeCheck where
  check : DiagnosticCheck
  unsafeToContinue : Bool

structure ProbeFailure where
  code : String
  unsafeToContinue : Bool
  deriving DecidableEq, Repr

def ProbeFailure.ordinary (code : String) : ProbeFailure := ⟨code, false⟩

def ProbeFailure.fromProcess : ProcessError → ProbeFailure
  | .timeout => .ordinary "PROBE_TIMEOUT"
  | .invalidExecutable | .pipeIo | .join | .invalidTermination => ⟨"PROBE_PROCESS_FAILED", true⟩
  | .spawn => .ordinary "PROBE_PROCESS_FAILED"

def probeErrorCode : ProbeErrorCode → String
  | .levelZeroPermissionDenied => "LEVEL_ZERO_PERMISSION_DENIED"
  | .levelZeroDependencyUnavailable => "LEVEL_ZERO_DEPENDENCY_UNAVAILABLE"
  | .levelZeroNoVpu => "LEVEL_ZERO_NO_VPU"
  | .levelZeroEnumerationFailed => "LEVEL_ZERO_ENUMERATION_FAILED"
  | .levelZeroInternalFailure => "LEVEL_ZERO_INTERNAL_FAILURE"
  | .openVinoNoNpu => "OPENVINO_NO_NPU"
  | .openVinoEnumerationFailed => "OPENVINO_ENUMERATION_FAILED"
  | .openVinoCompileFailed => "OPENVINO_COMPILE_FAILED"
  | .openVinoWrongDevice => "OPENVINO_WRONG_DEVICE"
  | .openVinoInferenceFailed => "OPENVINO_INFERENCE_FAILED"
  | .openVinoOutputInvalid => "OPENVINO_OUTPUT_INVALID"
  | .openVinoInternalFailure => "OPENVINO_INTERNAL_FAILURE"

/-! ### Probes -/

/-- An absolute path of a regular file. -/
def validExecutablePath (path : String) : Inspection Bool :=
  if !startsWith "/" path then pure false
  else do
    match ← ask (.symlinkMetadata path) with
    | .ok metadata => return metadata.kind = .file
    | .error _ => return false

def probeRequest (executable : String) (mode : ProbeMode) (timeout : ℕ) : ProcessRequest where
  executable
  args := [match mode with | .enumerate => "enumerate" | .infer => "infer"]
  timeout
  stdoutLimit := PROBE_STDOUT_LIMIT
  stderrLimit := PROBE_STDERR_LIMIT
  environment := [DRIVER_DISK_CACHE_SIZE]

/-- What the answer of a helper means. -/
def classifyProbe (f64 : String → Option ℚ) (probe : ProbeKind) (mode : ProbeMode) :
    Except ProcessError ProcessOutput → Except ProbeFailure ProbeReport
  | .error e => .error (.fromProcess e)
  | .ok output =>
    if output.stdoutOverflow || output.stderrOverflow then
      .error (.ordinary "PROBE_OUTPUT_TOO_LARGE")
    else if output.termination ≠ .exit 0 then .error (.ordinary "PROBE_PROCESS_FAILED")
    else (parseProbeOutput f64 output.stdout probe mode).mapError fun e => .ordinary e.code

def runProbe (f64 : String → Option ℚ) (executable : String) (probe : ProbeKind) (mode : ProbeMode)
    (timeout : ℕ) : Inspection (Except ProbeFailure ProbeReport) := do
  if !(← validExecutablePath executable) then
    return .error (.ordinary "PROBE_EXECUTABLE_MISSING")
  return classifyProbe f64 probe mode (← ask (.run (probeRequest executable mode timeout)))

/-- The code of a failed report. -/
def failedReportCode (report : ProbeReport) : Inspection ProbeErrorCode :=
  (liftM (need report.errorCode (Panic.mk "validated failed report")) : Inspection ProbeErrorCode)

def levelZeroFailure (code : String) (unsafeToContinue : Bool) : ProbeCheck :=
  ⟨failedCheck "runtime.level_zero" "Level Zero exposes an Intel VPU" code, unsafeToContinue⟩

def levelZeroPass (devices : List LevelZeroDevice) : ProbeCheck where
  check := check "runtime.level_zero" .pass "Level Zero exposes an Intel VPU" (details [
    ("count", .unsigned devices.length),
    ("driver_versions", .arr (devices.map fun d => .unsigned d.driverVersion)),
    ("pci_ids", .arr (((devices.map fun d => d.vendorId ++ ":" ++ d.deviceId).dedup.mergeSort
      (· ≤ ·)).map .str))])
  unsafeToContinue := false

namespace RuntimeInspector

def runLevelZero (inspector : RuntimeInspector) (profile : Profile) : Inspection ProbeCheck := do
  match ← runProbe inspector.f64 inspector.paths.levelZeroHelper .levelZero .enumerate
      LEVEL_ZERO_TIMEOUT with
  | .error failure => return levelZeroFailure failure.code failure.unsafeToContinue
  | .ok report =>
    if report.outcome = .fail then
      return levelZeroFailure (probeErrorCode (← failedReportCode report)) false
    match report.observations with
    | .levelZero devices =>
      if devices.any fun device => profile.hardware.any fun expected =>
          expected.vendor = device.vendorId && expected.device = device.deviceId then
        return levelZeroPass devices
      else return levelZeroFailure "LEVEL_ZERO_NO_VPU" false
    | _ => return levelZeroFailure "PROBE_OUTPUT_INVALID" false

end RuntimeInspector

def openvinoFailure (code : String) : DiagnosticCheck :=
  failedCheck "runtime.openvino" "OpenVINO exposes an NPU device" code

def openvinoPass (values : List (String × Value)) : DiagnosticCheck :=
  check "runtime.openvino" .pass "OpenVINO exposes an NPU device" (details values)

def openvinoInferFailure (code : String) (discoveryPassed : Bool) : List DiagnosticCheck :=
  [if discoveryPassed then openvinoPass [] else openvinoFailure code,
    failedCheck "runtime.inference" "Direct NPU inference completed correctly" code]

def devicesAndVersion (availableDevices : List String) (runtimeVersion : String) :
    List (String × Value) :=
  [("available_devices", .arr (availableDevices.map .str)), ("runtime_version", .str runtimeVersion)]

def inferencePass (observation : OpenVinoInferObservation) : DiagnosticCheck :=
  check "runtime.inference" .pass "Direct NPU inference completed correctly" (details [
    ("execution_devices", .arr (observation.executionDevices.map .str)),
    ("graph_id", .str observation.graphId),
    ("iterations", .unsigned observation.iterations),
    ("tolerance", .float observation.tolerance)])

/-- Errors that come after discovery has succeeded. -/
def discoveryPassed : ProbeErrorCode → Bool
  | .openVinoCompileFailed | .openVinoWrongDevice | .openVinoInferenceFailed
  | .openVinoOutputInvalid => true
  | _ => false

namespace RuntimeInspector

def runOpenvinoEnumerate (inspector : RuntimeInspector) : Inspection DiagnosticCheck := do
  match ← runProbe inspector.f64 inspector.paths.openvinoHelper .openVino .enumerate
      OPENVINO_ENUMERATE_TIMEOUT with
  | .error failure => return openvinoFailure failure.code
  | .ok report =>
    if report.outcome = .fail then
      return openvinoFailure (probeErrorCode (← failedReportCode report))
    match report.observations with
    | .openVinoEnumerate observation =>
      return openvinoPass (devicesAndVersion observation.availableDevices observation.runtimeVersion)
    | _ => return openvinoFailure "PROBE_OUTPUT_INVALID"

def runOpenvinoInfer (inspector : RuntimeInspector) : Inspection (List DiagnosticCheck) := do
  match ← runProbe inspector.f64 inspector.paths.openvinoHelper .openVino .infer
      OPENVINO_INFER_TIMEOUT with
  | .error failure => return openvinoInferFailure failure.code false
  | .ok report =>
    if report.outcome = .fail then
      let code ← failedReportCode report
      return openvinoInferFailure (probeErrorCode code) (report.errorCode.any discoveryPassed)
    match report.observations with
    | .openVinoInfer observation =>
      return [openvinoPass (devicesAndVersion observation.availableDevices observation.runtimeVersion),
        inferencePass observation]
    | _ => return openvinoInferFailure "PROBE_OUTPUT_INVALID" false

end RuntimeInspector

/-! ### Platform checks -/

def kernelCheck (facts : PlatformFacts) : DiagnosticCheck :=
  if facts.intelVpuLoaded then
    check "kernel.module" .pass "Intel NPU kernel module is loaded" (details [("loaded", .bool true)])
  else failedCheck "kernel.module" "Intel NPU kernel module is loaded" "KERNEL_MODULE_MISSING"

def firmwareCheck (packageChecks : List DiagnosticCheck) (activation : ActivationState) :
    DiagnosticCheck :=
  let summary := "Intel NPU firmware matches the selected profile"
  match packageChecks.find? fun c => c.id = "package.npu_firmware" with
  | none => failedCheck "firmware.installed" summary "PACKAGE_NOT_INSTALLED"
  | some provider =>
    if provider.status ≠ .pass then
      check "firmware.installed" provider.status summary provider.details
    else if activation = .unknown then
      check "firmware.installed" .blocked summary
        (details [("error_code", .str "ACTIVATION_STATE_UNKNOWN")])
    else check "firmware.installed" .pass summary provider.details

def finish (result : InspectionResult) : InspectionResult :=
  { result with checks := sortChecks result.checks }

/-! ### The runs -/

namespace RuntimeInspector

def packages (inspector : RuntimeInspector) : RpmPackageInspector where
  rpmExecutable := inspector.paths.rpm
  root := inspector.paths.root
  sha256 := inspector.sha256

def inspectPreflight (inspector : RuntimeInspector) (profile : Profile) (facts : PlatformFacts) :
    Inspection InspectionResult := do
  let packageInspection ← inspector.packages.inspect profile
  let activation := inspectActivation profile packageInspection.packages (some facts.bootTimeEpoch)
  return finish {
    checks := check "platform.profile" .pass "Compatible platform profile is selected" [] ::
      (packageInspection.checks ++
        [kernelCheck facts, firmwareCheck packageInspection.checks activation.state])
    rebootRequired := activation.rebootRequired
    reloginRequired := activation.reloginRequired }

def inspectCommon (inspector : RuntimeInspector) (profile : Profile) (facts : PlatformFacts)
    (command : DiagnosticCommand) : Inspection InspectionResult := do
  let result ← inspector.inspectPreflight profile facts
  let devices ← inspectDevices inspector.paths.root facts.effectiveRoot command
  return { result with checks := result.checks ++ devices.checks }

/-- The OpenVINO helper in enumeration mode, unless the Level Zero one broke. -/
def openvinoStatus (inspector : RuntimeInspector) (unsafeToContinue : Bool) :
    Inspection DiagnosticCheck :=
  if unsafeToContinue then pure (openvinoFailure "PROBE_PROCESS_FAILED")
  else inspector.runOpenvinoEnumerate

/-- The same in inference mode. -/
def openvinoDoctor (inspector : RuntimeInspector) (unsafeToContinue : Bool) :
    Inspection (List DiagnosticCheck) :=
  if unsafeToContinue then pure (openvinoInferFailure "PROBE_PROCESS_FAILED" false)
  else inspector.runOpenvinoInfer

def inspectStatus (inspector : RuntimeInspector) (profile : Profile) (facts : PlatformFacts) :
    Inspection InspectionResult := do
  let result ← inspector.inspectCommon profile facts .status
  let levelZero ← inspector.runLevelZero profile
  let openvino ← inspector.openvinoStatus levelZero.unsafeToContinue
  return finish { result with checks := result.checks ++ [levelZero.check] ++ [openvino] }

def inspectDoctor (inspector : RuntimeInspector) (profile : Profile) (facts : PlatformFacts) :
    Inspection InspectionResult := do
  let result ← inspector.inspectCommon profile facts .doctor
  let levelZero ← inspector.runLevelZero profile
  let before ← readBusyCounters inspector.paths.root
  let openvino ← inspector.openvinoDoctor levelZero.unsafeToContinue
  let after ← readBusyCounters inspector.paths.root
  return finish { result with
    checks := result.checks ++ [levelZero.check] ++ openvino ++ [evaluateActivity before after] }

end RuntimeInspector

/-! ### One probe -/

/-- Process errors after which no further helper is trusted to start. -/
def BROKEN : List ProcessError := [.invalidExecutable, .pipeIo, .join, .invalidTermination]

/-- The run of that request ended with such an error. -/
inductive Broken (request : ProcessRequest) : Event Answer → Prop
  | intro {e : ProcessError} (he : e ∈ BROKEN) : Broken request ⟨.run request, .error e⟩

/-- What a run of a probe asked and returned. -/
structure Probed (f64 : String → Option ℚ) (executable : String) (request : ProcessRequest)
    (probe : ProbeKind) (mode : ProbeMode) (t : List (Event Answer))
    (r : Except ProbeFailure ProbeReport) : Prop where
  questions : ∀ e ∈ t, e.question = .symlinkMetadata executable ∨ e.question = .run request
  code : ∀ failure, r = .error failure → failure.code ∈ ERROR_CODES
  report : ∀ report, r = .ok report → ∃ output, ⟨.run request, .ok output⟩ ∈ t ∧
    parseProbeOutput f64 output.stdout probe mode = .ok report
  broken : (∃ e ∈ t, Broken request e) → ∃ failure, r = .error failure ∧
    failure.unsafeToContinue = true

section
variable {f64 : String → Option ℚ} {probe : ProbeKind} {mode : ProbeMode}

theorem fromProcess_documented (e : ProcessError) :
    (ProbeFailure.fromProcess e).code ∈ ERROR_CODES := by
  cases e <;> decide

theorem fromProcess_broken {e : ProcessError} (he : e ∈ BROKEN) :
    (ProbeFailure.fromProcess e).unsafeToContinue = true := by
  cases e <;> revert he <;> decide

theorem protocolCode_documented {code : String} (h : code ∈ PROTOCOL_CODES) :
    code ∈ ERROR_CODES := by
  have hall : ∀ c ∈ PROTOCOL_CODES, c ∈ ERROR_CODES := by decide
  exact hall code h

theorem probeErrorCode_documented (code : ProbeErrorCode) : probeErrorCode code ∈ ERROR_CODES := by
  cases code <;> decide

/-- A classified answer carries a documented code, or the report that was parsed. -/
theorem classifyProbe_documented {answer : Except ProcessError ProcessOutput}
    {failure : ProbeFailure} (h : classifyProbe f64 probe mode answer = .error failure) :
    failure.code ∈ ERROR_CODES := by
  cases answer with
  | error e =>
    cases h
    exact fromProcess_documented e
  | ok output =>
    rw [classifyProbe] at h
    split at h
    · cases h
      exact show "PROBE_OUTPUT_TOO_LARGE" ∈ ERROR_CODES by decide
    split at h
    · cases h
      exact show "PROBE_PROCESS_FAILED" ∈ ERROR_CODES by decide
    · cases hparse : parseProbeOutput f64 output.stdout probe mode with
      | ok report => rw [hparse] at h; cases h
      | error e =>
        rw [hparse] at h
        cases h
        exact protocolCode_documented (coded_parseProbeOutput _ _ _ e hparse)

theorem classifyProbe_ok {answer : Except ProcessError ProcessOutput} {report : ProbeReport}
    (h : classifyProbe f64 probe mode answer = .ok report) : ∃ output, answer = .ok output ∧
      parseProbeOutput f64 output.stdout probe mode = .ok report := by
  cases answer with
  | error e => cases h
  | ok output =>
    rw [classifyProbe] at h
    split at h
    · cases h
    split at h
    · cases h
    · refine ⟨output, rfl, ?_⟩
      cases hparse : parseProbeOutput f64 output.stdout probe mode with
      | ok report' => rw [hparse] at h; cases h; rfl
      | error e => rw [hparse] at h; cases h

theorem runProbe_missing {executable : String} {request : ProcessRequest} {t : List (Event Answer)}
    (ht : ∀ e ∈ t, e.question = .symlinkMetadata executable) :
    Probed f64 executable request probe mode t (.error (.ordinary "PROBE_EXECUTABLE_MISSING")) where
  questions e he := .inl (ht e he)
  code := by
    rintro _ ⟨⟩
    exact show "PROBE_EXECUTABLE_MISSING" ∈ ERROR_CODES by decide
  report := nofun
  broken := by
    rintro ⟨_, he, ⟨_⟩⟩
    exact absurd (ht _ he) nofun

/-- A probe looks at its executable, then runs it at most once. -/
theorem runProbe_returns (executable : String) (timeout : ℕ) :
    (runProbe f64 executable probe mode timeout).Returns
      (Probed f64 executable (probeRequest executable mode timeout) probe mode) := by
  rw [runProbe, validExecutablePath]
  split
  · exact runProbe_missing (by simp)
  simp only [ask, returns_bind, returns_query]
  intro metadata
  have hlaunch : ∀ answer, Probed f64 executable (probeRequest executable mode timeout) probe mode
      [⟨.symlinkMetadata executable, metadata⟩,
        ⟨.run (probeRequest executable mode timeout), answer⟩]
      (classifyProbe f64 probe mode answer) := fun answer => by
    refine ⟨by simp, fun failure h => classifyProbe_documented h, fun report h => ?_, ?_⟩
    · obtain ⟨output, rfl, hparse⟩ := classifyProbe_ok h
      exact ⟨output, by simp, hparse⟩
    · rintro ⟨_, he, ⟨hbroken⟩⟩
      rcases List.mem_cons.mp he with heq | he
      · cases heq
      · cases List.mem_singleton.mp he
        exact ⟨_, rfl, fromProcess_broken hbroken⟩
  cases metadata with
  | error e => exact runProbe_missing (by simp)
  | ok metadata =>
    by_cases hfile : metadata.kind = .file
    · simp only [hfile, decide_true, returns_pure, Bool.not_true, Bool.false_eq_true, if_false,
        returns_bind, returns_query]
      exact hlaunch
    · simp only [hfile, decide_false, returns_pure, Bool.not_false, if_true]
      exact runProbe_missing (by simp)

end

/-! ### The helpers -/

namespace RuntimeInspector

variable (inspector : RuntimeInspector)

def levelZeroRequest : ProcessRequest :=
  probeRequest inspector.paths.levelZeroHelper .enumerate LEVEL_ZERO_TIMEOUT

def openvinoRequest : ProbeMode → ProcessRequest
  | .enumerate =>
    probeRequest inspector.paths.openvinoHelper .enumerate OPENVINO_ENUMERATE_TIMEOUT
  | .infer => probeRequest inspector.paths.openvinoHelper .infer OPENVINO_INFER_TIMEOUT

/-- A failed report that was accepted names a code. -/
theorem failedReportCode_ok {report : ProbeReport} (haccepted : Accepted report)
    (hfail : report.outcome = .fail) :
    ∃ code, report.errorCode = some code ∧ failedReportCode report = pure code := by
  cases haccepted with
  | fail hcode => exact ⟨_, rfl, rfl⟩
  | levelZero => cases hfail
  | openVinoEnumerate => cases hfail
  | openVinoInfer => cases hfail

/-- What a run of the Level Zero helper asked and concluded. -/
structure LevelZeroRun (t : List (Event Answer)) (c : ProbeCheck) : Prop where
  questions : ∀ e ∈ t, e.question = .symlinkMetadata inspector.paths.levelZeroHelper ∨
    e.question = .run inspector.levelZeroRequest
  id : c.check.id = "runtime.level_zero"
  documented : Documented c.check
  broken : (∃ e ∈ t, Broken inspector.levelZeroRequest e) → c.unsafeToContinue = true

theorem runLevelZero_returns (profile : Profile) :
    (inspector.runLevelZero profile).Returns inspector.LevelZeroRun := by
  rw [runLevelZero, returns_bind]
  refine (runProbe_returns _ _).mono fun t r hprobed => ?_
  cases r with
  | error failure =>
    rw [returns_pure, List.append_nil]
    refine ⟨hprobed.questions, rfl, documented_failedCheck (hprobed.code _ rfl), fun h => ?_⟩
    obtain ⟨_, heq, hunsafe⟩ := hprobed.broken h
    cases heq
    exact hunsafe
  | ok report =>
    have hsound : ∀ c : ProbeCheck, c.check.id = "runtime.level_zero" → Documented c.check →
        inspector.LevelZeroRun (t ++ []) c := fun c hid hdoc => by
      rw [List.append_nil]
      refine ⟨hprobed.questions, hid, hdoc, fun h => ?_⟩
      obtain ⟨_, heq, -⟩ := hprobed.broken h
      cases heq
    obtain ⟨output, -, hparse⟩ := hprobed.report report rfl
    obtain ⟨-, -, haccepted⟩ := parseProbeOutput_ok hparse
    dsimp only
    split
    · next hfail =>
      obtain ⟨code, -, heq⟩ := failedReportCode_ok haccepted hfail
      rw [heq]
      exact hsound _ rfl (documented_failedCheck (probeErrorCode_documented code))
    split
    · split
      · exact hsound _ rfl (documented_of_absent rfl (by simp))
      · exact hsound _ rfl (documented_failedCheck (by decide))
    · exact hsound _ rfl (documented_failedCheck (by decide))

/-- What a run of the OpenVINO helper may ask. -/
def OpenvinoQuestions (mode : ProbeMode) (t : List (Event Answer)) : Prop :=
  ∀ e ∈ t, e.question = .symlinkMetadata inspector.paths.openvinoHelper ∨
    e.question = .run (inspector.openvinoRequest mode)

theorem runOpenvinoEnumerate_returns :
    inspector.runOpenvinoEnumerate.Returns fun t c =>
      inspector.OpenvinoQuestions .enumerate t ∧ c.id = "runtime.openvino" ∧ Documented c := by
  rw [runOpenvinoEnumerate, returns_bind]
  refine (runProbe_returns _ _).mono fun t r hprobed => ?_
  have hquestions : inspector.OpenvinoQuestions .enumerate (t ++ []) := by
    rw [List.append_nil]
    exact hprobed.questions
  cases r with
  | error failure => exact ⟨hquestions, rfl, documented_failedCheck (hprobed.code _ rfl)⟩
  | ok report =>
    obtain ⟨output, -, hparse⟩ := hprobed.report report rfl
    obtain ⟨-, -, haccepted⟩ := parseProbeOutput_ok hparse
    dsimp only
    split
    · next hfail =>
      obtain ⟨code, -, heq⟩ := failedReportCode_ok haccepted hfail
      rw [heq]
      exact ⟨hquestions, rfl, documented_failedCheck (probeErrorCode_documented code)⟩
    split
    · exact ⟨hquestions, rfl, documented_of_absent rfl (by simp [devicesAndVersion])⟩
    · exact ⟨hquestions, rfl, documented_failedCheck (by decide)⟩

/-- The inference report that was accepted ran on NPU devices only. -/
def RanOnNpu (t : List (Event Answer)) : Prop :=
  ∃ output report observation, ⟨.run (inspector.openvinoRequest .infer), .ok output⟩ ∈ t ∧
    parseProbeOutput inspector.f64 output.stdout .openVino .infer = .ok report ∧
    report.observations = .openVinoInfer observation ∧ observation.executionDevices ≠ [] ∧
    ∀ d ∈ observation.executionDevices, isNpuName d = true

/-- The two checks of an inference run. -/
structure InferenceRun (t : List (Event Answer)) (checks : List DiagnosticCheck) : Prop where
  ids : checks.map (·.id) = ["runtime.openvino", "runtime.inference"]
  documented : ∀ c ∈ checks, Documented c
  passed : (∃ c ∈ checks, c.id = "runtime.inference" ∧ c.status = .pass) →
    (∃ c ∈ checks, c.id = "runtime.openvino" ∧ c.status = .pass) ∧ inspector.RanOnNpu t

theorem inferenceRun_failure {t : List (Event Answer)} {code : String} (hcode : code ∈ ERROR_CODES)
    (discovered : Bool) : inspector.InferenceRun t (openvinoInferFailure code discovered) := by
  refine ⟨by cases discovered <;> rfl, ?_, ?_⟩
  · refine List.forall_mem_cons.mpr ⟨?_, List.forall_mem_singleton.mpr (documented_failedCheck hcode)⟩
    cases discovered
    · exact documented_failedCheck hcode
    · exact documented_of_absent rfl (by simp)
  · rintro ⟨c, hc, hid, hpass⟩
    rcases List.mem_cons.mp hc with rfl | hc
    · have hne : "runtime.openvino" ≠ "runtime.inference" := by decide
      cases discovered <;> exact absurd hid hne
    · cases List.mem_singleton.mp hc
      cases hpass

theorem runOpenvinoInfer_returns :
    inspector.runOpenvinoInfer.Returns fun t checks =>
      inspector.OpenvinoQuestions .infer t ∧ inspector.InferenceRun t checks := by
  rw [runOpenvinoInfer, returns_bind]
  refine (runProbe_returns _ _).mono fun t r hprobed => ?_
  have hquestions : inspector.OpenvinoQuestions .infer (t ++ []) := by
    rw [List.append_nil]
    exact hprobed.questions
  cases r with
  | error failure => exact ⟨hquestions, inspector.inferenceRun_failure (hprobed.code _ rfl) false⟩
  | ok report =>
    obtain ⟨output, houtput, hparse⟩ := hprobed.report report rfl
    obtain ⟨-, -, haccepted⟩ := parseProbeOutput_ok hparse
    dsimp only
    split
    · next hfail =>
      obtain ⟨code, -, heq⟩ := failedReportCode_ok haccepted hfail
      rw [heq]
      exact ⟨hquestions, inspector.inferenceRun_failure (probeErrorCode_documented code) _⟩
    split
    · next observation hobs =>
      have hnpu : inspector.RanOnNpu (t ++ []) := by
        obtain ⟨hne, hall⟩ := validateOpenVinoInfer_npu (accepted_infer haccepted hobs)
        exact ⟨output, report, observation, List.mem_append_left _ houtput, hparse, hobs, hne, hall⟩
      refine ⟨hquestions, rfl, ?_, fun _ => ⟨⟨_, List.mem_cons_self, rfl, rfl⟩, hnpu⟩⟩
      refine List.forall_mem_cons.mpr ⟨?_, List.forall_mem_singleton.mpr ?_⟩
      · exact documented_of_absent rfl (by simp [devicesAndVersion])
      · exact documented_of_absent rfl (by simp)
    · exact ⟨hquestions, inspector.inferenceRun_failure (by decide) false⟩

end RuntimeInspector

/-! ### The shape of a run -/

/-- The checks both commands emit. -/
def STATUS_CHECKS : List String :=
  ["platform.profile", "package.level_zero_loader", "package.npu_compiler", "package.npu_firmware",
    "package.npu_userspace_driver", "package.openvino_npu_plugin", "package.openvino_runtime",
    "kernel.module", "firmware.installed", "device.node", "device.access", "runtime.level_zero",
    "runtime.openvino"]

/-- The checks the doctor emits. -/
def DOCTOR_CHECKS : List String := STATUS_CHECKS ++ ["runtime.inference", "runtime.activity"]

/-- Exactly these checks, each once, sorted by identifier, with documented errors. -/
structure RunShape (documented : List String) (checks : List DiagnosticCheck) : Prop where
  exact : (checks.map (·.id)).Perm documented
  once : (checks.map (·.id)).Nodup
  sorted : (checks.map (·.id)).Pairwise (· < ·)
  errors : ∀ c ∈ checks, ∀ v, c.details.lookup "error_code" = some v →
    ∃ code ∈ ERROR_CODES, v = .str code

theorem runShape_finish {documented : List String} {result : InspectionResult}
    (hids : (result.checks.map (·.id)).Perm documented) (hnodup : documented.Nodup)
    (hdoc : ∀ c ∈ result.checks, Documented c) : RunShape documented (finish result).checks := by
  have hperm : (finish result).checks.Perm result.checks := List.mergeSort_perm _ _
  have hexact := (hperm.map (·.id)).trans hids
  have honce := hexact.nodup_iff.mpr hnodup
  have hle : ((finish result).checks.map (·.id)).Pairwise (· ≤ ·) := by
    have hsorted := @List.pairwise_mergeSort _ (fun left right : DiagnosticCheck => left.id ≤ right.id)
      (by simpa using fun _ _ _ => le_trans) (by simpa using fun _ _ => le_total _ _) result.checks
    exact List.pairwise_map.mpr (hsorted.imp fun h => by simpa using h)
  refine ⟨hexact, honce, ?_, fun c hc => hdoc c (hperm.mem_iff.mp hc)⟩
  exact (hle.and honce).imp fun ⟨hle, hne⟩ => lt_of_le_of_ne hle hne

theorem firmwareCheck_documented {checks : List DiagnosticCheck} {activation : ActivationState}
    (hchecks : ∀ c ∈ checks, Documented c) :
    (firmwareCheck checks activation).id = "firmware.installed" ∧
      Documented (firmwareCheck checks activation) := by
  rw [firmwareCheck]
  split
  · exact ⟨rfl, documented_failedCheck (by decide)⟩
  next provider hfound =>
    have hprovider := hchecks provider (List.mem_of_find?_eq_some hfound)
    split
    · exact ⟨rfl, hprovider⟩
    split
    · exact ⟨rfl, documented_of_details (x := []) rfl (by simp) (by decide)⟩
    · exact ⟨rfl, hprovider⟩

theorem kernelCheck_documented (facts : PlatformFacts) :
    (kernelCheck facts).id = "kernel.module" ∧ Documented (kernelCheck facts) := by
  rw [kernelCheck]
  split
  · exact ⟨rfl, documented_of_absent rfl (by simp)⟩
  · exact ⟨rfl, documented_failedCheck (by decide)⟩

/-- The identifiers before the helpers run. -/
def COMMON_CHECKS : List String := STATUS_CHECKS.take 11

/-- Checks with these identifiers in some order, with documented errors. -/
def Emitted (ids : List String) (checks : List DiagnosticCheck) : Prop :=
  (checks.map (·.id)).Perm ids ∧ ∀ c ∈ checks, Documented c

theorem Emitted.append {ids ids' : List String} {checks checks' : List DiagnosticCheck}
    (h : Emitted ids checks) (h' : Emitted ids' checks') : Emitted (ids ++ ids') (checks ++ checks') :=
  ⟨by rw [List.map_append]; exact h.1.append h'.1, List.forall_mem_append.mpr ⟨h.2, h'.2⟩⟩

theorem emitted_singleton {id : String} {c : DiagnosticCheck} (hid : c.id = id) (hdoc : Documented c) :
    Emitted [id] [c] :=
  ⟨.of_eq (congrArg (fun i => [i]) hid), List.forall_mem_singleton.mpr hdoc⟩

namespace RuntimeInspector

variable (inspector : RuntimeInspector) {profile : Profile}

theorem inspectPreflight_gives (hvalid : profile.validate = .ok ()) (facts : PlatformFacts) :
    (inspector.inspectPreflight profile facts).Gives NoProbe
      fun result => Emitted (STATUS_CHECKS.take 9) result.checks := by
  refine gives_bind (inspect_gives inspector.packages profile) fun r hr => gives_pure ?_
  obtain ⟨hkernel, hkerneldoc⟩ := kernelCheck_documented facts
  obtain ⟨hfirmware, hfirmwaredoc⟩ := @firmwareCheck_documented _
    (inspectActivation profile r.packages (some facts.bootTimeEpoch)).state hr.documented
  have hperm := List.mergeSort_perm (check "platform.profile" .pass
    "Compatible platform profile is selected" [] :: (r.checks ++ [kernelCheck facts,
      firmwareCheck r.checks (inspectActivation profile r.packages (some facts.bootTimeEpoch)).state]))
    fun left right => left.id ≤ right.id
  constructor
  · refine (hperm.map _).trans ?_
    have hids := hr.ids
    rw [Profile.keys_of_validate hvalid] at hids
    simp only [List.map_cons, List.map_append, List.map_nil, hkernel, hfirmware]
    exact List.Perm.cons _ (hids.append_right _)
  · intro c hc
    have hc := hperm.mem_iff.mp hc
    simp only [List.mem_cons, List.mem_append, List.not_mem_nil, or_false] at hc
    rcases hc with rfl | hc | rfl | rfl
    · exact documented_of_absent (x := []) rfl (by simp)
    · exact hr.documented c hc
    · exact hkerneldoc
    · exact hfirmwaredoc

theorem inspectCommon_gives (hvalid : profile.validate = .ok ()) (facts : PlatformFacts)
    (command : DiagnosticCommand) :
    (inspector.inspectCommon profile facts command).Gives NoProbe
      fun result => Emitted COMMON_CHECKS result.checks := by
  refine gives_bind (inspector.inspectPreflight_gives hvalid facts) fun result hresult => ?_
  refine gives_bind ((inspectDevices_gives _ _ _).mono noProbe_of_passive fun _ h => h)
    fun devices ⟨hids, hdoc⟩ => gives_pure ?_
  have hdevices : Emitted ["device.node", "device.access"] devices.checks := ⟨.of_eq hids, hdoc⟩
  exact hresult.append hdevices

/-- Once the Level Zero helper broke, the OpenVINO helper is launched in neither mode. -/
def NoLaunchAfterBroken (t : List (Event Answer)) : Prop :=
  (∃ e ∈ t, Broken inspector.levelZeroRequest e) →
    ∀ e ∈ t, ∀ mode, e.question ≠ .run (inspector.openvinoRequest mode)

theorem levelZeroRequest_ne (mode : ProbeMode) :
    inspector.levelZeroRequest ≠ inspector.openvinoRequest mode := by
  have htimeout : LEVEL_ZERO_TIMEOUT ≠ OPENVINO_ENUMERATE_TIMEOUT ∧
      LEVEL_ZERO_TIMEOUT ≠ OPENVINO_INFER_TIMEOUT := by decide
  intro h
  cases mode with
  | enumerate => exact htimeout.1 (congrArg ProcessRequest.timeout h)
  | infer => exact htimeout.2 (congrArg ProcessRequest.timeout h)

theorem openvinoRequest_environment (mode : ProbeMode) :
    (inspector.openvinoRequest mode).environment ≠ [] := by
  cases mode <;> exact List.cons_ne_nil _ _

/-- Package queries, a Level Zero run, and then an OpenVINO run only if that was not broken. -/
theorem noLaunchAfterBroken {t₁ t₂ t₃ : List (Event Answer)} {c : ProbeCheck}
    (hqueries : ∀ e ∈ t₁, NoProbe e.question) (hlevel : inspector.LevelZeroRun t₂ c)
    (hrest : ∀ e ∈ t₃, Passive e.question ∨
      c.unsafeToContinue = false ∧ ∃ mode, e.question = .run (inspector.openvinoRequest mode)) :
    inspector.NoLaunchAfterBroken (t₁ ++ (t₂ ++ t₃)) := by
  rintro ⟨e, he, hbroken⟩
  have hunsafe : c.unsafeToContinue = true := by
    rcases List.mem_append.mp he with he | he
    · cases hbroken
      exact absurd (hqueries _ he _ rfl) (List.cons_ne_nil _ _)
    rcases List.mem_append.mp he with he | he
    · exact hlevel.broken ⟨e, he, hbroken⟩
    · cases hbroken
      rcases hrest _ he with hpassive | ⟨-, mode, heq⟩
      · exact absurd rfl (hpassive _)
      · exact absurd (Question.run.inj heq) (inspector.levelZeroRequest_ne mode)
  intro e he mode heq
  rcases List.mem_append.mp he with he | he
  · exact inspector.openvinoRequest_environment mode (hqueries e he _ heq)
  rcases List.mem_append.mp he with he | he
  · rcases hlevel.questions e he with hstat | hrun
    · exact absurd (hstat.symm.trans heq) nofun
    · exact inspector.levelZeroRequest_ne mode (Question.run.inj (hrun.symm.trans heq))
  · rcases hrest e he with hpassive | ⟨hsafe, -⟩
    · exact hpassive _ heq
    · rw [hsafe] at hunsafe
      cases hunsafe

theorem passive_of_openvinoQuestions {mode : ProbeMode} {t : List (Event Answer)} {c : ProbeCheck}
    (h : inspector.OpenvinoQuestions mode t) (hsafe : c.unsafeToContinue = false) :
    ∀ e ∈ t, Passive e.question ∨
      c.unsafeToContinue = false ∧ ∃ mode, e.question = .run (inspector.openvinoRequest mode) := by
  intro e he
  rcases h e he with hstat | hrun
  · exact .inl fun request heq => absurd (hstat.symm.trans heq) nofun
  · exact .inr ⟨hsafe, mode, hrun⟩

/-- The OpenVINO part of a status run, by whether the helper may still be launched. -/
theorem openvinoStatus_returns (c : ProbeCheck) :
    (inspector.openvinoStatus c.unsafeToContinue).Returns fun t check =>
      (∀ e ∈ t, Passive e.question ∨
        c.unsafeToContinue = false ∧ ∃ mode, e.question = .run (inspector.openvinoRequest mode)) ∧
      check.id = "runtime.openvino" ∧ Documented check := by
  rw [openvinoStatus]
  split
  · exact ⟨by simp, rfl, documented_failedCheck (by decide)⟩
  next hsafe =>
    refine inspector.runOpenvinoEnumerate_returns.mono fun t check ⟨hquestions, hid, hdoc⟩ =>
      ⟨?_, hid, hdoc⟩
    exact inspector.passive_of_openvinoQuestions hquestions (by simpa using hsafe)

theorem openvinoDoctor_returns (c : ProbeCheck) :
    (inspector.openvinoDoctor c.unsafeToContinue).Returns fun t checks =>
      (∀ e ∈ t, Passive e.question ∨
        c.unsafeToContinue = false ∧ ∃ mode, e.question = .run (inspector.openvinoRequest mode)) ∧
      inspector.InferenceRun t checks := by
  rw [openvinoDoctor]
  split
  · exact ⟨by simp, inspector.inferenceRun_failure (by decide) false⟩
  next hsafe =>
    refine inspector.runOpenvinoInfer_returns.mono fun t checks ⟨hquestions, hrun⟩ => ⟨?_, hrun⟩
    exact inspector.passive_of_openvinoQuestions hquestions (by simpa using hsafe)

/-- What every status run ends with. -/
theorem inspectStatus_returns (hvalid : profile.validate = .ok ()) (facts : PlatformFacts) :
    (inspector.inspectStatus profile facts).Returns fun t result =>
      RunShape STATUS_CHECKS result.checks ∧ inspector.NoLaunchAfterBroken t := by
  rw [inspectStatus, returns_bind]
  refine Returns.mono (inspector.inspectCommon_gives hvalid facts .status) fun t₁ result ⟨ht₁, hresult⟩ => ?_
  rw [returns_bind]
  refine (inspector.runLevelZero_returns profile).mono fun t₂ c hlevel => ?_
  rw [returns_bind]
  refine (inspector.openvinoStatus_returns c).mono fun t₃ o ⟨hrest, hid, hdoc⟩ => ?_
  rw [returns_pure, List.append_nil]
  have hemitted := (hresult.append (emitted_singleton hlevel.id hlevel.documented)).append
    (emitted_singleton hid hdoc)
  exact ⟨runShape_finish hemitted.1 (by decide) hemitted.2,
    inspector.noLaunchAfterBroken ht₁ hlevel hrest⟩

/-- A doctor run passes inference only if OpenVINO passed and the report ran on NPU devices. -/
def InferenceSound (t : List (Event Answer)) (checks : List DiagnosticCheck) : Prop :=
  (∃ c ∈ checks, c.id = "runtime.inference" ∧ c.status = .pass) →
    (∃ c ∈ checks, c.id = "runtime.openvino" ∧ c.status = .pass) ∧ inspector.RanOnNpu t

/-- What every doctor run ends with. -/
theorem inspectDoctor_returns (hvalid : profile.validate = .ok ()) (facts : PlatformFacts) :
    (inspector.inspectDoctor profile facts).Returns fun t result =>
      RunShape DOCTOR_CHECKS result.checks ∧ inspector.InferenceSound t result.checks ∧
        inspector.NoLaunchAfterBroken t := by
  rw [inspectDoctor, returns_bind]
  refine Returns.mono (inspector.inspectCommon_gives hvalid facts .doctor) fun t₁ result ⟨ht₁, hresult⟩ => ?_
  rw [returns_bind]
  refine (inspector.runLevelZero_returns profile).mono fun t₂ c hlevel => ?_
  rw [returns_bind]
  refine Returns.mono (readBusyCounters_gives _) fun t₃ before ⟨ht₃, _⟩ => ?_
  rw [returns_bind]
  refine (inspector.openvinoDoctor_returns c).mono fun t₄ o ⟨hrest, hrun⟩ => ?_
  rw [returns_bind]
  refine Returns.mono (readBusyCounters_gives _) fun t₅ after ⟨ht₅, _⟩ => ?_
  rw [returns_pure, List.append_nil]
  obtain ⟨hactivity, hactivitydoc⟩ := evaluateActivity_documented before after
  have hbefore := hresult.append (emitted_singleton hlevel.id hlevel.documented)
  have hemitted := (hbefore.append ⟨.of_eq hrun.ids, hrun.documented⟩).append
    (emitted_singleton hactivity hactivitydoc)
  refine ⟨runShape_finish hemitted.1 (by decide) hemitted.2, ?_, ?_⟩
  · rintro ⟨check, hcheck, hid, hpass⟩
    have hperm : ∀ {x}, x ∈ (finish { result with checks := result.checks ++ [c.check] ++ o ++
        [evaluateActivity before after] }).checks ↔ x ∈ result.checks ++ [c.check] ++ o ++
          [evaluateActivity before after] := (List.mergeSort_perm _ _).mem_iff
    have hin : check ∈ o := by
      rcases List.mem_append.mp (hperm.mp hcheck) with hmem | hmem
      · rcases List.mem_append.mp hmem with hmem | hmem
        · have hids := hbefore.1.mem_iff.mp (List.mem_map_of_mem (f := (·.id)) hmem)
          rw [hid] at hids
          exact absurd hids (by decide)
        · exact hmem
      · rw [List.mem_singleton.mp hmem, hactivity] at hid
        exact absurd hid (by decide)
    obtain ⟨⟨other, hother, hotherid, hotherpass⟩, output, report, observation, hevent, hreport⟩ :=
      hrun.passed ⟨check, hin, hid, hpass⟩
    refine ⟨⟨other, hperm.mpr ?_, hotherid, hotherpass⟩, output, report, observation, ?_, hreport⟩
    · simp [hother]
    · simp [hevent]
  · refine inspector.noLaunchAfterBroken ht₁ hlevel (List.forall_mem_append.mpr ⟨?_, ?_⟩)
    · exact fun e he => .inl (ht₃ e he)
    · exact List.forall_mem_append.mpr ⟨hrest, fun e he => .inl (ht₅ e he)⟩

end RuntimeInspector

/-- Every doctor run emits exactly the fifteen documented checks and every status run the thirteen,
    sorted, once each and with documented error codes. Inference passes only with OpenVINO and on
    NPU devices, and no OpenVINO helper is launched once the Level Zero one broke. -/
theorem doctor_run_shape (inspector : RuntimeInspector) {profile : Profile}
    (hvalid : profile.validate = .ok ()) (facts : PlatformFacts) {t : List (Event Answer)}
    {r : Except Panic InspectionResult} :
    (Runs (inspector.inspectDoctor profile facts) t r → ∃ result, r = .ok result ∧
      RunShape DOCTOR_CHECKS result.checks ∧ inspector.InferenceSound t result.checks ∧
        inspector.NoLaunchAfterBroken t) ∧
    (Runs (inspector.inspectStatus profile facts) t r → ∃ result, r = .ok result ∧
      RunShape STATUS_CHECKS result.checks ∧ inspector.NoLaunchAfterBroken t) :=
  ⟨returns_runs (inspector.inspectDoctor_returns hvalid facts),
    returns_runs (inspector.inspectStatus_returns hvalid facts)⟩

/-! ### A machine that answers nothing -/

namespace Silent

def component : ComponentRequirement where
  version := "1.0"
  source := "https://a.b/c"
  sha256 := "6ee08e6eb3bc6f45bc99fcd39fcc479286a1beb0c04d39f204c61762378075d6"
  provider := ⟨"intel-npu", "0:1.0-1.fc44", .reboot,
    [⟨"/usr/bin/npu", "3b9c358f36f0a31b6ad3e14f309c7cf198ac9246e8316f9ce543d5b19ac02b80"⟩]⟩
  license := ⟨"MIT", .allowed, "ee8250fb76e094b34b471f13a73dbbe51d1ae142e9df59d7c0d31ec20f0a0a8e"⟩

def profile : Profile where
  schemaVersion := 1
  id := "npu"
  stackRelease := "1.0.0"
  status := .experimental
  packageManager := .rpm
  conflicts := []
  platform := ⟨"fedora", "44", "x86_64"⟩
  hardware := [⟨"8086", "643e"⟩]
  kernel := ⟨"6.0.0", "8.0.0", "intel_vpu"⟩
  components := ⟨REQUIRED_COMPONENTS.map (·, component), by decide⟩
  qualification := none

def facts : PlatformFacts where
  osId := "fedora"
  osVersionId := "44"
  arch := "x86_64"
  kernel := ⟨6, 12, 9⟩
  pciIds := []
  intelVpuLoaded := true
  accelNodePresent := false
  effectiveRoot := false
  bootTimeEpoch := 1780000000

def inspector : RuntimeInspector where
  paths := ⟨"/", "/usr/libexec/level-zero", "/usr/libexec/openvino", "/usr/bin/rpm"⟩
  f64 := fun _ => none
  sha256 := fun _ => ""

/-- No process starts and no file opens. -/
def machine : Env Answer := fun _ q =>
  match q with
  | .run _ => .error .spawn
  | .symlinkMetadata _ => .error .notFound
  | .readDir _ => .error .notFound
  | .openRead _ => .error .notFound
  | .openReadWrite _ => .error .notFound
  | .handleMetadata _ => .error .notFound
  | .readToEnd _ => .error .notFound

def doctor : List (Event Answer) × Except Panic InspectionResult :=
  run machine (inspector.inspectDoctor profile facts) []

end Silent

/-- The doctor on such a machine still emits its fifteen checks. -/
theorem doctor_run_shape_silent : ∃ result, Silent.doctor.2 = .ok result ∧
    RunShape DOCTOR_CHECKS result.checks ∧ Silent.inspector.InferenceSound Silent.doctor.1 result.checks ∧
      Silent.inspector.NoLaunchAfterBroken Silent.doctor.1 :=
  (@doctor_run_shape Silent.inspector Silent.profile rfl Silent.facts _ _).1
    (runs_run Silent.machine _ [])

end NpuStack.Runtime
