import Mathlib.Data.Prod.Lex
import Mathlib.Data.List.Lex
import Mathlib.Data.Rat.Defs
import NpuStack.Schemes.Interaction
import NpuStack.Schemes.JsonText

/-! The report a native helper prints, version one of the protocol: one strict JSON object, whose
    observations depend on the probe, the mode and the outcome.

        bytes ──UTF-8──▶ text ──strict──▶ Json ──six keys──▶ raw report ──checks──▶ ProbeReport

    The double a number literal denotes is left to the parameter `f64`, none when out of range. -/

namespace NpuStack.Runtime
open Interaction Text Serde

def MAX_PROBE_STDOUT : ℕ := 65536
def MAX_OBSERVATIONS : ℕ := 64
def MAX_OBSERVATION_STRING : ℕ := 256
def PROBE_SCHEMA_VERSION : ℕ := 1

/-- Containers may nest this deep in a JSON text. -/
def RECURSION_LIMIT : ℕ := 127

/-- The double nearest to 0.001. -/
def TOLERANCE : ℚ := 1152921504606847 / 1152921504606846976

inductive ProbeKind where
  | levelZero | openVino
  deriving DecidableEq, Repr

inductive ProbeMode where
  | enumerate | infer
  deriving DecidableEq, Repr

inductive ProbeOutcome where
  | pass | fail
  deriving DecidableEq, Repr

inductive ProbeErrorCode where
  | levelZeroPermissionDenied | levelZeroDependencyUnavailable | levelZeroNoVpu
  | levelZeroEnumerationFailed | levelZeroInternalFailure
  | openVinoNoNpu | openVinoEnumerationFailed | openVinoCompileFailed | openVinoWrongDevice
  | openVinoInferenceFailed | openVinoOutputInvalid | openVinoInternalFailure
  deriving DecidableEq, Repr

structure LevelZeroDevice where
  vendorId : String
  deviceId : String
  driverVersion : ℕ
  deriving DecidableEq, Repr

structure OpenVinoEnumerateObservation where
  availableDevices : List String
  runtimeVersion : String
  deriving DecidableEq, Repr

structure OpenVinoInferObservation where
  availableDevices : List String
  executionDevices : List String
  runtimeVersion : String
  graphId : String
  iterations : ℕ
  tolerance : ℚ
  deriving DecidableEq, Repr

inductive ProbeObservations where
  | empty
  | levelZero (vpuDevices : List LevelZeroDevice)
  | openVinoEnumerate (observation : OpenVinoEnumerateObservation)
  | openVinoInfer (observation : OpenVinoInferObservation)
  deriving DecidableEq, Repr

structure ProbeReport where
  schemaVersion : ℕ
  probe : ProbeKind
  mode : ProbeMode
  outcome : ProbeOutcome
  observations : ProbeObservations
  errorCode : Option ProbeErrorCode
  deriving DecidableEq, Repr

structure ProtocolError where
  code : String
  message : String
  deriving DecidableEq, Repr

def ProtocolError.invalid (message : String) : ProtocolError := ⟨"PROBE_OUTPUT_INVALID", message⟩

def ProtocolError.unsupportedSchema (version : ℕ) : ProtocolError :=
  ⟨"PROBE_SCHEMA_UNSUPPORTED", "unsupported probe schema version " ++ version.repr⟩

/-! ### Names of the enumerations -/

def ProbeKind.name : ProbeKind → String
  | levelZero => "level_zero"
  | openVino => "openvino"

def ProbeMode.name : ProbeMode → String
  | enumerate => "enumerate"
  | infer => "infer"

def ProbeOutcome.name : ProbeOutcome → String
  | pass => "pass"
  | fail => "fail"

def ProbeErrorCode.name : ProbeErrorCode → String
  | levelZeroPermissionDenied => "LEVEL_ZERO_PERMISSION_DENIED"
  | levelZeroDependencyUnavailable => "LEVEL_ZERO_DEPENDENCY_UNAVAILABLE"
  | levelZeroNoVpu => "LEVEL_ZERO_NO_VPU"
  | levelZeroEnumerationFailed => "LEVEL_ZERO_ENUMERATION_FAILED"
  | levelZeroInternalFailure => "LEVEL_ZERO_INTERNAL_FAILURE"
  | openVinoNoNpu => "OPENVINO_NO_NPU"
  | openVinoEnumerationFailed => "OPENVINO_ENUMERATION_FAILED"
  | openVinoCompileFailed => "OPENVINO_COMPILE_FAILED"
  | openVinoWrongDevice => "OPENVINO_WRONG_DEVICE"
  | openVinoInferenceFailed => "OPENVINO_INFERENCE_FAILED"
  | openVinoOutputInvalid => "OPENVINO_OUTPUT_INVALID"
  | openVinoInternalFailure => "OPENVINO_INTERNAL_FAILURE"

def ProbeKind.variants : List ProbeKind := [levelZero, openVino]

def ProbeMode.variants : List ProbeMode := [enumerate, infer]

def ProbeOutcome.variants : List ProbeOutcome := [pass, fail]

def ProbeErrorCode.variants : List ProbeErrorCode :=
  [levelZeroPermissionDenied, levelZeroDependencyUnavailable, levelZeroNoVpu,
    levelZeroEnumerationFailed, levelZeroInternalFailure, openVinoNoNpu, openVinoEnumerationFailed,
    openVinoCompileFailed, openVinoWrongDevice, openVinoInferenceFailed, openVinoOutputInvalid,
    openVinoInternalFailure]

/-- The variant of that name. -/
def readName {α : Type} (variants : List α) (name : α → String) (j : Json) : Option α :=
  (readVariant j).bind fun s => variants.find? fun v => name v = s

/-! ### Grammars -/

/-- The order of text: byte by byte. -/
def bytesLess (a b : Bytes) : Bool := a.map UInt8.toNat < b.map UInt8.toNat

/-- `windows(2).all(|pair| pair[0] < pair[1])`. -/
def sortedUnique {α : Type} (less : α → α → Bool) : List α → Bool
  | a :: b :: rest => less a b && sortedUnique less (b :: rest)
  | _ => true

def isLowerHexQuad (value : String) : Bool := len value = 4 && all isLowerHex value

def DEVICE_BASES : List String := ["CPU", "GPU", "NPU"]

/-- The name itself, or followed by a dot and digits. -/
def isNumbered (base value : String) : Bool :=
  value = base ||
    match stripPrefix (base ++ ".") value with
    | some suffix => isDigits suffix
    | none => false

def isDeviceName (value : String) : Bool := DEVICE_BASES.any fun base => isNumbered base value

def isNpuName (value : String) : Bool := isNumbered "NPU" value

def LevelZeroDevice.less (left right : LevelZeroDevice) : Bool :=
  bytesLess (utf8 left.vendorId) (utf8 right.vendorId) ||
    (left.vendorId = right.vendorId && (bytesLess (utf8 left.deviceId) (utf8 right.deviceId) ||
      (left.deviceId = right.deviceId && left.driverVersion < right.driverVersion)))

/-! ### Validation -/

def validateLevelZero (devices : List LevelZeroDevice) : Except ProtocolError Unit := do
  refuse (devices = [] ∨ devices.length > MAX_OBSERVATIONS) (.invalid "VPU device count is invalid")
  forM devices fun device =>
    refuse (!isLowerHexQuad device.vendorId || !isLowerHexQuad device.deviceId)
      (.invalid "VPU PCI identifier is invalid")
  refuse (!sortedUnique LevelZeroDevice.less devices)
    (.invalid "VPU observations must be sorted and unique")

def validateDeviceList (devices : List String) (npuOnly : Bool) : Except ProtocolError Unit := do
  refuse (devices = [] ∨ devices.length > MAX_OBSERVATIONS)
    (.invalid "OpenVINO device count is invalid")
  forM devices fun device =>
    refuse (len device > MAX_OBSERVATION_STRING || !isDeviceName device ||
      (npuOnly && !isNpuName device)) (.invalid "OpenVINO device name is invalid")
  refuse (!sortedUnique (fun a b => bytesLess (utf8 a) (utf8 b)) devices)
    (.invalid "OpenVINO devices must be sorted and unique")

def validateRuntimeVersion (value : String) : Except ProtocolError Unit :=
  refuse (value = "" ∨ len value > MAX_OBSERVATION_STRING ∨
    !all (fun c => c.isAlphanum || ".+-_".toList.contains c) value)
    (.invalid "OpenVINO runtime version is invalid")

def validateOpenVinoEnumerate (observation : OpenVinoEnumerateObservation) :
    Except ProtocolError Unit := do
  validateDeviceList observation.availableDevices false
  refuse (!observation.availableDevices.any isNpuName)
    (.invalid "passing OpenVINO enumeration has no NPU")
  validateRuntimeVersion observation.runtimeVersion

def validateOpenVinoInfer (observation : OpenVinoInferObservation) : Except ProtocolError Unit := do
  validateDeviceList observation.availableDevices false
  refuse (!observation.availableDevices.any isNpuName)
    (.invalid "passing OpenVINO inference has no available NPU")
  validateDeviceList observation.executionDevices true
  validateRuntimeVersion observation.runtimeVersion
  refuse (observation.graphId ≠ "intel-npu-stack-neutral-v1" ∨ observation.iterations ≠ 8 ∨
    observation.tolerance ≠ TOLERANCE) (.invalid "OpenVINO inference constants are invalid")

/-- The codes a failing probe may report in that mode. -/
def errorCodes : ProbeKind → ProbeMode → List ProbeErrorCode
  | .levelZero, _ => [.levelZeroPermissionDenied, .levelZeroDependencyUnavailable, .levelZeroNoVpu,
      .levelZeroEnumerationFailed, .levelZeroInternalFailure]
  | .openVino, .enumerate => [.openVinoNoNpu, .openVinoEnumerationFailed, .openVinoInternalFailure]
  | .openVino, .infer => [.openVinoNoNpu, .openVinoEnumerationFailed, .openVinoCompileFailed,
      .openVinoWrongDevice, .openVinoInferenceFailed, .openVinoOutputInvalid,
      .openVinoInternalFailure]

def validateErrorCode (probe : ProbeKind) (mode : ProbeMode) (code : ProbeErrorCode) :
    Except ProtocolError Unit :=
  refuse (code ∉ errorCodes probe mode) (.invalid "probe error code does not match probe mode")

/-! ### Reading -/

/-- A number literal in range: a 64-bit unsigned integer, or one with a double. -/
def inRange (f64 : String → Option ℚ) (literal : String) : Bool :=
  (readUnsigned 64 (.num literal)).isSome || (f64 literal).isSome

def readF64 (f64 : String → Option ℚ) : Json → Option ℚ
  | .num literal => f64 literal
  | _ => none

def LevelZeroDevice.read (j : Json) : Option LevelZeroDevice := do
  let f ← Json.fields ["vendor_id", "device_id", "driver_version"] j
  return {
    vendorId := ← required f "vendor_id" readStr
    deviceId := ← required f "device_id" readStr
    driverVersion := ← required f "driver_version" (readUnsigned 32) }

def readLevelZero (j : Json) : Option (List LevelZeroDevice) := do
  let f ← Json.fields ["vpu_devices"] j
  required f "vpu_devices" (readVec LevelZeroDevice.read)

def OpenVinoEnumerateObservation.read (j : Json) : Option OpenVinoEnumerateObservation := do
  let f ← Json.fields ["available_devices", "runtime_version"] j
  return {
    availableDevices := ← required f "available_devices" (readVec readStr)
    runtimeVersion := ← required f "runtime_version" readStr }

def OpenVinoInferObservation.read (f64 : String → Option ℚ) (j : Json) :
    Option OpenVinoInferObservation := do
  let f ← Json.fields ["available_devices", "execution_devices", "runtime_version", "graph_id",
    "iterations", "tolerance"] j
  return {
    availableDevices := ← required f "available_devices" (readVec readStr)
    executionDevices := ← required f "execution_devices" (readVec readStr)
    runtimeVersion := ← required f "runtime_version" readStr
    graphId := ← required f "graph_id" readStr
    iterations := ← required f "iterations" (readUnsigned 32)
    tolerance := ← required f "tolerance" (readF64 f64) }

structure RawProbeReport where
  schemaVersion : ℕ
  probe : ProbeKind
  mode : ProbeMode
  outcome : ProbeOutcome
  observations : Json
  errorCode : Option ProbeErrorCode

def TOP_LEVEL_KEYS : List String :=
  ["schema_version", "probe", "mode", "outcome", "observations", "error_code"]

/-- An optional error code: absent and null are none. -/
def readErrorCode : Option Json → Option (Option ProbeErrorCode)
  | none => some none
  | some .null => some none
  | some j => (readName ProbeErrorCode.variants ProbeErrorCode.name j).map some

def RawProbeReport.read (j : Json) : Option RawProbeReport := do
  let f ← Json.fields TOP_LEVEL_KEYS j
  return {
    schemaVersion := ← required f "schema_version" (readUnsigned 32)
    probe := ← required f "probe" (readName ProbeKind.variants ProbeKind.name)
    mode := ← required f "mode" (readName ProbeMode.variants ProbeMode.name)
    outcome := ← required f "outcome" (readName ProbeOutcome.variants ProbeOutcome.name)
    observations := ← f "observations"
    errorCode := ← readErrorCode (f "error_code") }

def parseSuccessObservations (f64 : String → Option ℚ) (probe : ProbeKind) (mode : ProbeMode)
    (value : Json) : Except ProtocolError ProbeObservations := do
  let invalid : ProtocolError := .invalid "probe observations are invalid"
  match probe, mode with
  | .levelZero, .enumerate =>
    let devices ← need (readLevelZero value) invalid
    validateLevelZero devices
    return .levelZero devices
  | .openVino, .enumerate =>
    let observation ← need (OpenVinoEnumerateObservation.read value) invalid
    validateOpenVinoEnumerate observation
    return .openVinoEnumerate observation
  | .openVino, .infer =>
    let observation ← need (OpenVinoInferObservation.read f64 value) invalid
    validateOpenVinoInfer observation
    return .openVinoInfer observation
  | .levelZero, .infer => .error (.invalid "Level Zero infer mode is invalid")

/-- `value.as_object()`. -/
def asObject : Json → Option (List (String × Json))
  | .obj fields => some fields
  | _ => none

/-- The observations of a raw report, by its outcome. -/
def parseObservations (f64 : String → Option ℚ) (raw : RawProbeReport) :
    Except ProtocolError ProbeObservations :=
  match raw.outcome with
  | .fail => do
    refuse (!(asObject raw.observations).any List.isEmpty)
      (.invalid "failed probe observations must be empty")
    let errorCode ← need raw.errorCode (.invalid "failed probe has no error code")
    validateErrorCode raw.probe raw.mode errorCode
    return .empty
  | .pass => do
    refuse (raw.errorCode ≠ none) (.invalid "passing probe must not have an error code")
    parseSuccessObservations f64 raw.probe raw.mode raw.observations

/-- One JSON value without repeated keys, and what follows it. -/
def strictValue (f64 : String → Option ℚ) (text : String) : Option (Json × List Char) :=
  (Json.value (inRange f64) RECURSION_LIMIT text.toList).filter fun p => p.1.duplicateFree

/-- The checks of a strict value. -/
def parseReport (f64 : String → Option ℚ) (expectedProbe : ProbeKind) (expectedMode : ProbeMode)
    (value : Json) : Except ProtocolError ProbeReport := do
  let object ← need (asObject value) (.invalid "probe report must be an object")
  refuse (object.length ≠ TOP_LEVEL_KEYS.length ∨
    TOP_LEVEL_KEYS.any fun key => key ∉ object.map Prod.fst)
    (.invalid "probe report top-level keys are invalid")
  let schemaVersion ← need (readUnsigned 64 (value.get "schema_version"))
    (.invalid "probe schema version is missing or invalid")
  refuse (schemaVersion ≠ PROBE_SCHEMA_VERSION) (.unsupportedSchema schemaVersion)
  let raw ← need (RawProbeReport.read value) (.invalid "probe report shape is invalid")
  refuse (raw.schemaVersion ≠ PROBE_SCHEMA_VERSION ∨ raw.probe ≠ expectedProbe ∨
    raw.mode ≠ expectedMode ∨ (raw.probe = .levelZero ∧ raw.mode ≠ .enumerate))
    (.invalid "probe identity or mode is invalid")
  let observations ← parseObservations f64 raw
  return {
    schemaVersion := raw.schemaVersion
    probe := raw.probe
    mode := raw.mode
    outcome := raw.outcome
    observations
    errorCode := raw.errorCode }

/-- Parses and validates one bounded helper report. -/
def parseProbeOutput (f64 : String → Option ℚ) (bytes : Bytes) (expectedProbe : ProbeKind)
    (expectedMode : ProbeMode) : Except ProtocolError ProbeReport := do
  refuse (bytes = []) (.invalid "probe output is empty")
  refuse (bytes.length > MAX_PROBE_STDOUT) (.invalid "probe output exceeds 65536 bytes")
  refuse ([0xef, 0xbb, 0xbf].isPrefixOf bytes) (.invalid "probe output starts with a byte-order mark")
  let text ← need (fromUtf8 bytes) (.invalid "probe output is not UTF-8")
  let (value, rest) ← need (strictValue f64 text) (.invalid "probe output is not strict JSON")
  refuse (Json.skip rest ≠ []) (.invalid "probe output has trailing data")
  parseReport f64 expectedProbe expectedMode value

/-! ### What a refusal reports -/

def PROTOCOL_CODES : List String := ["PROBE_OUTPUT_INVALID", "PROBE_SCHEMA_UNSUPPORTED"]

/-- Every error of the computation has a protocol code. -/
def Coded {α : Type} (x : Except ProtocolError α) : Prop :=
  ∀ e, x = .error e → e.code ∈ PROTOCOL_CODES

section
variable {α β : Type} {f64 : String → Option ℚ} {message : String}

theorem coded_ok (a : α) : Coded (.ok a) := nofun

theorem coded_invalid : Coded (.error (.invalid message) : Except ProtocolError α) := by
  rintro _ ⟨⟩
  exact List.mem_cons_self

theorem coded_bind {x : Except ProtocolError α} {f : α → Except ProtocolError β} (hx : Coded x)
    (hf : ∀ a, Coded (f a)) : Coded (x >>= f) := by
  cases x with
  | ok a => exact hf a
  | error e => exact fun e' h => hx e' (by cases h; rfl)

theorem coded_refuse {bad : Prop} [Decidable bad] : Coded (refuse bad (.invalid message)) := by
  rw [refuse]
  split
  · exact coded_invalid
  · exact coded_ok _

theorem coded_need {o : Option α} : Coded (need o (.invalid message)) := by
  cases o with
  | none => exact coded_invalid
  | some a => exact coded_ok a

theorem coded_forM {f : α → Except ProtocolError Unit} (hf : ∀ a, Coded (f a)) :
    ∀ xs : List α, Coded (forM xs f)
  | [] => coded_ok _
  | x :: xs => by
    rw [List.forM_cons]
    exact coded_bind (hf x) fun _ => coded_forM hf xs

theorem coded_validateDeviceList (devices : List String) (npuOnly : Bool) :
    Coded (validateDeviceList devices npuOnly) :=
  coded_bind coded_refuse fun _ => coded_bind (coded_forM (fun _ => coded_refuse) _) fun _ =>
    coded_refuse

theorem coded_parseSuccessObservations (probe : ProbeKind) (mode : ProbeMode) (value : Json) :
    Coded (parseSuccessObservations f64 probe mode value) := by
  match probe, mode with
  | .levelZero, .enumerate =>
    exact coded_bind coded_need fun _ => coded_bind
      (coded_bind coded_refuse fun _ => coded_bind (coded_forM (fun _ => coded_refuse) _) fun _ =>
        coded_refuse) fun _ => coded_ok _
  | .openVino, .enumerate =>
    exact coded_bind coded_need fun _ => coded_bind
      (coded_bind (coded_validateDeviceList _ _) fun _ => coded_bind coded_refuse fun _ =>
        coded_refuse) fun _ => coded_ok _
  | .openVino, .infer =>
    exact coded_bind coded_need fun _ => coded_bind
      (coded_bind (coded_validateDeviceList _ _) fun _ => coded_bind coded_refuse fun _ =>
        coded_bind (coded_validateDeviceList _ _) fun _ => coded_bind coded_refuse fun _ =>
          coded_refuse) fun _ => coded_ok _
  | .levelZero, .infer => exact coded_invalid

theorem coded_parseObservations (raw : RawProbeReport) : Coded (parseObservations f64 raw) := by
  rw [parseObservations]
  cases raw.outcome with
  | fail =>
    exact coded_bind coded_refuse fun _ => coded_bind coded_need fun _ => coded_bind coded_refuse
      fun _ => coded_ok _
  | pass => exact coded_bind coded_refuse fun _ => coded_parseSuccessObservations _ _ _

/-- A refused report is refused with one of the two protocol codes. -/
theorem coded_parseProbeOutput (bytes : Bytes) (probe : ProbeKind) (mode : ProbeMode) :
    Coded (parseProbeOutput f64 bytes probe mode) := by
  refine coded_bind coded_refuse fun _ => coded_bind coded_refuse fun _ =>
    coded_bind coded_refuse fun _ => coded_bind coded_need fun text =>
    coded_bind coded_need fun value => coded_bind coded_refuse fun _ => ?_
  refine coded_bind coded_need fun object => coded_bind coded_refuse fun _ =>
    coded_bind coded_need fun version => coded_bind ?_ fun _ => coded_bind coded_need fun raw =>
    coded_bind coded_refuse fun _ => coded_bind (coded_parseObservations raw) fun _ => coded_ok _
  rw [refuse]
  split
  · rintro _ ⟨⟩
    simp [ProtocolError.unsupportedSchema, PROTOCOL_CODES]
  · exact coded_ok _

/-! ### What an accepted report holds -/

/-- A report as validation leaves it: a failure with a code of its mode, or observations of its
    probe and mode that passed their checks. -/
inductive Accepted : ProbeReport → Prop
  | fail {probe : ProbeKind} {mode : ProbeMode} {code : ProbeErrorCode}
      (hcode : code ∈ errorCodes probe mode) :
      Accepted ⟨1, probe, mode, .fail, .empty, some code⟩
  | levelZero {devices : List LevelZeroDevice} (hvalid : validateLevelZero devices = .ok ⟨⟩) :
      Accepted ⟨1, .levelZero, .enumerate, .pass, .levelZero devices, none⟩
  | openVinoEnumerate {observation : OpenVinoEnumerateObservation}
      (hvalid : validateOpenVinoEnumerate observation = .ok ⟨⟩) :
      Accepted ⟨1, .openVino, .enumerate, .pass, .openVinoEnumerate observation, none⟩
  | openVinoInfer {observation : OpenVinoInferObservation}
      (hvalid : validateOpenVinoInfer observation = .ok ⟨⟩) :
      Accepted ⟨1, .openVino, .infer, .pass, .openVinoInfer observation, none⟩

theorem parseSuccessObservations_ok {probe : ProbeKind} {mode : ProbeMode} {value : Json}
    {observations : ProbeObservations}
    (h : parseSuccessObservations f64 probe mode value = .ok observations) :
    Accepted ⟨1, probe, mode, .pass, observations, none⟩ := by
  match probe, mode with
  | .levelZero, .enumerate =>
    simp only [parseSuccessObservations, except_bind_ok, pure, Except.pure, Except.ok.injEq] at h
    obtain ⟨devices, -, _, hvalid, rfl⟩ := h
    exact .levelZero hvalid
  | .openVino, .enumerate =>
    simp only [parseSuccessObservations, except_bind_ok, pure, Except.pure, Except.ok.injEq] at h
    obtain ⟨observation, -, _, hvalid, rfl⟩ := h
    exact .openVinoEnumerate hvalid
  | .openVino, .infer =>
    simp only [parseSuccessObservations, except_bind_ok, pure, Except.pure, Except.ok.injEq] at h
    obtain ⟨observation, -, _, hvalid, rfl⟩ := h
    exact .openVinoInfer hvalid
  | .levelZero, .infer => cases h

theorem parseReport_ok {probe : ProbeKind} {mode : ProbeMode} {value : Json} {report : ProbeReport}
    (h : parseReport f64 probe mode value = .ok report) :
    report.probe = probe ∧ report.mode = mode ∧ Accepted report := by
  simp only [parseReport, except_bind_ok, refuse_ok, need_ok, pure, Except.pure,
    Except.ok.injEq] at h
  obtain ⟨_, -, _, -, _, -, _, -, raw, -, _, hidentity, observations, hobs, rfl⟩ := h
  simp only [not_or, not_not] at hidentity
  obtain ⟨hversion, hprobe, hmode, -⟩ := hidentity
  refine ⟨hprobe, hmode, ?_⟩
  rw [parseObservations] at hobs
  rw [hversion]
  cases houtcome : raw.outcome with
  | fail =>
    simp only [houtcome, except_bind_ok, refuse_ok, need_ok, validateErrorCode, pure, Except.pure,
      Except.ok.injEq, not_not] at hobs
    obtain ⟨_, -, code, hcode, _, hvalid, rfl⟩ := hobs
    rw [hcode]
    exact .fail hvalid
  | pass =>
    simp only [houtcome, except_bind_ok, refuse_ok, not_not] at hobs
    obtain ⟨_, hnone, hobs⟩ := hobs
    rw [hnone]
    exact parseSuccessObservations_ok hobs

/-- What is accepted is a report of the expected probe and mode as validation leaves it. -/
theorem parseProbeOutput_ok {bytes : Bytes} {probe : ProbeKind} {mode : ProbeMode}
    {report : ProbeReport} (h : parseProbeOutput f64 bytes probe mode = .ok report) :
    report.probe = probe ∧ report.mode = mode ∧ Accepted report := by
  simp only [parseProbeOutput, except_bind_ok] at h
  obtain ⟨_, -, _, -, _, -, _, -, _, -, _, -, h⟩ := h
  exact parseReport_ok h

/-- An accepted inference ran on devices named NPU only. -/
theorem validateOpenVinoInfer_npu {observation : OpenVinoInferObservation}
    (h : validateOpenVinoInfer observation = .ok ⟨⟩) :
    observation.executionDevices ≠ [] ∧ ∀ d ∈ observation.executionDevices, isNpuName d = true := by
  simp only [validateOpenVinoInfer, validateDeviceList, except_bind_ok, except_forM_ok, refuse_ok,
    Bool.or_eq_true, Bool.and_eq_true, Bool.not_eq_true', Bool.true_and, not_or, not_and,
    Bool.not_eq_false, decide_eq_true_eq] at h
  obtain ⟨_, -, _, -, _, ⟨_, ⟨hne, -⟩, _, hdevices, -⟩, -⟩ := h
  exact ⟨hne, fun d hd => (hdevices d hd).2⟩

theorem accepted_infer {report : ProbeReport} {observation : OpenVinoInferObservation}
    (haccepted : Accepted report) (hobs : report.observations = .openVinoInfer observation) :
    validateOpenVinoInfer observation = .ok ⟨⟩ := by
  cases haccepted with
  | openVinoInfer hvalid => cases hobs; exact hvalid
  | fail hcode => cases hobs
  | levelZero hvalid => cases hobs
  | openVinoEnumerate hvalid => cases hobs

end

end NpuStack.Runtime
