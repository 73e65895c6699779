import NpuStack.Native.LevelZero

/-! The OpenVINO helper: what the runtime library answers becomes a sorted list of device names and
    a version, or an error, and the result becomes one line of JSON.

        answers ──enumerate──▶ ProbeResult ──render_enumerate_report──▶ text ──main──▶ one line

    Both renderers validate the result again before they print it. -/

namespace NpuStack.Native.OpenVino
open Interaction Text Serde

def kProbe : String := "openvino"
def kInferMode : String := "infer"
def kGraphId : String := "intel-npu-stack-neutral-v1"
def kIterations : ℕ := 8

/-- The shortest decimal of `kTolerance`. -/
def kTolerance : String := "0.001"

inductive Error where
  | noNpu | enumerationFailed | compileFailed | wrongDevice | inferenceFailed | outputInvalid
  | internalFailure
  deriving DecidableEq, Repr

structure ProbeResult where
  availableDevices : List Bytes
  executionDevices : List Bytes
  runtimeVersion : Bytes
  error : Option Error
  deriving DecidableEq, Repr

def failure (error : Error) : ProbeResult := ⟨[], [], [], some error⟩

/-! ### Names and versions -/

def isDigit (byte : UInt8) : Bool := 0x30 ≤ byte && byte ≤ 0x39

/-- `std::isalnum` in the "C" locale. -/
def isAlnum (byte : UInt8) : Bool :=
  isDigit byte || (0x41 ≤ byte && byte ≤ 0x5a) || (0x61 ≤ byte && byte ≤ 0x7a)

/-- A letter, a digit, or one of `.+-_`. -/
def isVersionByte (byte : UInt8) : Bool :=
  isAlnum byte || byte = 0x2e || byte = 0x2b || byte = 0x2d || byte = 0x5f

/-- One base of `is_device`: the base itself, or followed by a dot and digits. -/
def isDeviceOf (base value : Bytes) : Bool :=
  value = base || (value.length > base.length + 1 && base.isPrefixOf value &&
    value[base.length]? = some 0x2e && (value.drop (base.length + 1)).all isDigit)

def isDevice (value : Bytes) : Bool :=
  ["CPU", "GPU", "NPU"].any fun base => isDeviceOf (utf8 base) value

def isNpu (value : Bytes) : Bool :=
  value = utf8 "NPU" || ((utf8 "NPU.").isPrefixOf value && value.length > 4 &&
    (value.drop 4).all isDigit)

def isRuntimeVersion (value : Bytes) : Bool :=
  value ≠ [] && value.length ≤ kMaxStringBytes && value.all isVersionByte

def normalizeDevices (devices : List Bytes) : List Bytes :=
  SortUnique.sortUnique stringLess
    (devices.filter fun device => device.length ≤ kMaxStringBytes && isDevice device)

/-- The longest prefix of version bytes, none when empty or too long. -/
def normalizeRuntimeVersion (version : Bytes) : Option Bytes :=
  let found := version.takeWhile isVersionByte
  if found.length = 0 ∨ found.length > kMaxStringBytes then none else some found

def validateEnumeration (devices : List Bytes) (runtimeVersion : Bytes) : ProbeResult :=
  if devices.length > kMaxObservations ∨ !isRuntimeVersion runtimeVersion then
    failure .enumerationFailed
  else
    let normalized := normalizeDevices devices
    if !normalized.any isNpu then failure .noNpu else ⟨normalized, [], runtimeVersion, none⟩

def validateExecutionDevices (devices : List Bytes) : Option Error :=
  if devices = [] ∨ devices.length > kMaxObservations ∨
      !devices.all (fun device => device.length ≤ kMaxStringBytes && isNpu device) then
    some .wrongDevice
  else none

def errorCode : Error → String
  | .noNpu => "OPENVINO_NO_NPU"
  | .enumerationFailed => "OPENVINO_ENUMERATION_FAILED"
  | .compileFailed => "OPENVINO_COMPILE_FAILED"
  | .wrongDevice => "OPENVINO_WRONG_DEVICE"
  | .inferenceFailed => "OPENVINO_INFERENCE_FAILED"
  | .outputInvalid => "OPENVINO_OUTPUT_INVALID"
  | .internalFailure => "OPENVINO_INTERNAL_FAILURE"

/-! ### Rendering -/

def writeDevices (devices : List Bytes) : List Call :=
  .beginArray :: (devices.map Call.string ++ [.endArray])

def beginReport (mode : String) : List Call :=
  [.beginObject, field "schema_version", unsignedInteger kSchemaVersion, field "probe", text kProbe,
    field "mode", text mode]

def writeFailure (error : Error) : List Call :=
  [field "outcome", text kFailOutcome, field "observations", .beginObject, .endObject,
    field "error_code", text (errorCode error)]

def requireFailureInvariant (result : ProbeResult) : Except Thrown Unit :=
  refuse (result.availableDevices ≠ [] ∨ result.executionDevices ≠ [] ∨ result.runtimeVersion ≠ [])
    (.invalidArgument "failed OpenVINO result contains observations")

/-- The result is what validating its own devices and version yields. -/
def Validated (result : ProbeResult) : Prop :=
  (validateEnumeration result.availableDevices result.runtimeVersion).error = none ∧
    (validateEnumeration result.availableDevices result.runtimeVersion).availableDevices =
      result.availableDevices

instance (result : ProbeResult) : Decidable (Validated result) :=
  inferInstanceAs (Decidable (_ ∧ _))

def requirePassingEnumeration (result : ProbeResult) : Except Thrown Unit :=
  refuse (¬ Validated result ∨ result.executionDevices ≠ [])
    (.invalidArgument "passing OpenVINO enumeration result is invalid")

def renderEnumerateReport (result : ProbeResult) : Except Thrown Bytes :=
  match result.error with
  | some error => do
    requireFailureInvariant result
    print (beginReport kEnumerateMode ++ writeFailure error ++ [.endObject])
  | none => do
    requirePassingEnumeration result
    print (beginReport kEnumerateMode ++ [field "outcome", text kPassOutcome, field "observations",
      .beginObject, field "available_devices"] ++ writeDevices result.availableDevices ++
      [field "runtime_version", .string result.runtimeVersion, .endObject, field "error_code",
        nullValue, .endObject])

def renderInferReport (result : ProbeResult) : Except Thrown Bytes :=
  match result.error with
  | some error => do
    requireFailureInvariant result
    print (beginReport kInferMode ++ writeFailure error ++ [.endObject])
  | none => do
    refuse (¬ Validated result ∨ (validateExecutionDevices result.executionDevices).isSome ∨
      normalizeDevices result.executionDevices ≠ result.executionDevices)
      (.invalidArgument "passing OpenVINO inference result is invalid")
    print (beginReport kInferMode ++ [field "outcome", text kPassOutcome, field "observations",
      .beginObject, field "available_devices"] ++ writeDevices result.availableDevices ++
      [field "execution_devices"] ++ writeDevices result.executionDevices ++
      [field "runtime_version", .string result.runtimeVersion, field "graph_id", text kGraphId,
        field "iterations", unsignedInteger kIterations, field "tolerance", decimal kTolerance,
        .endObject, field "error_code", nullValue, .endObject])

/-! ### The program -/

/-- What the library answers on enumeration: no core and no devices where it throws, no version
    where the pointer is null. -/
structure Answers where
  core : Option Unit
  buildNumber : Option Bytes
  devices : Option (List Bytes)

/-- The discovery both modes start with. -/
def enumerate (answers : Answers) : ProbeResult :=
  match answers.core, answers.buildNumber.bind normalizeRuntimeVersion, answers.devices with
  | some _, some version, some devices => validateEnumeration devices version
  | _, _, _ => failure .enumerationFailed

def kEnumerateInternalFailure : String :=
  "\x7b\"schema_version\":1,\"probe\":\"openvino\",\"mode\":\"enumerate\",\"outcome\":\"fail\"," ++
    "\"observations\":\x7b\x7d,\"error_code\":\"OPENVINO_INTERNAL_FAILURE\"\x7d"

def kInferInternalFailure : String :=
  "\x7b\"schema_version\":1,\"probe\":\"openvino\",\"mode\":\"infer\",\"outcome\":\"fail\"," ++
    "\"observations\":\x7b\x7d,\"error_code\":\"OPENVINO_INTERNAL_FAILURE\"\x7d"

/-! ### What validation leaves -/

/-- The base, or the base, a dot and digits. -/
def Numbered (base value : Bytes) : Prop :=
  value = base ∨ ∃ suffix, suffix ≠ [] ∧ (∀ b ∈ suffix, isDigit b = true) ∧
    value = base ++ 0x2e :: suffix

theorem numbered_of_isDeviceOf {base value : Bytes} (h : isDeviceOf base value = true) :
    Numbered base value := by
  simp only [isDeviceOf, Bool.or_eq_true, Bool.and_eq_true, decide_eq_true_eq, List.all_eq_true,
    List.isPrefixOf_iff_prefix] at h
  rcases h with heq | ⟨⟨⟨hlength, rest, rfl⟩, hdot⟩, hdigits⟩
  · exact .inl heq
  · cases rest with
    | nil => simp at hlength
    | cons dot suffix =>
      obtain rfl : dot = 0x2e := by simpa using hdot
      refine .inr ⟨suffix, ?_, by simpa using hdigits, rfl⟩
      rintro rfl
      simp at hlength

theorem numbered_of_isNpu {value : Bytes} (h : isNpu value = true) : Numbered (utf8 "NPU") value := by
  simp only [isNpu, Bool.or_eq_true, Bool.and_eq_true, decide_eq_true_eq, List.all_eq_true,
    List.isPrefixOf_iff_prefix] at h
  rcases h with heq | ⟨⟨⟨suffix, rfl⟩, hlength⟩, hdigits⟩
  · exact .inl heq
  · have hbase : utf8 "NPU." = utf8 "NPU" ++ [0x2e] := by decide
    have hfour : (utf8 "NPU.").length = 4 := by decide
    refine .inr ⟨suffix, ?_, ?_, by rw [hbase]; simp⟩
    · rintro rfl
      simp [hfour] at hlength
    · rw [← hfour, List.drop_left] at hdigits
      exact hdigits

theorem numbered_of_isDevice {value : Bytes} (h : isDevice value = true) :
    ∃ base ∈ ["CPU", "GPU", "NPU"], Numbered (utf8 base) value := by
  obtain ⟨base, hbase, hvalue⟩ := List.any_eq_true.mp h
  exact ⟨base, hbase, numbered_of_isDeviceOf hvalue⟩

theorem stringLess_iff (a b : Bytes) :
    stringLess a b = true ↔ a.map UInt8.toNat < b.map UInt8.toNat := by
  rw [stringLess, decide_eq_true_eq]

theorem mem_normalizeDevices {devices : List Bytes} {device : Bytes} :
    device ∈ normalizeDevices devices ↔
      device ∈ devices ∧ device.length ≤ kMaxStringBytes ∧ isDevice device = true := by
  simp [normalizeDevices, SortUnique.mem_sortUnique, List.mem_filter]

theorem pairwise_normalizeDevices (devices : List Bytes) :
    (normalizeDevices devices).Pairwise fun a b => a.map UInt8.toNat < b.map UInt8.toNat :=
  SortUnique.pairwise_sortUnique LevelZero.toNat_injective stringLess_iff _

/-- A list that may be printed: not empty, at most 64 device names, sorted without repetition. -/
structure Normal (devices : List Bytes) : Prop where
  nonempty : devices ≠ []
  length_le : devices.length ≤ kMaxObservations
  short : ∀ device ∈ devices, device.length ≤ kMaxStringBytes
  named : ∀ device ∈ devices, isDevice device = true
  sorted : devices.Pairwise fun a b => a.map UInt8.toNat < b.map UInt8.toNat

theorem normal_of_normalize {devices : List Bytes} (h : normalizeDevices devices = devices)
    (hne : devices ≠ []) (hlength : devices.length ≤ kMaxObservations) : Normal devices := by
  have hmem : ∀ device ∈ devices, device.length ≤ kMaxStringBytes ∧ isDevice device = true :=
    fun device hdevice => (mem_normalizeDevices.mp (h.symm ▸ hdevice)).2
  refine ⟨hne, hlength, fun d hd => (hmem d hd).1, fun d hd => (hmem d hd).2, ?_⟩
  rw [← h]
  exact pairwise_normalizeDevices devices

/-- A validated result has a normal list of devices, an NPU among them, and a version. -/
theorem Validated.spec {result : ProbeResult} (h : Validated result) :
    Normal result.availableDevices ∧ result.availableDevices.any isNpu = true ∧
      isRuntimeVersion result.runtimeVersion = true := by
  obtain ⟨herror, hdevices⟩ := h
  rw [validateEnumeration] at herror hdevices
  split at herror
  · cases herror
  · next hbound =>
    rw [if_neg hbound] at hdevices
    simp only [not_or, Bool.not_eq_true', Bool.not_eq_false] at hbound
    dsimp only at herror hdevices
    split at herror
    · cases herror
    · next hnpu =>
      rw [if_neg hnpu] at hdevices
      simp only [Bool.not_eq_true', Bool.not_eq_false] at hnpu
      replace hdevices : normalizeDevices result.availableDevices = result.availableDevices := hdevices
      rw [hdevices] at hnpu
      have hne : result.availableDevices ≠ [] := by
        intro hnil
        rw [hnil] at hnpu
        cases hnpu
      exact ⟨normal_of_normalize hdevices hne (not_lt.mp hbound.1), hnpu, hbound.2⟩

/-- Validation ends in devices or in one of two errors. -/
theorem validateEnumeration_error (devices : List Bytes) (runtimeVersion : Bytes) :
    (validateEnumeration devices runtimeVersion).error ∈
      [none, some .noNpu, some .enumerationFailed] := by
  rw [validateEnumeration]
  split
  · simp [failure]
  · dsimp only
    split <;> simp [failure]

theorem enumerate_error (answers : Answers) :
    (enumerate answers).error ∈ [none, some .noNpu, some .enumerationFailed] := by
  rw [enumerate]
  split
  · exact validateEnumeration_error _ _
  · simp [failure]

end NpuStack.Native.OpenVino
