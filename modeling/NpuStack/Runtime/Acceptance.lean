import NpuStack.Runtime.Protocol
import NpuStack.Schemes.Gather
import NpuStack.Schemes.JsonGrammar

/-! What `parse_probe_output` accepts, stated on the text of the report.

        bytes = UTF-8 of   white { "schema_version": 1, "probe": …, "mode": …, "outcome": …,
                                   "observations": …, "error_code": … } white

    in any layout and any order of keys. An accepted text spells one such object (`Document`), its
    members are the fields of the report (`Holds`), and the report is in order (`Proper`); every text of
    at most 65536 bytes like that is accepted (`parseProbeOutput_iff`). -/

namespace NpuStack.Runtime
open Interaction Text Serde

/-! ### The fields of a report in a JSON tree -/

def IsDevice (j : Json) (device : LevelZeroDevice) : Prop :=
  ∃ f, IsRecord ["vendor_id", "device_id", "driver_version"] j f ∧ f "vendor_id" = .str device.vendorId ∧
    f "device_id" = .str device.deviceId ∧ readUnsigned 32 (f "driver_version") = some device.driverVersion

def strings (texts : List String) : Json := .arr (texts.map .str)

/-- The observations as the value gives them. -/
def Observes (f64 : String → Option ℚ) (j : Json) : ProbeObservations → Prop
  | .empty => j = .obj []
  | .levelZero devices => ∃ f items, IsRecord ["vpu_devices"] j f ∧ f "vpu_devices" = .arr items ∧
      List.Forall₂ IsDevice items devices
  | .openVinoEnumerate observation => ∃ f, IsRecord ["available_devices", "runtime_version"] j f ∧
      f "available_devices" = strings observation.availableDevices ∧
      f "runtime_version" = .str observation.runtimeVersion
  | .openVinoInfer observation => ∃ f, IsRecord ["available_devices", "execution_devices", "runtime_version",
        "graph_id", "iterations", "tolerance"] j f ∧
      f "available_devices" = strings observation.availableDevices ∧
      f "execution_devices" = strings observation.executionDevices ∧
      f "runtime_version" = .str observation.runtimeVersion ∧ f "graph_id" = .str observation.graphId ∧
      readUnsigned 32 (f "iterations") = some observation.iterations ∧
      readF64 f64 (f "tolerance") = some observation.tolerance

/-- The members of the object are the fields of the report. -/
structure Holds (f64 : String → Option ℚ) (fields : List (String × Json)) (report : ProbeReport) : Prop where
  keys : (fields.map Prod.fst).Perm TOP_LEVEL_KEYS
  version : ∃ j, ("schema_version", j) ∈ fields ∧ readUnsigned 32 j = some report.schemaVersion
  probe : ∃ j, ("probe", j) ∈ fields ∧ Names j report.probe.name
  mode : ∃ j, ("mode", j) ∈ fields ∧ Names j report.mode.name
  outcome : ∃ j, ("outcome", j) ∈ fields ∧ Names j report.outcome.name
  observations : ∃ j, ("observations", j) ∈ fields ∧ Observes f64 j report.observations
  errorCode : ∃ j, ("error_code", j) ∈ fields ∧
    ((report.errorCode = none ∧ j = .null) ∨ ∃ code, report.errorCode = some code ∧ Names j code.name)

/-- The bytes are the text of one JSON object, with white space around it and no repeated key. -/
def Document (f64 : String → Option ℚ) (bytes : Bytes) (fields : List (String × Json)) : Prop :=
  ∃ text, bytes = utf8 text ∧
    Json.Padded (Json.Spells (inRange f64) RECURSION_LIMIT) (.obj fields) text.toList ∧
    (Json.obj fields).duplicateFree = true

/-! ### Reports in order -/

/-- `CPU`, `GPU` or `NPU`, or one of them with a dot and digits. -/
def IsDeviceName (bases : List String) (name : String) : Prop :=
  ∃ base ∈ bases, name = base ∨ ∃ number, isDigits number = true ∧ name = base ++ "." ++ number

/-- Between 1 and 64 device names of at most 256 bytes, strictly increasing. -/
structure DeviceNames (bases : List String) (devices : List String) : Prop where
  count : 1 ≤ devices.length ∧ devices.length ≤ 64
  named : ∀ device ∈ devices, len device ≤ 256 ∧ IsDeviceName bases device
  increasing : devices.Pairwise fun a b => bytesLess (utf8 a) (utf8 b) = true

/-- 1 to 256 letters, digits, dots, pluses, dashes and underscores. -/
def IsRuntimeVersion (value : String) : Prop :=
  value ≠ "" ∧ len value ≤ 256 ∧ ∀ c ∈ value.toList, c.isAlphanum = true ∨ c ∈ ['.', '+', '-', '_']

/-- Four lower-case hexadecimal digits. -/
def IsQuad (value : String) : Prop := value.toList.length = 4 ∧ ∀ c ∈ value.toList, isLowerHex c = true

/-- A failure without observations and with a code of its probe and mode, or a success without a code
    and with observations of its probe and mode. -/
inductive Proper : ProbeReport → Prop
  | fail {probe : ProbeKind} {mode : ProbeMode} {code : ProbeErrorCode}
      (hmode : ¬(probe = .levelZero ∧ mode = .infer)) (hcode : code ∈ errorCodes probe mode) :
      Proper ⟨1, probe, mode, .fail, .empty, some code⟩
  | levelZero {devices : List LevelZeroDevice} (hcount : 1 ≤ devices.length ∧ devices.length ≤ 64)
      (hids : ∀ device ∈ devices, IsQuad device.vendorId ∧ IsQuad device.deviceId)
      (hincreasing : devices.Pairwise fun a b => a.less b = true) :
      Proper ⟨1, .levelZero, .enumerate, .pass, .levelZero devices, none⟩
  | openVinoEnumerate {observation : OpenVinoEnumerateObservation}
      (hdevices : DeviceNames DEVICE_BASES observation.availableDevices)
      (hnpu : ∃ device ∈ observation.availableDevices, IsDeviceName ["NPU"] device)
      (hversion : IsRuntimeVersion observation.runtimeVersion) :
      Proper ⟨1, .openVino, .enumerate, .pass, .openVinoEnumerate observation, none⟩
  | openVinoInfer {observation : OpenVinoInferObservation}
      (hdevices : DeviceNames DEVICE_BASES observation.availableDevices)
      (hnpu : ∃ device ∈ observation.availableDevices, IsDeviceName ["NPU"] device)
      (hexecution : DeviceNames ["NPU"] observation.executionDevices)
      (hversion : IsRuntimeVersion observation.runtimeVersion)
      (hgraph : observation.graphId = "intel-npu-stack-neutral-v1") (hiterations : observation.iterations = 8)
      (htolerance : observation.tolerance = TOLERANCE) :
      Proper ⟨1, .openVino, .infer, .pass, .openVinoInfer observation, none⟩

/-! ### The readers, member by member -/

section
variable {f64 : String → Option ℚ}

/-- A name is read as the variant that has it. -/
theorem readName_iff {α : Type} {variants : List α} {name : α → String} (hall : ∀ v, v ∈ variants)
    (hname : Function.Injective name) {j : Json} {v : α} :
    readName variants name j = some v ↔ Names j (name v) := by
  rw [readName, Option.bind_eq_some_iff]
  constructor
  · rintro ⟨s, hs, hfind⟩
    have hv : name v = s := by simpa using List.find?_some hfind
    rw [hv]
    exact readVariant_iff.mp hs
  · intro h
    refine ⟨name v, readVariant_iff.mpr h, ?_⟩
    cases hfind : variants.find? fun w => name w = name v with
    | none => exact absurd (List.find?_eq_none.mp hfind v (hall v)) (by simp)
    | some w => exact congrArg some (hname (by simpa using List.find?_some hfind))

theorem probe_iff {j : Json} {probe : ProbeKind} :
    readName ProbeKind.variants ProbeKind.name j = some probe ↔ Names j probe.name :=
  readName_iff (fun v => by cases v <;> decide) fun v w h => by
    cases v <;> cases w <;> first | rfl | exact absurd h (by decide)

theorem mode_iff {j : Json} {mode : ProbeMode} :
    readName ProbeMode.variants ProbeMode.name j = some mode ↔ Names j mode.name :=
  readName_iff (fun v => by cases v <;> decide) fun v w h => by
    cases v <;> cases w <;> first | rfl | exact absurd h (by decide)

theorem outcome_iff {j : Json} {outcome : ProbeOutcome} :
    readName ProbeOutcome.variants ProbeOutcome.name j = some outcome ↔ Names j outcome.name :=
  readName_iff (fun v => by cases v <;> decide) fun v w h => by
    cases v <;> cases w <;> first | rfl | exact absurd h (by decide)

theorem errorName_iff {j : Json} {code : ProbeErrorCode} :
    readName ProbeErrorCode.variants ProbeErrorCode.name j = some code ↔ Names j code.name :=
  readName_iff (fun v => by cases v <;> decide) fun v w h => by
    cases v <;> cases w <;> first | rfl | exact absurd h (by decide)

theorem errorCode_iff {j : Json} {code : Option ProbeErrorCode} : readErrorCode (some j) = some code ↔
    (code = none ∧ j = .null) ∨ ∃ c, code = some c ∧ Names j c.name := by
  by_cases hnull : j = .null
  · subst hnull
    constructor
    · intro h
      cases h
      exact .inl ⟨rfl, rfl⟩
    · rintro (⟨rfl, -⟩ | ⟨c, -, h | h⟩)
      · rfl
      · cases h
      · cases h
  · rw [readErrorCode.eq_def]
    split
    · next heq => cases heq
    · next heq => exact absurd (Option.some.inj heq) hnull
    · next heq =>
      obtain rfl := Option.some.inj heq
      rw [Option.map_eq_some_iff]
      constructor
      · rintro ⟨c, hc, rfl⟩
        exact .inr ⟨c, rfl, errorName_iff.mp hc⟩
      · rintro (⟨-, h⟩ | ⟨c, rfl, hc⟩)
        · exact absurd h hnull
        · exact ⟨c, errorName_iff.mpr hc, rfl⟩

theorem readStrings_iff {j : Json} {texts : List String} :
    readVec readStr j = some texts ↔ j = strings texts := by
  constructor
  · intro h
    cases j with
    | arr items =>
      rw [readVec, Gather.mapM_some] at h
      refine congrArg Json.arr ?_
      induction h with
      | nil => rfl
      | cons hitem _ ih => rw [readStr_iff.mp hitem, ih, List.map_cons]
    | _ => cases h
  · rintro rfl
    rw [strings, readVec, Gather.mapM_some]
    induction texts with
    | nil => exact .nil
    | cons text texts ih => exact .cons rfl ih

theorem readDevice_iff {j : Json} {device : LevelZeroDevice} :
    LevelZeroDevice.read j = some device ↔ IsDevice j device := by
  refine record_read (by decide) fun g => ?_
  simp only [required, Option.bind_eq_bind, Option.bind_eq_some_iff, readStr_iff, Option.pure_def,
    Option.some.injEq]
  constructor
  · rintro ⟨vendorId, ⟨vendor, hvendor, rfl⟩, deviceId, ⟨id, hid, rfl⟩, version, ⟨driver, hdriver, hversion⟩, rfl⟩
    obtain ⟨f, hf⟩ := @exists_values g ["vendor_id", "device_id", "driver_version"] (by
      simp [hvendor, hid, hdriver])
    have hvalues := hf
    simp only [List.forall_mem_cons, hvendor, hid, hdriver, Option.some.injEq] at hvalues
    obtain ⟨h₁, h₂, h₃, -⟩ := hvalues
    exact ⟨f, hf, h₁.symm, h₂.symm, by rw [← h₃]; exact hversion⟩
  · rintro ⟨f, hf, hvendor, hid, hdriver⟩
    simp only [List.forall_mem_cons] at hf
    obtain ⟨h₁, h₂, h₃, -⟩ := hf
    exact ⟨_, ⟨_, h₁, hvendor⟩, _, ⟨_, h₂, hid⟩, _, ⟨_, h₃, hdriver⟩, rfl⟩

theorem readLevelZero_iff {j : Json} {devices : List LevelZeroDevice} :
    readLevelZero j = some devices ↔ Observes f64 j (.levelZero devices) := by
  have hitems : ∀ {items : List Json}, items.mapM LevelZeroDevice.read = some devices ↔
      List.Forall₂ IsDevice items devices := by
    intro items
    simp only [Gather.mapM_some, readDevice_iff]
  have hread : readLevelZero j = some devices ↔ ∃ f, IsRecord ["vpu_devices"] j f ∧
      ∃ items, f "vpu_devices" = .arr items ∧ List.Forall₂ IsDevice items devices := by
    refine record_read (by decide) fun g => ?_
    rw [required, Option.bind_eq_some_iff]
    constructor
    · rintro ⟨value, hvalue, hdevices⟩
      cases value with
      | arr items =>
        refine ⟨fun _ => .arr items, ?_, items, rfl, hitems.mp hdevices⟩
        simpa using hvalue
      | _ => cases hdevices
    · rintro ⟨f, hf, items, harr, hall⟩
      refine ⟨_, hf _ List.mem_cons_self, ?_⟩
      rw [harr]
      exact hitems.mpr hall
  refine hread.trans ⟨?_, ?_⟩
  · rintro ⟨f, hrecord, items, harr, hall⟩
    exact ⟨f, items, hrecord, harr, hall⟩
  · rintro ⟨f, items, hrecord, harr, hall⟩
    exact ⟨f, hrecord, items, harr, hall⟩

theorem readEnumerate_iff {j : Json} {observation : OpenVinoEnumerateObservation} :
    OpenVinoEnumerateObservation.read j = some observation ↔
      Observes f64 j (.openVinoEnumerate observation) := by
  refine record_read (by decide) fun g => ?_
  simp only [required, Option.bind_eq_bind, Option.bind_eq_some_iff, readStr_iff, readStrings_iff,
    Option.pure_def, Option.some.injEq]
  constructor
  · rintro ⟨devices, ⟨_, havailable, rfl⟩, version, ⟨_, hversion, rfl⟩, rfl⟩
    obtain ⟨f, hf⟩ := @exists_values g ["available_devices", "runtime_version"] (by
      simp [havailable, hversion])
    have hvalues := hf
    simp only [List.forall_mem_cons, havailable, hversion, Option.some.injEq] at hvalues
    exact ⟨f, hf, hvalues.1.symm, hvalues.2.1.symm⟩
  · rintro ⟨f, hf, havailable, hversion⟩
    simp only [List.forall_mem_cons] at hf
    exact ⟨_, ⟨_, hf.1, havailable⟩, _, ⟨_, hf.2.1, hversion⟩, rfl⟩

theorem readInfer_iff {j : Json} {observation : OpenVinoInferObservation} :
    OpenVinoInferObservation.read f64 j = some observation ↔ Observes f64 j (.openVinoInfer observation) := by
  refine record_read (by decide) fun g => ?_
  simp only [required, Option.bind_eq_bind, Option.bind_eq_some_iff, readStr_iff, readStrings_iff,
    Option.pure_def, Option.some.injEq]
  constructor
  · rintro ⟨available, ⟨_, havailable, rfl⟩, execution, ⟨_, hexecution, rfl⟩, version, ⟨_, hversion, rfl⟩,
      graph, ⟨_, hgraph, rfl⟩, iterations, ⟨_, hcount, hiterations⟩, tolerance, ⟨_, hbound, htolerance⟩, rfl⟩
    obtain ⟨f, hf⟩ := @exists_values g ["available_devices", "execution_devices", "runtime_version",
      "graph_id", "iterations", "tolerance"] (by
        simp [havailable, hexecution, hversion, hgraph, hcount, hbound])
    have hvalues := hf
    simp only [List.forall_mem_cons, havailable, hexecution, hversion, hgraph, hcount, hbound,
      Option.some.injEq] at hvalues
    obtain ⟨h₁, h₂, h₃, h₄, h₅, h₆, -⟩ := hvalues
    exact ⟨f, hf, h₁.symm, h₂.symm, h₃.symm, h₄.symm, by rw [← h₅]; exact hiterations,
      by rw [← h₆]; exact htolerance⟩
  · rintro ⟨f, hf, havailable, hexecution, hversion, hgraph, hiterations, htolerance⟩
    simp only [List.forall_mem_cons] at hf
    obtain ⟨h₁, h₂, h₃, h₄, h₅, h₆, -⟩ := hf
    exact ⟨_, ⟨_, h₁, havailable⟩, _, ⟨_, h₂, hexecution⟩, _, ⟨_, h₃, hversion⟩, _, ⟨_, h₄, hgraph⟩, _,
      ⟨_, h₅, hiterations⟩, _, ⟨_, h₆, htolerance⟩, rfl⟩

/-! ### The checks of a passing report -/

theorem bytesLess_trans {a b c : Bytes} (hab : bytesLess a b = true) (hbc : bytesLess b c = true) :
    bytesLess a c = true := by
  rw [bytesLess, decide_eq_true_eq] at hab hbc ⊢
  exact hab.trans hbc

theorem LevelZeroDevice.less_trans {a b c : LevelZeroDevice} (hab : a.less b = true)
    (hbc : b.less c = true) : a.less c = true := by
  simp only [LevelZeroDevice.less, Bool.or_eq_true, Bool.and_eq_true, decide_eq_true_eq] at hab hbc ⊢
  rcases hab with hab | ⟨hvendor, hab⟩
  · rcases hbc with hbc | ⟨hvendor', -⟩
    · exact .inl (bytesLess_trans hab hbc)
    · rw [← hvendor']
      exact .inl hab
  · rw [hvendor]
    rcases hbc with hbc | ⟨hvendor', hbc⟩
    · exact .inl hbc
    · refine .inr ⟨hvendor', ?_⟩
      rcases hab with hab | ⟨hdevice, hab⟩
      · rcases hbc with hbc | ⟨hdevice', -⟩
        · exact .inl (bytesLess_trans hab hbc)
        · rw [← hdevice']
          exact .inl hab
      · rw [hdevice]
        rcases hbc with hbc | ⟨hdevice', hbc⟩
        · exact .inl hbc
        · exact .inr ⟨hdevice', hab.trans hbc⟩

/-- Neighbours of a list that is sorted in pairs are in order. -/
theorem sortedUnique_of_pairwise {α : Type} {less : α → α → Bool} : ∀ {l : List α},
    l.Pairwise (fun a b => less a b = true) → sortedUnique less l = true
  | [], _ => rfl
  | [_], _ => rfl
  | a :: b :: rest, h => by
    obtain ⟨ha, hrest⟩ := List.pairwise_cons.mp h
    rw [sortedUnique, Bool.and_eq_true]
    exact ⟨ha b (by simp), sortedUnique_of_pairwise hrest⟩

/-- Neighbours in order are all in order. -/
theorem sortedUnique_iff {α : Type} {less : α → α → Bool}
    (htrans : ∀ {a b c}, less a b = true → less b c = true → less a c = true) {xs : List α} :
    sortedUnique less xs = true ↔ xs.Pairwise fun a b => less a b = true := by
  refine ⟨fun h => ?_, sortedUnique_of_pairwise⟩
  induction xs with
  | nil => exact .nil
  | cons a xs ih =>
    cases xs with
    | nil => exact List.pairwise_singleton _ _
    | cons b xs =>
      rw [sortedUnique, Bool.and_eq_true] at h
      have hrest := ih h.2
      refine List.pairwise_cons.mpr ⟨fun x hx => ?_, hrest⟩
      rcases List.mem_cons.mp hx with rfl | hx
      · exact h.1
      · exact htrans h.1 ((List.pairwise_cons.mp hrest).1 x hx)

theorem isLowerHexQuad_iff {value : String} : isLowerHexQuad value = true ↔ IsQuad value := by
  rw [isLowerHexQuad, IsQuad, Bool.and_eq_true, decide_eq_true_eq, all_iff]
  refine and_congr_left fun hall => ?_
  rw [len_of_ascii fun c hc => ?_]
  have hgraphic := isGraphic_of_isLowerHex (hall c hc)
  simp only [isGraphic, Bool.and_eq_true, decide_eq_true_eq] at hgraphic
  omega

theorem isNumbered_iff {base value : String} : isNumbered base value = true ↔
    value = base ∨ ∃ number, isDigits number = true ∧ value = base ++ "." ++ number := by
  rw [isNumbered, Bool.or_eq_true, decide_eq_true_eq]
  refine or_congr_right ⟨fun h => ?_, ?_⟩
  · split at h
    · next suffix hstrip => exact ⟨suffix, h, stripPrefix_eq_some.mp hstrip⟩
    · cases h
  · rintro ⟨number, hnumber, rfl⟩
    rw [stripPrefix_append]
    exact hnumber

theorem isDeviceName_iff {value : String} : isDeviceName value = true ↔ IsDeviceName DEVICE_BASES value := by
  simp only [isDeviceName, IsDeviceName, List.any_eq_true, isNumbered_iff]

theorem isNpuName_iff {value : String} : isNpuName value = true ↔ IsDeviceName ["NPU"] value := by
  simp only [isNpuName, IsDeviceName, List.mem_singleton, exists_eq_left, isNumbered_iff]

theorem count_iff {α : Type} {xs : List α} : ¬(xs = [] ∨ xs.length > MAX_OBSERVATIONS) ↔
    1 ≤ xs.length ∧ xs.length ≤ 64 := by
  rw [not_or, not_lt, ← List.length_eq_zero_iff, ← ne_eq, ← Nat.one_le_iff_ne_zero]
  rfl

theorem validateLevelZero_iff {devices : List LevelZeroDevice} {u : Unit} : validateLevelZero devices = .ok u ↔
    (1 ≤ devices.length ∧ devices.length ≤ 64) ∧
      (∀ device ∈ devices, IsQuad device.vendorId ∧ IsQuad device.deviceId) ∧
      devices.Pairwise fun a b => a.less b = true := by
  have hids : ∀ device : LevelZeroDevice, ¬(!isLowerHexQuad device.vendorId ||
      !isLowerHexQuad device.deviceId) = true ↔ IsQuad device.vendorId ∧ IsQuad device.deviceId := by
    intro device
    rw [Bool.or_eq_true, not_or, Bool.not_eq_true', Bool.not_eq_false, isLowerHexQuad_iff, Bool.not_eq_true',
      Bool.not_eq_false, isLowerHexQuad_iff]
  rw [← sortedUnique_iff @LevelZeroDevice.less_trans]
  simp only [validateLevelZero, except_bind_ok, except_forM_ok, refuse_ok, count_iff, hids,
    Bool.not_eq_true', Bool.not_eq_false, exists_const]

theorem validateDeviceList_iff {devices : List String} {npuOnly : Bool} {u : Unit} :
    validateDeviceList devices npuOnly = .ok u ↔
      DeviceNames (if npuOnly then ["NPU"] else DEVICE_BASES) devices := by
  have hname : ∀ device, ¬(len device > MAX_OBSERVATION_STRING || !isDeviceName device ||
      (npuOnly && !isNpuName device)) = true ↔
      len device ≤ 256 ∧ IsDeviceName (if npuOnly then ["NPU"] else DEVICE_BASES) device := by
    intro device
    have hmore : IsDeviceName ["NPU"] device → IsDeviceName DEVICE_BASES device := by
      rintro ⟨base, hbase, h⟩
      exact ⟨base, List.mem_cons_of_mem _ (List.mem_cons_of_mem _ hbase), h⟩
    cases npuOnly with
    | false =>
      simp [isDeviceName_iff, MAX_OBSERVATION_STRING]
    | true =>
      rw [Bool.or_eq_true, Bool.or_eq_true, decide_eq_true_eq, not_or, not_or, not_lt, Bool.not_eq_true',
        Bool.not_eq_false, Bool.true_and, Bool.not_eq_true', Bool.not_eq_false, isDeviceName_iff, isNpuName_iff]
      exact ⟨fun h => ⟨h.1.1, h.2⟩, fun h => ⟨⟨h.1, hmore h.2⟩, h.2⟩⟩
  have hsorted := @sortedUnique_iff String (fun a b => bytesLess (utf8 a) (utf8 b)) bytesLess_trans devices
  simp only [validateDeviceList, except_bind_ok, except_forM_ok, refuse_ok, count_iff, hname,
    Bool.not_eq_true', Bool.not_eq_false, exists_const, hsorted]
  exact ⟨fun h => ⟨h.1, h.2.1, h.2.2⟩, fun h => ⟨h.count, h.named, h.increasing⟩⟩

theorem validateRuntimeVersion_iff {value : String} {u : Unit} :
    validateRuntimeVersion value = .ok u ↔ IsRuntimeVersion value := by
  rw [validateRuntimeVersion, refuse_ok, not_or, not_or, not_lt, Bool.not_eq_true', Bool.not_eq_false,
    all_iff, IsRuntimeVersion]
  simp only [Bool.or_eq_true, List.contains_iff_mem]
  rfl

theorem any_isNpuName_iff {devices : List String} :
    ¬(!devices.any isNpuName) = true ↔ ∃ device ∈ devices, IsDeviceName ["NPU"] device := by
  simp only [Bool.not_eq_true', Bool.not_eq_false, List.any_eq_true, isNpuName_iff]

theorem validateOpenVinoEnumerate_iff {observation : OpenVinoEnumerateObservation} {u : Unit} :
    validateOpenVinoEnumerate observation = .ok u ↔
      DeviceNames DEVICE_BASES observation.availableDevices ∧
      (∃ device ∈ observation.availableDevices, IsDeviceName ["NPU"] device) ∧
      IsRuntimeVersion observation.runtimeVersion := by
  simp only [validateOpenVinoEnumerate, except_bind_ok, validateDeviceList_iff, refuse_ok, any_isNpuName_iff,
    validateRuntimeVersion_iff, exists_const, Bool.false_eq_true, if_false]

theorem validateOpenVinoInfer_iff {observation : OpenVinoInferObservation} {u : Unit} :
    validateOpenVinoInfer observation = .ok u ↔
      DeviceNames DEVICE_BASES observation.availableDevices ∧
      (∃ device ∈ observation.availableDevices, IsDeviceName ["NPU"] device) ∧
      DeviceNames ["NPU"] observation.executionDevices ∧ IsRuntimeVersion observation.runtimeVersion ∧
      observation.graphId = "intel-npu-stack-neutral-v1" ∧ observation.iterations = 8 ∧
      observation.tolerance = TOLERANCE := by
  simp only [validateOpenVinoInfer, except_bind_ok, validateDeviceList_iff, refuse_ok, any_isNpuName_iff,
    validateRuntimeVersion_iff, exists_const, Bool.false_eq_true, if_false, if_true, not_or, not_not]

/-- The observations of a passing report are read and checked as those of its probe and mode. -/
theorem parseSuccessObservations_iff {probe : ProbeKind} {mode : ProbeMode} {value : Json}
    {observations : ProbeObservations} :
    parseSuccessObservations f64 probe mode value = .ok observations ↔
      Observes f64 value observations ∧ Proper ⟨1, probe, mode, .pass, observations, none⟩ := by
  constructor
  · intro h
    match probe, mode with
    | .levelZero, .enumerate =>
      simp only [parseSuccessObservations, except_bind_ok, need_ok, pure, Except.pure, Except.ok.injEq] at h
      obtain ⟨devices, hread, _, hvalid, rfl⟩ := h
      obtain ⟨hcount, hids, hincreasing⟩ := validateLevelZero_iff.mp hvalid
      exact ⟨readLevelZero_iff.mp hread, .levelZero hcount hids hincreasing⟩
    | .openVino, .enumerate =>
      simp only [parseSuccessObservations, except_bind_ok, need_ok, pure, Except.pure, Except.ok.injEq] at h
      obtain ⟨observation, hread, _, hvalid, rfl⟩ := h
      obtain ⟨hdevices, hnpu, hversion⟩ := validateOpenVinoEnumerate_iff.mp hvalid
      exact ⟨readEnumerate_iff.mp hread, .openVinoEnumerate hdevices hnpu hversion⟩
    | .openVino, .infer =>
      simp only [parseSuccessObservations, except_bind_ok, need_ok, pure, Except.pure, Except.ok.injEq] at h
      obtain ⟨observation, hread, _, hvalid, rfl⟩ := h
      obtain ⟨hdevices, hnpu, hexecution, hversion, hgraph, hiterations, htolerance⟩ :=
        validateOpenVinoInfer_iff.mp hvalid
      exact ⟨readInfer_iff.mp hread,
        .openVinoInfer hdevices hnpu hexecution hversion hgraph hiterations htolerance⟩
    | .levelZero, .infer => cases h
  · rintro ⟨hread, hproper⟩
    cases hproper with
    | levelZero hcount hids hincreasing =>
      rw [parseSuccessObservations, readLevelZero_iff.mpr hread]
      exact except_bind_ok.mpr ⟨_, rfl, except_bind_ok.mpr
        ⟨⟨⟩, validateLevelZero_iff.mpr ⟨hcount, hids, hincreasing⟩, rfl⟩⟩
    | openVinoEnumerate hdevices hnpu hversion =>
      rw [parseSuccessObservations, readEnumerate_iff.mpr hread]
      exact except_bind_ok.mpr ⟨_, rfl, except_bind_ok.mpr
        ⟨⟨⟩, validateOpenVinoEnumerate_iff.mpr ⟨hdevices, hnpu, hversion⟩, rfl⟩⟩
    | openVinoInfer hdevices hnpu hexecution hversion hgraph hiterations htolerance =>
      rw [parseSuccessObservations, readInfer_iff.mpr hread]
      exact except_bind_ok.mpr ⟨_, rfl, except_bind_ok.mpr ⟨⟨⟩, validateOpenVinoInfer_iff.mpr
        ⟨hdevices, hnpu, hexecution, hversion, hgraph, hiterations, htolerance⟩, rfl⟩⟩

/-! ### The report -/

section
variable {fields : List (String × Json)} {f : String → Json}

theorem topLevel_iff :
    ¬(fields.length ≠ TOP_LEVEL_KEYS.length ∨
      TOP_LEVEL_KEYS.any (fun key => key ∉ fields.map Prod.fst) = true) ↔
      (fields.map Prod.fst).Perm TOP_LEVEL_KEYS := by
  rw [not_or, not_not, List.any_eq_true]
  constructor
  · rintro ⟨hlength, hall⟩
    have hsubset : TOP_LEVEL_KEYS ⊆ fields.map Prod.fst := by
      intro key hkey
      by_contra hmissing
      exact hall ⟨key, hkey, by simpa using hmissing⟩
    have hkeys : TOP_LEVEL_KEYS.Nodup := by decide
    refine ((List.subperm_of_subset hkeys hsubset).perm_of_length_le ?_).symm
    rw [List.length_map, hlength]
  · intro hperm
    refine ⟨by rw [← hperm.length_eq, List.length_map], ?_⟩
    rintro ⟨key, hkey, hmissing⟩
    exact of_decide_eq_true hmissing (hperm.mem_iff.mpr hkey)

/-- The one member of a key. -/
theorem member_iff {k : String} {v : Json} (hnodup : (fields.map Prod.fst).Nodup)
    (hlookup : fields.lookup k = some v) {P : Json → Prop} : (∃ j, (k, j) ∈ fields ∧ P j) ↔ P v := by
  constructor
  · rintro ⟨j, hj, hP⟩
    rw [Keyed.lookup_of_mem hnodup hj] at hlookup
    cases hlookup
    exact hP
  · intro hP
    exact ⟨v, Keyed.mem_of_lookup hlookup, hP⟩

/-- The members of the report's keys, as a function of the key. -/
theorem exists_members (hperm : (fields.map Prod.fst).Perm TOP_LEVEL_KEYS) :
    ∃ f : String → Json, ∀ name ∈ TOP_LEVEL_KEYS, fields.lookup name = some (f name) := by
  refine exists_values fun name hname => ?_
  obtain ⟨item, hitem, rfl⟩ := List.mem_map.mp (hperm.mem_iff.mpr hname)
  exact Keyed.lookup_isSome hitem

theorem rawReport_iff (hperm : (fields.map Prod.fst).Perm TOP_LEVEL_KEYS)
    (hf : ∀ name ∈ TOP_LEVEL_KEYS, fields.lookup name = some (f name)) {raw : RawProbeReport} :
    RawProbeReport.read (.obj fields) = some raw ↔
      readUnsigned 32 (f "schema_version") = some raw.schemaVersion ∧ Names (f "probe") raw.probe.name ∧
        Names (f "mode") raw.mode.name ∧ Names (f "outcome") raw.outcome.name ∧
        f "observations" = raw.observations ∧
        ((raw.errorCode = none ∧ f "error_code" = .null) ∨
          ∃ code, raw.errorCode = some code ∧ Names (f "error_code") code.name) := by
  have hnodup := hperm.nodup_iff.mpr (by decide)
  obtain ⟨version, probe, mode, outcome, observations, errorCode⟩ := raw
  simp only [TOP_LEVEL_KEYS, List.forall_mem_cons] at hf
  obtain ⟨h₁, h₂, h₃, h₄, h₅, h₆, -⟩ := hf
  rw [RawProbeReport.read, Json.fields_obj hnodup fun k hk => hperm.mem_iff.mp hk, ← probe_iff, ← mode_iff,
    ← outcome_iff, ← errorCode_iff]
  simp only [Option.bind_eq_bind, Option.bind_some, required, h₁, h₂, h₃, h₄, h₅, h₆,
    Option.bind_eq_some_iff, Option.pure_def, Option.some.injEq, RawProbeReport.mk.injEq]
  constructor
  · rintro ⟨_, hversion, _, hprobe, _, hmode, _, houtcome, _, herror, rfl, rfl, rfl, rfl, rfl, rfl⟩
    exact ⟨hversion, hprobe, hmode, houtcome, rfl, herror⟩
  · rintro ⟨hversion, hprobe, hmode, houtcome, rfl, herror⟩
    exact ⟨_, hversion, _, hprobe, _, hmode, _, houtcome, _, herror, rfl, rfl, rfl, rfl, rfl, rfl⟩

theorem holds_iff (hperm : (fields.map Prod.fst).Perm TOP_LEVEL_KEYS)
    (hf : ∀ name ∈ TOP_LEVEL_KEYS, fields.lookup name = some (f name)) {report : ProbeReport} :
    Holds f64 fields report ↔
      RawProbeReport.read (.obj fields) = some ⟨report.schemaVersion, report.probe, report.mode,
        report.outcome, f "observations", report.errorCode⟩ ∧
        Observes f64 (f "observations") report.observations := by
  have hnodup := hperm.nodup_iff.mpr (by decide)
  rw [rawReport_iff hperm hf]
  simp only [TOP_LEVEL_KEYS, List.forall_mem_cons] at hf
  obtain ⟨h₁, h₂, h₃, h₄, h₅, h₆, -⟩ := hf
  constructor
  · rintro ⟨-, hversion, hprobe, hmode, houtcome, hobservations, herror⟩
    exact ⟨⟨(member_iff hnodup h₁).mp hversion, (member_iff hnodup h₂).mp hprobe,
      (member_iff hnodup h₃).mp hmode, (member_iff hnodup h₄).mp houtcome, rfl,
      (member_iff hnodup h₆).mp herror⟩, (member_iff hnodup h₅).mp hobservations⟩
  · rintro ⟨⟨hversion, hprobe, hmode, houtcome, -, herror⟩, hobservations⟩
    exact ⟨hperm, (member_iff hnodup h₁).mpr hversion, (member_iff hnodup h₂).mpr hprobe,
      (member_iff hnodup h₃).mpr hmode, (member_iff hnodup h₄).mpr houtcome,
      (member_iff hnodup h₅).mpr hobservations, (member_iff hnodup h₆).mpr herror⟩

end

/-- The outcome, the observations and the error code of a report fit together. -/
theorem parseObservations_iff {raw : RawProbeReport} (hversion : raw.schemaVersion = 1)
    (hmode : ¬(raw.probe = .levelZero ∧ raw.mode ≠ .enumerate)) {observations : ProbeObservations} :
    parseObservations f64 raw = .ok observations ↔ Observes f64 raw.observations observations ∧
      Proper ⟨raw.schemaVersion, raw.probe, raw.mode, raw.outcome, observations, raw.errorCode⟩ := by
  obtain ⟨version, probe, mode, outcome, value, errorCode⟩ := raw
  obtain rfl : version = 1 := hversion
  cases outcome with
  | pass =>
    simp only [parseObservations, except_bind_ok, refuse_ok, not_not, exists_const,
      parseSuccessObservations_iff]
    constructor
    · rintro ⟨rfl, hread, hproper⟩
      exact ⟨hread, hproper⟩
    · rintro ⟨hread, hproper⟩
      have hnone : errorCode = none := by cases hproper <;> rfl
      subst hnone
      exact ⟨rfl, hread, hproper⟩
  | fail =>
    simp only [parseObservations, except_bind_ok, refuse_ok, need_ok, validateErrorCode, exists_const,
      Bool.not_eq_true', Bool.not_eq_false, pure, Except.pure, Except.ok.injEq, not_not]
    constructor
    · rintro ⟨hempty, code, rfl, hcode, rfl⟩
      have hinfer : ¬(probe = .levelZero ∧ mode = .infer) := by
        rintro ⟨rfl, rfl⟩
        exact hmode ⟨rfl, fun h => by cases h⟩
      refine ⟨?_, .fail hinfer hcode⟩
      cases value with
      | obj fields =>
        rw [List.isEmpty_iff.mp hempty]
        rfl
      | _ => cases hempty
    · rintro ⟨hread, hproper⟩
      cases hproper with
      | fail hmode hcode =>
        rw [show value = .obj [] from hread]
        exact ⟨rfl, _, rfl, hcode, rfl⟩

/-- The checks of a strict object accept the reports in order that it holds. -/
theorem parseReport_iff {fields : List (String × Json)} (hnodup : (fields.map Prod.fst).Nodup)
    {probe : ProbeKind} {mode : ProbeMode} {report : ProbeReport} :
    parseReport f64 probe mode (.obj fields) = .ok report ↔
      Holds f64 fields report ∧ report.probe = probe ∧ report.mode = mode ∧ Proper report := by
  simp only [parseReport, except_bind_ok, refuse_ok, need_ok, pure, Except.pure, Except.ok.injEq, asObject,
    Option.some.injEq, exists_eq_left', exists_const, topLevel_iff]
  constructor
  · rintro ⟨hperm, version, -, -, raw, hraw, hidentity, observations, hobservations, rfl⟩
    obtain ⟨f, hf⟩ := exists_members hperm
    simp only [not_or, not_not] at hidentity
    obtain ⟨hversion, rfl, rfl, hinfer⟩ := hidentity
    obtain ⟨hread, hproper⟩ := (parseObservations_iff hversion hinfer).mp hobservations
    have hvalue := ((rawReport_iff hperm hf).mp hraw).2.2.2.2.1
    refine ⟨(holds_iff hperm hf).mpr ⟨?_, ?_⟩, rfl, rfl, hproper⟩
    · rw [hvalue]
      exact hraw
    · rw [hvalue]
      exact hread
  · rintro ⟨hholds, rfl, rfl, hproper⟩
    have hperm := hholds.keys
    obtain ⟨f, hf⟩ := exists_members hperm
    obtain ⟨hraw, hread⟩ := (holds_iff hperm hf).mp hholds
    have hversion : report.schemaVersion = 1 := by cases hproper <;> rfl
    have hinfer : ¬(report.probe = .levelZero ∧ report.mode ≠ .enumerate) := by
      rintro ⟨hprobe, hmode⟩
      cases hproper with
      | @fail _ mode _ hlevelZero _ =>
        cases mode with
        | enumerate => exact hmode rfl
        | infer => exact hlevelZero ⟨hprobe, rfl⟩
      | levelZero => exact hmode rfl
      | openVinoEnumerate => cases hprobe
      | openVinoInfer => cases hprobe
    refine ⟨hperm, 1, ?_, ?_, _, hraw, ?_, report.observations, ?_, ?_⟩
    · have hget := Json.get_fields (Json.fields_obj hnodup fun k hk => hperm.mem_iff.mp hk) "schema_version"
      rw [hget, hf _ (by decide), ← hversion]
      exact readUnsigned_mono (by decide) ((rawReport_iff hperm hf).mp hraw).1
    · decide
    · simp only [not_or, not_not]
      exact ⟨hversion, trivial, trivial, hinfer⟩
    · exact (parseObservations_iff hversion hinfer).mpr ⟨hread, hproper⟩
    · rfl

/-! ### The bytes -/

theorem utf8_cons (c : Char) (cs : List Char) :
    utf8 (String.ofList (c :: cs)) = String.utf8EncodeChar c ++ utf8 (String.ofList cs) := by
  simp only [utf8, String.toList_ofList, List.flatMap_cons]

/-- The text of an object starts with an ASCII character. -/
theorem spells_obj_head {range : String → Bool} {depth : ℕ} {fields : List (String × Json)} {cs : List Char}
    (h : Json.Padded (Json.Spells range depth) (.obj fields) cs) :
    ∃ c rest, cs = c :: rest ∧ c.toNat < 128 := by
  obtain ⟨before, t, after, hbefore, hspells, -, rfl⟩ := h
  cases before with
  | cons c before =>
    refine ⟨c, _, rfl, ?_⟩
    have hc := hbefore c List.mem_cons_self
    simp only [Json.isSpace, Bool.or_eq_true, decide_eq_true_eq] at hc
    rcases hc with ((rfl | rfl) | rfl) | rfl <;> decide
  | nil =>
    cases depth with
    | zero => cases hspells
    | succ depth =>
      cases hspells with
      | scalar hscalar => cases hscalar
      | emptyObj _ => exact ⟨_, _, rfl, by decide⟩
      | obj _ => exact ⟨_, _, rfl, by decide⟩

/-- A text that starts with an ASCII character is not empty and starts with no byte-order mark. -/
theorem noMark_of_head {text : String} {c : Char} {rest : List Char} (htext : text.toList = c :: rest)
    (hc : c.toNat < 128) : utf8 text ≠ [] ∧ [0xef, 0xbb, 0xbf].isPrefixOf (utf8 text) = false := by
  have hsize : c.utf8Size = 1 := by
    rw [Char.utf8Size_eq_one_iff]
    show c.val.toNat ≤ 127
    exact Nat.le_of_lt_succ hc
  have hbytes : utf8 text = c.val.toUInt8 :: utf8 (String.ofList rest) := by
    rw [← String.ofList_toList (s := text), htext, utf8_cons, String.utf8EncodeChar_eq_singleton hsize]
    rfl
  have hfirst : (0xef : UInt8) ≠ c.val.toUInt8 := by
    intro h
    have hvalue := congrArg UInt8.toNat h
    change c.val.toNat < 128 at hc
    rw [UInt32.toNat_toUInt8, Nat.mod_eq_of_lt (hc.trans (by decide))] at hvalue
    have hcode : 0xef = c.val.toNat := hvalue
    omega
  rw [hbytes]
  refine ⟨List.cons_ne_nil _ _, ?_⟩
  rw [List.isPrefixOf, beq_eq_false_iff_ne.mpr hfirst, Bool.false_and]

theorem Document.nodup {bytes : Bytes} {fields : List (String × Json)} (h : Document f64 bytes fields) :
    (fields.map Prod.fst).Nodup := by
  obtain ⟨text, -, -, hfree⟩ := h
  rw [Json.duplicateFree, Bool.and_eq_true, decide_eq_true_eq] at hfree
  exact hfree.1

/-- The text of an object without repeated keys reaches the checks of its members. -/
theorem parseProbeOutput_document {bytes : Bytes} {fields : List (String × Json)}
    (hdocument : Document f64 bytes fields) (hlength : bytes.length ≤ MAX_PROBE_STDOUT) {probe : ProbeKind}
    {mode : ProbeMode} : parseProbeOutput f64 bytes probe mode = parseReport f64 probe mode (.obj fields) := by
  obtain ⟨text, rfl, hspelt, hfree⟩ := hdocument
  obtain ⟨rest, hvalue, hskip⟩ := Json.value_iff.mpr hspelt
  obtain ⟨c, cs, htext, hc⟩ := spells_obj_head hspelt
  obtain ⟨hne, hmark⟩ := noMark_of_head htext hc
  have hstrict : strictValue f64 text = some (.obj fields, rest) :=
    Option.filter_eq_some_iff.mpr ⟨hvalue, hfree⟩
  rw [parseProbeOutput, refuse, if_neg hne, except_ok_bind, refuse, if_neg (not_lt.mpr hlength),
    except_ok_bind, refuse, if_neg (Bool.not_eq_true _ ▸ hmark), except_ok_bind, fromUtf8_utf8, need,
    except_ok_bind, hstrict, need, except_ok_bind]
  simp only [refuse, hskip, ne_eq, not_true_eq_false, if_false]
  rfl

/-- What is printed of a plain object is the text of that object. -/
theorem document_render {fields : List (String × Json)} {after : List Char}
    (hplain : Json.Plain (inRange f64) (.obj fields)) (hfree : (Json.obj fields).duplicateFree = true)
    (hdepth : Json.depth (.obj fields) ≤ RECURSION_LIMIT) (hafter : Json.White after) :
    Document f64 (utf8 ((Json.obj fields).render ++ String.ofList after)) fields := by
  refine ⟨_, rfl, Json.value_iff.mp ⟨after, ?_, Json.skip_eq_nil.mpr hafter⟩, hfree⟩
  rw [String.toList_append, String.toList_ofList]
  exact Json.value_render _ hplain hdepth after (Json.follows_of_white hafter)

/-- Exactly the reports in order are accepted, in every layout and order of keys. -/
theorem parseProbeOutput_iff (f64 : String → Option ℚ) (bytes : Bytes) (probe : ProbeKind) (mode : ProbeMode)
    (report : ProbeReport) :
    parseProbeOutput f64 bytes probe mode = .ok report ↔
      bytes.length ≤ MAX_PROBE_STDOUT ∧ ∃ fields, Document f64 bytes fields ∧ Holds f64 fields report ∧
        report.probe = probe ∧ report.mode = mode ∧ Proper report := by
  constructor
  · intro h
    simp only [parseProbeOutput, except_bind_ok, refuse_ok, need_ok, exists_const, not_lt,
      fromUtf8_eq_some, strictValue, Option.filter_eq_some_iff, not_not] at h
    obtain ⟨-, hlength, -, text, rfl, ⟨value, rest⟩, ⟨hvalue, hfree⟩, hskip, hreport⟩ := h
    refine ⟨hlength, ?_⟩
    have hspelt := Json.value_iff.mp ⟨rest, hvalue, hskip⟩
    cases value with
    | obj fields =>
      have hdocument : Document f64 (utf8 text) fields := ⟨text, rfl, hspelt, hfree⟩
      exact ⟨fields, hdocument, (parseReport_iff hdocument.nodup).mp hreport⟩
    | _ => cases hreport
  · rintro ⟨hlength, fields, hdocument, hreport⟩
    rw [parseProbeOutput_document hdocument hlength]
    exact (parseReport_iff hdocument.nodup).mpr hreport

/-- A passing enumeration of one NPU that leaves the runtime version empty. -/
def versionless : List (String × Json) :=
  [("schema_version", .num "1"), ("probe", .str "openvino"), ("mode", .str "enumerate"),
    ("outcome", .str "pass"),
    ("observations", .obj [("available_devices", strings ["NPU"]), ("runtime_version", .str "")]),
    ("error_code", .null)]

/-- The devices of the report are in order, and it is refused for its runtime version. -/
theorem versionless_refused :
    Document (fun _ => none) (utf8 ((Json.obj versionless).render ++ "")) versionless ∧
      Holds (fun _ => none) versionless
        ⟨1, .openVino, .enumerate, .pass, .openVinoEnumerate ⟨["NPU"], ""⟩, none⟩ ∧
      DeviceNames DEVICE_BASES ["NPU"] ∧ IsDeviceName ["NPU"] "NPU" ∧
      parseProbeOutput (fun _ => none) (utf8 ((Json.obj versionless).render ++ "")) .openVino .enumerate =
        .error (.invalid "OpenVINO runtime version is invalid") := by
  have hplain : Json.Plain (inRange fun _ => none) (.obj versionless) :=
    ⟨rfl, @Json.plainNumber_repr _ 1 (by decide), rfl, rfl, rfl, rfl, rfl, rfl, rfl,
      ⟨rfl, ⟨rfl, trivial⟩, rfl, rfl, trivial⟩, rfl, trivial, trivial⟩
  have hdocument : Document (fun _ => none) (utf8 ((Json.obj versionless).render ++ "")) versionless :=
    document_render hplain (by decide) (by decide) (List.forall_mem_nil _)
  have hmember : ∀ item ∈ versionless, item ∈ versionless := fun _ => id
  simp only [versionless, List.forall_mem_cons] at hmember
  obtain ⟨hversion, hprobe, hmode, houtcome, hobservations, herror, -⟩ := hmember
  refine ⟨hdocument, ⟨.refl _, ⟨_, hversion, by decide⟩, ⟨_, hprobe, .inl rfl⟩, ⟨_, hmode, .inl rfl⟩,
    ⟨_, houtcome, .inl rfl⟩, ⟨_, hobservations, ?_⟩, ⟨_, herror, .inl ⟨rfl, rfl⟩⟩⟩, ⟨by decide, ?_, by simp⟩, ?_, ?_⟩
  · refine ⟨fun name => if name = "available_devices" then strings ["NPU"] else .str "",
      .inl ⟨_, rfl, .refl _, ?_⟩, rfl, rfl⟩
    intro k v hkv
    rcases List.mem_cons.mp hkv with h | h
    · cases h
      rfl
    · cases List.mem_singleton.mp h
      rfl
  · intro device hdevice
    obtain rfl := List.mem_singleton.mp hdevice
    exact ⟨by decide, "NPU", by decide, .inl rfl⟩
  · exact ⟨"NPU", List.mem_singleton_self _, .inl rfl⟩
  · rw [parseProbeOutput_document hdocument (by rw [length_utf8]; decide +kernel)]
    rfl

end

end NpuStack.Runtime
