import Mathlib.Data.List.Lex
import Mathlib.Data.Prod.Lex
import NpuStack.Native.JsonWriter
import NpuStack.Schemes.Gather
import NpuStack.Schemes.Keyed
import NpuStack.Schemes.SortUnique

/-! The Level Zero helper: driver and device records become a sorted list of VPU identities, or one
    of five errors, and the result becomes one line of JSON.

        drivers ──map_devices──▶ ProbeResult ──render_report──▶ text

    Every way of failing on a record is the same error, so the order of drivers and of devices does
    not matter (`mapDevices_congr`). -/

namespace NpuStack.Native
open Interaction Text Serde

/-! ### The protocol's constants -/

def kSchemaVersion : ℕ := 1
def kMaxObservations : ℕ := 64
def kMaxStringBytes : ℕ := 256
def kMaxOutputBytes : ℕ := 65536

def kLevelZeroProbe : String := "level_zero"
def kEnumerateMode : String := "enumerate"
def kPassOutcome : String := "pass"
def kFailOutcome : String := "fail"

/-- Performs the calls on a fresh writer and returns the document. -/
def print (calls : List Call) : Except Thrown Bytes := do
  let writer ← Writer.create kMaxOutputBytes kMaxStringBytes
  let writer ← writer.perform calls
  writer.finish

/-- The order of `std::string`: byte by byte. -/
def stringLess (left right : Bytes) : Bool := left.map UInt8.toNat < right.map UInt8.toNat

/-- `writer.string` of a constant. -/
def text (s : String) : Call := .string (utf8 s)

/-- `writer.key`. -/
def field (name : String) : Call := .key (utf8 name)

namespace LevelZero

inductive LevelZeroError where
  | permissionDenied | dependencyUnavailable | noVpu | enumerationFailed | internalFailure
  deriving DecidableEq, Repr

def errorCode : LevelZeroError → String
  | .permissionDenied => "LEVEL_ZERO_PERMISSION_DENIED"
  | .dependencyUnavailable => "LEVEL_ZERO_DEPENDENCY_UNAVAILABLE"
  | .noVpu => "LEVEL_ZERO_NO_VPU"
  | .enumerationFailed => "LEVEL_ZERO_ENUMERATION_FAILED"
  | .internalFailure => "LEVEL_ZERO_INTERNAL_FAILURE"

/-- `ZE_DEVICE_TYPE_VPU`. -/
def deviceTypeVpu : ℕ := 5

structure DeviceRecord where
  type : ℕ
  vendorId : UInt32
  deviceId : UInt32
  deriving DecidableEq, Repr

structure DriverRecord where
  driverVersion : UInt32
  devices : List DeviceRecord
  deriving DecidableEq, Repr

structure VpuDevice where
  vendorId : Bytes
  deviceId : Bytes
  driverVersion : UInt32
  deriving DecidableEq, Repr

structure ProbeResult where
  vpuDevices : List VpuDevice
  error : Option LevelZeroError
  deriving DecidableEq, Repr

def failure (error : LevelZeroError) : ProbeResult := ⟨[], some error⟩

/-! ### Mapping devices -/

/-- The loop over the digits, from the last. -/
def hexDigits : ℕ → UInt32 → Bytes → Bytes
  | 0, _, output => output
  | n + 1, value, output => hexDigits n (value >>> 4) (hexDigit (value &&& 0x0f).toUInt8 :: output)

/-- Four hexadecimal digits, or an exception. -/
def hexQuad (value : UInt32) : Option Bytes :=
  if value > 0xffff then none else some (hexDigits 4 value [])

def vpuLess (left right : VpuDevice) : Bool :=
  if left.vendorId ≠ right.vendorId then stringLess left.vendorId right.vendorId
  else if left.deviceId ≠ right.deviceId then stringLess left.deviceId right.deviceId
  else left.driverVersion < right.driverVersion

def mapDevice (driverVersion : UInt32) (device : DeviceRecord) : Option VpuDevice := do
  return ⟨← hexQuad device.vendorId, ← hexQuad device.deviceId, driverVersion⟩

/-- The VPU devices of one driver; none on too many devices or an identifier out of range. -/
def mapDriver (driver : DriverRecord) : Option (List VpuDevice) :=
  if driver.devices.length > kMaxObservations then none
  else (driver.devices.filter fun device => device.type = deviceTypeVpu).mapM
    (mapDevice driver.driverVersion)

def mapDevices (drivers : List DriverRecord) : ProbeResult :=
  if drivers.length > kMaxObservations then failure .enumerationFailed
  else
    match drivers.mapM mapDriver with
    | none => failure .enumerationFailed
    | some found =>
      let devices := SortUnique.sortUnique vpuLess found.flatten
      if devices = [] then failure .noVpu
      else if devices.length > kMaxObservations then failure .enumerationFailed
      else ⟨devices, none⟩

/-! ### Rendering -/

def writeDevice (device : VpuDevice) : List Call :=
  [.beginObject, field "vendor_id", .string device.vendorId, field "device_id",
    .string device.deviceId, field "driver_version", unsignedInteger device.driverVersion.toNat,
    .endObject]

def writeHeader : List Call :=
  [.beginObject, field "schema_version", unsignedInteger kSchemaVersion, field "probe",
    text kLevelZeroProbe, field "mode", text kEnumerateMode]

def renderReport (result : ProbeResult) : Except Thrown Bytes := do
  refuse (result.error.isSome = !result.vpuDevices.isEmpty)
    (.invalidArgument "Level Zero probe result invariant is invalid")
  match result.error with
  | some error =>
    print (writeHeader ++ [field "outcome", text kFailOutcome, field "observations", .beginObject,
      .endObject, field "error_code", text (errorCode error), .endObject])
  | none =>
    refuse (result.vpuDevices.length > kMaxObservations)
      (.lengthError "too many Level Zero observations")
    print (writeHeader ++ [field "outcome", text kPassOutcome, field "observations", .beginObject,
      field "vpu_devices", .beginArray] ++ result.vpuDevices.flatMap writeDevice ++
      [.endArray, .endObject, field "error_code", nullValue, .endObject])

/-- The line printed when rendering throws. -/
def kInternalFailure : String :=
  "\x7b\"schema_version\":1,\"probe\":\"level_zero\",\"mode\":\"enumerate\",\"outcome\":\"fail\"," ++
    "\"observations\":\x7b\x7d,\"error_code\":\"LEVEL_ZERO_INTERNAL_FAILURE\"\x7d"

/-! ### The order of devices -/

/-- What devices are compared by. -/
def VpuDevice.key (d : VpuDevice) : List ℕ ×ₗ List ℕ ×ₗ ℕ :=
  toLex (d.vendorId.map UInt8.toNat, toLex (d.deviceId.map UInt8.toNat, d.driverVersion.toNat))

theorem toNat_injective : Function.Injective (List.map UInt8.toNat) :=
  List.map_injective_iff.mpr fun _ _ => UInt8.toNat_inj.mp

theorem VpuDevice.key_injective : Function.Injective VpuDevice.key := by
  rintro ⟨v, d, n⟩ ⟨v', d', n'⟩ h
  simp only [VpuDevice.key, toLex_inj, Prod.mk.injEq] at h
  obtain ⟨hv, hd, hn⟩ := h
  rw [toNat_injective hv, toNat_injective hd, UInt32.toNat_inj.mp hn]

theorem vpuLess_iff (a b : VpuDevice) : vpuLess a b = true ↔ a.key < b.key := by
  have hv : a.vendorId = b.vendorId ↔
      a.vendorId.map UInt8.toNat = b.vendorId.map UInt8.toNat := toNat_injective.eq_iff.symm
  have hd : a.deviceId = b.deviceId ↔
      a.deviceId.map UInt8.toNat = b.deviceId.map UInt8.toNat := toNat_injective.eq_iff.symm
  simp only [vpuLess, VpuDevice.key, Prod.Lex.toLex_lt_toLex, stringLess, ne_eq, hv, hd, ite_not]
  split
  · next heq =>
    simp only [heq, lt_irrefl, true_and, false_or]
    split
    · next heq' => simp [heq', UInt32.lt_iff_toNat_lt]
    · next hne => simp [hne]
  · next hne => simp [hne]

/-! ### The order of records -/

/-- A record among the drivers. -/
def Recorded (drivers : List DriverRecord) (version : UInt32) (device : DeviceRecord) : Prop :=
  ∃ driver ∈ drivers, driver.driverVersion = version ∧ device ∈ driver.devices ∧
    device.type = deviceTypeVpu

/-- What mapping depends on: nothing about the order of records. -/
structure SameRecords (drivers drivers' : List DriverRecord) : Prop where
  length : drivers.length = drivers'.length
  crowded : (∃ d ∈ drivers, d.devices.length > kMaxObservations) ↔
    ∃ d ∈ drivers', d.devices.length > kMaxObservations
  recorded : ∀ version device, Recorded drivers version device ↔ Recorded drivers' version device

theorem mapDriver_eq_none {driver : DriverRecord} : mapDriver driver = none ↔
    driver.devices.length > kMaxObservations ∨ ∃ device ∈ driver.devices,
      device.type = deviceTypeVpu ∧ mapDevice driver.driverVersion device = none := by
  rw [mapDriver]
  split
  · next h => simp [h]
  · next h =>
    rw [Gather.mapM_none]
    simp [h, List.mem_filter, and_assoc]

theorem mem_mapDriver {driver : DriverRecord} {found : List VpuDevice} {x : VpuDevice}
    (h : mapDriver driver = some found) : x ∈ found ↔ ∃ device ∈ driver.devices,
      device.type = deviceTypeVpu ∧ mapDevice driver.driverVersion device = some x := by
  rw [mapDriver] at h
  split at h
  · cases h
  · rw [Gather.mem_mapM h]
    simp [List.mem_filter, and_assoc]

/-- Mapping fails when some driver is crowded or some recorded device cannot be named. -/
theorem mapDrivers_eq_none {drivers : List DriverRecord} : drivers.mapM mapDriver = none ↔
    (∃ d ∈ drivers, d.devices.length > kMaxObservations) ∨
      ∃ version device, Recorded drivers version device ∧ mapDevice version device = none := by
  rw [Gather.mapM_none]
  simp only [mapDriver_eq_none, Recorded]
  constructor
  · rintro ⟨driver, hdriver, hcrowded | ⟨device, hdevice, htype, hnone⟩⟩
    · exact .inl ⟨driver, hdriver, hcrowded⟩
    · exact .inr ⟨_, device, ⟨driver, hdriver, rfl, hdevice, htype⟩, hnone⟩
  · rintro (⟨driver, hdriver, hcrowded⟩ | ⟨_, device, ⟨driver, hdriver, rfl, hdevice, htype⟩, hnone⟩)
    · exact ⟨driver, hdriver, .inl hcrowded⟩
    · exact ⟨driver, hdriver, .inr ⟨device, hdevice, htype, hnone⟩⟩

/-- What was found is what recorded devices are named. -/
theorem mem_mapDrivers {drivers : List DriverRecord} {found : List (List VpuDevice)} {x : VpuDevice}
    (h : drivers.mapM mapDriver = some found) : x ∈ found.flatten ↔
      ∃ version device, Recorded drivers version device ∧ mapDevice version device = some x := by
  simp only [List.mem_flatten, Gather.mem_mapM h, Recorded]
  constructor
  · rintro ⟨l, ⟨driver, hdriver, hl⟩, hx⟩
    obtain ⟨device, hdevice, htype, hnamed⟩ := (mem_mapDriver hl).mp hx
    exact ⟨_, device, ⟨driver, hdriver, rfl, hdevice, htype⟩, hnamed⟩
  · rintro ⟨_, device, ⟨driver, hdriver, rfl, hdevice, htype⟩, hnamed⟩
    cases hl : mapDriver driver with
    | none => exact absurd (Gather.mapM_none.mpr ⟨driver, hdriver, hl⟩) (by simp [h])
    | some l => exact ⟨l, ⟨driver, hdriver, hl⟩, (mem_mapDriver hl).mpr ⟨device, hdevice, htype, hnamed⟩⟩

/-- The result depends only on which records there are, not on their order. -/
theorem mapDevices_congr {drivers drivers' : List DriverRecord} (h : SameRecords drivers drivers') :
    mapDevices drivers = mapDevices drivers' := by
  have hnone : drivers.mapM mapDriver = none ↔ drivers'.mapM mapDriver = none := by
    rw [mapDrivers_eq_none, mapDrivers_eq_none, h.crowded]
    simp only [h.recorded]
  rw [mapDevices, mapDevices, h.length]
  split
  · rfl
  cases hfound : drivers.mapM mapDriver with
  | none => rw [hnone.mp hfound]
  | some found =>
    cases hfound' : drivers'.mapM mapDriver with
    | none => rw [hnone.mpr hfound'] at hfound; cases hfound
    | some found' =>
      have hmem : ∀ x, x ∈ found.flatten ↔ x ∈ found'.flatten := fun x => by
        rw [mem_mapDrivers hfound, mem_mapDrivers hfound']
        simp only [h.recorded]
      simp only [SortUnique.sortUnique_congr VpuDevice.key_injective vpuLess_iff hmem]

/-- Drivers in another order, each with its devices in another order. -/
def Shuffled (drivers drivers' : List DriverRecord) : Prop :=
  ∃ middle, List.Forall₂ (fun d d' => d.driverVersion = d'.driverVersion ∧
    d.devices.Perm d'.devices) drivers middle ∧ middle.Perm drivers'

theorem sameRecords_of_shuffled {drivers drivers' : List DriverRecord}
    (h : Shuffled drivers drivers') : SameRecords drivers drivers' := by
  obtain ⟨middle, hinner, houter⟩ := h
  refine ⟨hinner.length_eq.trans houter.length_eq, ⟨?_, ?_⟩, fun version device => ⟨?_, ?_⟩⟩
  · rintro ⟨d, hd, hlen⟩
    obtain ⟨d', hd', -, hperm⟩ := Keyed.exists_of_mem_left hinner d hd
    exact ⟨d', houter.mem_iff.mp hd', hperm.length_eq ▸ hlen⟩
  · rintro ⟨d', hd', hlen⟩
    obtain ⟨d, hd, -, hperm⟩ := Keyed.exists_of_mem_right hinner d' (houter.mem_iff.mpr hd')
    exact ⟨d, hd, hperm.length_eq ▸ hlen⟩
  · rintro ⟨d, hd, hversion, hdevice, htype⟩
    obtain ⟨d', hd', heq, hperm⟩ := Keyed.exists_of_mem_left hinner d hd
    exact ⟨d', houter.mem_iff.mp hd', heq ▸ hversion, hperm.mem_iff.mp hdevice, htype⟩
  · rintro ⟨d', hd', hversion, hdevice, htype⟩
    obtain ⟨d, hd, heq, hperm⟩ := Keyed.exists_of_mem_right hinner d' (houter.mem_iff.mpr hd')
    exact ⟨d, hd, heq ▸ hversion, hperm.mem_iff.mpr hdevice, htype⟩

end LevelZero

end NpuStack.Native
