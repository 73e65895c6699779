import NpuStack.Native.OpenVino
import NpuStack.Native.Report

/-! The helpers print what the parser reads. A report printed for a mapped, validated or failed
    result is one line the parser accepts for that probe and mode, and it reads the same devices,
    versions and error code.

        result ──render──▶ text ──parse_probe_output──▶ report   tells   result

    The names and versions the helpers let through are ASCII without quotes, so both sides see the
    same characters (`PlainBytes`), and the two grammars and orders are compared once. -/

namespace NpuStack.Native
open Interaction Text Serde NpuStack.Runtime

/-! ### Bytes that print as they are -/

def isPlainByte (b : UInt8) : Bool := 0x20 ≤ b && b < 0x80 && b ≠ 0x22 && b ≠ 0x5c

theorem forall_byte {P : UInt8 → Prop} (h : ∀ n : Fin 256, P (.ofFin n)) (b : UInt8) : P b :=
  h b.toFin

/-- Bytes of ASCII text without control characters, quotes and backslashes. -/
def PlainBytes (bytes : Bytes) : Prop := ∀ b ∈ bytes, isPlainByte b = true

theorem isPlainByte_spec : ∀ b, isPlainByte b = true →
    b.toNat < 128 ∧ isPlainAscii (Char.ofNat b.toNat) = true :=
  forall_byte (by decide +kernel)

theorem utf8_of_plain {bytes : Bytes} (h : PlainBytes bytes) : utf8 (asciiText bytes) = bytes :=
  utf8_asciiText fun b hb => (isPlainByte_spec b (h b hb)).1

theorem ascii_of_plain {bytes : Bytes} (h : PlainBytes bytes) :
    all isPlainAscii (asciiText bytes) = true :=
  all_asciiText.mpr fun b hb => (isPlainByte_spec b (h b hb)).2

theorem len_of_plain {bytes : Bytes} (h : PlainBytes bytes) : len (asciiText bytes) = bytes.length := by
  rw [← length_utf8, utf8_of_plain h]

theorem asciiText_inj {a b : Bytes} (ha : PlainBytes a) (hb : PlainBytes b) :
    asciiText a = asciiText b ↔ a = b :=
  ⟨fun h => by rw [← utf8_of_plain ha, h, utf8_of_plain hb], fun h => h ▸ rfl⟩

/-! ### Level Zero -/

namespace LevelZero

variable {f64 : String → Option ℚ}

/-- The report tells the result: its devices in order, or the code of its error. -/
def Tells (report : ProbeReport) (result : ProbeResult) : Prop :=
  match result.error with
  | some error => ∃ code, code.name = errorCode error ∧
      report = ⟨1, .levelZero, .enumerate, .fail, .empty, some code⟩
  | none => ∃ devices, report = ⟨1, .levelZero, .enumerate, .pass, .levelZero devices, none⟩ ∧
      List.Forall₂ (fun d v => utf8 d.vendorId = v.vendorId ∧ utf8 d.deviceId = v.deviceId ∧
        d.driverVersion = v.driverVersion.toNat) devices result.vpuDevices

theorem hexDigits_spec {P : UInt8 → Prop} (hP : ∀ v : UInt32, P (hexDigit (v &&& 0x0f).toUInt8)) :
    ∀ (n : ℕ) (value : UInt32) {output : Bytes}, (∀ b ∈ output, P b) →
      (hexDigits n value output).length = n + output.length ∧ ∀ b ∈ hexDigits n value output, P b
  | 0, _, output, h => ⟨by simp [hexDigits], h⟩
  | n + 1, value, output, h => by
    obtain ⟨hlength, hall⟩ := hexDigits_spec hP n (value >>> 4) (List.forall_mem_cons.mpr ⟨hP value, h⟩)
    refine ⟨?_, hall⟩
    rw [hexDigits, hlength, List.length_cons]
    omega

/-- A digit of an identifier is a lowercase hexadecimal digit on both sides. -/
theorem hexDigit_spec (value : UInt32) :
    isPlainByte (hexDigit (value &&& 0x0f).toUInt8) = true ∧
      isLowerHex (Char.ofNat (hexDigit (value &&& 0x0f).toUInt8).toNat) = true := by
  have hall : ∀ n < 16, isPlainByte (hexDigit (UInt8.ofNat n)) = true ∧
      isLowerHex (Char.ofNat (hexDigit (UInt8.ofNat n)).toNat) = true := by decide +kernel
  have hlt : (value &&& 0x0f).toUInt8.toNat < 16 := by
    have hmask : (value &&& 0x0f).toNat < 16 := by
      rw [UInt32.toNat_and]
      exact Nat.and_lt_two_pow _ (n := 4) (by decide)
    rw [UInt32.toNat_toUInt8]
    omega
  have := hall _ hlt
  rwa [UInt8.ofNat_toNat] at this

theorem hexQuad_spec {value : UInt32} {text : Bytes} (h : hexQuad value = some text) :
    PlainBytes text ∧ isLowerHexQuad (asciiText text) = true := by
  rw [hexQuad] at h
  split at h
  · cases h
  · obtain rfl := Option.some.inj h
    obtain ⟨hlength, hall⟩ := hexDigits_spec (P := fun b => isPlainByte b = true ∧
      isLowerHex (Char.ofNat b.toNat) = true) hexDigit_spec 4 value (List.forall_mem_nil _)
    have hplain : PlainBytes (hexDigits 4 value []) := fun b hb => (hall b hb).1
    refine ⟨hplain, ?_⟩
    rw [isLowerHexQuad, Bool.and_eq_true, decide_eq_true_eq, len_of_plain hplain, hlength]
    exact ⟨rfl, all_asciiText.mpr fun b hb => (hall b hb).2⟩

/-- An identity as the mapping makes them. -/
structure Named (device : VpuDevice) : Prop where
  vendor : PlainBytes device.vendorId ∧ isLowerHexQuad (asciiText device.vendorId) = true
  device : PlainBytes device.deviceId ∧ isLowerHexQuad (asciiText device.deviceId) = true

theorem named_of_mapDevice {version : UInt32} {record : DeviceRecord} {device : VpuDevice}
    (h : mapDevice version record = some device) : Named device := by
  simp only [mapDevice, Option.bind_eq_bind, Option.bind_eq_some_iff, Option.pure_def,
    Option.some.injEq] at h
  obtain ⟨vendor, hvendor, id, hid, rfl⟩ := h
  exact ⟨hexQuad_spec hvendor, hexQuad_spec hid⟩

/-- What mapping yields: an error and no device, or at most 64 named devices in order. -/
theorem mapDevices_spec (drivers : List DriverRecord) :
    (∃ error, mapDevices drivers = failure error) ∨
    ∃ devices, mapDevices drivers = ⟨devices, none⟩ ∧ devices ≠ [] ∧
      devices.length ≤ kMaxObservations ∧ (∀ d ∈ devices, Named d) ∧
      devices.Pairwise fun a b => vpuLess a b = true := by
  rw [mapDevices]
  split
  · exact .inl ⟨_, rfl⟩
  split
  · exact .inl ⟨_, rfl⟩
  next found hfound =>
  dsimp only
  split
  · exact .inl ⟨_, rfl⟩
  next hne =>
  split
  · exact .inl ⟨_, rfl⟩
  next hlength =>
  refine .inr ⟨_, rfl, hne, not_lt.mp hlength, fun d hd => ?_, ?_⟩
  · obtain ⟨_, _, -, hmapped⟩ := (mem_mapDrivers hfound).mp (SortUnique.mem_sortUnique.mp hd)
    exact named_of_mapDevice hmapped
  · exact (SortUnique.pairwise_sortUnique VpuDevice.key_injective vpuLess_iff _).imp
      fun h => (vpuLess_iff _ _).mpr h

/-! The tree of a list of devices, and how it is read. -/

def decodeDevice (device : VpuDevice) : LevelZeroDevice :=
  ⟨asciiText device.vendorId, asciiText device.deviceId, device.driverVersion.toNat⟩

def deviceFields (device : VpuDevice) : List (String × Json) :=
  [("vendor_id", .str (asciiText device.vendorId)), ("device_id", .str (asciiText device.deviceId)),
    ("driver_version", .num device.driverVersion.toNat.repr)]

def deviceJson (device : VpuDevice) : Json := .obj (deviceFields device)

def observationsJson (devices : List VpuDevice) : Json :=
  .obj [("vpu_devices", .arr (devices.map deviceJson))]

theorem printable_deviceJson {device : VpuDevice} (h : Named device) :
    Printable f64 1 (deviceJson device) := by
  refine printable_obj (show ["vendor_id", "device_id", "driver_version"].Nodup by decide) ?_
  simp only [deviceFields, List.forall_mem_cons, List.not_mem_nil, false_imp_iff, implies_true, and_true]
  exact ⟨⟨by decide, printable_str (ascii_of_plain h.vendor.1)⟩,
    ⟨by decide, printable_str (ascii_of_plain h.device.1)⟩,
    ⟨by decide, printable_repr device.driverVersion.toNat_lt⟩⟩

theorem printable_observationsJson {devices : List VpuDevice} (h : ∀ d ∈ devices, Named d) :
    Printable f64 3 (observationsJson devices) := by
  refine printable_obj (show ["vpu_devices"].Nodup by decide) ?_
  simp only [List.forall_mem_cons, List.not_mem_nil, false_imp_iff, implies_true, and_true]
  refine ⟨by decide, printable_arr fun j hj => ?_⟩
  obtain ⟨d, hd, rfl⟩ := List.mem_map.mp hj
  exact printable_deviceJson (h d hd)

theorem len_deviceJson_le {device : VpuDevice} (h : Named device) :
    len (deviceJson device).render ≤ 100 := by
  have hquad : ∀ {text : Bytes}, isLowerHexQuad (asciiText text) = true →
      len (asciiText text) = 4 := fun htext =>
    of_decide_eq_true ((Bool.and_eq_true _ _).mp htext).1
  have hrepr : len device.driverVersion.toNat.repr ≤ 10 := by
    rw [len_of_ascii fun c hc => by
      have := all_iff.mp ((Bool.and_eq_true _ _ ▸ isDigits_repr _).2) c hc
      simp only [Char.isDigit, Bool.and_eq_true, decide_eq_true_eq] at this
      exact lt_of_le_of_lt (show c.toNat ≤ 57 from this.2) (by decide), Nat.toList_repr]
    have := device.driverVersion.toNat_lt
    exact (Nat.length_toDigits_le_iff (by decide) (by decide)).mpr (by omega)
  have hkeys : (["vendor_id", "device_id", "driver_version"].map len).sum = 32 := by decide
  refine (Json.len_render_obj_le (deviceFields device)).trans ?_
  simp only [deviceFields, List.map_cons, List.map_nil, List.sum_cons, List.sum_nil, Json.len_render_str,
    hquad h.vendor.2, hquad h.device.2] at hkeys ⊢
  rw [Json.render]
  omega

theorem len_observationsJson_le {devices : List VpuDevice} (h : ∀ d ∈ devices, Named d)
    (hlength : devices.length ≤ kMaxObservations) :
    len (observationsJson devices).render ≤ 60000 := by
  have hitems : len (Json.arr (devices.map deviceJson)).render ≤ devices.length * 101 + 2 := by
    have := @Json.len_render_arr_le (devices.map deviceJson) 100 fun j hj => by
      obtain ⟨d, hd, rfl⟩ := List.mem_map.mp hj
      exact len_deviceJson_le (h d hd)
    rwa [List.length_map] at this
  have hkey : len "vpu_devices" = 11 := by decide
  refine (Json.len_render_obj_le _).trans ?_
  simp only [List.map_cons, List.map_nil, List.sum_cons, List.sum_nil, hkey]
  rw [kMaxObservations] at hlength
  omega

theorem read_deviceJson (device : VpuDevice) :
    LevelZeroDevice.read (deviceJson device) = some (decodeDevice device) := by
  have hkeys : ((deviceFields device).map Prod.fst).Nodup :=
    show ["vendor_id", "device_id", "driver_version"].Nodup by decide
  have hfields : Json.fields ["vendor_id", "device_id", "driver_version"] (deviceJson device) =
      some fun name => (deviceFields device).lookup name := Json.fields_obj hkeys fun _ => id
  have hvendor := required_lookup hkeys (.head _) readStr
  have hdevice := required_lookup hkeys (.tail _ (.head _)) readStr
  have hversion := required_lookup hkeys (.tail _ (.tail _ (.head _))) (readUnsigned 32)
  rw [readUnsigned_repr device.driverVersion.toNat_lt] at hversion
  rw [LevelZeroDevice.read, hfields]
  simp only [Option.bind_eq_bind, Option.bind_some]
  rw [hvendor, hdevice, hversion]
  rfl

theorem read_observationsJson (devices : List VpuDevice) :
    readLevelZero (observationsJson devices) = some (devices.map decodeDevice) := by
  have hitems : (devices.map deviceJson).mapM LevelZeroDevice.read =
      some (devices.map decodeDevice) := by
    induction devices with
    | nil => rfl
    | cons d devices ih =>
      rw [List.map_cons, List.mapM_cons, read_deviceJson, ih]
      rfl
  have hfields : Json.fields ["vpu_devices"] (observationsJson devices) =
      some fun name => [("vpu_devices", Json.arr (devices.map deviceJson))].lookup name :=
    Json.fields_obj (show ["vpu_devices"].Nodup by decide) fun _ => id
  rw [readLevelZero, hfields]
  simpa [required, List.lookup_cons, readVec] using hitems

/-- The two orders of identities are one. -/
theorem less_decodeDevice {a b : VpuDevice} (ha : Named a) (hb : Named b) :
    LevelZeroDevice.less (decodeDevice a) (decodeDevice b) = vpuLess a b := by
  have hlt : ∀ {x y : Bytes}, bytesLess x y = stringLess x y := rfl
  simp only [LevelZeroDevice.less, decodeDevice, vpuLess, utf8_of_plain ha.vendor.1,
    utf8_of_plain ha.device.1, utf8_of_plain hb.vendor.1, utf8_of_plain hb.device.1,
    asciiText_inj ha.vendor.1 hb.vendor.1, asciiText_inj ha.device.1 hb.device.1, hlt]
  have hirrefl : ∀ x : Bytes, stringLess x x = false := fun x => by simp [stringLess]
  split
  · next hne => simp [hne]
  · next heq =>
    rw [not_not] at heq
    split
    · next hne => simp [heq, hne, hirrefl]
    · next heq' =>
      rw [not_not] at heq'
      simp only [heq, heq', hirrefl, decide_true, Bool.true_and, Bool.false_or]
      exact decide_eq_decide.mpr UInt32.lt_iff_toNat_lt.symm

theorem validate_decodeDevice {devices : List VpuDevice} (hne : devices ≠ [])
    (hlength : devices.length ≤ kMaxObservations) (hnamed : ∀ d ∈ devices, Named d)
    (hsorted : devices.Pairwise fun a b => vpuLess a b = true) :
    validateLevelZero (devices.map decodeDevice) = .ok ⟨⟩ := by
  refine except_bind_ok.mpr ⟨⟨⟩, refuse_ok.mpr ?_, except_bind_ok.mpr ⟨⟨⟩, ?_, refuse_ok.mpr ?_⟩⟩
  · rw [List.map_eq_nil_iff, List.length_map]
    exact not_or.mpr ⟨hne, not_lt.mpr hlength⟩
  · refine except_forM_ok.mpr fun x hx => refuse_ok.mpr ?_
    obtain ⟨d, hd, rfl⟩ := List.mem_map.mp hx
    simp [decodeDevice, (hnamed d hd).vendor.2, (hnamed d hd).device.2]
  · rw [Bool.not_eq_true', Bool.not_eq_false]
    refine sortedUnique_of_pairwise (List.pairwise_map.mpr (hsorted.imp_of_mem ?_))
    intro a b ha hb hless
    rw [less_decodeDevice (hnamed a ha) (hnamed b hb)]
    exact hless

/-- The calls of a passing report spell its tree. -/
theorem calls_report {devices : List VpuDevice} (h : ∀ d ∈ devices, Named d) :
    writeHeader ++ [field "outcome", text kPassOutcome, field "observations", .beginObject,
      field "vpu_devices", .beginArray] ++ devices.flatMap writeDevice ++
      [.endArray, .endObject, field "error_code", nullValue, .endObject] =
    calls (reportJson .levelZero .enumerate .pass (observationsJson devices) none) := by
  have hitems : devices.flatMap writeDevice = callsItems (devices.map deviceJson) := by
    induction devices with
    | nil => rfl
    | cons d devices ih =>
      obtain ⟨hd, hrest⟩ := List.forall_mem_cons.mp h
      rw [List.flatMap_cons, List.map_cons, callsItems, ih hrest]
      simp [deviceJson, deviceFields, calls, callsFields, writeDevice, field, utf8_of_plain hd.vendor.1,
        utf8_of_plain hd.device.1, unsignedInteger]
  have hone : Nat.repr 1 = "1" := by decide
  simp [hone, reportJson, reportFields, observationsJson, errorCodeJson, calls, callsFields, writeHeader, field,
    text,
    hitems, ProbeKind.name, ProbeMode.name, ProbeOutcome.name, kLevelZeroProbe, kEnumerateMode,
    kPassOutcome, unsignedInteger, kSchemaVersion, nullValue]

theorem exists_code (error : LevelZeroError) :
    ∃ code ∈ errorCodes .levelZero .enumerate, code.name = errorCode error := by
  cases error <;> decide

/-- A passing report of a mapping is accepted and tells its devices. -/
theorem parse_devices {devices : List VpuDevice} (hne : devices ≠ [])
    (hlength : devices.length ≤ kMaxObservations) (hnamed : ∀ d ∈ devices, Named d)
    (hsorted : devices.Pairwise fun a b => vpuLess a b = true) {text : Bytes}
    (h : renderReport ⟨devices, none⟩ = .ok text) :
    ∃ report, parseProbeOutput f64 (text ++ utf8 "\n") .levelZero .enumerate = .ok report ∧
      Tells report ⟨devices, none⟩ := by
  simp only [renderReport, except_bind_ok] at h
  obtain ⟨_, -, _, -, hprint⟩ := h
  rw [calls_report hnamed] at hprint
  have hparsed : parseObservations f64
      ⟨1, .levelZero, .enumerate, .pass, observationsJson devices, none⟩ =
        .ok (.levelZero (devices.map decodeDevice)) := by
    rw [parseObservations_pass]
    refine except_bind_ok.mpr ⟨_, need_ok.mpr (read_observationsJson devices), ?_⟩
    exact except_bind_ok.mpr ⟨_, validate_decodeDevice hne hlength hnamed hsorted, rfl⟩
  have hprintable : Printable f64 100 (observationsJson devices) :=
    (printable_observationsJson hnamed).mono (by decide)
  have hmode : ¬ (ProbeKind.levelZero = .levelZero ∧ ProbeMode.enumerate ≠ .enumerate) := by decide
  refine ⟨_, parseProbeOutput_print hmode hprintable (len_observationsJson_le hnamed hlength) hparsed
    hprint, _, rfl, ?_⟩
  refine List.forall₂_map_left_iff.mpr (List.forall₂_same.mpr fun d hd => ?_)
  exact ⟨utf8_of_plain (hnamed d hd).vendor.1, utf8_of_plain (hnamed d hd).device.1, rfl⟩

theorem parse_failure (error : LevelZeroError) {line : Bytes}
    (h : renderReport (failure error) = .ok line) :
    ∃ report, parseProbeOutput f64 (line ++ utf8 "\n") .levelZero .enumerate = .ok report ∧
      Tells report (failure error) := by
  obtain ⟨code, hmem, hname⟩ := exists_code error
  simp only [renderReport, failure, except_bind_ok] at h
  obtain ⟨_, -, hprint⟩ := h
  have hcalls : writeHeader ++ [field "outcome", text kFailOutcome, field "observations",
      .beginObject, .endObject, field "error_code", text (errorCode error), .endObject] =
      calls (reportJson .levelZero .enumerate .fail (.obj []) (some code)) := by
    have hone : Nat.repr 1 = "1" := by decide
    simp [hone, reportJson, reportFields, errorCodeJson, hname, calls, callsFields, writeHeader, field, text,
      ProbeKind.name, ProbeMode.name, ProbeOutcome.name, kLevelZeroProbe, kEnumerateMode,
      kFailOutcome, unsignedInteger, kSchemaVersion]
  rw [hcalls] at hprint
  exact ⟨_, parseProbeOutput_print (by decide) printable_empty (by decide)
    (parseObservations_fail hmem) hprint, code, hname, rfl⟩

/-- Whatever was mapped, its report is accepted and tells the result. -/
theorem parse_mapped (drivers : List DriverRecord) {text : Bytes}
    (h : renderReport (mapDevices drivers) = .ok text) :
    ∃ report, parseProbeOutput f64 (text ++ utf8 "\n") .levelZero .enumerate = .ok report ∧
      Tells report (mapDevices drivers) := by
  rcases mapDevices_spec drivers with ⟨error, heq⟩ | ⟨devices, heq, hne, hlength, hnamed, hsorted⟩
  · rw [heq] at h ⊢
    exact parse_failure error h
  · rw [heq] at h ⊢
    exact parse_devices hne hlength hnamed hsorted h

end LevelZero

/-! ### OpenVINO -/

namespace OpenVino

variable {f64 : String → Option ℚ} {devices : List Bytes}

/-- The report tells the result: its devices and version, or the code of its error. -/
def Tells (mode : ProbeMode) (report : ProbeReport) (result : ProbeResult) : Prop :=
  match result.error, mode with
  | some error, mode => ∃ code, code.name = errorCode error ∧
      report = ⟨1, .openVino, mode, .fail, .empty, some code⟩
  | none, .enumerate => ∃ o, report = ⟨1, .openVino, .enumerate, .pass, .openVinoEnumerate o, none⟩ ∧
      o.availableDevices.map utf8 = result.availableDevices ∧
      utf8 o.runtimeVersion = result.runtimeVersion
  | none, .infer => ∃ o, report = ⟨1, .openVino, .infer, .pass, .openVinoInfer o, none⟩ ∧
      o.availableDevices.map utf8 = result.availableDevices ∧
      o.executionDevices.map utf8 = result.executionDevices ∧
      utf8 o.runtimeVersion = result.runtimeVersion

theorem isDigit_spec : ∀ b, isDigit b = true →
    isPlainByte b = true ∧ (Char.ofNat b.toNat).isDigit = true :=
  forall_byte (by decide +kernel)

theorem isVersionByte_spec : ∀ b, isVersionByte b = true → isPlainByte b = true ∧
    ((Char.ofNat b.toNat).isAlphanum || ".+-_".toList.contains (Char.ofNat b.toNat)) = true :=
  forall_byte (by decide +kernel)

/-- A numbered name is plain and numbered on the parser's side. -/
theorem numbered_spec {base : String} {value : Bytes} (hascii : ∀ c ∈ base.toList, c.toNat < 128)
    (hplain : PlainBytes (utf8 base)) (h : Numbered (utf8 base) value) :
    PlainBytes value ∧ isNumbered base (asciiText value) = true := by
  rcases h with rfl | ⟨suffix, hne, hdigits, rfl⟩
  · refine ⟨hplain, ?_⟩
    rw [asciiText_utf8 hascii]
    simp [isNumbered]
  · constructor
    · intro b hb
      rcases List.mem_append.mp hb with hb | hb
      · exact hplain b hb
      · rcases List.mem_cons.mp hb with rfl | hb
        · decide
        · exact (isDigit_spec b (hdigits b hb)).1
    · have htext : asciiText (utf8 base ++ 0x2e :: suffix) = base ++ "." ++ asciiText suffix := by
        have hdot : asciiText (0x2e :: suffix) = "." ++ asciiText suffix :=
          asciiText_append [0x2e] suffix
        rw [asciiText_append, asciiText_utf8 hascii, hdot, String.append_assoc]
      have hnonempty : asciiText suffix ≠ "" := by
        intro h
        apply hne
        have := congrArg String.toList h
        simpa [asciiText] using this
      have hsuffix : isDigits (asciiText suffix) = true := by
        rw [isDigits, Bool.and_eq_true, decide_eq_true_eq]
        exact ⟨hnonempty, all_asciiText.mpr fun b hb => (isDigit_spec b (hdigits b hb)).2⟩
      rw [htext, isNumbered, stripPrefix_append]
      simp [hsuffix]

theorem base_spec {base : String} (h : base ∈ DEVICE_BASES) :
    (∀ c ∈ base.toList, c.toNat < 128) ∧ PlainBytes (utf8 base) := by
  have hascii : (DEVICE_BASES.all fun base => base.toList.all fun c => decide (c.toNat < 128)) = true := by
    decide
  have hplain : (DEVICE_BASES.all fun base => (utf8 base).all isPlainByte) = true := by decide
  refine ⟨forall_chars (List.all_eq_true.mp hascii base h), ?_⟩
  exact List.all_eq_true.mp (List.all_eq_true.mp hplain base h)

theorem isDevice_spec {value : Bytes} (h : isDevice value = true) :
    PlainBytes value ∧ isDeviceName (asciiText value) = true := by
  obtain ⟨base, hbase, hnumbered⟩ := numbered_of_isDevice h
  obtain ⟨hascii, hplain⟩ := base_spec hbase
  obtain ⟨hvalue, hname⟩ := numbered_spec hascii hplain hnumbered
  exact ⟨hvalue, List.any_eq_true.mpr ⟨base, hbase, hname⟩⟩

theorem isNpu_spec {value : Bytes} (h : isNpu value = true) : isNpuName (asciiText value) = true := by
  obtain ⟨hascii, hplain⟩ := base_spec (show "NPU" ∈ DEVICE_BASES by decide)
  exact (numbered_spec hascii hplain (numbered_of_isNpu h)).2

theorem isRuntimeVersion_spec {value : Bytes} (h : isRuntimeVersion value = true) :
    PlainBytes value ∧ value.length ≤ kMaxStringBytes ∧
      validateRuntimeVersion (asciiText value) = .ok ⟨⟩ := by
  simp only [isRuntimeVersion, Bool.and_eq_true, decide_eq_true_eq, List.all_eq_true] at h
  obtain ⟨⟨hne, hlength⟩, hall⟩ := h
  have hplain : PlainBytes value := fun b hb => (isVersionByte_spec b (hall b hb)).1
  refine ⟨hplain, hlength, refuse_ok.mpr ?_⟩
  rintro (hempty | hlong | hbad)
  · have := congrArg len hempty
    rw [len_of_plain hplain] at this
    exact hne (List.length_eq_zero_iff.mp this)
  · rw [len_of_plain hplain] at hlong
    exact absurd hlong (not_lt.mpr hlength)
  · rw [Bool.not_eq_true', ← Bool.not_eq_true] at hbad
    exact hbad (all_asciiText.mpr fun b hb => (isVersionByte_spec b (hall b hb)).2)

theorem Normal.plain (h : Normal devices) {device : Bytes} (hdevice : device ∈ devices) :
    PlainBytes device :=
  (isDevice_spec (h.named device hdevice)).1

theorem Normal.map_utf8 (h : Normal devices) : (devices.map asciiText).map utf8 = devices := by
  rw [List.map_map]
  exact (List.map_congr_left fun d hd => utf8_of_plain (h.plain hd)).trans (List.map_id' devices)

/-- A normal list passes the parser's checks, also those of execution devices when all are NPUs. -/
theorem validate_normal (h : Normal devices) {npuOnly : Bool}
    (hnpu : npuOnly = true → ∀ d ∈ devices, isNpu d = true) :
    validateDeviceList (devices.map asciiText) npuOnly = .ok ⟨⟩ := by
  refine except_bind_ok.mpr ⟨⟨⟩, refuse_ok.mpr ?_, except_bind_ok.mpr ⟨⟨⟩, ?_, refuse_ok.mpr ?_⟩⟩
  · rw [List.map_eq_nil_iff, List.length_map]
    exact not_or.mpr ⟨h.nonempty, not_lt.mpr h.length_le⟩
  · refine except_forM_ok.mpr fun x hx => refuse_ok.mpr ?_
    obtain ⟨d, hd, rfl⟩ := List.mem_map.mp hx
    have hshort : ¬ len (asciiText d) > MAX_OBSERVATION_STRING := by
      rw [len_of_plain (h.plain hd)]
      exact not_lt.mpr (h.short d hd)
    have honly : (npuOnly && !isNpuName (asciiText d)) = false := by
      cases npuOnly with
      | false => rfl
      | true => simp [isNpu_spec (hnpu rfl d hd)]
    simp [hshort, (isDevice_spec (h.named d hd)).2, honly]
  · rw [Bool.not_eq_true', Bool.not_eq_false]
    refine sortedUnique_of_pairwise (List.pairwise_map.mpr (h.sorted.imp_of_mem ?_))
    intro a b ha hb hlt
    rw [bytesLess, utf8_of_plain (h.plain ha), utf8_of_plain (h.plain hb), decide_eq_true_eq]
    exact hlt

theorem any_isNpuName (h : devices.any isNpu = true) :
    (devices.map asciiText).any isNpuName = true := by
  obtain ⟨d, hd, hnpu⟩ := List.any_eq_true.mp h
  exact List.any_eq_true.mpr ⟨_, List.mem_map_of_mem hd, isNpu_spec hnpu⟩

/-! The tree of a list of names, and how it is read. -/

def devicesJson (devices : List Bytes) : Json := .arr (devices.map fun d => .str (asciiText d))

theorem calls_devicesJson (h : Normal devices) : writeDevices devices = calls (devicesJson devices) := by
  have hitems : ∀ ds : List Bytes, (∀ d ∈ ds, PlainBytes d) →
      ds.map Call.string = callsItems (ds.map fun d => Json.str (asciiText d)) := by
    intro ds hds
    induction ds with
    | nil => rfl
    | cons d ds ih =>
      obtain ⟨hd, hrest⟩ := List.forall_mem_cons.mp hds
      rw [List.map_cons, List.map_cons, callsItems, calls, utf8_of_plain hd, ih hrest]
      rfl
  rw [writeDevices, devicesJson, calls, hitems devices fun d hd => h.plain hd]

theorem printable_devicesJson (h : Normal devices) : Printable f64 1 (devicesJson devices) := by
  refine printable_arr fun j hj => ?_
  obtain ⟨d, hd, rfl⟩ := List.mem_map.mp hj
  exact printable_str (ascii_of_plain (h.plain hd))

theorem len_devicesJson_le (h : Normal devices) : len (devicesJson devices).render ≤ 20000 := by
  have hitems := @Json.len_render_arr_le (devices.map fun d => Json.str (asciiText d)) 258 fun j hj => by
      obtain ⟨d, hd, rfl⟩ := List.mem_map.mp hj
      have hshort := h.short d hd
      rw [Json.len_render_str, len_of_plain (h.plain hd)]
      rw [kMaxStringBytes] at hshort
      omega
  have hlength := h.length_le
  rw [List.length_map] at hitems
  rw [kMaxObservations] at hlength
  rw [devicesJson]
  omega

theorem read_devicesJson (devices : List Bytes) :
    readVec readStr (devicesJson devices) = some (devices.map asciiText) := by
  rw [devicesJson, readVec]
  induction devices with
  | nil => rfl
  | cons d devices ih =>
    rw [List.map_cons, List.mapM_cons, ih]
    rfl

/-! Failed reports. -/

/-- The errors each mode may report. -/
def modeErrors : ProbeMode → List Error
  | .enumerate => [.noNpu, .enumerationFailed, .internalFailure]
  | .infer => [.noNpu, .enumerationFailed, .compileFailed, .wrongDevice, .inferenceFailed,
      .outputInvalid, .internalFailure]

theorem exists_code : ∀ {mode : ProbeMode} {error : Error}, error ∈ modeErrors mode →
    ∃ code ∈ errorCodes .openVino mode, code.name = errorCode error := by
  intro mode error
  cases mode <;> cases error <;> decide

theorem parse_failure {mode : ProbeMode} {error : Error} (herror : error ∈ modeErrors mode)
    {line : Bytes}
    (h : print (beginReport mode.name ++ writeFailure error ++ [.endObject]) = .ok line) :
    ∃ code, code.name = errorCode error ∧ parseProbeOutput f64 (line ++ utf8 "\n") .openVino mode =
      .ok ⟨1, .openVino, mode, .fail, .empty, some code⟩ := by
  obtain ⟨code, hmem, hname⟩ := exists_code herror
  have hcalls : beginReport mode.name ++ writeFailure error ++ [.endObject] =
      calls (reportJson .openVino mode .fail (.obj []) (some code)) := by
    have hone : Nat.repr 1 = "1" := by decide
    simp [hone, reportJson, reportFields, errorCodeJson, hname, calls, callsFields, beginReport, writeFailure,
      field, text, ProbeKind.name, ProbeOutcome.name, kProbe, kFailOutcome, unsignedInteger,
      kSchemaVersion]
  rw [hcalls] at h
  have hlevel : ¬ (ProbeKind.openVino = .levelZero ∧ mode ≠ .enumerate) := fun h => by cases h.1
  exact ⟨code, hname, parseProbeOutput_print hlevel printable_empty (by decide)
    (parseObservations_fail hmem) h⟩

/-! Passing reports. -/

def enumerateFields (result : ProbeResult) : List (String × Json) :=
  [("available_devices", devicesJson result.availableDevices),
    ("runtime_version", .str (asciiText result.runtimeVersion))]

def enumerateJson (result : ProbeResult) : Json := .obj (enumerateFields result)

def inferFields (result : ProbeResult) : List (String × Json) :=
  [("available_devices", devicesJson result.availableDevices),
    ("execution_devices", devicesJson result.executionDevices),
    ("runtime_version", .str (asciiText result.runtimeVersion)), ("graph_id", .str kGraphId),
    ("iterations", .num kIterations.repr), ("tolerance", .num kTolerance)]

def inferJson (result : ProbeResult) : Json := .obj (inferFields result)

variable {result : ProbeResult}

theorem len_version_le (h : isRuntimeVersion result.runtimeVersion = true) :
    len (Json.str (asciiText result.runtimeVersion)).render ≤ 258 := by
  obtain ⟨hplain, hlength, -⟩ := isRuntimeVersion_spec h
  rw [Json.len_render_str, len_of_plain hplain]
  rw [kMaxStringBytes] at hlength
  omega

/-- What a renderer leaves of a result it prints as passing. -/
structure Passing (result : ProbeResult) : Prop where
  available : Normal result.availableDevices
  npu : result.availableDevices.any isNpu = true
  version : isRuntimeVersion result.runtimeVersion = true

theorem Passing.plain (h : Passing result) : PlainBytes result.runtimeVersion :=
  (isRuntimeVersion_spec h.version).1

theorem calls_enumerateJson (h : Passing result) :
    beginReport kEnumerateMode ++ [field "outcome", text kPassOutcome, field "observations",
      .beginObject, field "available_devices"] ++ writeDevices result.availableDevices ++
      [field "runtime_version", .string result.runtimeVersion, .endObject, field "error_code",
        nullValue, .endObject] =
    calls (reportJson .openVino .enumerate .pass (enumerateJson result) none) := by
  have hone : Nat.repr 1 = "1" := by decide
  simp [hone, reportJson, reportFields, enumerateJson, enumerateFields, errorCodeJson, calls, callsFields,
    beginReport, field, text,
    ProbeKind.name, ProbeMode.name, ProbeOutcome.name, kProbe, kEnumerateMode, kPassOutcome,
    unsignedInteger, kSchemaVersion, calls_devicesJson h.available, utf8_of_plain h.plain, nullValue]

theorem printable_enumerateJson (h : Passing result) : Printable f64 2 (enumerateJson result) := by
  refine printable_obj (show ["available_devices", "runtime_version"].Nodup by decide) ?_
  simp only [enumerateFields, List.forall_mem_cons, List.not_mem_nil, false_imp_iff, implies_true, and_true]
  exact ⟨⟨by decide, printable_devicesJson h.available⟩, by decide,
    printable_str (ascii_of_plain h.plain)⟩

theorem len_enumerateJson_le (h : Passing result) : len (enumerateJson result).render ≤ 60000 := by
  refine (Json.len_render_obj_le (enumerateFields result)).trans ?_
  have hdevices := len_devicesJson_le h.available
  have hversion := len_version_le h.version
  have hkeys : (["available_devices", "runtime_version"].map len).sum ≤ 100 := by decide
  simp only [enumerateFields, List.map_cons, List.map_nil, List.sum_cons, List.sum_nil] at hkeys ⊢
  omega

theorem read_enumerateJson (result : ProbeResult) :
    OpenVinoEnumerateObservation.read (enumerateJson result) =
      some ⟨result.availableDevices.map asciiText, asciiText result.runtimeVersion⟩ := by
  have hkeys : ((enumerateFields result).map Prod.fst).Nodup :=
    show ["available_devices", "runtime_version"].Nodup by decide
  have hdevices := required_lookup hkeys (.head _) (readVec readStr)
  have hversion := required_lookup hkeys (.tail _ (.head _)) readStr
  rw [read_devicesJson] at hdevices
  have hfields : Json.fields ["available_devices", "runtime_version"] (enumerateJson result) =
      some fun name => (enumerateFields result).lookup name := Json.fields_obj hkeys fun _ => id
  rw [OpenVinoEnumerateObservation.read, hfields]
  simp only [Option.bind_eq_bind, Option.bind_some]
  rw [hdevices, Option.bind_some, hversion]
  rfl

/-- A passing enumeration is accepted and tells its devices and version. -/
theorem parse_enumerated (herror : result.error = none) {line : Bytes}
    (h : renderEnumerateReport result = .ok line) :
    ∃ report, parseProbeOutput f64 (line ++ utf8 "\n") .openVino .enumerate = .ok report ∧
      Tells .enumerate report result := by
  simp only [renderEnumerateReport, herror, requirePassingEnumeration, except_bind_ok, refuse_ok,
    not_or, not_not] at h
  obtain ⟨_, ⟨hvalidated, -⟩, hprint⟩ := h
  obtain ⟨hnormal, hnpu, hversion⟩ := hvalidated.spec
  have hpassing : Passing result := ⟨hnormal, hnpu, hversion⟩
  rw [calls_enumerateJson hpassing] at hprint
  have hparsed : parseObservations f64 ⟨1, .openVino, .enumerate, .pass, enumerateJson result, none⟩ =
      .ok (.openVinoEnumerate ⟨result.availableDevices.map asciiText,
        asciiText result.runtimeVersion⟩) := by
    rw [parseObservations_pass]
    refine except_bind_ok.mpr ⟨_, need_ok.mpr (read_enumerateJson result), ?_⟩
    refine except_bind_ok.mpr ⟨⟨⟩, except_bind_ok.mpr ⟨⟨⟩, validate_normal hnormal nofun, ?_⟩, rfl⟩
    refine except_bind_ok.mpr ⟨⟨⟩, refuse_ok.mpr ?_, (isRuntimeVersion_spec hversion).2.2⟩
    rw [Bool.not_eq_true', Bool.not_eq_false]
    exact any_isNpuName hnpu
  have hprintable : Printable f64 100 (enumerateJson result) :=
    (printable_enumerateJson hpassing).mono (by decide)
  have hlevel : ¬ (ProbeKind.openVino = .levelZero ∧ ProbeMode.enumerate ≠ .enumerate) := nofun
  have haccepted := parseProbeOutput_print hlevel hprintable (len_enumerateJson_le hpassing) hparsed
    hprint
  refine ⟨_, haccepted, ?_⟩
  simp only [Tells, herror]
  exact ⟨_, rfl, hnormal.map_utf8, utf8_of_plain hpassing.plain⟩

/-! Inference. -/

theorem calls_inferJson (h : Passing result) (hexecution : Normal result.executionDevices) :
    beginReport kInferMode ++ [field "outcome", text kPassOutcome, field "observations",
      .beginObject, field "available_devices"] ++ writeDevices result.availableDevices ++
      [field "execution_devices"] ++ writeDevices result.executionDevices ++
      [field "runtime_version", .string result.runtimeVersion, field "graph_id", text kGraphId,
        field "iterations", unsignedInteger kIterations, field "tolerance", decimal kTolerance,
        .endObject, field "error_code", nullValue, .endObject] =
    calls (reportJson .openVino .infer .pass (inferJson result) none) := by
  have hone : Nat.repr 1 = "1" := by decide
  simp [hone, reportJson, reportFields, inferJson, inferFields, errorCodeJson, calls, callsFields, beginReport,
    field, text, ProbeKind.name, ProbeMode.name, ProbeOutcome.name, kProbe, kInferMode, kPassOutcome,
    unsignedInteger, kSchemaVersion, calls_devicesJson h.available, calls_devicesJson hexecution,
    utf8_of_plain h.plain, nullValue, decimal]

/-- The tolerance is read back whole. -/
theorem plainNumber_tolerance (h : f64 kTolerance = some TOLERANCE) :
    Json.PlainNumber (inRange f64) kTolerance := by
  refine ⟨by rw [inRange, h]; simp, ⟨'0', ['.', '0', '0', '1'], rfl, .inl rfl⟩, fun rest hrest => ?_⟩
  have hdigit : ∀ c ∈ rest.head?, c.isDigit = false := fun c hc => by
    have := hrest c hc
    simp only [Json.endsNumber, Bool.and_eq_true, Bool.not_eq_true'] at this
    exact this.1.1.1
  have hfraction : Json.fractionPart ('.' :: '0' :: '0' :: '1' :: rest) =
      some (['.', '0', '0', '1'], rest) := by
    have hdigits := @Json.digits_append rest ['0', '0', '1'] (forall_chars (by decide)) (by simp) hdigit
    simp only [List.cons_append, List.nil_append] at hdigits
    simp [Json.fractionPart, hdigits, Json.consChar]
  have hunsigned : Json.unsignedNumber ('0' :: '.' :: '0' :: '0' :: '1' :: rest) =
      some (['0', '.', '0', '0', '1'], rest) := by
    simp [Json.unsignedNumber, Json.integerPart, hfraction, Json.exponentPart_none hrest]
  exact hunsigned

theorem isPlainAscii_inferKeys : ∀ key ∈ ["available_devices", "execution_devices", "runtime_version",
    "graph_id", "iterations", "tolerance"], all isPlainAscii key = true := by
  decide

theorem printable_inferJson (hf : f64 kTolerance = some TOLERANCE) (h : Passing result)
    (hexecution : Normal result.executionDevices) : Printable f64 2 (inferJson result) := by
  refine printable_obj (show ["available_devices", "execution_devices", "runtime_version", "graph_id",
    "iterations", "tolerance"].Nodup by decide) fun f hf' => ⟨?_, ?_⟩
  · exact isPlainAscii_inferKeys f.1 (List.mem_map_of_mem hf')
  · simp only [inferFields, List.mem_cons, List.not_mem_nil, or_false] at hf'
    rcases hf' with rfl | rfl | rfl | rfl | rfl | rfl
    · exact printable_devicesJson h.available
    · exact printable_devicesJson hexecution
    · exact printable_str (ascii_of_plain h.plain)
    · exact printable_str (by decide)
    · exact printable_repr (by decide)
    · exact printable_num (plainNumber_tolerance hf)

theorem len_inferJson_le (h : Passing result) (hexecution : Normal result.executionDevices) :
    len (inferJson result).render ≤ 60000 := by
  refine (Json.len_render_obj_le (inferFields result)).trans ?_
  have havailable := len_devicesJson_le h.available
  have hdevices := len_devicesJson_le hexecution
  have hversion := len_version_le h.version
  have hgraph : len (Json.str kGraphId).render ≤ 100 := by decide
  have hiterations : len (Json.num kIterations.repr).render ≤ 100 := by decide
  have htolerance : len (Json.num kTolerance).render ≤ 100 := by decide
  have hkeys : (["available_devices", "execution_devices", "runtime_version", "graph_id", "iterations",
    "tolerance"].map len).sum ≤ 100 := by decide
  simp only [inferFields, List.map_cons, List.map_nil, List.sum_cons, List.sum_nil] at hkeys ⊢
  omega

theorem read_inferJson (hf : f64 kTolerance = some TOLERANCE) (result : ProbeResult) :
    OpenVinoInferObservation.read f64 (inferJson result) =
      some ⟨result.availableDevices.map asciiText, result.executionDevices.map asciiText,
        asciiText result.runtimeVersion, kGraphId, kIterations, TOLERANCE⟩ := by
  have hkeys : ((inferFields result).map Prod.fst).Nodup :=
    show ["available_devices", "execution_devices", "runtime_version", "graph_id", "iterations",
      "tolerance"].Nodup by decide
  have hfields : Json.fields ["available_devices", "execution_devices", "runtime_version", "graph_id",
      "iterations", "tolerance"] (inferJson result) =
      some fun name => (inferFields result).lookup name := Json.fields_obj hkeys fun _ => id
  have havailable := required_lookup hkeys (.head _) (readVec readStr)
  have hexecution := required_lookup hkeys (.tail _ (.head _)) (readVec readStr)
  have hversion := required_lookup hkeys (.tail _ (.tail _ (.head _))) readStr
  have hgraph := required_lookup hkeys (.tail _ (.tail _ (.tail _ (.head _)))) readStr
  have hiterations := required_lookup hkeys (.tail _ (.tail _ (.tail _ (.tail _ (.head _)))))
    (readUnsigned 32)
  have htolerance := required_lookup hkeys
    (.tail _ (.tail _ (.tail _ (.tail _ (.tail _ (.head _)))))) (readF64 f64)
  rw [read_devicesJson] at havailable hexecution
  rw [readUnsigned_repr (by decide)] at hiterations
  rw [readF64, hf] at htolerance
  rw [OpenVinoInferObservation.read, hfields]
  simp only [Option.bind_eq_bind, Option.bind_some]
  rw [havailable, Option.bind_some, hexecution, Option.bind_some, hversion, hgraph, hiterations,
    htolerance]
  rfl

/-- A passing inference is accepted and tells its devices and version. -/
theorem parse_inferred (hf : f64 kTolerance = some TOLERANCE) (herror : result.error = none)
    {line : Bytes} (h : renderInferReport result = .ok line) :
    ∃ report, parseProbeOutput f64 (line ++ utf8 "\n") .openVino .infer = .ok report ∧
      Tells .infer report result := by
  simp only [renderInferReport, herror, except_bind_ok, refuse_ok, not_or, not_not] at h
  obtain ⟨_, ⟨hvalidated, hdevices, hnormalized⟩, hprint⟩ := h
  obtain ⟨hnormal, hnpu, hversion⟩ := hvalidated.spec
  have hpassing : Passing result := ⟨hnormal, hnpu, hversion⟩
  rw [validateExecutionDevices] at hdevices
  split at hdevices
  · simp at hdevices
  next hbound =>
  simp only [not_or, Bool.not_eq_true', Bool.not_eq_false, List.all_eq_true, Bool.and_eq_true] at hbound
  obtain ⟨hne, hlength, hall⟩ := hbound
  have hexecution : Normal result.executionDevices :=
    normal_of_normalize hnormalized hne (not_lt.mp hlength)
  rw [calls_inferJson hpassing hexecution] at hprint
  have hparsed : parseObservations f64 ⟨1, .openVino, .infer, .pass, inferJson result, none⟩ =
      .ok (.openVinoInfer ⟨result.availableDevices.map asciiText, result.executionDevices.map asciiText,
        asciiText result.runtimeVersion, kGraphId, kIterations, TOLERANCE⟩) := by
    rw [parseObservations_pass]
    refine except_bind_ok.mpr ⟨_, need_ok.mpr (read_inferJson hf result), ?_⟩
    refine except_bind_ok.mpr ⟨⟨⟩, except_bind_ok.mpr ⟨⟨⟩, validate_normal hnormal nofun, ?_⟩, rfl⟩
    refine except_bind_ok.mpr ⟨⟨⟩, refuse_ok.mpr ?_, ?_⟩
    · rw [Bool.not_eq_true', Bool.not_eq_false]
      exact any_isNpuName hnpu
    refine except_bind_ok.mpr ⟨⟨⟩, validate_normal hexecution fun _ d hd => (hall d hd).2, ?_⟩
    refine except_bind_ok.mpr ⟨⟨⟩, (isRuntimeVersion_spec hversion).2.2, refuse_ok.mpr ?_⟩
    rintro (hgraph | hiterations | htolerance)
    · exact hgraph rfl
    · exact hiterations rfl
    · exact htolerance rfl
  have hprintable : Printable f64 100 (inferJson result) :=
    (printable_inferJson hf hpassing hexecution).mono (by decide)
  have hlevel : ¬ (ProbeKind.openVino = .levelZero ∧ ProbeMode.infer ≠ .enumerate) := nofun
  have haccepted := parseProbeOutput_print hlevel hprintable (len_inferJson_le hpassing hexecution)
    hparsed hprint
  refine ⟨_, haccepted, ?_⟩
  simp only [Tells, herror]
  exact ⟨_, rfl, hnormal.map_utf8, hexecution.map_utf8, utf8_of_plain hpassing.plain⟩

/-- A printed enumeration is accepted and tells the result, when a failure is one of its mode. -/
theorem parse_enumerate (herror : ∀ error ∈ result.error, error ∈ modeErrors .enumerate)
    {line : Bytes} (h : renderEnumerateReport result = .ok line) :
    ∃ report, parseProbeOutput f64 (line ++ utf8 "\n") .openVino .enumerate = .ok report ∧
      Tells .enumerate report result := by
  cases heq : result.error with
  | none => exact parse_enumerated heq h
  | some error =>
    simp only [renderEnumerateReport, heq, except_bind_ok] at h
    obtain ⟨_, -, hprint⟩ := h
    obtain ⟨code, hname, haccepted⟩ := @parse_failure f64 .enumerate _
      (herror error heq) _ hprint
    refine ⟨_, haccepted, ?_⟩
    simp only [Tells, heq]
    exact ⟨code, hname, rfl⟩

theorem mem_modeErrors_infer (error : Error) : error ∈ modeErrors .infer := by
  cases error <;> decide

theorem parse_infer (hf : f64 kTolerance = some TOLERANCE) {line : Bytes}
    (h : renderInferReport result = .ok line) :
    ∃ report, parseProbeOutput f64 (line ++ utf8 "\n") .openVino .infer = .ok report ∧
      Tells .infer report result := by
  cases heq : result.error with
  | none => exact parse_inferred hf heq h
  | some error =>
    simp only [renderInferReport, heq, except_bind_ok] at h
    obtain ⟨_, -, hprint⟩ := h
    obtain ⟨code, hname, haccepted⟩ := @parse_failure f64 .infer _
      (mem_modeErrors_infer error) _ hprint
    refine ⟨_, haccepted, ?_⟩
    simp only [Tells, heq]
    exact ⟨code, hname, rfl⟩

/-- A result of the enumerating mode: of any answers of the library, of validating any devices and
    version, or the failure of the program itself. -/
inductive Enumerated : ProbeResult → Prop
  | answered (answers : Answers) : Enumerated (enumerate answers)
  | validated (devices : List Bytes) (version : Bytes) : Enumerated (validateEnumeration devices version)
  | internal : Enumerated (failure .internalFailure)

theorem Enumerated.error_mem (h : Enumerated result) :
    ∀ error ∈ result.error, error ∈ modeErrors .enumerate := by
  have hmem : ∀ {o : Option Error}, o ∈ [none, some Error.noNpu, some .enumerationFailed] →
      ∀ error ∈ o, error ∈ modeErrors .enumerate := by
    rintro o ho error ⟨⟩
    simp only [List.mem_cons, Option.some.injEq, List.not_mem_nil, or_false, reduceCtorEq,
      false_or] at ho
    rcases ho with rfl | rfl <;> decide
  cases h with
  | answered answers => exact hmem (enumerate_error answers)
  | validated devices version => exact hmem (validateEnumeration_error devices version)
  | internal =>
    rintro error ⟨⟩
    decide

end OpenVino

/-! ### Both helpers -/

/-- A result of the Level Zero helper: of mapping any drivers, or any failure. -/
inductive LevelZero.Produced : LevelZero.ProbeResult → Prop
  | mapped (drivers : List LevelZero.DriverRecord) : LevelZero.Produced (LevelZero.mapDevices drivers)
  | failed (error : LevelZero.LevelZeroError) : LevelZero.Produced (LevelZero.failure error)

/-- The lines kept for a throw are what rendering the internal failure prints. -/
theorem renderReport_internalFailure :
    LevelZero.renderReport (LevelZero.failure .internalFailure) = .ok (utf8 LevelZero.kInternalFailure) ∧
    OpenVino.renderEnumerateReport (OpenVino.failure .internalFailure) =
      .ok (utf8 OpenVino.kEnumerateInternalFailure) ∧
    OpenVino.renderInferReport (OpenVino.failure .internalFailure) =
      .ok (utf8 OpenVino.kInferInternalFailure) :=
  ⟨ok_of_toOption (by decide +kernel), ok_of_toOption (by decide +kernel),
    ok_of_toOption (by decide +kernel)⟩

/-- Every line of the helpers is accepted by the parser of that probe and mode and tells the result,
    and the Level Zero result does not depend on the order of drivers or devices. -/
theorem helpers_agree_with_reader {f64 : String → Option ℚ}
    (hf : f64 OpenVino.kTolerance = some TOLERANCE) :
    (∀ result text, LevelZero.Produced result → LevelZero.renderReport result = .ok text →
      ∃ report, parseProbeOutput f64 (text ++ utf8 "\n") .levelZero .enumerate = .ok report ∧
        LevelZero.Tells report result) ∧
    (∀ result text, OpenVino.Enumerated result → OpenVino.renderEnumerateReport result = .ok text →
      ∃ report, parseProbeOutput f64 (text ++ utf8 "\n") .openVino .enumerate = .ok report ∧
        OpenVino.Tells .enumerate report result) ∧
    (∀ result text, OpenVino.renderInferReport result = .ok text →
      ∃ report, parseProbeOutput f64 (text ++ utf8 "\n") .openVino .infer = .ok report ∧
        OpenVino.Tells .infer report result) ∧
    (LevelZero.renderReport (LevelZero.failure .internalFailure) =
        .ok (utf8 LevelZero.kInternalFailure) ∧
      OpenVino.renderEnumerateReport (OpenVino.failure .internalFailure) =
        .ok (utf8 OpenVino.kEnumerateInternalFailure) ∧
      OpenVino.renderInferReport (OpenVino.failure .internalFailure) =
        .ok (utf8 OpenVino.kInferInternalFailure)) ∧
    ∀ drivers drivers', LevelZero.Shuffled drivers drivers' →
      LevelZero.mapDevices drivers = LevelZero.mapDevices drivers' := by
  refine ⟨fun result text hproduced h => ?_, fun result text henumerated h => ?_,
    fun result text h => OpenVino.parse_infer hf h, renderReport_internalFailure,
    fun drivers drivers' h => LevelZero.mapDevices_congr (LevelZero.sameRecords_of_shuffled h)⟩
  · cases hproduced with
    | mapped drivers => exact LevelZero.parse_mapped drivers h
    | failed error => exact LevelZero.parse_failure error h
  · exact OpenVino.parse_enumerate henumerated.error_mem h

/-- The double of the only decimal the helpers print. -/
def sampleF64 (literal : String) : Option ℚ := if literal = "0.001" then some TOLERANCE else none

/-- One driver with one device of each kind. -/
def sampleDrivers : List LevelZero.DriverRecord := [⟨1, [⟨1, 0x8086, 0x7d55⟩, ⟨5, 0x8086, 0x643e⟩]⟩]

theorem helpers_agree_on_sample : ∃ text report,
    LevelZero.renderReport (LevelZero.mapDevices sampleDrivers) = .ok text ∧
      parseProbeOutput sampleF64 (text ++ utf8 "\n") .levelZero .enumerate = .ok report ∧
      LevelZero.Tells report (LevelZero.mapDevices sampleDrivers) := by
  have hrendered : (LevelZero.renderReport (LevelZero.mapDevices sampleDrivers)).toOption.isSome = true := by
    decide +kernel
  obtain ⟨text, htext⟩ := Option.isSome_iff_exists.mp hrendered
  obtain ⟨report, hreport⟩ := (@helpers_agree_with_reader sampleF64 rfl).1 _ text
    (.mapped sampleDrivers) (ok_of_toOption htext)
  exact ⟨text, report, ok_of_toOption htext, hreport⟩

end NpuStack.Native
