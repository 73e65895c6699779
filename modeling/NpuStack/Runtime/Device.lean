import NpuStack.Runtime.Diagnostic
import NpuStack.Schemes.Returns

/-! The device directory and the busy-time counters.

        dev/accel/accelN          lstat, then open read-write     device.node, device.access
        sys/class/accel/accelN    open, at most 129 bytes         runtime.activity

    Whatever the directory and its entries answer, the inspection returns the same two checks, and
    two snapshots make one activity check. -/

namespace NpuStack.Runtime
open Interaction Interaction.Prog Text Schema NpuStack.Core

/-! ### Device nodes -/

structure DeviceInspection where
  nodeCount : ℕ
  checks : List DiagnosticCheck

def nodeCheck (status : CheckStatus) (values : List (String × Value)) : DiagnosticCheck :=
  check "device.node" status "NPU accelerator device is present" (details values)

def accessCheck (status : CheckStatus) (requirement : Requirement)
    (values : List (String × Value)) : DiagnosticCheck :=
  ⟨"device.access", status, "Normal-user NPU access is available", details values, requirement⟩

def missingInspection : DeviceInspection where
  nodeCount := 0
  checks := [nodeCheck .fail [("error_code", .str "DEVICE_NODE_MISSING")],
    accessCheck .blocked .required [("error_code", .str "DEVICE_NODE_MISSING")]]

def failedInspection (errorCode : String) : DeviceInspection where
  nodeCount := 0
  checks := [nodeCheck .fail [("error_code", .str errorCode)],
    accessCheck .fail .required [("error_code", .str errorCode)]]

def isSupportedNodeType (kind : FileKind) : Bool := kind = .file || kind = .charDevice

/-- The supported nodes, and whether another entry has an accelerator's name; none when an entry
    cannot be read. -/
def scanEntries (directory : String) : List (Except IoErrorKind (Option String)) →
    Inspection (Option (List (String × String) × Bool))
  | [] => pure (some ([], false))
  | .error _ :: _ => pure none
  | .ok none :: rest => scanEntries directory rest
  | .ok (some name) :: rest =>
    if isAccelName name then do
      let path := joinPath directory name
      let metadata ← ask (.symlinkMetadata path)
      let found ← scanEntries directory rest
      return found.map fun (candidates, invalid) =>
        match metadata with
        | .ok m => if isSupportedNodeType m.kind then ((name, path) :: candidates, invalid)
            else (candidates, true)
        | .error _ => (candidates, true)
    else scanEntries directory rest

/-- How opening the nodes went. -/
structure Openings where
  denied : Bool
  failed : Bool
  opened : Bool

def openNode (openings : Openings) (candidate : String × String) : Inspection Openings := do
  match ← ask (.openReadWrite candidate.2) with
  | .ok _ => return { openings with opened := true }
  | .error .permissionDenied => return { openings with denied := true }
  | .error _ => return { openings with failed := true }

def accessError (openings : Openings) : String :=
  if openings.failed then "DEVICE_ACCESS_FAILED"
  else if openings.denied then "DEVICE_ACCESS_DENIED"
  else "DEVICE_ACCESS_FAILED"

def inspectAccess (candidates : List (String × String)) (effectiveRoot : Bool)
    (command : DiagnosticCommand) : Inspection DiagnosticCheck :=
  let accessRequirement : Requirement :=
    if effectiveRoot && command = .status then .optional else .required
  if effectiveRoot then
    pure (accessCheck .blocked accessRequirement [("error_code", .str "NORMAL_USER_REQUIRED")])
  else do
    let openings ← candidates.foldlM openNode ⟨false, false, false⟩
    return if openings.opened then accessCheck .pass .required [("count", .unsigned candidates.length)]
      else accessCheck .fail .required [("error_code", .str (accessError openings))]

def inspectDevices (root : String) (effectiveRoot : Bool) (command : DiagnosticCommand) :
    Inspection DeviceInspection := do
  let directory := joinPath root "dev/accel"
  match ← ask (.readDir directory) with
  | .error .notFound => return missingInspection
  | .error _ => return failedInspection "DEVICE_ACCESS_FAILED"
  | .ok entries =>
    match ← scanEntries directory entries with
    | none => return failedInspection "DEVICE_ACCESS_FAILED"
    | some (found, invalidCandidate) =>
      let candidates := found.mergeSort fun left right => left.1 ≤ right.1
      if candidates = [] then
        return if invalidCandidate then failedInspection "DEVICE_ACCESS_FAILED" else missingInspection
      else
        let access ← inspectAccess candidates effectiveRoot command
        return {
          nodeCount := candidates.length
          checks := [nodeCheck .pass [("count", .unsigned candidates.length)], access] }

/-! ### Activity -/

inductive BusyCounterSnapshot where
  | counters (names : List String) (values : List ℕ)
  | absent
  | unavailable
  | invalid
  deriving DecidableEq, Repr

inductive CounterError where
  | unavailable | invalid
  deriving DecidableEq, Repr

def COUNTER_LIMIT : ℕ := 128

/-- The number a counter file holds. -/
def parseCounter (bytes : Bytes) : Except CounterError (Option ℕ) :=
  if bytes.length > COUNTER_LIMIT then .error .invalid
  else
    match fromUtf8 bytes with
    | none => .error .invalid
    | some text =>
      let value := (stripSuffix "\n" text).getD text
      if isDigits value then
        match parseUnsigned 128 value with
        | some n => .ok (some n)
        | none => .error .invalid
      else .error .invalid

def readCounter (path : String) : Inspection (Except CounterError (Option ℕ)) := do
  match ← ask (.openRead path) with
  | .error .notFound => return .ok none
  | .error _ => return .error .unavailable
  | .ok _ =>
    match ← ask (.readToEnd path) with
    | .error _ => return .error .unavailable
    | .ok bytes => return parseCounter (bytes.take (COUNTER_LIMIT + 1))

/-- The accelerators of the class directory; none when an entry cannot be read. -/
def counterPaths (directory : String) : List (Except IoErrorKind (Option String)) →
    Option (List (String × String))
  | [] => some []
  | .error _ :: _ => none
  | .ok none :: rest => counterPaths directory rest
  | .ok (some name) :: rest =>
    (counterPaths directory rest).map fun paths =>
      if isAccelName name then
        (name, joinPath (joinPath directory name) "device/npu_busy_time_us") :: paths
      else paths

/-- Reads the counters in turn: names and values that were there, and how many were not. -/
def readCounters : List (String × String) → List (String × ℕ) → ℕ →
    Inspection (Except CounterError (List (String × ℕ) × ℕ))
  | [], read, missing => pure (.ok (read, missing))
  | (name, path) :: rest, read, missing => do
    match ← readCounter path with
    | .ok (some value) => readCounters rest (read ++ [(name, value)]) missing
    | .ok none => readCounters rest read (missing + 1)
    | .error e => return .error e

def readBusyCounters (root : String) : Inspection BusyCounterSnapshot := do
  let directory := joinPath root "sys/class/accel"
  match ← ask (.readDir directory) with
  | .error .notFound => return .absent
  | .error _ => return .unavailable
  | .ok entries =>
    match counterPaths directory entries with
    | none => return .unavailable
    | some found =>
      let paths := found.mergeSort fun left right => left.1 ≤ right.1
      if paths = [] then return .absent
      match ← readCounters paths [] 0 with
      | .error .unavailable => return .unavailable
      | .error .invalid => return .invalid
      | .ok (read, missing) =>
        return if read = [] then .absent
          else if missing ≠ 0 then .unavailable
          else .counters (read.map Prod.fst) (read.map Prod.snd)

def activityCheck (status : CheckStatus) (values : List (String × Value)) : DiagnosticCheck :=
  ⟨"runtime.activity", status, "NPU activity was observed during inference", details values,
    .optional⟩

def activityWarning (errorCode : String) : DiagnosticCheck :=
  activityCheck .warn [("error_code", .str errorCode)]

/-- The sum of the increases, in 128 bits. -/
def busyDelta : List (ℕ × ℕ) → ℕ → Except String ℕ
  | [], delta => .ok delta
  | (before, after) :: rest, delta =>
    if after < before then .error "ACTIVITY_COUNTER_DECREASED"
    else if delta + (after - before) ≥ 2 ^ 128 then .error "ACTIVITY_COUNTER_INVALID"
    else busyDelta rest (delta + (after - before))

/-- The busy time between two snapshots, or why there is none. -/
def activityDelta : BusyCounterSnapshot → BusyCounterSnapshot → Except String ℕ
  | .invalid, _ => .error "ACTIVITY_COUNTER_INVALID"
  | _, .invalid => .error "ACTIVITY_COUNTER_INVALID"
  | .counters names before, .counters names' after =>
    if names = names' then
      match busyDelta (before.zip after) 0 with
      | .error code => .error code
      | .ok delta =>
        if delta = 0 then .error "ACTIVITY_NOT_OBSERVED"
        else if delta < 2 ^ 64 then .ok delta
        else .error "ACTIVITY_COUNTER_INVALID"
    else .error "ACTIVITY_COUNTER_UNAVAILABLE"
  | _, _ => .error "ACTIVITY_COUNTER_UNAVAILABLE"

def evaluateActivity (before after : BusyCounterSnapshot) : DiagnosticCheck :=
  match activityDelta before after with
  | .ok delta => activityCheck .pass [("busy_time_delta", .unsigned delta)]
  | .error code => activityWarning code

/-! ### Activation -/

inductive ActivationState where
  | ready | unknown
  deriving DecidableEq, Repr

structure ActivationInspection where
  state : ActivationState
  rebootRequired : Bool
  reloginRequired : Bool
  errorCode : Option String
  deriving DecidableEq, Repr

def activationReady (rebootRequired : Bool) : ActivationInspection :=
  ⟨.ready, rebootRequired, false, none⟩

def activationUnknown : ActivationInspection :=
  ⟨.unknown, false, false, some "ACTIVATION_STATE_UNKNOWN"⟩

/-- Whether a provider to be activated by a reboot was installed after the boot. -/
def rebootPending (packages : List (String × InstalledPackage)) (bootTimeEpoch : ℕ) :
    List ComponentRequirement → Bool → ActivationInspection
  | [], rebootRequired => activationReady rebootRequired
  | component :: rest, rebootRequired =>
    match packages.lookup component.provider.package with
    | none => activationUnknown
    | some package =>
      if package.version ≠ component.provider.version then activationUnknown
      else rebootPending packages bootTimeEpoch rest
        (rebootRequired || package.installTime > bootTimeEpoch)

def inspectActivation (profile : Profile) (packages : List (String × InstalledPackage))
    (bootTimeEpoch : Option ℕ) : ActivationInspection :=
  let rebootProviders := profile.components.values.filter fun c => c.provider.activation = .reboot
  if rebootProviders = [] then activationReady false
  else
    match bootTimeEpoch with
    | none => activationUnknown
    | some epoch => rebootPending packages epoch rebootProviders false

/-! ### What device and activity inspection give -/

/-- No process is run. -/
def Passive (q : Question) : Prop := ∀ request, q ≠ .run request

theorem documented_nodeCheck {status : CheckStatus} {code : String} (hcode : code ∈ ERROR_CODES) :
    Documented (nodeCheck status [("error_code", .str code)]) :=
  documented_of_details (x := []) rfl (by simp) hcode

theorem documented_accessCheck {status : CheckStatus} {requirement : Requirement} {code : String}
    (hcode : code ∈ ERROR_CODES) :
    Documented (accessCheck status requirement [("error_code", .str code)]) :=
  documented_of_details (x := []) rfl (by simp) hcode

/-- The two checks of a device inspection. -/
def DeviceChecks (r : DeviceInspection) : Prop :=
  r.checks.map (·.id) = ["device.node", "device.access"] ∧ ∀ c ∈ r.checks, Documented c

theorem deviceChecks_missing : DeviceChecks missingInspection := by
  refine ⟨rfl, List.forall_mem_cons.mpr ⟨?_, List.forall_mem_singleton.mpr ?_⟩⟩
  · exact documented_nodeCheck (by decide)
  · exact documented_accessCheck (by decide)

theorem deviceChecks_failed {code : String} (hcode : code ∈ ERROR_CODES) :
    DeviceChecks (failedInspection code) := by
  refine ⟨rfl, List.forall_mem_cons.mpr ⟨?_, List.forall_mem_singleton.mpr ?_⟩⟩
  · exact documented_nodeCheck hcode
  · exact documented_accessCheck hcode

theorem scanEntries_gives (directory : String) : ∀ entries,
    (scanEntries directory entries).Gives Passive fun _ => True
  | [] => gives_pure trivial
  | .error _ :: _ => gives_pure trivial
  | .ok none :: rest => scanEntries_gives directory rest
  | .ok (some name) :: rest => by
    rw [scanEntries]
    split
    · refine gives_query_bind nofun fun metadata => ?_
      exact gives_bind (scanEntries_gives directory rest) fun _ _ => gives_pure trivial
    · exact scanEntries_gives directory rest

theorem openNode_gives (openings : Openings) (candidate : String × String) :
    (openNode openings candidate).Gives Passive fun _ => True := by
  refine gives_query_bind nofun fun answer => ?_
  split <;> exact gives_pure trivial

theorem accessError_documented (openings : Openings) : accessError openings ∈ ERROR_CODES := by
  rw [accessError]
  split
  · decide
  split <;> decide

theorem inspectAccess_gives (candidates : List (String × String)) (effectiveRoot : Bool)
    (command : DiagnosticCommand) :
    (inspectAccess candidates effectiveRoot command).Gives Passive fun c =>
      c.id = "device.access" ∧ Documented c := by
  rw [inspectAccess]
  split
  · exact gives_pure ⟨rfl, documented_accessCheck (by decide)⟩
  · refine gives_bind (gives_foldlM (fun _ _ => True)
      (fun _ x openings _ _ => openNode_gives openings x) (s := []) trivial) fun openings _ => ?_
    split
    · exact gives_pure ⟨rfl, documented_of_absent rfl (by simp)⟩
    · exact gives_pure ⟨rfl, documented_accessCheck (accessError_documented openings)⟩

/-- Whatever the device directory answers, there are the two device checks. -/
theorem inspectDevices_gives (root : String) (effectiveRoot : Bool) (command : DiagnosticCommand) :
    (inspectDevices root effectiveRoot command).Gives Passive DeviceChecks := by
  refine gives_query_bind nofun fun answer => ?_
  match answer with
  | .error .notFound => exact gives_pure deviceChecks_missing
  | .error .permissionDenied => exact gives_pure (deviceChecks_failed (by decide))
  | .error .other => exact gives_pure (deviceChecks_failed (by decide))
  | .ok entries =>
    refine gives_bind (scanEntries_gives _ entries) fun found _ => ?_
    match found with
    | none => exact gives_pure (deviceChecks_failed (by decide))
    | some (found, invalidCandidate) =>
      dsimp only
      split
      · refine gives_pure ?_
        split
        · exact deviceChecks_failed (by decide)
        · exact deviceChecks_missing
      · refine gives_bind (inspectAccess_gives _ _ _) fun access ⟨hid, hdoc⟩ => gives_pure ⟨?_, ?_⟩
        · simp [nodeCheck, check, hid]
        · exact List.forall_mem_cons.mpr
            ⟨documented_of_absent rfl (by simp), List.forall_mem_singleton.mpr hdoc⟩

theorem readCounter_gives (path : String) :
    (readCounter path).Gives Passive fun _ => True := by
  refine gives_query_bind nofun fun answer => ?_
  match answer with
  | .error .notFound => exact gives_pure trivial
  | .error .permissionDenied => exact gives_pure trivial
  | .error .other => exact gives_pure trivial
  | .ok _ =>
    refine gives_query_bind nofun fun bytes => ?_
    cases bytes <;> exact gives_pure trivial

theorem readCounters_gives : ∀ paths read missing,
    (readCounters paths read missing).Gives Passive fun _ => True
  | [], _, _ => gives_pure trivial
  | (name, path) :: rest, read, missing => by
    refine gives_bind (readCounter_gives path) fun counter _ => ?_
    match counter with
    | .ok (some value) => exact readCounters_gives rest _ missing
    | .ok none => exact readCounters_gives rest read _
    | .error e => exact gives_pure trivial

theorem readBusyCounters_gives (root : String) :
    (readBusyCounters root).Gives Passive fun _ => True := by
  refine gives_query_bind nofun fun answer => ?_
  match answer with
  | .error .notFound => exact gives_pure trivial
  | .error .permissionDenied => exact gives_pure trivial
  | .error .other => exact gives_pure trivial
  | .ok entries =>
    dsimp only
    split
    · exact gives_pure trivial
    · split
      · exact gives_pure trivial
      · refine gives_bind (readCounters_gives _ _ _) fun result _ => ?_
        match result with
        | .error .unavailable => exact gives_pure trivial
        | .error .invalid => exact gives_pure trivial
        | .ok (read, missing) => exact gives_pure trivial

theorem busyDelta_error : ∀ {pairs : List (ℕ × ℕ)} {delta : ℕ} {code : String},
    busyDelta pairs delta = .error code → code ∈ ERROR_CODES
  | (before, after) :: rest, delta, code, h => by
    rw [busyDelta] at h
    split at h
    · cases h
      decide
    split at h
    · cases h
      decide
    · exact busyDelta_error h

theorem activityDelta_error {before after : BusyCounterSnapshot} {code : String}
    (h : activityDelta before after = .error code) : code ∈ ERROR_CODES := by
  rw [activityDelta.eq_def] at h
  split at h
  · cases h; decide
  · cases h; decide
  · split at h
    · split at h
      · next hdelta =>
        cases h
        exact busyDelta_error hdelta
      · split at h
        · cases h; decide
        split at h
        · cases h
        · cases h; decide
    · cases h; decide
  · cases h; decide

/-- Two snapshots make one optional check, with a documented code unless it passes. -/
theorem evaluateActivity_documented (before after : BusyCounterSnapshot) :
    (evaluateActivity before after).id = "runtime.activity" ∧
      Documented (evaluateActivity before after) := by
  rw [evaluateActivity]
  split
  · exact ⟨rfl, documented_of_absent rfl (by simp)⟩
  · next code h =>
    exact ⟨rfl, documented_of_details (x := []) rfl (by simp) (activityDelta_error h)⟩

end NpuStack.Runtime
