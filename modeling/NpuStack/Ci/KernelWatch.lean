import Mathlib.Data.List.Sort
import NpuStack.Schemes.Gather
import NpuStack.Schemes.Interaction
import NpuStack.Schemes.PyValue

/-! `check_kernels.py`: Fedora 44 kernel builds against the windows of the qualified profiles.

        Bodhi ──kernelsFromBodhi──▶ builds that reached a repository ─┐
        profiles ──qualifiedWindows──▶ windows ─────────────────────┼─scan──▶ findings
        registry ──loadProbes──▶ outcomes by profile and kernel ──────┘

    Everything is read from JSON or TOML values, so any document may be given. -/

namespace NpuStack.Ci.KernelWatch
open Interaction Text
open Py (Value)

/-! ### Python's digits -/

/-- The zeros of the decimal digits (`Nd`, Unicode 15). -/
def DIGIT_ZEROS : List ℕ :=
  [0x30, 0x660, 0x6f0, 0x7c0, 0x966, 0x9e6, 0xa66, 0xae6, 0xb66, 0xbe6, 0xc66, 0xce6, 0xd66, 0xde6, 0xe50,
    0xed0, 0xf20, 0x1040, 0x1090, 0x17e0, 0x1810, 0x1946, 0x19d0, 0x1a80, 0x1a90, 0x1b50, 0x1bb0, 0x1c40,
    0x1c50, 0xa620, 0xa8d0, 0xa900, 0xa9d0, 0xa9f0, 0xaa50, 0xabf0, 0xff10, 0x104a0, 0x10d30, 0x11066,
    0x110f0, 0x11136, 0x111d0, 0x112f0, 0x11450, 0x114d0, 0x11650, 0x116c0, 0x11730, 0x118e0, 0x11950,
    0x11c50, 0x11d50, 0x11da0, 0x11f50, 0x16a60, 0x16ac0, 0x16b50, 0x1d7ce, 0x1d7d8, 0x1d7e2, 0x1d7ec,
    0x1d7f6, 0x1e140, 0x1e2f0, 0x1e4f0, 0x1e950, 0x1fbf0]

/-- `\d`, with its value. -/
def decimal (c : Char) : Option ℕ :=
  (DIGIT_ZEROS.find? fun start => start ≤ c.toNat && c.toNat < start + 10).map fun start => c.toNat - start

/-- `\d{1,n}` in full. -/
def isNumber (n : ℕ) (part : String) : Bool :=
  part ≠ "" && Py.len part ≤ n && all (fun c => (decimal c).isSome) part

/-- `int(part)`. -/
def int (part : String) : ℕ := part.toList.foldl (fun n c => 10 * n + (decimal c).getD 0) 0

/-! ### Kernel versions -/

def MAX_SCALAR_BYTES : ℕ := 4096

def U64_MAX : ℕ := 2 ^ 64 - 1

/-- The longest text `int` reads, leading zeros counted. -/
def MAX_STR_DIGITS : ℕ := 4300

def KEY_PREFIX : String := "kernel:fedora-44:"

/-- `\d{1,4}(?:\.[0-9A-Za-z]{1,40}){0,6}` in full. -/
def isRelease (release : String) : Bool :=
  match split '.' release with
  | [] => false
  | first :: rest => isNumber 4 first && rest.length ≤ 6 &&
      rest.all fun part => part ≠ "" && Py.len part ≤ 40 && all Char.isAlphanum part

/-- `KERNEL_NVR` in full, less its ends: the numeric version of a `version-release`. -/
def kernelVersion (middle : String) : Option (List ℕ) :=
  match splitOnce '-' middle with
  | some (version, release) =>
    match split '.' version with
    | [major, minor, patch] =>
      if isNumber 3 major && isNumber 3 minor && isNumber 4 patch && isRelease release then
        some [int major, int minor, int patch]
      else none
    | _ => none
  | none => none

/-- `parse_kernel_nvr`: the numeric version and the `version-release` of a build. -/
def parseKernelNvr (nvr : Value) : Option (List ℕ × String) := do
  let nvr ← nvr.asStr
  guard (Py.len nvr ≤ 64)
  let kernel ← stripPrefix "kernel-" nvr
  let version ← (stripSuffix ".fc44" kernel).bind kernelVersion
  return (version, kernel)

/-- `parse_version`: the numeric triple of a profile's kernel release. -/
def parseVersion (value : Value) : Except String (List ℕ) := do
  let invalid := "invalid kernel version in profile"
  let text ← need value.asStr invalid
  require (text ≠ "" ∧ Py.strip text = text) invalid
  let numeric ← match splitOnce '-' text with
    | some (numeric, suffix) => do
      require (suffix ≠ "" ∧ all (fun c => !Py.isSpace c) suffix = true) invalid
      pure numeric
    | none => pure text
  let parts := split '.' numeric
  require (parts.length = 3 ∧ ∀ part ∈ parts, isDigits part = true) invalid
  require (∀ part ∈ parts, Py.len part ≤ MAX_STR_DIGITS) "Exceeds the limit for integer string conversion"
  let version := parts.map int
  require (∀ part ∈ version, part ≤ U64_MAX) invalid
  return version

/-! ### Builds that reached a repository -/

/-- `OBSERVED`: the rank of a build's most published state. -/
def OBSERVED : List (String × ℕ) := [("stable", 3), ("testing", 2), ("obsolete", 1)]

def observedRank (status : String) : ℕ := (OBSERVED.lookup status).getD 0

/-- A build as an update shows it. -/
structure Observed where
  version : List ℕ
  status : String
  update : String

/-- `ALIAS` in full: `FEDORA-`, four digits, `-` and ten lower-case hexadecimal digits. -/
def isAlias (value : String) : Bool :=
  match (stripPrefix "FEDORA-" value).bind (splitOnce '-') with
  | some (year, name) => isNumber 4 year && Py.len year = 4 && Py.len name = 10 && all isLowerHex name
  | none => false

/-- The dictionary's value under a key. -/
def field (fields : List (String × Value)) (key : String) : Value := (fields.lookup key).getD .none

/-- A value that is a nonempty string. -/
def nonemptyText : Value → Bool
  | .str s => s ≠ ""
  | _ => false

/-- The published status of an update entry, if it is one of `OBSERVED`. -/
def entryStatus (fields : List (String × Value)) : Except String (Option String) := do
  require ((field fields "status").hashable = true) "unhashable type"
  return (field fields "status").asStr.filter fun status => (OBSERVED.lookup status).isSome

/-- The list of builds of an update that reached a Fedora 44 repository with this status. -/
def entryBuilds (fields : List (String × Value)) (status : String) : List Value :=
  if status = "obsolete" && !nonemptyText (field fields "date_testing") then []
  else match field fields "release", field fields "builds" with
    | .dict release, .list builds => if (field release "name").eq (.str "F44") then builds else []
    | _, _ => []

/-- `build.get('nvr') if isinstance(build, dict) else None`. -/
def buildNvr : Value → Value
  | .dict fields => field fields "nvr"
  | _ => .none

/-- What one update entry shows of builds, by kernel. -/
def observeEntry (entry : Value) : Except String (List (String × Observed)) :=
  match entry with
  | .dict fields => do
    match ← entryStatus fields with
    | some status => return (entryBuilds fields status).filterMap fun build =>
        (parseKernelNvr (buildNvr build)).map fun (version, kernel) =>
          (kernel, ⟨version, status, ((field fields "alias").asStr.filter isAlias).getD ""⟩)
    | none => return []
  | _ => .ok []

/-- A build is recorded at its most published state. -/
def recordBuild (found : List (String × Observed)) (build : String × Observed) : List (String × Observed) :=
  match found.lookup build.1 with
  | some current =>
    if observedRank current.status < observedRank build.2.status then Py.insertItem found build else found
  | none => Py.insertItem found build

def observe (found : List (String × Observed)) (entry : Value) : Except String (List (String × Observed)) := do
  let builds ← observeEntry entry
  return builds.foldl recordBuild found

/-- An observed kernel of the report. -/
structure Kernel where
  kernel : String
  version : String
  status : String
  update : String

def dotted (version : List ℕ) : String := join '.' (version.map Nat.repr)

/-- The updates of a Bodhi document. -/
def bodhiUpdates (document : Value) : List Value :=
  match document with
  | .dict fields => ((field fields "updates").asList).getD []
  | _ => []

/-- `kernels_from_bodhi`: newest first, one entry for each build. -/
def kernelsFromBodhi (document : Value) : Except String (List Kernel) := do
  let found ← (bodhiUpdates document).foldlM observe []
  return (found.mergeSort fun a b => b.2.version ≤ a.2.version).map fun (kernel, build) =>
    ⟨kernel, dotted build.version, build.status, build.update⟩

/-! ### Windows of qualified profiles -/

structure Window where
  id : String
  min : String
  maxExclusive : String
  evidence : String
  components : String

/-- `DIGEST` in full. -/
def isDigest (value : String) : Bool := Py.len value = 64 && all isLowerHex value

/-- `valid_profile_id`. -/
def validProfileId (value : Value) : Option String :=
  value.asStr.filter fun id => id ≠ "" && Py.strip id = id && all (fun c => !isControl c) id &&
    len id ≤ MAX_SCALAR_BYTES

/-- A value is this string. -/
def isText (value : Value) (s : String) : Bool := value.eq (.str s)

section
variable (componentsSha : List (String × Value) → Option String)

/-- `components_digest`: of a nonempty component set. -/
def componentsDigest (document : Value) : Except String String := do
  let components ← need (document.get "components") "AttributeError"
  match components with
  | .dict [] => .error "profile has no component set"
  | .dict items => need (componentsSha items) "TypeError"
  | _ => .error "profile has no component set"

/-- Whether a profile is a qualified one for Fedora 44. -/
def isQualified (document : Value) : Except String Bool := do
  let platform ← need (document.getD "platform" (.dict [])) "AttributeError"
  let status ← need (document.get "status") "AttributeError"
  if !isText status "qualified" then return false
  else do
    let id ← need (platform.get "id") "AttributeError"
    let version ← need (platform.get "version_id") "AttributeError"
    return isText id "fedora" && isText version "44"

/-- One round of `qualified_windows`, for one parsed profile. -/
def addWindow (windows : List Window) (document : Value) : Except String (List Window) := do
  if !(← isQualified document) then return windows
  else do
    let kernel ← need (document.getD "kernel" (.dict [])) "AttributeError"
    let min ← need (kernel.get "min") "AttributeError"
    let maxExclusive ← need (kernel.get "max_exclusive") "AttributeError"
    let low ← parseVersion min
    let high ← parseVersion maxExclusive
    require (low < high) "qualified profile has an empty kernel window"
    let qualification ← need (document.getD "qualification" (.dict [])) "AttributeError"
    let evidence ← need (qualification.get "evidence_sha256") "AttributeError"
    let evidence ← need (evidence.asStr.filter isDigest) "qualified profile lacks a qualification evidence digest"
    let id ← need (document.get "id") "AttributeError"
    let id ← need (validProfileId id) "qualified profile has an invalid id"
    require (id ∉ windows.map Window.id) "duplicate qualified profile id"
    let min ← need min.asStr "invalid kernel version in profile"
    let maxExclusive ← need maxExclusive.asStr "invalid kernel version in profile"
    let components ← componentsDigest componentsSha document
    return windows ++ [⟨id, min, maxExclusive, evidence, components⟩]

/-- `qualified_windows` of the parsed profiles, in the order of their paths. -/
def qualifiedWindows (documents : List Value) : Except String (List Window) :=
  documents.foldlM (addWindow componentsSha) []

end

/-! ### Recorded probes -/

def PROBE_FIELDS : List String :=
  ["kernel", "profile", "components_sha256", "result", "source", "evidence_sha256", "recorded"]

/-- The days of a month. -/
def daysIn (year month : ℕ) : ℕ :=
  if month = 2 then (if year % 4 = 0 ∧ (year % 100 ≠ 0 ∨ year % 400 = 0) then 29 else 28)
  else if month ∈ [4, 6, 9, 11] then 30 else 31

/-- `valid_date`: an ISO date of the calendar. -/
def validDate (value : String) : Bool :=
  match split '-' value with
  | [year, month, day] =>
    [year, month, day].all isDigits && Py.len year = 4 && Py.len month = 2 && Py.len day = 2 &&
      1 ≤ int year && 1 ≤ int month && int month ≤ 12 && 1 ≤ int day && int day ≤ daysIn (int year) (int month)
  | _ => false

/-- A record of the registry. -/
structure Probe where
  kernel : String
  profile : String
  components : String
  evidence : String
  pass : Bool
  qualification : Bool

def Probe.identity (probe : Probe) : String × String × String × String :=
  (probe.profile, probe.kernel, probe.components, probe.evidence)

/-- `value in {a, b}` of strings: whether it is the first. -/
def oneOf (first second : String) (value : Value) : Except String (Option Bool) := do
  require (value.hashable = true) "unhashable type"
  return if isText value first then some true else if isText value second then some false else none

/-- A record read on its own; whether an earlier one has its identity is checked beside it. -/
def readProbe (probe : Value) : Except String Probe := do
  let invalid := "invalid kernel probe record"
  let fields ← need probe.asDict invalid
  require ((∀ item ∈ fields, item.1 ∈ PROBE_FIELDS) ∧ ∀ name ∈ PROBE_FIELDS, (fields.lookup name).isSome) invalid
  let kernel ← need (field fields "kernel").asStr invalid
  require ((parseKernelNvr (.str ("kernel-" ++ kernel))).isSome = true) invalid
  let profile ← need (validProfileId (field fields "profile")) invalid
  require ((field fields "components_sha256").hashable = true ∧ (field fields "evidence_sha256").hashable = true)
    "unhashable type"
  let pass ← oneOf "pass" "fail" (field fields "result")
  let pass ← need pass invalid
  let qualification ← oneOf "qualification" "probe" (field fields "source")
  let qualification ← need qualification invalid
  let components ← need ((field fields "components_sha256").asStr.filter isDigest) invalid
  let evidence ← need ((field fields "evidence_sha256").asStr.filter isDigest) invalid
  require (((field fields "recorded").asStr.any validDate) = true) invalid
  require (qualification = false ∨ pass = true) invalid
  return ⟨kernel, profile, components, evidence, pass, qualification⟩

/-- A record that no longer applies to its profile. -/
structure Stale where
  kernel : String
  profile : String
  reason : String

/-- Recorded outcomes by profile and kernel (`true` for a pass), stale records and identities seen. -/
structure Loaded where
  outcomes : List ((String × String) × Bool)
  stale : List Stale
  seen : List (String × String × String × String)

/-- Why a record does not apply to the window of its profile. -/
def staleReason (window : Window) (probe : Probe) : Option String :=
  if probe.components ≠ window.components then some "component set changed"
  else if probe.qualification ∧ probe.evidence ≠ window.evidence then some "qualification evidence changed"
  else none

/-- `{window['id']: window for window in windows}` read under a profile: of equal ids the last. -/
def currentWindow (windows : List Window) (profile : String) : Option Window :=
  windows.reverse.find? fun window => window.id = profile

def loadProbe (windows : List Window) (loaded : Loaded) (raw : Value) : Except String Loaded := do
  let probe ← readProbe raw
  require (probe.identity ∉ loaded.seen) "invalid kernel probe record"
  let loaded := { loaded with seen := loaded.seen ++ [probe.identity] }
  match currentWindow windows probe.profile with
  | none => return loaded
  | some window =>
    match staleReason window probe with
    | some reason => return { loaded with stale := loaded.stale ++ [⟨probe.kernel, probe.profile, reason⟩] }
    | none =>
      let pair := (probe.profile, probe.kernel)
      match loaded.outcomes.lookup pair with
      | some pass => do
        require (pass = probe.pass) "conflicting records for the current component set"
        return loaded
      | none => return { loaded with outcomes := loaded.outcomes ++ [(pair, probe.pass)] }

/-- The records of a registry document. -/
def registryProbes (document : Value) : Except String (List Value) := do
  let invalid := "kernel probe registry must be schema_version 1 with a probes list"
  let fields ← need document.asDict invalid
  require ((field fields "schema_version").eq (.int 1) = true) invalid
  need (field fields "probes").asList invalid

/-- `load_probes`, of the registry's JSON. -/
def loadProbes (document : Value) (windows : List Window) : Except String Loaded := do
  let probes ← registryProbes document
  probes.foldlM (loadProbe windows) ⟨[], [], []⟩

/-! ### Findings -/

inductive Verdict where
  | requalificationRequired
  | probeFailed
  | probeRequired
deriving DecidableEq

def Verdict.text : Verdict → String
  | requalificationRequired => "requalification-required"
  | probeFailed => "probe-failed"
  | probeRequired => "probe-required"

structure Action where
  profile : String
  window : String
  action : Verdict
deriving DecidableEq

structure Finding where
  observation : String
  dedupKey : String
  kernel : String
  version : String
  status : String
  update : String
  actions : List Action
  issue : Option ℤ

def dedupKey (kernel : String) : String := KEY_PREFIX ++ kernel

/-- What a window asks of a kernel, if anything. -/
def windowAction (outcomes : List ((String × String) × Bool)) (kernel : String) (version : List ℕ)
    (window : Window) : Except String (Option Action) := do
  let action := fun verdict : Verdict =>
    some (Action.mk window.id ("[" ++ window.min ++ ", " ++ window.maxExclusive ++ ")") verdict)
  let low ← parseVersion (.str window.min)
  if version < low then return none
  else do
    let high ← parseVersion (.str window.maxExclusive)
    if high ≤ version then return action .requalificationRequired
    else match outcomes.lookup (window.id, kernel) with
      | some true => return none
      | some false => return action .probeFailed
      | none => return action .probeRequired

/-- `', '.join(texts)`. -/
def commaJoin : List String → String
  | [] => ""
  | [text] => text
  | text :: rest => text ++ ", " ++ commaJoin rest

/-- One round of `scan`. -/
def scanKernel (windows : List Window) (outcomes : List ((String × String) × Bool)) (issues : String → Option ℤ)
    (item : Kernel) : Except String (Option Finding) := do
  let version := (split '.' item.version).map int
  let actions ← windows.mapM (windowAction outcomes item.kernel version)
  let actions := actions.reduceOption
  if actions = [] then return none
  else return some ⟨commaJoin ((actions.map fun action => action.action.text).dedup.mergeSort (· ≤ ·)),
    dedupKey item.kernel, item.kernel, item.version, item.status, item.update,
    actions.mergeSort (fun a b => a.profile ≤ b.profile), issues (dedupKey item.kernel)⟩

/-- `scan`. -/
def scan (kernels : List Kernel) (windows : List Window) (outcomes : List ((String × String) × Bool))
    (issues : String → Option ℤ) : Except String (List Finding) := do
  let findings ← kernels.mapM (scanKernel windows outcomes issues)
  return findings.reduceOption

/-- The findings of `build_report`, on the Bodhi document it fetched. -/
def findings (document : Value) (windows : List Window) (outcomes : List ((String × String) × Bool))
    (issues : String → Option ℤ) : Except String (List Finding) := do
  let kernels ← kernelsFromBodhi document
  scan kernels windows outcomes issues

end NpuStack.Ci.KernelWatch
