import Mathlib.Data.String.Basic
import Mathlib.Data.Rat.Defs
import NpuStack.Core.Matching
import NpuStack.Runtime.Package

/-! Diagnostic checks, and everything the inspector asks of the machine as one type of questions.

    A check has an identifier, an outcome and details in key order; a failed one names its reason
    under `error_code`, one of a fixed list. Files, directories, devices and processes may answer
    anything, differently each time. -/

namespace NpuStack.Runtime
open Interaction Text Schema NpuStack.Core

inductive DiagnosticCommand where
  | status | doctor
  deriving DecidableEq, Repr

inductive CheckStatus where
  | pass | warn | fail | blocked
  deriving DecidableEq, Repr

inductive Requirement where
  | required | optional
  deriving DecidableEq, Repr

/-- A value of a check's details. -/
inductive Value where
  | bool (b : Bool)
  | unsigned (n : ℕ)
  | float (q : ℚ)
  | str (s : String)
  | arr (items : List Value)

/-- Details in increasing key order. -/
abbrev Details := List (String × Value)

/-- `BTreeMap::insert`. -/
def Details.insert (key : String) (value : Value) : Details → Details
  | [] => [(key, value)]
  | (k, v) :: rest =>
    if key < k then (key, value) :: (k, v) :: rest
    else if key = k then (key, value) :: rest
    else (k, v) :: Details.insert key value rest

/-- `BTreeMap::extend`. -/
def Details.extend (m : Details) (values : List (String × Value)) : Details :=
  values.foldl (fun m p => m.insert p.1 p.2) m

def details (values : List (String × Value)) : Details := Details.extend [] values

structure DiagnosticCheck where
  id : String
  status : CheckStatus
  summary : String
  details : Details
  requirement : Requirement

/-- A required check. -/
def check (id : String) (status : CheckStatus) (summary : String) (details : Details) :
    DiagnosticCheck := ⟨id, status, summary, details, .required⟩

def failedCheck (id summary errorCode : String) : DiagnosticCheck :=
  check id .fail summary (details [("error_code", .str errorCode)])

/-- The diagnostic codes the documentation lists. -/
def ERROR_CODES : List String :=
  ["PROBE_EXECUTABLE_MISSING", "PROBE_PROCESS_FAILED", "PROBE_TIMEOUT", "PROBE_OUTPUT_TOO_LARGE",
    "PROBE_OUTPUT_INVALID", "PROBE_SCHEMA_UNSUPPORTED", "LEVEL_ZERO_PERMISSION_DENIED",
    "LEVEL_ZERO_DEPENDENCY_UNAVAILABLE", "LEVEL_ZERO_NO_VPU", "LEVEL_ZERO_ENUMERATION_FAILED",
    "LEVEL_ZERO_INTERNAL_FAILURE", "OPENVINO_NO_NPU", "OPENVINO_ENUMERATION_FAILED",
    "OPENVINO_COMPILE_FAILED", "OPENVINO_WRONG_DEVICE", "OPENVINO_INFERENCE_FAILED",
    "OPENVINO_OUTPUT_INVALID", "OPENVINO_INTERNAL_FAILURE", "PACKAGE_NOT_INSTALLED",
    "PACKAGE_VERSION_MISMATCH", "PACKAGE_QUERY_FAILED", "PACKAGE_OUTPUT_INVALID",
    "PACKAGE_OWNERSHIP_MISMATCH", "PACKAGE_FILE_MISSING", "PACKAGE_FILE_INVALID",
    "PACKAGE_FILE_UNREADABLE", "PACKAGE_DIGEST_MISMATCH", "PACKAGE_CONFLICT",
    "PACKAGE_INSPECTOR_UNAVAILABLE", "KERNEL_MODULE_MISSING", "DEVICE_NODE_MISSING",
    "DEVICE_ACCESS_DENIED", "DEVICE_ACCESS_FAILED", "NORMAL_USER_REQUIRED",
    "ACTIVATION_STATE_UNKNOWN", "ACTIVITY_COUNTER_UNAVAILABLE", "ACTIVITY_COUNTER_INVALID",
    "ACTIVITY_COUNTER_DECREASED", "ACTIVITY_NOT_OBSERVED"]

/-! ### Questions -/

inductive FileKind where
  | file | directory | symlink | charDevice | other
  deriving DecidableEq, Repr

structure Metadata where
  kind : FileKind
  len : ℕ
  dev : ℕ
  ino : ℕ
  deriving DecidableEq, Repr

inductive IoErrorKind where
  | notFound | permissionDenied | other
  deriving DecidableEq, Repr

/-- What the inspector asks. A handle is named by the path it was opened at. -/
inductive Question where
  | run (request : ProcessRequest)
  | symlinkMetadata (path : String)
  | readDir (path : String)
  | openRead (path : String)
  | openReadWrite (path : String)
  | handleMetadata (path : String)
  | readToEnd (path : String)
  deriving DecidableEq

/-- A directory entry is an error or a name, which need not be UTF-8. -/
abbrev Answer : Question → Type
  | .run _ => Except ProcessError ProcessOutput
  | .symlinkMetadata _ => Except IoErrorKind Metadata
  | .readDir _ => Except IoErrorKind (List (Except IoErrorKind (Option String)))
  | .openRead _ => Except IoErrorKind Unit
  | .openReadWrite _ => Except IoErrorKind Unit
  | .handleMetadata _ => Except IoErrorKind Metadata
  | .readToEnd _ => Except IoErrorKind Bytes

/-- A failed `expect`. -/
structure Panic where
  message : String
  deriving DecidableEq, Repr

/-- Code that inspects and may only fail by panicking. -/
abbrev Inspection (α : Type) := Prog Answer Panic α

/-- Ask without judging. -/
def ask (q : Question) : Inspection (Answer q) := .query q

/-- `Path::join` of a relative path. -/
def joinPath (base relative : String) : String :=
  if base = "" ∨ endsWith "/" base then base ++ relative else base ++ "/" ++ relative

/-- `accel` and digits. -/
def isAccelName (name : String) : Bool :=
  match stripPrefix "accel" name with
  | some suffix => isDigits suffix
  | none => false

/-! ### What details hold -/

theorem lookup_cons_ne {k k' : String} {v : Value} {m : Details} (h : k ≠ k') :
    ((k', v) :: m).lookup k = m.lookup k := by
  rw [List.lookup_cons, beq_false_of_ne h]

theorem lookup_insert (key k : String) (value : Value) : ∀ m : Details,
    (m.insert key value).lookup k = if k = key then some value else m.lookup k
  | [] => by
    by_cases hk : k = key
    · simp [Details.insert, hk]
    · rw [Details.insert, lookup_cons_ne hk, if_neg hk]
  | (k', v') :: rest => by
    rw [Details.insert]
    split
    · by_cases hk : k = key
      · simp [hk]
      · rw [lookup_cons_ne hk, if_neg hk]
    split
    · next heq =>
      subst heq
      by_cases hk : k = key
      · simp [hk]
      · rw [lookup_cons_ne hk, if_neg hk, lookup_cons_ne hk]
    · next hne =>
      by_cases hk' : k = k'
      · subst hk'
        rw [List.lookup_cons_self, List.lookup_cons_self, if_neg (Ne.symm hne)]
      · rw [lookup_cons_ne hk', lookup_cons_ne hk', lookup_insert key k value rest]

theorem lookup_extend_ne {k : String} : ∀ {values : List (String × Value)} (m : Details),
    k ∉ values.map Prod.fst → (m.extend values).lookup k = m.lookup k
  | [], _, _ => rfl
  | (k', v) :: values, m, h => by
    simp only [List.map_cons, List.mem_cons, not_or] at h
    rw [Details.extend, List.foldl_cons, ← Details.extend, lookup_extend_ne _ h.2, lookup_insert,
      if_neg h.1]

/-- The error code of a check, if it names one, is documented. -/
def Documented (c : DiagnosticCheck) : Prop :=
  ∀ v, c.details.lookup "error_code" = some v → ∃ code ∈ ERROR_CODES, v = .str code

theorem documented_of_details {c : DiagnosticCheck} {code : String} {x : List (String × Value)}
    (hdetails : c.details = Details.extend (Details.insert "error_code" (.str code) []) x)
    (hextra : "error_code" ∉ x.map Prod.fst) (hcode : code ∈ ERROR_CODES) : Documented c := by
  intro v hv
  rw [hdetails, lookup_extend_ne _ hextra, lookup_insert, if_pos rfl] at hv
  exact ⟨code, hcode, (Option.some.inj hv).symm⟩

theorem documented_failedCheck {id summary code : String} (hcode : code ∈ ERROR_CODES) :
    Documented (failedCheck id summary code) :=
  documented_of_details (x := []) rfl (by simp) hcode

/-- A check whose details name no error code. -/
theorem documented_of_absent {c : DiagnosticCheck} {x : List (String × Value)}
    (hdetails : c.details = details x) (habsent : "error_code" ∉ x.map Prod.fst) :
    Documented c := by
  intro v hv
  rw [hdetails, details, lookup_extend_ne _ habsent] at hv
  cases hv

end NpuStack.Runtime
