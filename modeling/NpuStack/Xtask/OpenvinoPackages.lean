import Mathlib.Data.List.Sort
import NpuStack.Runtime.Process
import NpuStack.Schemes.Gather
import NpuStack.Schemes.Interaction
import NpuStack.Schemes.JsonText
import NpuStack.Schemes.Keyed
import NpuStack.Schemes.PosixPath

/-! Inspection of the Fedora OpenVINO and NPU compiler packages before they are installed.

        ten RPMs ──rpm -qp──▶ packages by name ──▶ versions ──▶ relations ──▶ owners of paths
                                                                                 │
             payload ──digest of the header──▶ readelf ──SONAME, NEEDED──▶ closed set of libraries

    An accepted set is complete, of one version, owns no spelled path twice as a file, and needs no
    `libopenvino` library that none of its inspected libraries is named by (`validate_accepted`). A
    plugin is loaded by its file name and may have no SONAME. -/

namespace NpuStack.Xtask.OpenvinoPackages
open Interaction Text NpuStack.Runtime
open PosixPath (names isAbsolute)
open Serde.Json (isPlainChar)

def RPM : String := "/usr/bin/rpm"
def READELF : String := "/usr/bin/readelf"
def OUTPUT_LIMIT : ℕ := 8388608
def STDERR_LIMIT : ℕ := 65536
def MAX_RPM_BYTES : ℕ := 4294967296
def MAX_ELF_BYTES : ℕ := 2147483648

def FRONTENDS : List String :=
  ["libopenvino-ir-frontend", "libopenvino-onnx-frontend", "libopenvino-paddle-frontend",
    "libopenvino-pytorch-frontend", "libopenvino-tensorflow-frontend", "libopenvino-tensorflow-lite-frontend"]

def REQUIRED_PACKAGES : List String :=
  "intel-npu-compiler" :: FRONTENDS ++ ["openvino", "openvino-devel", "openvino-plugins"]

/-- A library the set must contain. -/
structure RequiredElf where
  owner : String
  path : String
  soname : String
  sonameRequired : Bool
  deriving DecidableEq, Repr

/-- Plugins and the compiler are loaded by name; runtime and loader are linked. -/
def REQUIRED_ELFS : List RequiredElf :=
  [⟨"openvino", "/usr/lib64/libopenvino.so.2026.2.1", "libopenvino.so.2621", true⟩,
   ⟨"openvino-plugins", "/usr/lib64/openvino-2026.2.1/libopenvino_intel_cpu_plugin.so",
     "libopenvino_intel_cpu_plugin.so", false⟩,
   ⟨"openvino-plugins", "/usr/lib64/openvino-2026.2.1/libopenvino_intel_gpu_plugin.so",
     "libopenvino_intel_gpu_plugin.so", false⟩,
   ⟨"openvino-plugins", "/usr/lib64/openvino-2026.2.1/libopenvino_intel_npu_plugin.so",
     "libopenvino_intel_npu_plugin.so", false⟩,
   ⟨"intel-npu-compiler", "/usr/lib64/openvino-2026.2.1/libopenvino_intel_npu_compiler.so",
     "libopenvino_intel_npu_compiler.so", false⟩,
   ⟨"intel-npu-compiler", "/usr/lib64/openvino-2026.2.1/libopenvino_intel_npu_compiler_loader.so",
     "libopenvino_intel_npu_compiler_loader.so", true⟩]

/-- Explicit candidate RPMs and their already extracted, unprivileged payload root. -/
structure FedoraOpenvinoPackageSet where
  packages : List String
  payloadRoot : String

/-- Exact version bindings expected for one Fedora OpenVINO/NPU compiler build. -/
structure OpenvinoPackagePolicy where
  openvinoNevr : String
  driverRequirement : String

structure FedoraOpenvinoPackageError where
  code : String
  message : String
  deriving DecidableEq, Repr

abbrev Checked (α : Type) := Except FedoraOpenvinoPackageError α

structure Relation where
  name : String
  operator : String
  version : Option String
  deriving DecidableEq, Repr

structure RpmFile where
  path : String
  mode : ℕ
  digest : String
  flags : String
  deriving DecidableEq, Repr

structure Package where
  name : String
  nevr : String
  architecture : String
  requires : List Relation
  files : List RpmFile
  deriving DecidableEq, Repr

structure ElfMetadata where
  soname : Option String
  needed : List String
  deriving DecidableEq, Repr

def packageSetInvalid : FedoraOpenvinoPackageError :=
  ⟨"FEDORA_OPENVINO_PACKAGE_SET_INVALID", "candidate must contain each exact OpenVINO RPM once"⟩

def queryMalformed : FedoraOpenvinoPackageError :=
  ⟨"FEDORA_OPENVINO_QUERY_MALFORMED", "RPM query returned malformed metadata"⟩

def elfInvalid : FedoraOpenvinoPackageError := ⟨"FEDORA_OPENVINO_ELF_INVALID",
  "OpenVINO ELF payload, digest, architecture, or dynamic metadata is invalid"⟩

/-! ### The host -/

inductive FileKind where
  | symlink | directory | regular | other
  deriving DecidableEq, Repr

structure Metadata where
  kind : FileKind
  len : ℕ

/-- What the file system and the tools answer. -/
structure Host where
  symlinkMetadata : String → Option Metadata
  canonicalize : String → Option String
  read : String → Option Bytes
  run : ProcessRequest → Option ProcessOutput

/-! ### Texts -/

def safeScalar (value : String) : Bool := value ≠ "" && len value ≤ 4096 && !value.toList.any isControl

def isLowerHexOf (value : String) (length : ℕ) : Bool := len value = length && all isLowerHex value

/-- `s.contains(needle)`. -/
def containsText (needle s : String) : Bool := s.toList.tails.any fun rest => needle.toList.isPrefixOf rest

/-- `s.split_whitespace()`. -/
def words (s : String) : List String :=
  ((s.toList.splitOnP isWhitespace).filter fun word => !word.isEmpty).map String.ofList

def decode (bytes : Bytes) (e : FedoraOpenvinoPackageError) : Checked String := need (fromUtf8 bytes) e

/-- `serde_json::from_str::<String>`. -/
def readJsonString (value : String) : Option String :=
  match Serde.Json.skip value.toList with
  | '"' :: cs => do
    let (text, rest) ← Serde.Json.stringBody cs
    if Serde.Json.skip rest = [] then some (String.ofList text) else none
  | _ => none

def jsonString (value : String) : Checked String := need (readJsonString value) queryMalformed

def jsonOptionalString (value : String) : Checked (Option String) :=
  if value = "(none)" then return none
  else
    match Serde.Json.skip value.toList with
    | 'n' :: 'u' :: 'l' :: 'l' :: cs => do
      require (Serde.Json.skip cs = []) queryMalformed
      return none
    | _ => do
      let text ← jsonString value
      return if text = "" then none else some text

/-- `u32::from_str_radix(digits, 8)`, with an optional sign in front. -/
def parseOctal (digits : String) : Option ℕ :=
  let digits := (stripPrefix "+" digits).getD digits
  let value := digits.toList.foldl (fun n c => 8 * n + (c.toNat - '0'.toNat)) 0
  if digits ≠ "" ∧ all (fun c => '0' ≤ c && c ≤ '7') digits = true ∧ value < 2 ^ 32 then some value else none

/-- The permission bits of a file, printed in octal. -/
def parseMode (mode : String) : Option ℕ :=
  let digits := String.ofList (mode.toList.dropWhile (· = '0'))
  parseOctal (if digits = "" then "0" else digits)

/-! ### Package headers -/

/-- The answer to the identity query: name, NEVR and architecture. -/
def readIdentity (text : String) : Checked (String × String × String) :=
  match lines text with
  | [name, epoch, version, release, architecture, algorithm] => do
    let name ← jsonString name
    let version ← jsonString version
    let release ← jsonString release
    let architecture ← jsonString architecture
    refuse (all Char.isDigit epoch = false ∨ algorithm ≠ "SHA256") queryMalformed
    return (name, epoch ++ ":" ++ version ++ "-" ++ release, architecture)
  | _ => .error queryMalformed

def readRelation (line : String) : Checked Relation :=
  match split '\t' line with
  | [name, operator, version] => do
    let name ← jsonString name
    let version ← jsonOptionalString version
    return ⟨name, operator, version⟩
  | _ => .error queryMalformed

def readFile (line : String) : Checked RpmFile :=
  match split '\t' line with
  | path :: mode :: digest :: flags :: rest => do
    let path ← jsonString path
    let mode ← need (parseMode mode) queryMalformed
    let digest ← jsonString digest
    refuse (startsWith "/" path = false ∨ path.toList.any isControl = true ∨
      (digest ≠ "" ∧ isLowerHexOf digest 64 = false)) queryMalformed
    return ⟨path, mode, digest, join '\t' (flags :: rest)⟩
  | _ => .error queryMalformed

section
variable (host : Host)

/-- `run_process`: the output of a run that ended well within its limits. -/
def runProcess (executable : String) (args : List String) (timeout : ℕ) : Option Bytes := do
  let output ← host.run ⟨executable, args, timeout, OUTPUT_LIMIT, STDERR_LIMIT, []⟩
  if output.clean then some output.stdout else none

def rpmQuery (path : String) (options : List String) : Checked Bytes :=
  need (runProcess host RPM (["--noplugins", "-qp"] ++ options ++ [path]) 10)
    ⟨"FEDORA_OPENVINO_QUERY_FAILED", "bounded RPM query failed"⟩

def IDENTITY_FORMAT : String :=
  "%\x7bNAME:json\x7d\n%\x7bEPOCHNUM\x7d\n%\x7bVERSION:json\x7d\n%\x7bRELEASE:json\x7d\n" ++
  "%\x7bARCH:json\x7d\n%\x7bFILEDIGESTALGO:hashalgo\x7d\n"

def RELATIONS_FORMAT : String :=
  "[%\x7bREQUIRENAME:json\x7d\t%\x7bREQUIREFLAGS:depflags\x7d\t%\x7bREQUIREVERSION:json\x7d\n]"

def FILES_FORMAT : String :=
  "[%\x7bFILENAMES:json\x7d\t%\x7bFILEMODES:octal\x7d\t%\x7bFILEDIGESTS:json\x7d\t" ++
  "%\x7bFILEFLAGS:fflags\x7d\n]"

def queryRelations (path : String) : Checked (List Relation) := do
  let output ← rpmQuery host path ["--queryformat", RELATIONS_FORMAT]
  let text ← decode output queryMalformed
  (lines text).mapM readRelation

def queryFiles (path : String) : Checked (List RpmFile) := do
  let output ← rpmQuery host path ["--queryformat", FILES_FORMAT]
  let text ← decode output queryMalformed
  (lines text).mapM readFile

def queryPackage (path : String) : Checked Package := do
  let output ← rpmQuery host path ["--queryformat", IDENTITY_FORMAT]
  let text ← decode output queryMalformed
  let (name, nevr, architecture) ← readIdentity text
  let requires ← queryRelations host path
  let files ← queryFiles host path
  return ⟨name, nevr, architecture, requires, files⟩

def rejectScripts (path : String) : Checked Unit :=
  forM ["--scripts", "--triggers", "--filetriggers"] fun option => do
    let output ← rpmQuery host path [option]
    refuse (output ≠ []) ⟨"FEDORA_OPENVINO_SCRIPT_INVALID",
      "OpenVINO provider RPMs must not contain scripts or triggers"⟩

def requireRpm (path : String) : Checked String := do
  let metadata ← need (host.symlinkMetadata path) packageSetInvalid
  refuse (isAbsolute path = false ∨ metadata.kind = .symlink ∨ metadata.kind ≠ .regular ∨ metadata.len = 0 ∨
    metadata.len > MAX_RPM_BYTES) packageSetInvalid
  need (host.canonicalize path) packageSetInvalid

/-- The packages by name, and the files they came from. -/
structure Collected where
  packages : List Package
  canonicalRpms : List String

/-- One candidate; the packages are kept in the order of their names. -/
def collect (collected : Collected) (path : String) : Checked Collected := do
  let path ← requireRpm host path
  refuse (path ∈ collected.canonicalRpms) packageSetInvalid
  let package ← queryPackage host path
  refuse (package.name ∈ collected.packages.map Package.name) packageSetInvalid
  rejectScripts host path
  return ⟨collected.packages.orderedInsert (fun p q => p.name ≤ q.name) package,
    path :: collected.canonicalRpms⟩

end

/-! ### Relations and owners -/

/-- `packages[name]`. -/
def indexed (packages : List Package) (name : String) : Checked Package :=
  need (packages.find? fun package => package.name = name) ⟨"PANIC", "no package of this name"⟩

def requireRelation (relations : List Relation) (expected : String) : Checked Unit :=
  require (relations.any (fun relation => relation.version.any fun version =>
      relation.name ++ " " ++ relation.operator ++ " " ++ version = expected) = true)
    ⟨"FEDORA_OPENVINO_DEPENDENCY_INVALID", "OpenVINO package closure lacks an exact required dependency"⟩

def policyInvalid (message : String) : FedoraOpenvinoPackageError :=
  ⟨"FEDORA_OPENVINO_POLICY_INVALID", message⟩

def validatePolicy (policy : OpenvinoPackagePolicy) : Checked Unit :=
  refuse (safeScalar policy.openvinoNevr = false ∨ startsWith "0:" policy.openvinoNevr = false ∨
      safeScalar policy.driverRequirement = false)
    (policyInvalid "OpenVINO package policy contains an invalid identity")

def validateRelations (packages : List Package) (policy : OpenvinoPackagePolicy) : Checked Unit := do
  let versionRelease ← need (stripPrefix "0:" policy.openvinoNevr)
    (policyInvalid "OpenVINO NEVR must use an explicit zero epoch")
  forM (REQUIRED_PACKAGES.filter (· ≠ "openvino")) fun dependent => do
    let package ← indexed packages dependent
    requireRelation package.requires ("openvino(x86-64) = " ++ versionRelease)
  forM FRONTENDS fun frontend => do
    let package ← indexed packages "openvino"
    requireRelation package.requires (frontend ++ "(x86-64) = " ++ versionRelease)
  let plugins ← indexed packages "openvino-plugins"
  requireRelation plugins.requires ("intel-npu-compiler(x86-64) = " ++ versionRelease)
  let compiler ← indexed packages "intel-npu-compiler"
  requireRelation compiler.requires policy.driverRequirement

/-- `mode & 0o170000 == 0o040000`. -/
def RpmFile.isDirectory (file : RpmFile) : Bool := file.mode &&& 0o170000 = 0o040000

/-- One file, after the paths that are owned already. -/
def ownFile (owned : List String) (file : RpmFile) : Checked (List String) := do
  refuse (startsWith "/usr/" file.path = false ∨ startsWith "/opt/" file.path = true ∨
      containsText "//" file.path = true ∨ ".." ∈ names file.path)
    ⟨"FEDORA_OPENVINO_FILE_INVALID", "OpenVINO RPM owns a path outside the Fedora prefix"⟩
  if file.isDirectory then return owned
  refuse (file.path ∈ owned)
    ⟨"FEDORA_OPENVINO_FILE_OVERLAP", "OpenVINO subpackages own a duplicate non-directory path"⟩
  return file.path :: owned

def validateOwnership (packages : List Package) : Checked Unit := do
  let _ ← (packages.flatMap Package.files).foldlM ownFile []
  let openvino ← indexed packages "openvino"
  require (openvino.files.any (fun file =>
      file.path = "/usr/share/licenses/openvino/LICENSE" && contains 'l' file.flags) = true)
    ⟨"FEDORA_OPENVINO_LICENSE_INVALID", "OpenVINO runtime RPM lacks its packaged license"⟩

/-! ### Libraries -/

def dynamicValue (line : String) : Checked String := do
  let (_, rest) ← need (splitOnce '[' line) elfInvalid
  let (value, _) ← need (splitOnce ']' rest) elfInvalid
  refuse (safeScalar value = false ∨ contains '/' value = true) elfInvalid
  return value

def dynamicValues (dynamic marker : String) : Checked (List String) :=
  ((lines dynamic).filter (containsText marker)).mapM dynamicValue

def checkHeader (header : String) : Checked Unit := do
  refuse (containsText "Class:                             ELF64" header = false ∨
    containsText "Machine:                           Advanced Micro Devices X86-64" header = false) elfInvalid
  require ((lines header).any (fun line =>
    (stripPrefix "Type:" (String.ofList (line.toList.dropWhile isWhitespace))).any fun value =>
      (words value).head? = some "DYN") = true) elfInvalid

def checkDynamic (dynamic : String) : Checked Unit :=
  refuse (containsText "(RPATH)" dynamic = true ∨ containsText "(RUNPATH)" dynamic = true ∨
    (lines dynamic).any (fun line => containsText "(FLAGS_1)" line && (words line).contains "PIE") = true)
    elfInvalid

section
variable (host : Host)

def runReadelf (path : String) (options : List String) : Checked String := do
  let output ← need (runProcess host READELF (options ++ [path]) 15) elfInvalid
  decode output elfInvalid

def queryElf (path : String) : Checked ElfMetadata := do
  let header ← runReadelf host path ["--file-header"]
  checkHeader header
  let dynamic ← runReadelf host path ["--dynamic"]
  checkDynamic dynamic
  let sections ← runReadelf host path ["--section-headers"]
  if containsText ".comment" sections then do
    let comment ← runReadelf host path ["--string-dump=.comment"]
    refuse (containsText "ubuntu" (asciiLowercase comment) = true) elfInvalid
  let sonames ← dynamicValues dynamic "(SONAME)"
  refuse (sonames.length > 1) elfInvalid
  let needed ← dynamicValues dynamic "(NEEDED)"
  return ⟨sonames.head?, needed⟩

def requirePayloadRoot (path : String) : Checked String := do
  let metadata ← need (host.symlinkMetadata path) elfInvalid
  refuse (isAbsolute path = false ∨ metadata.kind = .symlink ∨ metadata.kind ≠ .directory) elfInvalid
  need (host.canonicalize path) elfInvalid

/-- `root.join(relative)`. -/
def joinPath (root relative : String) : String :=
  if endsWith "/" root then root ++ relative else root ++ "/" ++ relative

def requirePayloadFile (root rpmPath : String) : Checked String := do
  let relative ← need (stripPrefix "/" rpmPath) elfInvalid
  let path := joinPath root relative
  let metadata ← need (host.symlinkMetadata path) elfInvalid
  refuse (metadata.kind = .symlink ∨ metadata.kind ≠ .regular ∨ metadata.len = 0 ∨
    metadata.len > MAX_ELF_BYTES) elfInvalid
  let canonical ← need (host.canonicalize path) elfInvalid
  refuse ((names root).isPrefixOf (names canonical) = false) elfInvalid
  return canonical

variable (sha256 : Bytes → String)

/-- One required library: its digest is the header's, and it has its SONAME or needs none. -/
def validateElf (packages : List Package) (root : String) (required : RequiredElf) : Checked ElfMetadata := do
  let package ← indexed packages required.owner
  let file ← need (package.files.find? fun file => file.path = required.path) elfInvalid
  refuse (file.digest = "") elfInvalid
  let payload ← requirePayloadFile host root required.path
  let bytes ← need (host.read payload) elfInvalid
  refuse (sha256 bytes ≠ file.digest) elfInvalid
  let elf ← queryElf host payload
  require (elf.soname = some required.soname ∨ (elf.soname = none ∧ required.sonameRequired = false))
    elfInvalid
  return elf

def validateElfPayloads (packages : List Package) (root : String) : Checked Unit := do
  let metadata ← REQUIRED_ELFS.mapM (validateElf host sha256 packages root)
  let candidateSonames := metadata.filterMap ElfMetadata.soname
  refuse (∃ elf ∈ metadata, ∃ needed ∈ elf.needed,
      startsWith "libopenvino" needed = true ∧ needed ∉ candidateSonames)
    ⟨"FEDORA_OPENVINO_ELF_CLOSURE_INVALID", "OpenVINO ELF has an unresolved candidate-library dependency"⟩

/-- `validate_fedora_openvino_packages`. -/
def validate (candidate : FedoraOpenvinoPackageSet) (policy : OpenvinoPackagePolicy) : Checked Unit := do
  validatePolicy policy
  let root ← requirePayloadRoot host candidate.payloadRoot
  refuse (candidate.packages.length ≠ REQUIRED_PACKAGES.length) packageSetInvalid
  let collected ← candidate.packages.foldlM (collect host) ⟨[], []⟩
  let packages := collected.packages
  refuse (packages.map Package.name ≠ REQUIRED_PACKAGES) packageSetInvalid
  refuse (∃ package ∈ packages, package.nevr ≠ policy.openvinoNevr ∨ package.architecture ≠ "x86_64")
    ⟨"FEDORA_OPENVINO_IDENTITY_INVALID", "OpenVINO RPM identity, NEVR, or architecture is invalid"⟩
  validateRelations packages policy
  validateOwnership packages
  validateElfPayloads host sha256 packages root

end

/-! ### What is accepted -/

/-- One candidate on its own: the file it is, and the package it holds. -/
def inspectRpm (host : Host) (path : String) : Checked (String × Package) := do
  let canonical ← requireRpm host path
  let package ← queryPackage host canonical
  rejectScripts host canonical
  return (canonical, package)

/-- The file holds the package. -/
def Queried (host : Host) (path : String) (package : Package) : Prop :=
  ∃ canonical, inspectRpm host path = .ok (canonical, package)

/-- Two candidates are of different files and different packages. -/
def Apart (c d : String × Package) : Prop := c.1 ≠ d.1 ∧ c.2.name ≠ d.2.name

/-- The loop has collected what it has found, the packages in the order of their names. -/
def Collects (collected : Collected) (found : List (String × Package)) : Prop :=
  (collected.packages.Perm (found.map Prod.snd) ∧ collected.packages.Pairwise (·.name ≤ ·.name)) ∧
    collected.canonicalRpms.Perm (found.map Prod.fst)

theorem collects_nil : Collects ⟨[], []⟩ [] := ⟨⟨.refl _, .nil⟩, .refl _⟩

/-- The files of a set of packages that are not directories, by the paths the packages spell. -/
def filePaths (packages : List Package) : List String :=
  ((packages.flatMap Package.files).filter fun file => !file.isDirectory).map RpmFile.path

section
variable (host : Host) (sha256 : Bytes → String) (root : String)

/-- The library found under the payload root is the file of its owner that the header digests. -/
def Bound (packages : List Package) (required : RequiredElf) (elf : ElfMetadata) : Prop :=
  ∃ package ∈ packages, ∃ file ∈ package.files, ∃ payload bytes,
    package.name = required.owner ∧ file.path = required.path ∧
      requirePayloadFile host root required.path = .ok payload ∧ host.read payload = some bytes ∧
      sha256 bytes = file.digest ∧ queryElf host payload = .ok elf

/-- The packages a candidate set holds, in the order given, and its required libraries. -/
structure Inspected (candidate : FedoraOpenvinoPackageSet) (policy : OpenvinoPackagePolicy)
    (packages : List Package) (libraries : List ElfMetadata) : Prop where
  queried : List.Forall₂ (Queried host) candidate.packages packages
  complete : (packages.map Package.name).Perm REQUIRED_PACKAGES
  versions : ∀ package ∈ packages, package.nevr = policy.openvinoNevr
  bound : ∃ root, requirePayloadRoot host candidate.payloadRoot = .ok root ∧
    List.Forall₂ (Bound host sha256 root packages) REQUIRED_ELFS libraries
  closed : ∀ elf ∈ libraries, ∀ needed ∈ elf.needed, startsWith "libopenvino" needed = true →
    ∃ library ∈ libraries, library.soname = some needed

end

/-- A library has its SONAME; one that is loaded by its file name may have none. -/
def Named (required : RequiredElf) (elf : ElfMetadata) : Prop :=
  elf.soname = some required.soname ∨ (elf.soname = none ∧ required.sonameRequired = false)

section
variable {host : Host} {sha256 : Bytes → String} {root : String} {candidate : FedoraOpenvinoPackageSet}
  {policy : OpenvinoPackagePolicy} {packages : List Package} {libraries : List ElfMetadata}

/-- The loop over the candidates reads each on its own and refuses a file or a package it has. -/
theorem collect_steps : Gather.Steps (collect host) (inspectRpm host) Apart Collects where
  ok := by
    rintro collected found path collected' ⟨⟨hperm, hsorted⟩, hrpms⟩ h
    rw [collect, except_bind_ok] at h
    obtain ⟨canonical, hcanonical, h⟩ := h
    rw [except_bind_ok] at h
    obtain ⟨_, hnew, h⟩ := h
    rw [except_bind_ok] at h
    obtain ⟨package, hpackage, h⟩ := h
    rw [except_bind_ok] at h
    obtain ⟨_, hname, h⟩ := h
    rw [except_bind_ok] at h
    obtain ⟨_, hscripts, h⟩ := h
    cases h
    rw [refuse_ok] at hnew hname
    refine ⟨(canonical, package), ?_, ?_, ⟨?_, ?_⟩, ?_⟩
    · rw [inspectRpm, hcanonical, except_ok_bind, hpackage, except_ok_bind, hscripts]
      rfl
    · intro c hc
      constructor
      · intro heq
        exact hnew (hrpms.mem_iff.mpr (List.mem_map.mpr ⟨c, hc, heq⟩))
      · intro heq
        have hmem : c.2 ∈ collected.packages := hperm.mem_iff.mpr (List.mem_map_of_mem hc)
        exact hname (List.mem_map.mpr ⟨c.2, hmem, heq⟩)
    · rw [List.map_append]
      exact (List.perm_orderedInsert _ _ _).trans
        ((hperm.cons package).trans (List.perm_append_singleton _ _).symm)
    · exact hsorted.orderedInsert _ _
    · rw [List.map_append]
      exact (hrpms.cons canonical).trans (List.perm_append_singleton _ _).symm
  total := by
    rintro collected found path ⟨canonical, package⟩ ⟨⟨hperm, hsorted⟩, hrpms⟩ h hfits
    rw [inspectRpm, except_bind_ok] at h
    obtain ⟨canonical', hcanonical, h⟩ := h
    rw [except_bind_ok] at h
    obtain ⟨package', hpackage, h⟩ := h
    rw [except_bind_ok] at h
    obtain ⟨u, hscripts, h⟩ := h
    cases h
    have hnew : canonical ∉ collected.canonicalRpms := by
      intro hmem
      obtain ⟨c, hc, heq⟩ := List.mem_map.mp (hrpms.mem_iff.mp hmem)
      exact (hfits c hc).1 heq
    have hname : package.name ∉ collected.packages.map Package.name := by
      intro hmem
      obtain ⟨p, hp, heq⟩ := List.mem_map.mp hmem
      obtain ⟨c, hc, rfl⟩ := List.mem_map.mp (hperm.mem_iff.mp hp)
      exact (hfits c hc).2 heq
    have hkept : collect host collected path = .ok
        ⟨collected.packages.orderedInsert (fun p q => p.name ≤ q.name) package,
          canonical :: collected.canonicalRpms⟩ := by
      rw [collect, hcanonical, except_ok_bind, (refuse_ok (u := ⟨⟩)).mpr hnew, except_ok_bind, hpackage,
        except_ok_bind, (refuse_ok (u := ⟨⟩)).mpr hname, except_ok_bind, hscripts]
      rfl
    exact ⟨_, hkept⟩

/-- The paths owned are those of the files found that are not directories. -/
def Owns (owned : List String) (found : List RpmFile) : Prop :=
  owned.Perm ((found.filter fun file => !file.isDirectory).map RpmFile.path)

theorem owns_nil : Owns [] [] := .refl _

/-- The loop over the files keeps each path of a file once. -/
theorem ownFile_steps : Gather.Steps ownFile (fun file => ownFile [] file >>= fun _ => pure file)
    (fun f g => f.isDirectory = false → g.isDirectory = false → f.path ≠ g.path) Owns where
  ok := by
    rintro owned found file owned' hperm h
    rw [ownFile, except_bind_ok] at h
    obtain ⟨_, hplace, h⟩ := h
    have hread : (ownFile [] file >>= fun _ => (pure file : Checked RpmFile)) = .ok file := by
      rw [ownFile, hplace]
      split
      · rfl
      · rfl
    refine ⟨file, hread, ?_⟩
    by_cases hdir : file.isDirectory = true
    · rw [if_pos hdir] at h
      cases h
      refine ⟨fun f _ _ hfile => absurd hdir (by simp [hfile]), ?_⟩
      simpa [Owns, List.filter_append, hdir] using hperm
    · rw [if_neg hdir, except_bind_ok] at h
      obtain ⟨_, hnew, h⟩ := h
      rw [refuse_ok] at hnew
      cases h
      refine ⟨fun f hf hkept _ heq => ?_, ?_⟩
      · have hmem : f ∈ found.filter fun file => !file.isDirectory := by simpa [hkept] using hf
        exact hnew (heq ▸ hperm.mem_iff.mpr (List.mem_map_of_mem hmem))
      · have happ : (found ++ [file]).filter (fun file => !file.isDirectory) =
            (found.filter fun file => !file.isDirectory) ++ [file] := by simp [List.filter_append, hdir]
        rw [Owns, happ, List.map_append]
        exact (hperm.cons file.path).trans (List.perm_append_singleton _ _).symm
  total := by
    rintro owned found file file' hperm h hfits
    rw [except_bind_ok] at h
    obtain ⟨rest, hown, h⟩ := h
    cases h
    rw [ownFile, except_bind_ok] at hown
    obtain ⟨_, hplace, -⟩ := hown
    rw [ownFile, hplace, except_ok_bind]
    by_cases hdir : file.isDirectory = true
    · exact ⟨owned, if_pos hdir⟩
    · have hnew : file.path ∉ owned := by
        intro hmem
        obtain ⟨f, hf, heq⟩ := List.mem_map.mp (hperm.mem_iff.mp hmem)
        obtain ⟨hf, hkept⟩ := List.mem_filter.mp hf
        exact hfits f hf (by simpa using hkept) (by simpa using hdir) heq
      rw [if_neg hdir, (refuse_ok (u := ⟨⟩)).mpr hnew]
      exact ⟨_, rfl⟩

theorem indexed_ok {name : String} {package : Package} (h : indexed packages name = .ok package) :
    package ∈ packages ∧ package.name = name := by
  rw [indexed, need_ok] at h
  exact ⟨List.mem_of_find?_eq_some h, by simpa using List.find?_some h⟩

/-- A required library that passes is its owner's file and is named as it should be. -/
theorem validateElf_ok {required : RequiredElf} {elf : ElfMetadata}
    (h : validateElf host sha256 packages root required = .ok elf) :
    Bound host sha256 root packages required elf ∧ Named required elf := by
  rw [validateElf, except_bind_ok] at h
  obtain ⟨package, hpackage, h⟩ := h
  rw [except_bind_ok] at h
  obtain ⟨file, hfile, h⟩ := h
  rw [except_bind_ok] at h
  obtain ⟨_, -, h⟩ := h
  rw [except_bind_ok] at h
  obtain ⟨payload, hpayload, h⟩ := h
  rw [except_bind_ok] at h
  obtain ⟨bytes, hbytes, h⟩ := h
  rw [except_bind_ok] at h
  obtain ⟨_, hdigest, h⟩ := h
  rw [except_bind_ok] at h
  obtain ⟨elf', helf, h⟩ := h
  rw [except_bind_ok] at h
  obtain ⟨_, hnamed, h⟩ := h
  cases h
  rw [need_ok] at hfile hbytes
  rw [refuse_ok, not_not] at hdigest
  rw [require_ok] at hnamed
  obtain ⟨howned, hname⟩ := indexed_ok hpackage
  exact ⟨⟨package, howned, file, List.mem_of_find?_eq_some hfile, payload, bytes, hname,
    by simpa using List.find?_some hfile, hpayload, hbytes, hdigest, helf⟩, hnamed⟩

theorem validateElfPayloads_ok (h : validateElfPayloads host sha256 packages root = .ok ()) :
    ∃ libraries, List.Forall₂ (Bound host sha256 root packages) REQUIRED_ELFS libraries ∧
      List.Forall₂ Named REQUIRED_ELFS libraries ∧
      ∀ elf ∈ libraries, ∀ needed ∈ elf.needed, startsWith "libopenvino" needed = true →
        ∃ library ∈ libraries, library.soname = some needed := by
  rw [validateElfPayloads, except_bind_ok] at h
  obtain ⟨libraries, hlibraries, h⟩ := h
  rw [except_mapM_ok] at hlibraries
  rw [refuse_ok] at h
  refine ⟨libraries, hlibraries.imp fun _ _ helf => (validateElf_ok helf).1,
    hlibraries.imp fun _ _ helf => (validateElf_ok helf).2, ?_⟩
  intro elf helf needed hneeded hours
  by_contra hopen
  refine h ⟨elf, helf, needed, hneeded, hours, fun hmem => hopen ?_⟩
  exact List.mem_filterMap.mp hmem

theorem validateOwnership_ok (h : validateOwnership packages = .ok ()) : (filePaths packages).Nodup := by
  rw [validateOwnership, except_bind_ok] at h
  obtain ⟨owned, howned, -⟩ := h
  obtain ⟨found, hfound, hpair, -⟩ := Gather.foldlM_ok ownFile_steps owns_nil .nil howned
  have hsame : packages.flatMap Package.files = found := by
    refine List.forall₂_eq_eq_eq ▸ hfound.imp fun file file' hread => ?_
    rw [except_bind_ok] at hread
    obtain ⟨_, -, hread⟩ := hread
    cases hread
    rfl
  rw [List.nil_append, ← hsame] at hpair
  rw [filePaths, List.Nodup, List.pairwise_map, List.pairwise_filter]
  exact hpair.imp fun hne hf hg => hne (by simpa using hf) (by simpa using hg)

/-- An accepted set is complete, of one version, owns no path twice, and is closed. -/
theorem validate_accepted (h : validate host sha256 candidate policy = .ok ()) :
    ∃ packages libraries, Inspected host sha256 candidate policy packages libraries ∧
      (filePaths packages).Nodup ∧ List.Forall₂ Named REQUIRED_ELFS libraries := by
  rw [validate, except_bind_ok] at h
  obtain ⟨_, -, h⟩ := h
  rw [except_bind_ok] at h
  obtain ⟨root, hroot, h⟩ := h
  rw [except_bind_ok] at h
  obtain ⟨_, -, h⟩ := h
  rw [except_bind_ok] at h
  obtain ⟨collected, hcollected, h⟩ := h
  rw [except_bind_ok] at h
  obtain ⟨_, hnames, h⟩ := h
  rw [except_bind_ok] at h
  obtain ⟨_, hversions, h⟩ := h
  rw [except_bind_ok] at h
  obtain ⟨_, -, h⟩ := h
  rw [except_bind_ok] at h
  obtain ⟨_, howned, h⟩ := h
  rw [refuse_ok, not_not] at hnames
  rw [refuse_ok] at hversions
  obtain ⟨found, hfound, -, ⟨hperm, -⟩, -⟩ :=
    Gather.foldlM_ok collect_steps collects_nil .nil hcollected
  rw [List.nil_append] at hperm
  obtain ⟨libraries, hbound, hnamed, hclosed⟩ := validateElfPayloads_ok h
  refine ⟨found.map Prod.snd, libraries, ⟨?_, ?_, ?_, ⟨root, hroot, ?_⟩, hclosed⟩, ?_, hnamed⟩
  · rw [List.forall₂_map_right_iff]
    exact hfound.imp fun path c hc => ⟨c.1, hc⟩
  · exact hnames ▸ (hperm.map Package.name).symm
  · intro package hpackage
    by_contra hne
    exact hversions ⟨package, hperm.mem_iff.mpr hpackage, .inl hne⟩
  · refine hbound.imp fun required elf => ?_
    rintro ⟨package, hpackage, hfile⟩
    exact ⟨package, hperm.mem_iff.mp hpackage, hfile⟩
  · have hpaths : (filePaths collected.packages).Perm (filePaths (found.map Prod.snd)) :=
      ((hperm.flatMap_right Package.files).filter _).map _
    exact hpaths.nodup_iff.mp (validateOwnership_ok howned)

end

/-! ### Answers read back -/

theorem containsText_iff {needle s : String} :
    containsText needle s = true ↔ needle.toList <:+: s.toList := by
  simp only [containsText, List.any_eq_true, List.mem_tails, List.isPrefixOf_iff_prefix,
    List.infix_iff_prefix_suffix, and_comm]

/-- A text lacks what needs a character it has not. -/
theorem containsText_eq_false {needle s : String} {c : Char} (hc : c ∈ needle.toList) (h : c ∉ s.toList) :
    containsText needle s = false := by
  rw [Bool.eq_false_iff, Ne, containsText_iff]
  exact fun hpart => h (hpart.subset hc)

/-- A text has what one of its lines has. -/
theorem containsText_unlines {needle l : String} {ls : List String} (hl : l ∈ ls)
    (h : containsText needle l = true) : containsText needle (unlines ls) = true := by
  rw [containsText_iff] at h ⊢
  induction ls with
  | nil => cases hl
  | cons l' ls ih =>
    rw [unlines, String.toList_append, String.toList_append]
    rcases List.mem_cons.mp hl with rfl | hl
    · exact h.trans ((List.prefix_append _ _).trans (List.prefix_append _ _)).isInfix
    · exact (ih hl).trans (List.suffix_append _ _).isInfix

/-- The name in brackets at the end of a line is its value. -/
theorem dynamicValue_brackets {before value : String} (hbefore : '[' ∉ before.toList)
    (hvalue : ']' ∉ value.toList) (hsafe : safeScalar value = true) (hslash : contains '/' value = false) :
    dynamicValue (before ++ "[" ++ (value ++ "]")) = .ok value := by
  have hopen : splitOnce '[' (before ++ "[" ++ (value ++ "]")) = some (before, value ++ "]") :=
    splitOnce_eq_some.mpr ⟨by simp, hbefore⟩
  have hclose : splitOnce ']' (value ++ "]") = some (value, "") := splitOnce_eq_some.mpr ⟨by simp, hvalue⟩
  have hsound : ¬ (safeScalar value = false ∨ contains '/' value = true) := by simp [hsafe, hslash]
  rw [dynamicValue, hopen]
  simp only [need, except_ok_bind, hclose, (refuse_ok (u := ⟨⟩)).mpr hsound]
  rfl

theorem decode_utf8 (s : String) (e : FedoraOpenvinoPackageError) : decode (utf8 s) e = .ok s := by
  rw [decode, fromUtf8_utf8, need]

/-- A text as the queries print it. -/
def quote (s : String) : String := "\"" ++ s ++ "\""

theorem toList_quote (s : String) : (quote s).toList = '"' :: (s.toList ++ ['"']) := by
  simp [quote]

theorem jsonString_quote {s : String} (h : all isPlainChar s = true) : jsonString (quote s) = .ok s := by
  have hbody : Serde.Json.stringBody (s.toList ++ ['"']) = some (s.toList, []) :=
    Serde.Json.stringBody_plain (all_iff.mp h)
  rw [jsonString, need_ok, readJsonString, toList_quote, Serde.Json.skip_cons (by decide)]
  show (Serde.Json.stringBody (s.toList ++ ['"'])).bind _ = some s
  rw [hbody, Option.bind_some]
  exact (if_pos rfl).trans (congrArg some s.ofList_toList)

theorem jsonOptionalString_quote {s : String} (h : all isPlainChar s = true) (hne : s ≠ "") :
    jsonOptionalString (quote s) = .ok (some s) := by
  have hnone : quote s ≠ "(none)" := by
    intro heq
    have hhead := congrArg String.toList heq
    rw [toList_quote] at hhead
    cases hhead
  rw [jsonOptionalString, if_neg hnone, toList_quote, Serde.Json.skip_cons (by decide)]
  simp only [jsonString_quote h, except_ok_bind, if_neg hne]
  rfl

/-- Plain text has no tab, line feed or carriage return. -/
theorem notMem_quote {s : String} (h : all isPlainChar s = true) {c : Char} (hc : c.toNat < 0x20) :
    c ∉ (quote s).toList := by
  rw [toList_quote, List.mem_cons, List.mem_append, List.mem_singleton]
  rintro (rfl | hmem | rfl)
  · exact absurd hc (by decide)
  · have hplain := all_iff.mp h c hmem
    simp [isPlainChar] at hplain
    omega
  · exact absurd hc (by decide)

/-- Text that stays on its line. -/
def isInline (c : Char) : Bool := c ≠ '\n' && c ≠ '\r'

theorem inline_quote {s : String} (h : all isPlainChar s = true) : all isInline (quote s) = true := by
  rw [all_iff]
  intro c hc
  have hn : '\n' ∉ (quote s).toList := notMem_quote h (by decide)
  have hr : '\r' ∉ (quote s).toList := notMem_quote h (by decide)
  simp only [isInline, Bool.and_eq_true, decide_eq_true_eq]
  exact ⟨fun heq => hn (heq ▸ hc), fun heq => hr (heq ▸ hc)⟩

/-- Lines that are read one by one are read from the text they make. -/
theorem lines_inline {ls : List String} (h : ∀ l ∈ ls, all isInline l = true) : lines (unlines ls) = ls := by
  refine lines_unlines fun l hl => ?_
  have hinline := all_iff.mp (h l hl)
  refine ⟨fun hmem => ?_, stripSuffix_return fun hmem => ?_⟩
  · exact absurd (hinline _ hmem) (by decide)
  · exact absurd (hinline _ hmem) (by decide)

theorem readRelation_join {name operator version : String} (hname : all isPlainChar name = true)
    (hoperator : '\t' ∉ operator.toList) (hversion : all isPlainChar version = true)
    (hne : version ≠ "") :
    readRelation (join '\t' [quote name, operator, quote version]) = .ok ⟨name, operator, some version⟩ := by
  have hsplit : split '\t' (join '\t' [quote name, operator, quote version]) =
      [quote name, operator, quote version] := by
    refine split_join ?_ (by simp)
    simp only [List.forall_mem_cons]
    exact ⟨notMem_quote hname (by decide), hoperator, notMem_quote hversion (by decide), by simp⟩
  rw [readRelation, hsplit]
  simp only [jsonString_quote hname, jsonOptionalString_quote hversion hne, except_ok_bind]
  rfl

theorem readFile_join {path octal digest flags : String} {mode : ℕ}
    (hpath : all isPlainChar path = true) (hroot : startsWith "/" path = true)
    (hcontrol : path.toList.any isControl = false) (hoctal : '\t' ∉ octal.toList)
    (hmode : parseMode octal = some mode) (hdigest : all isPlainChar digest = true)
    (hhex : digest = "" ∨ isLowerHexOf digest 64 = true) (hflags : '\t' ∉ flags.toList) :
    readFile (join '\t' [quote path, octal, quote digest, flags]) = .ok ⟨path, mode, digest, flags⟩ := by
  have hsplit : split '\t' (join '\t' [quote path, octal, quote digest, flags]) =
      [quote path, octal, quote digest, flags] := by
    refine split_join ?_ (by simp)
    simp only [List.forall_mem_cons]
    exact ⟨notMem_quote hpath (by decide), hoctal, notMem_quote hdigest (by decide), hflags, by simp⟩
  have hsound : ¬ (startsWith "/" path = false ∨ path.toList.any isControl = true ∨
      (digest ≠ "" ∧ isLowerHexOf digest 64 = false)) := by
    rw [hroot, hcontrol]
    rcases hhex with rfl | hhex
    · simp
    · simp [hhex]
  have hjoin : join '\t' [flags] = flags := by simp [join]
  rw [readFile, hsplit]
  simp only [jsonString_quote hpath, jsonString_quote hdigest, hmode, need, hjoin,
    (refuse_ok (u := ⟨⟩)).mpr hsound, except_ok_bind]
  rfl

/-! ### A candidate

    Its plugins and its compiler have no SONAME, and `openvino-devel` owns a directory at the path of
    the license `openvino` owns. -/

namespace Sample

def VERSION_RELEASE : String := "2026.2.1-1.intelnpu.fc44"

def policy : OpenvinoPackagePolicy :=
  ⟨"0:2026.2.1-1.intelnpu.fc44", "intel-npu-driver(x86-64) = 1.38.0-1.intelnpu.fc44"⟩

def PAYLOAD : Bytes := [0x7f, 0x45, 0x4c, 0x46]

def DIGEST : String := "3bdbb4fe8397cd2b842430b39ccff01a8663c751945ef5e9a09e267fb8b1d359"

def sha256 (bytes : Bytes) : String := if bytes = PAYLOAD then DIGEST else ""

def relations : List Relation :=
  ⟨"intel-npu-driver(x86-64)", "=", some "1.38.0-1.intelnpu.fc44"⟩ ::
    ("openvino" :: "intel-npu-compiler" :: FRONTENDS).map fun name =>
      ⟨name ++ "(x86-64)", "=", some VERSION_RELEASE⟩

def LICENSE : String := "/usr/share/licenses/openvino/LICENSE"

def regular (path flags : String) : RpmFile := ⟨path, 0o100644, DIGEST, flags⟩

def directory (path : String) : RpmFile := ⟨path, 0o040755, "", ""⟩

def files (name : String) : List RpmFile :=
  (if name = "openvino" then [regular LICENSE "l"]
    else if name = "openvino-devel" then [directory LICENSE] else []) ++
    (REQUIRED_ELFS.filter (·.owner = name)).map fun required => regular required.path ""

def package (name : String) : Package := ⟨name, policy.openvinoNevr, "x86_64", relations, files name⟩

def elf (required : RequiredElf) : ElfMetadata :=
  if required.sonameRequired then ⟨some required.soname, []⟩ else ⟨none, ["libopenvino.so.2621"]⟩

def identityText (name : String) : String :=
  unlines [quote name, "0", quote "2026.2.1", quote "1.intelnpu.fc44", quote "x86_64", "SHA256"]

def relationLine (relation : Relation) : String :=
  join '\t' [quote relation.name, relation.operator, quote (relation.version.getD "")]

def fileLine (file : RpmFile) : String :=
  join '\t' [quote file.path, if file.isDirectory then "040755" else "0100644", quote file.digest, file.flags]

def HEADER : List String := ["  " ++ "Class:                             ELF64", "  Type: DYN",
  "  " ++ "Machine:                           Advanced Micro Devices X86-64"]

/-- A line of a dynamic section. -/
def entry (marker before value : String) : String := marker ++ before ++ "[" ++ (value ++ "]")

def dynamicLine (required : RequiredElf) : String :=
  if required.sonameRequired then entry "(SONAME)" " Library soname: " required.soname
  else entry "(NEEDED)" " Shared library: " "libopenvino.so.2621"

/-- What the two tools print. -/
def answer : List String → String
  | [_, _, _, format, path] =>
    let name := (stripPrefix "/rpms/" path).getD ""
    if format = IDENTITY_FORMAT then identityText name
    else if format = RELATIONS_FORMAT then unlines (relations.map relationLine)
    else unlines ((files name).map fileLine)
  | [option, path] =>
    if option = "--file-header" then unlines HEADER
    else if option = "--dynamic" then
      let required := REQUIRED_ELFS.find? fun required => "/payload" ++ required.path = path
      unlines (required.map dynamicLine).toList
    else ""
  | _ => ""

def host : Host where
  symlinkMetadata path := some ⟨if path = "/payload" then .directory else .regular, 4⟩
  canonicalize := some
  read _ := some PAYLOAD
  run request := some ⟨.exit 0, utf8 (answer request.args), false, false⟩

def candidate : FedoraOpenvinoPackageSet := ⟨REQUIRED_PACKAGES.map ("/rpms/" ++ ·), "/payload"⟩

def packages : List Package := REQUIRED_PACKAGES.map package

/-- The texts of the candidate: visible ASCII that JSON does not escape. -/
def isPrinted (c : Char) : Bool := isGraphic c && c ≠ '"' && c ≠ '\\'

theorem plain_of_printed {s : String} (h : all isPrinted s = true) : all isPlainChar s = true := by
  rw [all_iff] at h ⊢
  intro c hc
  have hprinted := h c hc
  simp [isPrinted, isGraphic] at hprinted
  simp [isPlainChar, hprinted]
  omega

theorem control_of_printed {s : String} (h : all isPrinted s = true) : s.toList.any isControl = false := by
  rw [List.any_eq_false]
  intro c hc
  have hprinted := all_iff.mp h c hc
  simp [isPrinted, isGraphic] at hprinted
  simp [isControl]
  omega

theorem names_printed : ∀ name ∈ REQUIRED_PACKAGES, all isPrinted name = true := by
  simp only [REQUIRED_PACKAGES, FRONTENDS, List.cons_append, List.nil_append, List.forall_mem_cons]
  refine ⟨?_, ?_, ?_, ?_, ?_, ?_, ?_, ?_, ?_, ?_, by simp⟩ <;> exact all_chars (by decide)

/-- The paths of the candidate are printed, and are names under `/usr`. -/
structure UsrPath (path : String) : Prop where
  printed : all isPrinted path = true
  below : ∃ rest, path = "/usr/" ++ rest
  named : containsText "//" path = false ∧ ".." ∉ names path

theorem usrPath_ofList {cs : List Char} (hprinted : cs.all isPrinted = true) (hbelow : "/usr/".toList <+: cs)
    (hslash : cs.tails.any ("//".toList.isPrefixOf ·) = false)
    (hparent : "..".toList ∉ cs.splitOn '/') : UsrPath (String.ofList cs) where
  printed := all_chars hprinted
  below := by
    obtain ⟨rest, rfl⟩ := hbelow
    exact ⟨String.ofList rest, by rw [String.ofList_append, String.ofList_toList]⟩
  named := by
    rw [containsText, String.toList_ofList]
    refine ⟨hslash, fun hmem => hparent ?_⟩
    obtain ⟨piece, hpiece, heq⟩ := List.mem_map.mp (List.mem_filter.mp hmem).1
    rw [String.toList_ofList] at hpiece
    rw [← heq, String.toList_ofList]
    exact hpiece

theorem paths_usr : ∀ path ∈ LICENSE :: REQUIRED_ELFS.map RequiredElf.path, UsrPath path := by
  simp only [LICENSE, REQUIRED_ELFS, List.map_cons, List.map_nil, List.forall_mem_cons]
  refine ⟨?_, ?_, ?_, ?_, ?_, ?_, ?_, by simp⟩ <;>
    exact usrPath_ofList (by decide) (by decide) (by decide) (by decide)

theorem paths_distinct : REQUIRED_ELFS.Pairwise (fun r r' => r.path ≠ r'.path) := by simp [REQUIRED_ELFS]

theorem UsrPath.absolute {path : String} (h : UsrPath path) : startsWith "/" path = true := by
  have hsplit : "/usr/" = "/" ++ "usr/" := by decide
  obtain ⟨rest, rfl⟩ := h.below
  rw [hsplit, String.append_assoc]
  exact startsWith_iff.mpr ⟨_, rfl⟩

/-- A file of the candidate is at the path of the license or of a required library. -/
theorem file_path {name : String} {file : RpmFile} (h : file ∈ files name) :
    file.path ∈ LICENSE :: REQUIRED_ELFS.map RequiredElf.path ∧
      (file = directory LICENSE ∨ file = regular file.path "l" ∨ file = regular file.path "") := by
  rcases List.mem_append.mp h with hlicense | helf
  · split at hlicense
    · rw [List.mem_singleton.mp hlicense]
      exact ⟨List.mem_cons_self, .inr (.inl rfl)⟩
    · split at hlicense
      · rw [List.mem_singleton.mp hlicense]
        exact ⟨List.mem_cons_self, .inl rfl⟩
      · cases hlicense
  · obtain ⟨required, hrequired, rfl⟩ := List.mem_map.mp helf
    exact ⟨List.mem_cons_of_mem _ (List.mem_map_of_mem (List.mem_filter.mp hrequired).1), .inr (.inr rfl)⟩

theorem relation_read {relation : Relation} (h : relation ∈ relations) :
    readRelation (relationLine relation) = .ok relation ∧ all isInline (relationLine relation) = true := by
  have hread : ∀ {name version : String}, all isPrinted name = true → all isPrinted version = true →
      version ≠ "" → readRelation (relationLine ⟨name, "=", some version⟩) = .ok ⟨name, "=", some version⟩ ∧
        all isInline (relationLine ⟨name, "=", some version⟩) = true := by
    intro name version hname hversion hne
    have htab : '\t' ∉ "=".toList := by decide
    refine ⟨readRelation_join (plain_of_printed hname) htab (plain_of_printed hversion) hne,
      all_join (by decide) ?_⟩
    simp only [List.forall_mem_cons]
    exact ⟨inline_quote (plain_of_printed hname), by decide, inline_quote (plain_of_printed hversion),
      by simp⟩
  rcases List.mem_cons.mp h with rfl | h
  · exact hread (by decide) (by decide) (by decide)
  · obtain ⟨name, hname, rfl⟩ := List.mem_map.mp h
    have hpackage : ∀ name ∈ "openvino" :: "intel-npu-compiler" :: FRONTENDS, name ∈ REQUIRED_PACKAGES := by
      simp [REQUIRED_PACKAGES]
      tauto
    have harch : all isPrinted "(x86-64)" = true := by decide
    refine hread ?_ (by decide) (by decide)
    rw [all_append, names_printed name (hpackage name hname), harch]
    rfl

theorem file_read {name : String} {file : RpmFile} (h : file ∈ files name) :
    readFile (fileLine file) = .ok file ∧ all isInline (fileLine file) = true := by
  obtain ⟨hpath, hfile⟩ := file_path h
  have husr := paths_usr _ hpath
  have hplain : all isPlainChar file.path = true := plain_of_printed husr.printed
  have hdigest : all isPrinted DIGEST = true ∧ isLowerHexOf DIGEST 64 = true := by decide
  have hregular : ∀ flags, '\t' ∉ flags.toList → all isInline flags = true →
      readFile (fileLine (regular file.path flags)) = .ok (regular file.path flags) ∧
        all isInline (fileLine (regular file.path flags)) = true := by
    intro flags hflags hinline
    have hmode : (regular file.path flags).mode = 0o100644 := rfl
    have hkind : (regular file.path flags).isDirectory = false := by
      rw [RpmFile.isDirectory, hmode]
      decide
    rw [fileLine, hkind]
    refine ⟨readFile_join hplain husr.absolute (control_of_printed husr.printed) (by decide) (by decide)
      (plain_of_printed hdigest.1) (.inr hdigest.2) hflags, all_join (by decide) ?_⟩
    simp only [List.forall_mem_cons]
    exact ⟨inline_quote hplain, by decide, inline_quote (plain_of_printed hdigest.1), hinline, by simp⟩
  rcases hfile with hfile | hfile | hfile
  · obtain rfl : file = directory LICENSE := hfile
    refine ⟨readFile_join hplain husr.absolute (control_of_printed husr.printed) (by decide) (by decide)
      (by decide) (.inl rfl) (by decide), all_join (by decide) ?_⟩
    simp only [List.forall_mem_cons]
    exact ⟨inline_quote hplain, by decide, by decide, by decide, by simp⟩
  · rw [hfile]
    exact hregular "l" (by decide) (by decide)
  · rw [hfile]
    exact hregular "" (by decide) (by decide)

theorem lines_read {α : Type} {read : String → Checked α} {line : α → String} {items : List α}
    (h : ∀ item ∈ items, read (line item) = .ok item ∧ all isInline (line item) = true) :
    (lines (unlines (items.map line))).mapM read = .ok items := by
  have hinline : ∀ l ∈ items.map line, all isInline l = true := by
    intro l hl
    obtain ⟨item, hitem, rfl⟩ := List.mem_map.mp hl
    exact (h item hitem).2
  rw [lines_inline hinline, except_mapM_ok, List.forall₂_map_left_iff, List.forall₂_same]
  exact fun item hitem => (h item hitem).1

theorem rpm_answer (path : String) (options : List String) : rpmQuery host path options =
    .ok (utf8 (answer (["--noplugins", "-qp"] ++ options ++ [path]))) := rfl

theorem query_answer (name format : String) : rpmQuery host ("/rpms/" ++ name) ["--queryformat", format] =
    .ok (utf8 (if format = IDENTITY_FORMAT then identityText name
      else if format = RELATIONS_FORMAT then unlines (relations.map relationLine)
      else unlines ((files name).map fileLine))) := by
  have hname : (stripPrefix "/rpms/" ("/rpms/" ++ name)).getD "" = name := by
    rw [stripPrefix_append, Option.getD_some]
  rw [rpm_answer]
  simp only [List.cons_append, List.nil_append, answer, hname]

theorem package_queried {name : String} (h : all isPlainChar name = true) :
    queryPackage host ("/rpms/" ++ name) = .ok (package name) := by
  have hidentity : readIdentity (identityText name) = .ok (name, policy.openvinoNevr, "x86_64") := by
    have hlines : lines (identityText name) =
        [quote name, "0", quote "2026.2.1", quote "1.intelnpu.fc44", quote "x86_64", "SHA256"] := by
      refine lines_inline ?_
      simp only [List.forall_mem_cons]
      exact ⟨inline_quote h, by decide, by decide, by decide, by decide, by decide, by simp⟩
    have hversion : jsonString (quote "2026.2.1") = .ok "2026.2.1" := jsonString_quote (by decide)
    have hrelease : jsonString (quote "1.intelnpu.fc44") = .ok "1.intelnpu.fc44" :=
      jsonString_quote (by decide)
    have harchitecture : jsonString (quote "x86_64") = .ok "x86_64" := jsonString_quote (by decide)
    rw [readIdentity, hlines]
    simp only [jsonString_quote h, hversion, hrelease, harchitecture, except_ok_bind]
    rfl
  have hne : RELATIONS_FORMAT ≠ IDENTITY_FORMAT := by decide
  have hfne : FILES_FORMAT ≠ IDENTITY_FORMAT ∧ FILES_FORMAT ≠ RELATIONS_FORMAT := by decide
  have hrelations : queryRelations host ("/rpms/" ++ name) = .ok relations := by
    have hlines : (lines (unlines (relations.map relationLine))).mapM readRelation = .ok relations :=
      lines_read fun _ => relation_read
    rw [queryRelations, query_answer, except_ok_bind, if_neg hne, if_pos rfl, decode_utf8, except_ok_bind,
      hlines]
  have hfiles : queryFiles host ("/rpms/" ++ name) = .ok (files name) := by
    have hlines : (lines (unlines ((files name).map fileLine))).mapM readFile = .ok (files name) :=
      lines_read fun _ => file_read
    rw [queryFiles, query_answer, except_ok_bind, if_neg hfne.1, if_neg hfne.2, decode_utf8, except_ok_bind,
      hlines]
  rw [queryPackage, query_answer, except_ok_bind, if_pos rfl, decode_utf8, except_ok_bind, hidentity]
  simp only [except_ok_bind, hrelations, hfiles]
  rfl

theorem rpm_inspected {name : String} (h : name ∈ REQUIRED_PACKAGES) :
    inspectRpm host ("/rpms/" ++ name) = .ok ("/rpms/" ++ name, package name) := by
  have habsolute : isAbsolute ("/rpms/" ++ name) = true := by
    have hsplit : "/rpms/" = "/" ++ "rpms/" := by decide
    rw [hsplit, String.append_assoc]
    exact startsWith_iff.mpr ⟨_, rfl⟩
  have hne : "/rpms/" ++ name ≠ "/payload" := by
    intro heq
    have hnone : stripPrefix "/rpms/" "/payload" = none := by decide
    rw [← heq, stripPrefix_append] at hnone
    cases hnone
  have hrpm : requireRpm host ("/rpms/" ++ name) = .ok ("/rpms/" ++ name) := by
    rw [requireRpm]
    simp only [host, if_neg hne, need, except_ok_bind, habsolute]
    rfl
  have hscripts : rejectScripts host ("/rpms/" ++ name) = .ok ⟨⟩ := by
    refine except_forM_ok.mpr fun option _ => ?_
    rw [rpm_answer]
    rfl
  rw [inspectRpm, hrpm, except_ok_bind, package_queried (plain_of_printed (names_printed name h)),
    except_ok_bind, hscripts]
  rfl

theorem names_sorted : REQUIRED_PACKAGES.Pairwise (· < ·) := List.isChain_iff_pairwise.mp (by decide)

theorem packages_collected :
    ∃ rpms, candidate.packages.foldlM (collect host) ⟨[], []⟩ = .ok ⟨packages, rpms⟩ := by
  have hread : List.Forall₂ (fun path c => inspectRpm host path = .ok c) candidate.packages
      (REQUIRED_PACKAGES.map fun name => ("/rpms/" ++ name, package name)) := by
    rw [candidate, List.forall₂_map_left_iff, List.forall₂_map_right_iff, List.forall₂_same]
    exact fun _ => rpm_inspected
  have hapart : (REQUIRED_PACKAGES.map fun name => ("/rpms/" ++ name, package name)).Pairwise Apart := by
    rw [List.pairwise_map]
    exact names_sorted.imp fun hlt => ⟨fun heq => hlt.ne (by simpa using heq), hlt.ne⟩
  obtain ⟨⟨found, rpms⟩, hfound, ⟨hperm, hsorted⟩, -⟩ :=
    Gather.foldlM_total collect_steps collects_nil hread hapart
  have hperm : found.Perm packages := by simpa [packages, Function.comp_def] using hperm
  have hordered : packages.Pairwise (·.name ≤ ·.name) := by
    rw [packages, List.pairwise_map]
    exact names_sorted.imp le_of_lt
  have heq : found = packages := by
    refine List.Perm.eq_of_pairwise (fun p q hp hq hpq hqp => ?_) hsorted hordered hperm
    obtain ⟨m, -, rfl⟩ := List.mem_map.mp (hperm.mem_iff.mp hp)
    obtain ⟨n, -, rfl⟩ := List.mem_map.mp hq
    exact congrArg package (le_antisymm hpq hqp)
  exact ⟨rpms, heq ▸ hfound⟩

/-- A search by a key that only one item has finds that item. -/
theorem find?_of_mem {α β : Type} [DecidableEq β] {key : α → β} {items : List α}
    (hdistinct : items.Pairwise fun a b => key a ≠ key b) {item : α} (h : item ∈ items) :
    items.find? (fun other => key other = key item) = some item := by
  induction items with
  | nil => cases h
  | cons other items ih =>
    obtain ⟨hother, hitems⟩ := List.pairwise_cons.mp hdistinct
    rcases List.mem_cons.mp h with rfl | h
    · exact List.find?_cons_of_pos (by simp)
    · rw [List.find?_cons_of_neg (by simpa using hother item h)]
      exact ih hitems h

theorem package_indexed {name : String} (h : name ∈ REQUIRED_PACKAGES) :
    indexed packages name = .ok (package name) := by
  have hdistinct : packages.Pairwise fun p q => p.name ≠ q.name := by
    rw [packages, List.pairwise_map]
    exact names_sorted.imp ne_of_lt
  rw [indexed, need_ok]
  exact find?_of_mem hdistinct (List.mem_map_of_mem h)

theorem relation_required {name : String} (h : name ∈ "openvino" :: "intel-npu-compiler" :: FRONTENDS) :
    requireRelation relations (name ++ "(x86-64) = " ++ VERSION_RELEASE) = .ok ⟨⟩ := by
  have hmem : (⟨name ++ "(x86-64)", "=", some VERSION_RELEASE⟩ : Relation) ∈ relations :=
    List.mem_cons_of_mem _ (List.mem_map_of_mem h)
  have hliteral : "(x86-64)" ++ " " ++ "=" ++ " " = "(x86-64) = " := by decide
  rw [requireRelation, require_ok, List.any_eq_true]
  refine ⟨_, hmem, ?_⟩
  rw [Option.any_some, decide_eq_true_eq, ← hliteral]
  simp only [String.append_assoc]

theorem relations_validated : validateRelations packages policy = .ok ⟨⟩ := by
  have hversion : stripPrefix "0:" policy.openvinoNevr = some VERSION_RELEASE := by decide
  have hruntime : requireRelation relations ("openvino(x86-64) = " ++ VERSION_RELEASE) = .ok ⟨⟩ := by
    have hname : "openvino" ++ "(x86-64) = " = "openvino(x86-64) = " := by decide
    rw [← hname]
    exact relation_required (by simp)
  have hcompiler :
      requireRelation relations ("intel-npu-compiler(x86-64) = " ++ VERSION_RELEASE) = .ok ⟨⟩ := by
    have hname : "intel-npu-compiler" ++ "(x86-64) = " = "intel-npu-compiler(x86-64) = " := by decide
    rw [← hname]
    exact relation_required (by simp)
  have hdriver : requireRelation relations policy.driverRequirement = .ok ⟨⟩ := by
    rw [requireRelation, require_ok, List.any_eq_true]
    exact ⟨_, List.mem_cons_self, by decide⟩
  have hdependents : (forM (REQUIRED_PACKAGES.filter (· ≠ "openvino")) fun dependent => do
      let package ← indexed packages dependent
      requireRelation package.requires ("openvino(x86-64) = " ++ VERSION_RELEASE)) = .ok ⟨⟩ := by
    refine except_forM_ok.mpr fun name hname => ?_
    rw [package_indexed (List.mem_filter.mp hname).1, except_ok_bind]
    exact hruntime
  have hfrontends : (forM FRONTENDS fun frontend => do
      let package ← indexed packages "openvino"
      requireRelation package.requires (frontend ++ "(x86-64) = " ++ VERSION_RELEASE)) = .ok ⟨⟩ := by
    refine except_forM_ok.mpr fun name hname => ?_
    rw [package_indexed (by decide), except_ok_bind]
    exact relation_required (by simp [hname])
  have hplugins : "openvino-plugins" ∈ REQUIRED_PACKAGES := by decide
  have hnpu : "intel-npu-compiler" ∈ REQUIRED_PACKAGES := by decide
  simp only [validateRelations, hversion, need, except_ok_bind]
  rw [hdependents, except_ok_bind, hfrontends, except_ok_bind, package_indexed hplugins, except_ok_bind]
  simp only [package, hcompiler, except_ok_bind]
  rw [package_indexed hnpu, except_ok_bind]
  exact hdriver

theorem file_placed {name : String} {file : RpmFile} (h : file ∈ files name) :
    (ownFile [] file >>= fun _ => (pure file : Checked RpmFile)) = .ok file := by
  have husr := paths_usr _ (file_path h).1
  have hbelow : startsWith "/usr/" file.path = true := startsWith_iff.mpr husr.below
  have hopt : startsWith "/opt/" file.path = false := by
    rw [Bool.eq_false_iff]
    intro hopt
    obtain ⟨rest, heq⟩ := husr.below
    obtain ⟨rest', heq'⟩ := startsWith_iff.mp hopt
    have hchars := congrArg String.toList (heq.symm.trans heq')
    simp at hchars
  rw [ownFile, (refuse_ok (u := ⟨⟩)).mpr (by simp [hbelow, hopt, husr.named]), except_ok_bind]
  split
  · rfl
  · rw [(refuse_ok (u := ⟨⟩)).mpr List.not_mem_nil]
    rfl

theorem ownership_validated : validateOwnership packages = .ok ⟨⟩ := by
  have hflat : packages.flatMap Package.files = REQUIRED_PACKAGES.flatMap files := by
    rw [packages, List.flatMap_map]
    rfl
  have hread : List.Forall₂
      (fun file file' => (ownFile [] file >>= fun _ => (pure file : Checked RpmFile)) = .ok file')
      (packages.flatMap Package.files) (packages.flatMap Package.files) := by
    rw [List.forall₂_same, hflat]
    intro file hfile
    obtain ⟨name, -, hfile⟩ := List.mem_flatMap.mp hfile
    exact file_placed hfile
  have hapart : (packages.flatMap Package.files).Pairwise fun f g =>
      f.isDirectory = false → g.isDirectory = false → f.path ≠ g.path := by
    rw [hflat]
    simp [REQUIRED_PACKAGES, FRONTENDS, files, REQUIRED_ELFS, regular, directory, LICENSE,
      RpmFile.isDirectory]
  have hruntime : "openvino" ∈ REQUIRED_PACKAGES := by simp [REQUIRED_PACKAGES, FRONTENDS]
  have hlicense : regular LICENSE "l" ∈ (package "openvino").files := by simp [package, files]
  obtain ⟨owned, howned, -⟩ := Gather.foldlM_total ownFile_steps owns_nil hread hapart
  rw [validateOwnership, howned, except_ok_bind, package_indexed hruntime, except_ok_bind, require_ok,
    List.any_eq_true]
  exact ⟨_, hlicense, by simp [regular, LICENSE, contains]⟩

theorem readelf_answer (path option : String) :
    runReadelf host path [option] = .ok (answer [option, path]) :=
  decode_utf8 _ _

theorem header_checked : checkHeader (unlines HEADER) = .ok ⟨⟩ := by
  have hclass : containsText "Class:                             ELF64" (unlines HEADER) = true :=
    containsText_unlines List.mem_cons_self (containsText_iff.mpr (by
      rw [String.toList_append]
      exact (List.suffix_append _ _).isInfix))
  have hmachine : containsText "Machine:                           Advanced Micro Devices X86-64"
      (unlines HEADER) = true :=
    containsText_unlines (.tail _ (.tail _ List.mem_cons_self)) (containsText_iff.mpr (by
      rw [String.toList_append]
      exact (List.suffix_append _ _).isInfix))
  have hlines : lines (unlines HEADER) = HEADER := by
    refine lines_inline ?_
    simp only [HEADER, List.forall_mem_cons, all_append, Bool.and_eq_true]
    exact ⟨⟨by decide, all_chars (by decide)⟩, all_chars (by decide), ⟨by decide, all_chars (by decide)⟩,
      by simp⟩
  rw [checkHeader, hclass, hmachine, hlines, (refuse_ok (u := ⟨⟩)).mpr (by simp), except_ok_bind, require_ok,
    List.any_eq_true]
  exact ⟨_, .tail _ List.mem_cons_self, by decide⟩

/-- What stands in the lines of the candidate: none of the letters of `(RPATH)` and `(FLAGS_1)`. -/
def isNamed (c : Char) : Bool := isInline c && c ≠ '[' && c ≠ ']' && c ≠ '/' && c ≠ 'H' && c ≠ 'F'

/-- The value of a line is read under its marker, and nothing under a marker with a letter it has not. -/
theorem entry_read {marker other before value : String} {c : Char} (hmarker : all isNamed marker = true)
    (hbefore : all isNamed before = true) (hvalue : all isNamed value = true)
    (hsafe : safeScalar value = true) (hc : c ∈ other.toList)
    (hother : c ∉ (entry marker before value).toList) :
    checkDynamic (unlines [entry marker before value]) = .ok ⟨⟩ ∧
      dynamicValues (unlines [entry marker before value]) marker = .ok [value] ∧
      dynamicValues (unlines [entry marker before value]) other = .ok [] := by
  have hinline : all isInline (entry marker before value) = true := by
    have hsub : ∀ {s : String}, all isNamed s = true → all isInline s = true := by
      intro s hs
      rw [all_iff] at hs ⊢
      intro d hd
      have := hs d hd
      simp [isNamed] at this
      simp [this]
    simp only [entry, all_append, hsub hmarker, hsub hbefore, hsub hvalue]
    decide
  have hnot : ∀ {s : String} {d : Char}, isNamed d = false → all isNamed s = true → d ∉ s.toList := by
    intro s d hd hs hmem
    rw [all_iff.mp hs d hmem] at hd
    cases hd
  have hlines : lines (unlines [entry marker before value]) = [entry marker before value] :=
    lines_inline (by simpa using hinline)
  have hlacks : ∀ {needle : String} {d : Char}, d ∈ needle.toList → d = 'H' ∨ d = 'F' →
      containsText needle (unlines [entry marker before value]) = false ∧
        containsText needle (entry marker before value) = false := by
    intro needle d hd hletter
    have hfree : d ∉ (entry marker before value).toList := by
      have hnamed : isNamed d = false := by rcases hletter with rfl | rfl <;> decide
      simp only [entry, String.toList_append, List.mem_append, not_or]
      refine ⟨⟨⟨hnot hnamed hmarker, hnot hnamed hbefore⟩, ?_⟩, hnot hnamed hvalue, ?_⟩ <;>
        rcases hletter with rfl | rfl <;> decide
    refine ⟨containsText_eq_false hd ?_, containsText_eq_false hd hfree⟩
    simp only [unlines, String.toList_append, List.mem_append, not_or]
    exact ⟨⟨hfree, by rcases hletter with rfl | rfl <;> decide⟩, by simp⟩
  have hvalueRead : dynamicValue (entry marker before value) = .ok value := by
    refine dynamicValue_brackets ?_ (hnot (by decide) hvalue) hsafe ?_
    · rw [String.toList_append, List.mem_append, not_or]
      exact ⟨hnot (by decide) hmarker, hnot (by decide) hbefore⟩
    · rw [contains, Bool.eq_false_iff]
      simpa using hnot (by decide) hvalue
  refine ⟨?_, ?_, ?_⟩
  · have hrpath := (@hlacks "(RPATH)" 'H' (by decide) (.inl rfl)).1
    have hrunpath := (@hlacks "(RUNPATH)" 'H' (by decide) (.inl rfl)).1
    have hflags := (@hlacks "(FLAGS_1)" 'F' (by decide) (.inr rfl)).2
    rw [checkDynamic, refuse_ok, hrpath, hrunpath, hlines]
    simp [hflags]
  · have hhas : containsText marker (entry marker before value) = true := by
      rw [containsText_iff, entry, String.append_assoc, String.append_assoc, String.toList_append]
      exact (List.prefix_append _ _).isInfix
    rw [dynamicValues, hlines, List.filter_cons_of_pos hhas, List.filter_nil, except_mapM_ok]
    exact .cons hvalueRead .nil
  · have hnone : containsText other (entry marker before value) = false := containsText_eq_false hc hother
    rw [dynamicValues, hlines, List.filter_cons_of_neg (by simp [hnone]), List.filter_nil]
    rfl

theorem dynamic_read {required : RequiredElf} (h : required ∈ REQUIRED_ELFS) :
    checkDynamic (unlines [dynamicLine required]) = .ok ⟨⟩ ∧
      dynamicValues (unlines [dynamicLine required]) "(SONAME)" = .ok (elf required).soname.toList ∧
      dynamicValues (unlines [dynamicLine required]) "(NEEDED)" = .ok (elf required).needed := by
  cases hrequired : required.sonameRequired with
  | true =>
    have hline : dynamicLine required = entry "(SONAME)" " Library soname: " required.soname := by
      rw [dynamicLine, hrequired, if_pos rfl]
    have helf : elf required = ⟨some required.soname, []⟩ := by rw [elf, hrequired, if_pos rfl]
    have hsoname : required.soname = "libopenvino.so.2621" ∨
        required.soname = "libopenvino_intel_npu_compiler_loader.so" := by
      revert required
      simp [REQUIRED_ELFS]
    have hread : all isNamed required.soname = true ∧ safeScalar required.soname = true ∧
        'D' ∉ (entry "(SONAME)" " Library soname: " required.soname).toList := by
      rcases hsoname with heq | heq
      · rw [heq]
        exact ⟨all_chars (by decide), by decide, by decide⟩
      · rw [heq]
        exact ⟨all_chars (by decide), by decide, by decide⟩
    obtain ⟨hname, hsafe, hfree⟩ := hread
    rw [hline, helf]
    exact entry_read (all_chars (by decide)) (all_chars (by decide)) hname hsafe (by decide) hfree
  | false =>
    have hline : dynamicLine required = entry "(NEEDED)" " Shared library: " "libopenvino.so.2621" := by
      rw [dynamicLine, hrequired, if_neg Bool.false_ne_true]
    have helf : elf required = ⟨none, ["libopenvino.so.2621"]⟩ := by
      rw [elf, hrequired, if_neg Bool.false_ne_true]
    rw [hline, helf]
    have hname : all isNamed "libopenvino.so.2621" = true := all_chars (by decide)
    have hfree : 'O' ∉ (entry "(NEEDED)" " Shared library: " "libopenvino.so.2621").toList := by decide
    have hother : 'O' ∈ "(SONAME)".toList := by decide
    obtain ⟨hchecked, hneeded, hsoname⟩ := entry_read (all_chars (by decide)) (all_chars (by decide)) hname
      (by decide) hother hfree
    exact ⟨hchecked, hsoname, hneeded⟩

theorem elf_queried {required : RequiredElf} (h : required ∈ REQUIRED_ELFS) :
    queryElf host ("/payload" ++ required.path) = .ok (elf required) := by
  have hdistinct : REQUIRED_ELFS.Pairwise fun r r' => "/payload" ++ r.path ≠ "/payload" ++ r'.path :=
    paths_distinct.imp fun hne => by simpa using hne
  have hfind := find?_of_mem hdistinct h
  have hheader : answer ["--file-header", "/payload" ++ required.path] = unlines HEADER := by simp [answer]
  have hdynamic : answer ["--dynamic", "/payload" ++ required.path] = unlines [dynamicLine required] := by
    have hne : "--dynamic" ≠ "--file-header" := by simp
    rw [answer, if_neg hne, if_pos rfl, hfind]
    rfl
  have hsections : answer ["--section-headers", "/payload" ++ required.path] = "" := by simp [answer]
  have hcomment : containsText ".comment" "" = false := by decide
  have hone : ¬ (elf required).soname.toList.length > 1 := by
    cases (elf required).soname with
    | none => simp
    | some soname => simp
  have hhead : (elf required).soname.toList.head? = (elf required).soname := by
    cases (elf required).soname with
    | none => rfl
    | some soname => rfl
  obtain ⟨hchecked, hsonames, hneeded⟩ := dynamic_read h
  rw [queryElf, readelf_answer, except_ok_bind, hheader, header_checked, except_ok_bind, readelf_answer,
    except_ok_bind, hdynamic, hchecked, except_ok_bind, readelf_answer, except_ok_bind, hsections, hcomment,
    if_neg Bool.false_ne_true, hsonames, except_ok_bind, (refuse_ok (u := ⟨⟩)).mpr hone, except_ok_bind,
    hneeded, except_ok_bind, hhead]
  rfl

theorem payload_found {path : String} (h : UsrPath path) :
    requirePayloadFile host "/payload" path = .ok ("/payload" ++ path) := by
  obtain ⟨rest, rfl⟩ := startsWith_iff.mp h.absolute
  have hslash : "/".toList = ['/'] := by decide
  have hroot : "/payload" = "" ++ "/" ++ "payload" := by decide
  have hjoin : joinPath "/payload" rest = "/payload" ++ ("/" ++ rest) := by
    have hends : endsWith "/" "/payload" = false := by decide
    rw [joinPath, hends, if_neg Bool.false_ne_true, String.append_assoc]
  have hne : "/payload" ++ ("/" ++ rest) ≠ "/payload" := by
    intro heq
    have hchars := congrArg String.toList heq
    simp at hchars
  have hbelow : (names "/payload").isPrefixOf (names ("/payload" ++ ("/" ++ rest))) = true := by
    have hnames : names "/payload" = ["payload"] := by decide
    have hsplit : split '/' ("/payload" ++ ("/" ++ rest)) = "" :: "payload" :: split '/' rest := by
      have heq : "/payload" ++ ("/" ++ rest) = "" ++ "/" ++ ("payload" ++ "/" ++ rest) := by
        rw [hroot]
        simp only [String.append_assoc]
      rw [heq, split_append hslash (by simp), split_append hslash (by decide)]
    rw [hnames, names, hsplit]
    rfl
  rw [requirePayloadFile, stripPrefix_append]
  simp only [need, except_ok_bind, hjoin, host, if_neg hne, hbelow]
  rfl

/-- Each required library of the payload passes. -/
theorem elf_validated {required : RequiredElf} (h : required ∈ REQUIRED_ELFS) :
    validateElf host sha256 packages "/payload" required = .ok (elf required) := by
  have howner : required.owner ∈ REQUIRED_PACKAGES := by
    revert required
    simp [REQUIRED_ELFS, REQUIRED_PACKAGES, FRONTENDS]
  have hfile : (files required.owner).find? (fun file => file.path = required.path) =
      some (regular required.path "") := by
    revert required
    simp [REQUIRED_ELFS, files, regular, LICENSE]
  have husr : UsrPath required.path := paths_usr _ (List.mem_cons_of_mem _ (List.mem_map_of_mem h))
  have hnamed : (elf required).soname = some required.soname ∨
      ((elf required).soname = none ∧ required.sonameRequired = false) := by
    cases hrequired : required.sonameRequired with
    | true => exact .inl (by rw [elf, hrequired, if_pos rfl])
    | false => exact .inr ⟨by rw [elf, hrequired, if_neg Bool.false_ne_true], rfl⟩
  have hdigest : ¬ DIGEST = "" := by simp [DIGEST]
  have hsame : ¬ sha256 PAYLOAD ≠ DIGEST := by simp [sha256]
  have hfound : (package required.owner).files.find? (fun file => file.path = required.path) =
      some (regular required.path "") := hfile
  have hread : host.read ("/payload" ++ required.path) = some PAYLOAD := rfl
  rw [validateElf, package_indexed howner, except_ok_bind, hfound, need, except_ok_bind, regular,
    (refuse_ok (u := ⟨⟩)).mpr hdigest, except_ok_bind, payload_found husr, except_ok_bind, hread, need,
    except_ok_bind, (refuse_ok (u := ⟨⟩)).mpr hsame, except_ok_bind, elf_queried h, except_ok_bind,
    require_pos hnamed]
  rfl

theorem candidate_validated : validate host sha256 candidate policy = .ok ⟨⟩ := by
  have hpolicy : validatePolicy policy = .ok ⟨⟩ := refuse_ok.mpr (by decide)
  have hroot : requirePayloadRoot host candidate.payloadRoot = .ok "/payload" := rfl
  have hlength : ¬ candidate.packages.length ≠ REQUIRED_PACKAGES.length := by simp [candidate]
  obtain ⟨rpms, hcollected⟩ := packages_collected
  have hnames : ¬ packages.map Package.name ≠ REQUIRED_PACKAGES := by
    simp [packages, Function.comp_def, package]
  have hversions : ¬ ∃ p ∈ packages, p.nevr ≠ policy.openvinoNevr ∨ p.architecture ≠ "x86_64" := by
    rintro ⟨p, hp, hne⟩
    obtain ⟨name, -, rfl⟩ := List.mem_map.mp hp
    exact hne.elim (· rfl) (· rfl)
  have helfs :
      REQUIRED_ELFS.mapM (validateElf host sha256 packages "/payload") = .ok (REQUIRED_ELFS.map elf) := by
    rw [except_mapM_ok, List.forall₂_map_right_iff, List.forall₂_same]
    exact fun _ => elf_validated
  have hclosed : ¬ ∃ library ∈ REQUIRED_ELFS.map elf, ∃ needed ∈ library.needed,
      startsWith "libopenvino" needed = true ∧
        needed ∉ (REQUIRED_ELFS.map elf).filterMap ElfMetadata.soname := by
    simp [REQUIRED_ELFS, elf]
  rw [validate, hpolicy, except_ok_bind, hroot, except_ok_bind, (refuse_ok (u := ⟨⟩)).mpr hlength,
    except_ok_bind, hcollected, except_ok_bind]
  dsimp only
  rw [(refuse_ok (u := ⟨⟩)).mpr hnames, except_ok_bind, (refuse_ok (u := ⟨⟩)).mpr hversions, except_ok_bind,
    relations_validated, except_ok_bind, ownership_validated, except_ok_bind, validateElfPayloads, helfs,
    except_ok_bind]
  exact (refuse_ok (u := ⟨⟩)).mpr hclosed

end Sample

/-- The candidate is accepted for what it is. -/
theorem candidate_accepted : validate Sample.host Sample.sha256 Sample.candidate Sample.policy = .ok () ∧
    ∃ packages libraries,
      Inspected Sample.host Sample.sha256 Sample.candidate Sample.policy packages libraries ∧
        (filePaths packages).Nodup ∧ List.Forall₂ Named REQUIRED_ELFS libraries :=
  ⟨Sample.candidate_validated, validate_accepted Sample.candidate_validated⟩

/-! ### What is not checked -/

/-- Two spellings of one path. -/
def SamePath (f g : RpmFile) : Prop := names f.path = names g.path

/-- No path is a file of one package and anything in another, or a file of one package twice. -/
structure Disjoint (packages : List Package) : Prop where
  between : packages.Pairwise fun p q => ∀ f ∈ p.files, ∀ g ∈ q.files, SamePath f g →
    f.isDirectory = true ∧ g.isDirectory = true
  within : ∀ p ∈ packages, p.files.Pairwise fun f g => SamePath f g →
    f.isDirectory = true ∨ g.isDirectory = true

/-- What an answer decides is decided once. -/
theorem queried_unique {host : Host} {paths : List String} {packages packages' : List Package}
    (h : List.Forall₂ (Queried host) paths packages) (h' : List.Forall₂ (Queried host) paths packages') :
    packages = packages' := by
  induction h generalizing packages' with
  | nil =>
    cases h'
    rfl
  | cons hfirst _ ih =>
    cases h' with
    | cons hfirst' hrest =>
      obtain ⟨canonical, hc⟩ := hfirst
      obtain ⟨canonical', hc'⟩ := hfirst'
      cases hc.symm.trans hc'
      rw [ih hrest]

/-- An accepted set may share a path between a file and a directory, and its plugins may have no SONAME. -/
theorem candidate_shares_path :
    (¬ ∀ host sha256 candidate policy, validate host sha256 candidate policy = .ok () →
      ∃ packages libraries, Inspected host sha256 candidate policy packages libraries ∧ Disjoint packages) ∧
    ¬ ∀ host sha256 candidate policy, validate host sha256 candidate policy = .ok () →
      ∃ packages libraries, Inspected host sha256 candidate policy packages libraries ∧
        List.Forall₂ (fun required elf => elf.soname = some required.soname) REQUIRED_ELFS libraries := by
  constructor
  · intro hclaim
    obtain ⟨packages, libraries, hinspected, hdisjoint⟩ := hclaim _ _ _ _ Sample.candidate_validated
    have hpackages : packages = Sample.packages := by
      refine queried_unique hinspected.queried ?_
      rw [Sample.candidate, Sample.packages, List.forall₂_map_left_iff, List.forall₂_map_right_iff,
        List.forall₂_same]
      exact fun name hname => ⟨_, Sample.rpm_inspected hname⟩
    have hpair : [Sample.package "openvino", Sample.package "openvino-devel"].Sublist Sample.packages := by
      have hnames : ["openvino", "openvino-devel"] <:+: REQUIRED_PACKAGES :=
        ⟨"intel-npu-compiler" :: FRONTENDS, ["openvino-plugins"], rfl⟩
      exact hnames.sublist.map Sample.package
    have hruntime : Sample.regular Sample.LICENSE "l" ∈ (Sample.package "openvino").files := by
      simp [Sample.package, Sample.files]
    have hdevel : Sample.directory Sample.LICENSE ∈ (Sample.package "openvino-devel").files := by
      simp [Sample.package, Sample.files]
    have hbetween := (hpackages ▸ hdisjoint.between).sublist hpair
    obtain ⟨hfile, -⟩ := (List.pairwise_cons.mp hbetween).1 _ List.mem_cons_self _ hruntime _ hdevel rfl
    exact absurd hfile (by decide)
  · intro hclaim
    obtain ⟨packages, libraries, hinspected, hnamed⟩ := hclaim _ _ _ _ Sample.candidate_validated
    obtain ⟨root, hroot, hbound⟩ := hinspected.bound
    cases hroot
    rw [REQUIRED_ELFS] at hbound hnamed
    cases hbound with
    | cons _ hbound => cases hbound with
      | cons hplugin _ => cases hnamed with
        | cons _ hnamed => cases hnamed with
          | cons hsoname _ =>
            obtain ⟨-, -, -, -, payload, -, -, -, hpayload, -, -, helf⟩ := hplugin
            have hmem : (⟨"openvino-plugins", "/usr/lib64/openvino-2026.2.1/libopenvino_intel_cpu_plugin.so",
                "libopenvino_intel_cpu_plugin.so", false⟩ : RequiredElf) ∈ REQUIRED_ELFS := by
              simp [REQUIRED_ELFS]
            have husr := Sample.paths_usr _ (List.mem_cons_of_mem _ (List.mem_map_of_mem hmem))
            cases hpayload.symm.trans (Sample.payload_found husr)
            cases helf.symm.trans (Sample.elf_queried hmem)
            cases hsoname

end NpuStack.Xtask.OpenvinoPackages
