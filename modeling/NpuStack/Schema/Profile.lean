import NpuStack.Schema.Kernel
import NpuStack.Schemes.OrderedMap

/-! Versioned compatibility profiles and their semantic validation.

    A profile names, for each of six required components, the native package that provides it, its
    exact version and the files whose content qualification fixed. `Profile.validate` runs the
    checks in source order and stops at the first refusal. Parsing the TOML text into the record is
    left to a parameter; `Profile.parseToml` adds the byte limit before it and the validation after. -/

namespace NpuStack.Schema
open Interaction Text

inductive ProfileStatus where
  | candidate | experimental | qualified | unsupported | deprecated
  deriving DecidableEq, Repr

inductive PackageManager where
  | rpm | dpkg | pacman
  deriving DecidableEq, Repr

/-- Host action needed before an installed provider becomes active. -/
inductive ActivationRequirement where
  | immediate | reboot | relogin
  deriving DecidableEq, Repr

inductive RedistributionVerdict where
  | allowed | externalOnly | forbidden
  deriving DecidableEq, Repr

inductive ConflictResolution where
  | remove
  deriving DecidableEq, Repr

structure PlatformSelector where
  id : String
  versionId : String
  arch : String
  deriving DecidableEq, Repr

structure PciId where
  vendor : String
  device : String
  deriving DecidableEq, Repr

/-- Inclusive minimum and exclusive maximum supported kernel release. -/
structure KernelRange where
  min : String
  maxExclusive : String
  module : String
  deriving DecidableEq, Repr

structure InstalledFile where
  path : String
  sha256 : String
  deriving DecidableEq, Repr

/-- Exact native package expected to provide one logical component. -/
structure NativeProvider where
  package : String
  version : String
  activation : ActivationRequirement
  files : List InstalledFile
  deriving DecidableEq, Repr

structure LicenseRecord where
  expression : String
  redistribution : RedistributionVerdict
  evidenceSha256 : String
  deriving DecidableEq, Repr

structure PackageConflict where
  package : String
  resolution : ConflictResolution
  deriving DecidableEq, Repr

structure ComponentRequirement where
  version : String
  source : String
  sha256 : String
  provider : NativeProvider
  license : LicenseRecord
  deriving DecidableEq, Repr

structure QualificationRecord where
  evidenceId : String
  evidenceSha256 : String
  qualifiedAt : String
  hardwareClass : String
  testSuiteVersion : String
  deriving DecidableEq, Repr

/-- Versioned, independently qualified compatibility matrix. -/
structure Profile where
  schemaVersion : ℕ
  id : String
  stackRelease : String
  status : ProfileStatus
  packageManager : PackageManager
  conflicts : List PackageConflict
  platform : PlatformSelector
  hardware : List PciId
  kernel : KernelRange
  components : OrderedMap ComponentRequirement
  qualification : Option QualificationRecord
  deriving DecidableEq

def PROFILE_SCHEMA_VERSION : ℕ := 1

def REQUIRED_COMPONENTS : List String :=
  ["level_zero_loader", "npu_compiler", "npu_firmware", "npu_userspace_driver",
    "openvino_npu_plugin", "openvino_runtime"]

def MAX_PROFILE_BYTES : ℕ := 1048576
def MAX_SCALAR_BYTES : ℕ := 4096
def MAX_HARDWARE_IDS : ℕ := 64
def MAX_CONFLICTS : ℕ := 32
def MAX_PROVIDER_FILES : ℕ := 16

def APPROVED_FILE_PREFIXES : List String :=
  ["/usr/bin/", "/usr/lib/", "/usr/lib64/", "/usr/libexec/", "/usr/share/", "/usr/lib/firmware/"]

def fieldInvalid (message : String) : SchemaError := ⟨"PROFILE_FIELD_INVALID", message⟩
def pciIdInvalid (message : String) : SchemaError := ⟨"PROFILE_PCI_ID_INVALID", message⟩
def resourceLimit (message : String) : SchemaError := ⟨"PROFILE_RESOURCE_LIMIT", message⟩
def packageInvalid (message : String) : SchemaError := ⟨"PROFILE_PACKAGE_INVALID", message⟩
def hashInvalid (message : String) : SchemaError := ⟨"PROFILE_HASH_INVALID", message⟩
def provenanceInvalid (message : String) : SchemaError := ⟨"PROFILE_PROVENANCE_INVALID", message⟩

/-! ### Scalar predicates -/

/-- Empty, surrounded by whitespace, or holding a control character. -/
def blank (value : String) : Bool :=
  value = "" || trim value ≠ value || value.toList.any isControl

def requireNonempty (field value : String) : Except SchemaError Unit :=
  refuse (blank value) (fieldInvalid
    (field ++ " must be nonempty and contain no surrounding whitespace or controls"))

def requireQualificationText (field value : String) : Except SchemaError Unit :=
  refuse (blank value) ⟨"PROFILE_QUALIFICATION_MISSING",
    field ++ " must be nonempty and contain no surrounding whitespace or controls"⟩

def isLowerHexQuad (value : String) : Bool := len value = 4 && all isLowerHex value

def isSha256 (value : String) : Bool := len value = 64 && all isLowerHex value

def isHttpsSource (value : String) : Bool :=
  match stripPrefix "https://" value with
  | some remainder => remainder ≠ "" && !remainder.toList.any isWhitespace
  | none => false

def isPackageName (value : String) : Bool :=
  value ≠ "" && all (fun c => c.isAlphanum || ".+-_".toList.contains c) value

def isPackageVersion (value : String) : Bool :=
  value ≠ "" && all (fun c => c.isAlphanum || ".+-_:~^".toList.contains c) value

/-- `value.contains("//")`. -/
def hasDoubleSlash (value : String) : Bool := value.toList.tails.any (['/', '/'].isPrefixOf ·)

def isApprovedFilePath (value : String) : Bool :=
  APPROVED_FILE_PREFIXES.any (startsWith · value) && !endsWith "/" value && !hasDoubleSlash value &&
    !value.toList.any isControl &&
    ((split '/' value).drop 1).all fun c => c ≠ "" && c ≠ "." && c ≠ ".."

/-! ### Validation -/

/-- Every scalar `validate_scalar_limits` measures. -/
def Profile.scalars (p : Profile) : List String :=
  [p.id, p.stackRelease, p.platform.id, p.platform.versionId, p.platform.arch, p.kernel.min,
    p.kernel.maxExclusive, p.kernel.module] ++
  p.hardware.flatMap (fun h => [h.vendor, h.device]) ++
  p.conflicts.map (·.package) ++
  p.components.entries.flatMap (fun (name, c) =>
    [name, c.version, c.source, c.sha256, c.provider.package, c.provider.version,
      c.license.expression, c.license.evidenceSha256] ++
    c.provider.files.flatMap fun f => [f.path, f.sha256]) ++
  p.qualification.toList.flatMap fun q =>
    [q.evidenceId, q.evidenceSha256, q.qualifiedAt, q.hardwareClass, q.testSuiteVersion]

def checkScalarLimit (value : String) : Except SchemaError Unit :=
  refuse (len value > MAX_SCALAR_BYTES) (resourceLimit "profile scalar exceeds 4096 bytes")

def Profile.validateScalarLimits (p : Profile) : Except SchemaError Unit :=
  forM p.scalars checkScalarLimit

/-- One conflict, against the name before it: valid, and strictly after. -/
def validateConflict (previous : Option String) (conflict : PackageConflict) :
    Except SchemaError (Option String) := do
  refuse (!isPackageName conflict.package) (packageInvalid "conflict package name is invalid")
  refuse (previous.any fun p => conflict.package ≤ p)
    (packageInvalid "conflict package names must be sorted and unique")
  return some conflict.package

def validatePciId (id : PciId) : Except SchemaError Unit :=
  refuse (!isLowerHexQuad id.vendor || !isLowerHexQuad id.device)
    (pciIdInvalid ("invalid PCI identifier " ++ id.vendor ++ ":" ++ id.device))

def validateFile (name : String) (file : InstalledFile) : Except SchemaError Unit := do
  refuse (!isApprovedFilePath file.path)
    ⟨"PROFILE_PATH_INVALID", "component " ++ name ++ " critical file path is invalid"⟩
  refuse (!isSha256 file.sha256) (hashInvalid
    ("component " ++ name ++ " critical file SHA-256 must be 64 lowercase hexadecimal digits"))

def validateComponent (entry : String × ComponentRequirement) : Except SchemaError Unit := do
  let (name, component) := entry
  requireNonempty ("component " ++ name ++ " version") component.version
  refuse (!isHttpsSource component.source)
    (fieldInvalid ("component " ++ name ++ " source must be a nonempty HTTPS URL"))
  refuse (!isSha256 component.sha256)
    (hashInvalid ("component " ++ name ++ " SHA-256 must be 64 lowercase hexadecimal digits"))
  refuse (!isPackageName component.provider.package)
    (packageInvalid ("component " ++ name ++ " provider package is invalid"))
  refuse (!isPackageVersion component.provider.version)
    (packageInvalid ("component " ++ name ++ " provider version is invalid"))
  refuse (component.provider.files = [] ∨ component.provider.files.length > MAX_PROVIDER_FILES)
    (resourceLimit ("component " ++ name ++ " must have between 1 and 16 critical files"))
  forM component.provider.files (validateFile name)
  requireNonempty ("component " ++ name ++ " license expression") component.license.expression
  refuse (!isSha256 component.license.evidenceSha256)
    (provenanceInvalid ("component " ++ name ++ " license evidence SHA-256 is invalid"))

/-- A qualified profile carries well-formed evidence and forbids no component. -/
def validateQualification (p : Profile) : Except SchemaError Unit := do
  let evidence ← need p.qualification
    ⟨"PROFILE_QUALIFICATION_MISSING", "qualified profile requires qualification evidence"⟩
  requireQualificationText "qualification evidence id" evidence.evidenceId
  refuse (!isSha256 evidence.evidenceSha256)
    (provenanceInvalid "qualification evidence SHA-256 is invalid")
  requireQualificationText "qualification timestamp" evidence.qualifiedAt
  requireQualificationText "qualification hardware class" evidence.hardwareClass
  requireQualificationText "qualification test suite version" evidence.testSuiteVersion
  refuse (p.components.values.any fun c => c.license.redistribution = .forbidden)
    (provenanceInvalid "qualified profile contains a forbidden redistribution verdict")

/-- The component keys are exactly the required ones. -/
def validateComponentKeys (keys : List String) : Except SchemaError Unit := do
  refuseSome (REQUIRED_COMPONENTS.find? (· ∉ keys)) fun missing =>
    ⟨"PROFILE_COMPONENT_MISSING", "required component " ++ missing ++ " is missing"⟩
  refuseSome (keys.find? (· ∉ REQUIRED_COMPONENTS)) fun extra =>
    fieldInvalid ("unknown component " ++ extra)

def Profile.validate (p : Profile) : Except SchemaError Unit := do
  refuse (p.schemaVersion ≠ PROFILE_SCHEMA_VERSION)
    ⟨"PROFILE_SCHEMA_UNSUPPORTED", "unsupported schema version " ++ p.schemaVersion.repr⟩
  refuse (p.hardware.length > MAX_HARDWARE_IDS)
    (resourceLimit "profile has more than 64 hardware identifiers")
  refuse (p.conflicts.length > MAX_CONFLICTS) (resourceLimit "profile has more than 32 conflicts")
  p.validateScalarLimits
  requireNonempty "profile id" p.id
  requireNonempty "stack release" p.stackRelease
  requireNonempty "platform id" p.platform.id
  requireNonempty "platform version" p.platform.versionId
  requireNonempty "platform architecture" p.platform.arch
  refuse (p.hardware = []) (pciIdInvalid "at least one PCI identifier is required")
  let _ ← p.conflicts.foldlM validateConflict none
  forM p.hardware validatePciId
  refuse (p.kernel.module ≠ "intel_vpu") (fieldInvalid "kernel module must be intel_vpu")
  let minimum ← KernelVersion.parseRelease p.kernel.min
  let maximum ← KernelVersion.parseRelease p.kernel.maxExclusive
  refuse (maximum ≤ minimum)
    ⟨"PROFILE_KERNEL_RANGE_INVALID", "kernel minimum must be lower than the exclusive maximum"⟩
  validateComponentKeys p.components.keys
  forM p.components.entries validateComponent
  if p.status = .qualified then validateQualification p

/-- Parses a TOML document with the given parser and applies all validation. -/
def Profile.parseToml (toml : String → Except String Profile) (input : String) :
    Except SchemaError Profile := do
  refuse (len input > MAX_PROFILE_BYTES) (resourceLimit "profile input exceeds 1048576 bytes")
  let profile ← (toml input).mapError fun error => ⟨"PROFILE_TOML_INVALID", "invalid TOML: " ++ error⟩
  profile.validate
  return profile

/-! ### What validation establishes -/

theorem validateComponentKeys_ok {keys : List String} (hk : keys.Pairwise (· < ·))
    (h : validateComponentKeys keys = .ok ()) : keys = REQUIRED_COMPONENTS := by
  simp only [validateComponentKeys, except_bind_ok, refuseSome_ok, List.find?_eq_none,
    decide_eq_true_eq, not_not] at h
  obtain ⟨_, hreq, hkey⟩ := h
  have hsorted : REQUIRED_COMPONENTS.Pairwise (· < ·) := by decide
  exact OrderedMap.eq_of_mem_iff hk hsorted fun k => ⟨hkey k, hreq k⟩

/-- A validated profile has exactly the six required components, in order. -/
theorem Profile.keys_of_validate {p : Profile} (h : p.validate = .ok ()) :
    p.components.keys = REQUIRED_COMPONENTS := by
  simp only [Profile.validate, except_bind_ok] at h
  obtain ⟨_, -, _, -, _, -, _, -, _, -, _, -, _, -, _, -, _, -, _, -, _, -, _, -, _, -, _, -, _, -,
    _, -, _, hkeys, -⟩ := h
  exact validateComponentKeys_ok p.components.keys_increasing hkeys

/-- Parsing returns exactly the validated profiles of bounded documents. -/
theorem Profile.parseToml_ok {toml : String → Except String Profile} {input : String} {p : Profile} :
    Profile.parseToml toml input = .ok p ↔
      len input ≤ MAX_PROFILE_BYTES ∧ toml input = .ok p ∧ p.validate = .ok () := by
  simp only [Profile.parseToml, except_bind_ok, refuse_ok, not_lt, pure, Except.pure,
    Except.ok.injEq]
  constructor
  · rintro ⟨_, hlen, q, hq, _, hvalid, rfl⟩
    refine ⟨hlen, ?_, hvalid⟩
    cases hp : toml input with
    | ok r => rw [hp] at hq; cases hq; rfl
    | error e => rw [hp] at hq; cases hq
  · rintro ⟨hlen, hparse, hvalid⟩
    exact ⟨(), hlen, p, by rw [hparse]; rfl, (), hvalid, rfl⟩

end NpuStack.Schema
