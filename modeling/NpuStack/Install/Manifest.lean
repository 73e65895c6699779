import Mathlib.Data.List.Sort
import NpuStack.Schema.Profile
import NpuStack.Schemes.Serde

/-! The release manifest: strict parsing, binding of the profile, and the selected packages.

        release.json ──parseJson──▶ ReleaseManifest ──selectedPackages──▶ sorted selection
        profile.toml ──bindProfile──▶ Profile          (digest, schema, every component)

    A `ReleaseManifest` carries the outcome of its own validation, so names and filenames are
    unique wherever one is in hand. Hashing and the JSON and TOML parsers are third-party crates:
    they are parameters, collected in `Crates`. -/

namespace NpuStack.Install
open Interaction Text Schema Serde

/-- Third-party crates the installer calls: `sha2` (lower-case hexadecimal), `serde_json`'s parser
    and `toml`'s deserializer. -/
structure Crates where
  sha256 : Bytes → String
  json : Bytes → Option Json
  toml : String → Except String Profile

/-- Stable installer failure category. -/
structure InstallError where
  exitCode : ℕ
  code : String
  message : String
  deriving DecidableEq, Repr

namespace InstallError

def integrity (message : String) : InstallError := ⟨20, "INSTALL_INTEGRITY_FAILED", message⟩

def metadata (message : String) : InstallError := ⟨20, "INSTALL_METADATA_INVALID", message⟩

def unavailable : InstallError := ⟨10, "INSTALL_CAPABILITY_UNAVAILABLE",
  "the release does not provide the requested optional capability"⟩

end InstallError

/-- Requested purpose of a release artifact. -/
inductive PackageRole where
  | runtime | python | devel | profile
  deriving DecidableEq, Repr

/-- Exact RPM identity from release metadata. -/
structure ReleasePackage where
  name : String
  nevr : String
  arch : String
  filename : String
  sha256 : String
  role : PackageRole
  deriving DecidableEq, Repr

/-- Versioned repository location and expected metadata bytes. -/
structure ReleaseRepository where
  id : String
  baseUrl : String
  repomdSha256 : String
  deriving DecidableEq, Repr

structure ManifestDocument where
  schemaVersion : ℕ
  stackRelease : String
  testOnly : Bool
  profileSha256 : String
  repository : ReleaseRepository
  packages : List ReleasePackage
  deriving DecidableEq, Repr

def MAX_METADATA_BYTES : ℕ := 1048576
def MAX_PACKAGES : ℕ := 128

/-! ### Strict JSON records -/

def readRole (j : Json) : Option PackageRole := do
  match ← readVariant j with
  | "runtime" => some .runtime
  | "python" => some .python
  | "devel" => some .devel
  | "profile" => some .profile
  | _ => none

def readPackage (j : Json) : Option ReleasePackage := do
  let f ← j.fields ["name", "nevr", "arch", "filename", "sha256", "role"]
  return {
    name := ← required f "name" readStr
    nevr := ← required f "nevr" readStr
    arch := ← required f "arch" readStr
    filename := ← required f "filename" readStr
    sha256 := ← required f "sha256" readStr
    role := ← required f "role" readRole }

def readRepository (j : Json) : Option ReleaseRepository := do
  let f ← j.fields ["id", "base_url", "repomd_sha256"]
  return {
    id := ← required f "id" readStr
    baseUrl := ← required f "base_url" readStr
    repomdSha256 := ← required f "repomd_sha256" readStr }

def readManifest (j : Json) : Option ManifestDocument := do
  let f ← j.fields
    ["schema_version", "stack_release", "test_only", "profile_sha256", "repository", "packages"]
  return {
    schemaVersion := ← required f "schema_version" (readUnsigned 32)
    stackRelease := ← required f "stack_release" readStr
    testOnly := ← defaulted f "test_only" readBool false
    profileSha256 := ← required f "profile_sha256" readStr
    repository := ← required f "repository" readRepository
    packages := ← required f "packages" (readVec readPackage) }

/-! ### Identities -/

def digest (value : String) : Bool := len value = 64 && all isLowerHex value

def identifierChar (c : Char) : Bool := c.isAlphanum || "-_.+".toList.contains c

def identifier (value : String) : Bool :=
  value ≠ "" && len value ≤ 128 && value.toList.head?.any Char.isAlphanum && all identifierChar value

/-- Digits without a leading zero, below `2 ^ 32`. -/
def canonicalU32 (part : String) : Bool :=
  isDigits part && (len part = 1 || !startsWith "0" part) && (parseUnsigned 32 part).isSome

/-- Releases are numeric triples. -/
def releaseVersion (value : String) : Bool :=
  let parts := split '.' value
  parts.length = 3 && parts.all canonicalU32

def hostLabel (label : String) : Bool :=
  label ≠ "" && len label ≤ 63 && label.toList.head?.any Char.isAlphanum &&
    label.toList.getLast?.any Char.isAlphanum && all (fun c => c.isAlphanum || c = '-') label

def pathSegment (part : String) : Bool :=
  identifier part && part ≠ "." && part ≠ ".." &&
    !(["latest", "current", "stable", "experimental"].contains part)

def repositoryUrl (url version : String) : Bool :=
  if len url > 2048 then false
  else match stripPrefix "https://" url with
  | none => false
  | some rest => match splitOnce '/' rest with
  | none => false
  | some (host, path) =>
    if len host > 253 || !contains '.' host || !(split '.' host).all hostLabel then false
    else match stripSuffix "/" path with
    | none => false
    | some path =>
      let segments := split '/' path
      (segments.contains version || segments.contains ("v" ++ version)) && segments.all pathSegment

def rpmScalar (value : String) : Bool :=
  value ≠ "" && all (fun c => c.isAlphanum || "._+~^".toList.contains c) value

def validatePackage (package : ReleasePackage) : Except InstallError Unit := do
  refuse (!identifier package.name || !digest package.sha256 ||
      !(["x86_64", "noarch"].contains package.arch) || len package.nevr > 256)
    (.metadata "invalid RPM package identity")
  let (epoch, vr) ← need (splitOnce ':' package.nevr)
    (.metadata "RPM identity requires an explicit epoch")
  let (version, release) ← need (splitOnce '-' vr)
    (.metadata "RPM identity requires version and release")
  refuse (epoch = "" || !all Char.isDigit epoch || (parseUnsigned 32 epoch).isNone ||
      (len epoch > 1 && startsWith "0" epoch) || !rpmScalar version || !rpmScalar release ||
      !endsWith ".fc44" release ||
      package.filename ≠ package.name ++ "-" ++ version ++ "-" ++ release ++ "." ++ package.arch ++ ".rpm")
    (.metadata "RPM NEVR, filename or Fedora release mismatch")

/-! ### The manifest -/

/-- One package of the document, against the names and filenames seen before it. -/
def checkPackage (seen : List String × List String) (package : ReleasePackage) :
    Except InstallError (List String × List String) := do
  validatePackage package
  refuse (package.name ∈ seen.1 ∨ package.filename ∈ seen.2)
    (.metadata "duplicate release package identity")
  return (package.name :: seen.1, package.filename :: seen.2)

def REQUIRED_PACKAGES : List String := ["intel-npu-stack", "intel-npu-stack-tools"]

/-- Every check `parse_json` makes on the decoded document. -/
def validateDocument (document : ManifestDocument) : Except InstallError Unit := do
  refuse (document.schemaVersion ≠ 1 || !releaseVersion document.stackRelease ||
      !digest document.profileSha256 || !identifier document.repository.id ||
      !digest document.repository.repomdSha256 ||
      !repositoryUrl document.repository.baseUrl document.stackRelease)
    (.metadata "invalid release or repository identity")
  refuse (document.packages = [] ∨ document.packages.length > MAX_PACKAGES)
    (.metadata "release package count is out of range")
  let _ ← document.packages.foldlM checkPackage ([], [])
  forM REQUIRED_PACKAGES fun name =>
    refuse (!document.packages.any fun p => p.name = name && p.role = .runtime)
      (.metadata "required runtime tools or metapackage is absent")

/-- Structurally validated, but unauthenticated, release metadata. -/
structure ReleaseManifest where
  document : ManifestDocument
  validated : validateDocument document = .ok ()

namespace ReleaseManifest

variable (crates : Crates)

/-- Parses bounded JSON and validates exact Fedora 44 artifact identities. -/
def parseJson (bytes : Bytes) : Except InstallError ReleaseManifest := do
  refuse (bytes.length > MAX_METADATA_BYTES) (.metadata "release metadata exceeds its byte limit")
  let document ← need ((crates.json bytes).bind readManifest)
    (.metadata "release metadata is not strict schema-one JSON")
  match h : validateDocument document with
  | .ok () => .ok ⟨document, h⟩
  | .error e => .error e

def packages (m : ReleaseManifest) : List ReleasePackage := m.document.packages

def repository (m : ReleaseManifest) : ReleaseRepository := m.document.repository

def stackRelease (m : ReleaseManifest) : String := m.document.stackRelease

/-- One profile component against the release inventory. -/
def bindComponent (packages : List ReleasePackage) (entry : String × ComponentRequirement) :
    Except InstallError Unit := do
  let (capability, component) := entry
  let package ← need (packages.find? fun p => p.name = component.provider.package)
    (.metadata "profile component is absent from release packages")
  refuse (package.role ≠ .runtime ∨ package.nevr ≠ component.provider.version ∨
      package.sha256 ≠ component.sha256 ∨ component.license.redistribution = .forbidden ∨
      (component.license.redistribution = .externalOnly ∧
        (capability ≠ "level_zero_loader" ∨ package.name ≠ "oneapi-level-zero")))
    (.metadata "profile component identity or redistribution mismatch")

/-- Binds exact profile bytes and every component to the release inventory. -/
def bindProfile (m : ReleaseManifest) (bytes : Bytes) : Except InstallError Profile := do
  refuse (bytes.length > MAX_METADATA_BYTES ∨ crates.sha256 bytes ≠ m.document.profileSha256)
    (.metadata "profile bytes do not match release metadata")
  let text ← need (fromUtf8 bytes) (.metadata "profile is not UTF-8")
  let profile ← (Profile.parseToml crates.toml text).mapError
    fun _ => .metadata "profile validation failed"
  refuse (profile.stackRelease ≠ m.document.stackRelease ∨ profile.packageManager ≠ .rpm ∨
      profile.platform.id ≠ "fedora" ∨ profile.platform.versionId ≠ "44" ∨
      profile.platform.arch ≠ "x86_64")
    (.metadata "profile does not match this Fedora release")
  forM profile.components.entries (bindComponent m.packages)
  return profile

/-- Whether the options select a package of this role. -/
def roleSelected (withPython withDevel : Bool) : PackageRole → Bool
  | .runtime | .profile => true
  | .python => withPython
  | .devel => withDevel

/-- The packages the options select, before sorting. -/
def selectedUnsorted (m : ReleaseManifest) (withPython withDevel : Bool) : List ReleasePackage :=
  m.packages.filter fun p => roleSelected withPython withDevel p.role

def byName (a b : ReleasePackage) : Prop := a.name ≤ b.name

instance : DecidableRel byName := fun a b => inferInstanceAs (Decidable (a.name ≤ b.name))

/-- Exact requested artifacts, sorted by name. -/
def selectedPackages (m : ReleaseManifest) (withPython withDevel : Bool) :
    Except InstallError (List ReleasePackage) := do
  forM [(withPython, PackageRole.python), (withDevel, PackageRole.devel)] fun (requested, role) =>
    refuse (requested && !m.packages.any fun p => p.role = role) .unavailable
  return (m.selectedUnsorted withPython withDevel).insertionSort byName

/-! ### What a validated manifest guarantees -/

variable {crates}

theorem checkPackage_ok {seen seen' : List String × List String} {package : ReleasePackage} :
    checkPackage seen package = .ok seen' ↔ validatePackage package = .ok () ∧
      package.name ∉ seen.1 ∧ package.filename ∉ seen.2 ∧
      seen' = (package.name :: seen.1, package.filename :: seen.2) := by
  simp only [checkPackage, except_bind_ok, refuse_ok, not_or, pure, Except.pure, Except.ok.injEq]
  constructor
  · rintro ⟨_, hv, _, ⟨hn, hf⟩, rfl⟩
    exact ⟨hv, hn, hf, rfl⟩
  · rintro ⟨hv, hn, hf, rfl⟩
    exact ⟨(), hv, (), ⟨hn, hf⟩, rfl⟩

/-- A successful scan of the packages: each is valid, and no name or filename repeats. -/
theorem scan_ok : ∀ {packages : List ReleasePackage} {seen seen' : List String × List String},
    packages.foldlM checkPackage seen = .ok seen' →
      (∀ p ∈ packages, validatePackage p = .ok () ∧ p.name ∉ seen.1 ∧ p.filename ∉ seen.2) ∧
      (packages.map (·.name)).Nodup ∧ (packages.map (·.filename)).Nodup
  | [], _, _, _ => by simp
  | p :: packages, seen, seen', h => by
    rw [List.foldlM_cons, except_bind_ok] at h
    obtain ⟨mid, hp, hrest⟩ := h
    obtain ⟨hv, hn, hf, rfl⟩ := checkPackage_ok.mp hp
    obtain ⟨hall, hnames, hfiles⟩ := scan_ok hrest
    refine ⟨?_, ?_, ?_⟩
    · intro q hq
      rcases List.mem_cons.mp hq with rfl | hq
      · exact ⟨hv, hn, hf⟩
      · obtain ⟨hqv, hqn, hqf⟩ := hall q hq
        exact ⟨hqv, fun h => hqn (List.mem_cons_of_mem _ h), fun h => hqf (List.mem_cons_of_mem _ h)⟩
    · refine List.nodup_cons.mpr ⟨fun hmem => ?_, hnames⟩
      obtain ⟨q, hq, heq⟩ := List.mem_map.mp hmem
      exact (hall q hq).2.1 (heq ▸ List.mem_cons_self)
    · refine List.nodup_cons.mpr ⟨fun hmem => ?_, hfiles⟩
      obtain ⟨q, hq, heq⟩ := List.mem_map.mp hmem
      exact (hall q hq).2.2 (heq ▸ List.mem_cons_self)

/-- Conversely, valid packages without a repeated name or filename pass the scan. -/
theorem scan_of_nodup : ∀ {packages : List ReleasePackage} {seen : List String × List String},
    (∀ p ∈ packages, validatePackage p = .ok () ∧ p.name ∉ seen.1 ∧ p.filename ∉ seen.2) →
      (packages.map (·.name)).Nodup → (packages.map (·.filename)).Nodup →
      ∃ seen', packages.foldlM checkPackage seen = .ok seen'
  | [], seen, _, _, _ => ⟨seen, rfl⟩
  | p :: packages, seen, hall, hn, hf => by
    rw [List.map_cons, List.nodup_cons] at hn hf
    obtain ⟨hv, hpn, hpf⟩ := hall p (by simp)
    have hstep : checkPackage seen p = .ok (p.name :: seen.1, p.filename :: seen.2) :=
      checkPackage_ok.mpr ⟨hv, hpn, hpf, rfl⟩
    have hrest : ∀ q ∈ packages, validatePackage q = .ok () ∧ q.name ∉ p.name :: seen.1 ∧
        q.filename ∉ p.filename :: seen.2 := by
      intro q hq
      obtain ⟨hqv, hqn, hqf⟩ := hall q (by simp [hq])
      refine ⟨hqv, ?_, ?_⟩
      · rw [List.mem_cons, not_or]
        exact ⟨fun h => hn.1 (h ▸ List.mem_map_of_mem hq), hqn⟩
      · rw [List.mem_cons, not_or]
        exact ⟨fun h => hf.1 (h ▸ List.mem_map_of_mem hq), hqf⟩
    obtain ⟨seen', hseen⟩ :=
      @scan_of_nodup packages (p.name :: seen.1, p.filename :: seen.2) hrest hn.2 hf.2
    exact ⟨seen', by rw [List.foldlM_cons, hstep]; exact hseen⟩

/-- Parsing succeeds exactly on bounded bytes holding a valid document. -/
theorem parseJson_ok {bytes : Bytes} {m : ReleaseManifest} : parseJson crates bytes = .ok m ↔
    bytes.length ≤ MAX_METADATA_BYTES ∧ (crates.json bytes).bind readManifest = some m.document := by
  simp only [parseJson, except_bind_ok, refuse_ok, need_ok, not_lt]
  constructor
  · rintro ⟨-, hlen, document, hdoc, h⟩
    split at h
    · cases h; exact ⟨hlen, hdoc⟩
    · cases h
  · rintro ⟨hlen, hdoc⟩
    refine ⟨(), hlen, m.document, hdoc, ?_⟩
    split
    · rfl
    · next e he => rw [m.validated] at he; cases he

theorem validated_parts (m : ReleaseManifest) :
    (∃ seen, m.packages.foldlM checkPackage ([], []) = .ok seen) ∧
      ∀ name ∈ REQUIRED_PACKAGES, ∃ p ∈ m.packages, p.name = name ∧ p.role = .runtime := by
  have h := m.validated
  simp only [validateDocument, except_bind_ok, except_forM_ok, refuse_ok] at h
  obtain ⟨_, -, _, -, seen, hscan, hreq⟩ := h
  refine ⟨⟨seen, hscan⟩, fun name hname => ?_⟩
  have := hreq name hname
  simpa [packages] using this

theorem package_valid (m : ReleaseManifest) {p : ReleasePackage} (hp : p ∈ m.packages) :
    validatePackage p = .ok () := by
  obtain ⟨⟨_, hscan⟩, -⟩ := m.validated_parts
  exact ((scan_ok hscan).1 p hp).1

theorem names_nodup (m : ReleaseManifest) : (m.packages.map (·.name)).Nodup := by
  obtain ⟨⟨_, hscan⟩, -⟩ := m.validated_parts
  exact (scan_ok hscan).2.1

theorem filenames_nodup (m : ReleaseManifest) : (m.packages.map (·.filename)).Nodup := by
  obtain ⟨⟨_, hscan⟩, -⟩ := m.validated_parts
  exact (scan_ok hscan).2.2

/-- A package is determined by its name. -/
theorem eq_of_name_eq (m : ReleaseManifest) {p q : ReleasePackage} (hp : p ∈ m.packages)
    (hq : q ∈ m.packages) (h : p.name = q.name) : p = q :=
  List.inj_on_of_nodup_map m.names_nodup hp hq h

theorem exists_required (m : ReleaseManifest) {name : String} (h : name ∈ REQUIRED_PACKAGES) :
    ∃ p ∈ m.packages, p.name = name ∧ p.role = .runtime := m.validated_parts.2 name h

/-- The packages of one name are exactly the one that has it. -/
theorem filter_name (m : ReleaseManifest) {p : ReleasePackage} (hp : p ∈ m.packages) :
    m.packages.filter (fun q => q.name = p.name) = [p] := by
  have hnd : m.packages.Nodup := List.Nodup.of_map _ m.names_nodup
  refine List.perm_singleton.mp ((List.perm_ext_iff_of_nodup (hnd.filter _) (by simp)).mpr fun q => ?_)
  simp only [List.mem_filter, decide_eq_true_eq, List.mem_singleton]
  exact ⟨fun h => m.eq_of_name_eq h.1 hp h.2, by rintro rfl; exact ⟨hp, rfl⟩⟩

/-! ### Bound profiles -/

/-- A bound component: its provider is a runtime package with the component's version and digest. -/
theorem bindComponent_ok {packages : List ReleasePackage} {entry : String × ComponentRequirement}
    (h : bindComponent packages entry = .ok ()) : ∃ p ∈ packages,
      p.name = entry.2.provider.package ∧ p.role = .runtime ∧
      p.nevr = entry.2.provider.version ∧ p.sha256 = entry.2.sha256 := by
  obtain ⟨capability, component⟩ := entry
  simp only [bindComponent, except_bind_ok, need_ok, refuse_ok, not_or, not_not] at h
  obtain ⟨p, hfind, hrole, hnevr, hsha, -⟩ := h
  have hname := List.find?_some hfind
  exact ⟨p, List.mem_of_find?_eq_some hfind, by simpa using hname, hrole, hnevr, hsha⟩

/-- What binding a profile establishes about the profile bytes, the platform and the components. -/
theorem bindProfile_ok {m : ReleaseManifest} {bytes : Bytes} {profile : Profile} :
    m.bindProfile crates bytes = .ok profile ↔ bytes.length ≤ MAX_METADATA_BYTES ∧
      crates.sha256 bytes = m.document.profileSha256 ∧
      (∃ text, fromUtf8 bytes = some text ∧ Profile.parseToml crates.toml text = .ok profile) ∧
      profile.stackRelease = m.stackRelease ∧ profile.packageManager = .rpm ∧
      profile.platform = ⟨"fedora", "44", "x86_64"⟩ ∧
      ∀ entry ∈ profile.components.entries, bindComponent m.packages entry = .ok () := by
  simp only [bindProfile, except_bind_ok, need_ok, refuse_ok, except_forM_ok, not_or, not_lt,
    not_not, pure, Except.pure, Except.ok.injEq]
  constructor
  · rintro ⟨_, ⟨hlen, hsha⟩, text, htext, q, hq, _, ⟨hrel, hrpm, hid, hver, harch⟩, _, hbind, rfl⟩
    refine ⟨hlen, hsha, ⟨text, htext, ?_⟩, hrel, hrpm, ?_, hbind⟩
    · cases hp : Profile.parseToml crates.toml text with
      | ok r => rw [hp] at hq; cases hq; rfl
      | error e => rw [hp] at hq; cases hq
    · rw [← hid, ← hver, ← harch]
  · rintro ⟨hlen, hsha, ⟨text, htext, hparse⟩, hrel, hrpm, hplat, hbind⟩
    refine ⟨(), ⟨hlen, hsha⟩, text, htext, profile, ?_, (), ?_, (), hbind, rfl⟩
    · rw [hparse]; rfl
    · simp [hrel, hrpm, hplat, stackRelease]

/-! ### Selections -/

theorem selectedPackages_ok {m : ReleaseManifest} {withPython withDevel : Bool}
    {sel : List ReleasePackage} : m.selectedPackages withPython withDevel = .ok sel ↔
      (withPython = true → ∃ p ∈ m.packages, p.role = .python) ∧
      (withDevel = true → ∃ p ∈ m.packages, p.role = .devel) ∧
      sel = (m.selectedUnsorted withPython withDevel).insertionSort byName := by
  simp only [selectedPackages, except_bind_ok, except_forM_ok, refuse_ok, pure, Except.pure,
    Except.ok.injEq]
  constructor
  · rintro ⟨_, hroles, rfl⟩
    have hp := hroles (withPython, .python) (by simp)
    have hd := hroles (withDevel, .devel) (by simp)
    exact ⟨fun h => by simpa [h] using hp, fun h => by simpa [h] using hd, rfl⟩
  · rintro ⟨hp, hd, rfl⟩
    refine ⟨(), ?_, rfl⟩
    intro r hr
    simp only [List.mem_cons, List.not_mem_nil, or_false] at hr
    rcases hr with rfl | rfl
    · cases withPython <;> simp_all
    · cases withDevel <;> simp_all

theorem mem_selected {m : ReleaseManifest} {withPython withDevel : Bool} {p : ReleasePackage} :
    p ∈ (m.selectedUnsorted withPython withDevel).insertionSort byName ↔
      p ∈ m.packages ∧ roleSelected withPython withDevel p.role = true := by
  rw [List.mem_insertionSort, selectedUnsorted, List.mem_filter]

theorem selected_perm (m : ReleaseManifest) (withPython withDevel : Bool) :
    ((m.selectedUnsorted withPython withDevel).insertionSort byName).Perm
      (m.selectedUnsorted withPython withDevel) := List.perm_insertionSort _ _

theorem selected_names_nodup (m : ReleaseManifest) (withPython withDevel : Bool) :
    (((m.selectedUnsorted withPython withDevel).insertionSort byName).map (·.name)).Nodup :=
  ((m.selected_perm withPython withDevel).map _).nodup_iff.mpr
    (m.names_nodup.sublist (List.filter_sublist.map _))

theorem selected_filenames_nodup (m : ReleaseManifest) (withPython withDevel : Bool) :
    (((m.selectedUnsorted withPython withDevel).insertionSort byName).map (·.filename)).Nodup :=
  ((m.selected_perm withPython withDevel).map _).nodup_iff.mpr
    (m.filenames_nodup.sublist (List.filter_sublist.map _))

theorem selected_sorted (m : ReleaseManifest) (withPython withDevel : Bool) :
    ((m.selectedUnsorted withPython withDevel).insertionSort byName).Pairwise
      fun a b => a.name < b.name := by
  have htotal : IsTrans ReleasePackage byName := ⟨fun _ _ _ h h' => le_trans h h'⟩
  have htot : Std.Total byName := ⟨fun a b => le_total a.name b.name⟩
  have hle := List.pairwise_insertionSort byName (m.selectedUnsorted withPython withDevel)
  have hne := List.pairwise_map.mp (m.selected_names_nodup withPython withDevel)
  exact (hle.and hne).imp fun h => lt_of_le_of_ne h.1 h.2

/-- A manifest stays valid when its packages are listed in another order. -/
theorem validated_perm (m : ReleaseManifest) {packages : List ReleasePackage}
    (h : packages.Perm m.packages) : validateDocument { m.document with packages } = .ok () := by
  have hv := m.validated
  simp only [validateDocument, except_bind_ok, except_forM_ok, refuse_ok, not_or] at hv ⊢
  obtain ⟨_, hid, _, ⟨hne, hmax⟩, -, -, hreq⟩ := hv
  have hscan := @scan_of_nodup packages ([], [])
    (fun p hp => ⟨m.package_valid (h.mem_iff.mp hp), by simp, by simp⟩)
    ((h.map _).nodup_iff.mpr m.names_nodup) ((h.map _).nodup_iff.mpr m.filenames_nodup)
  obtain ⟨seen, hseen⟩ := hscan
  refine ⟨(), hid, (), ⟨?_, ?_⟩, seen, hseen, ?_⟩
  · rintro rfl; exact hne h.nil_eq.symm
  · rw [h.length_eq]; exact hmax
  · intro name hname
    rw [h.any_eq]
    exact hreq name hname

/-- The selection depends on which packages the manifest holds, not on their order. -/
theorem selectedPackages_congr {m m' : ReleaseManifest} (withPython withDevel : Bool)
    (h : m.packages.Perm m'.packages) :
    m.selectedPackages withPython withDevel = m'.selectedPackages withPython withDevel := by
  have hany : ∀ role : PackageRole, (m.packages.any fun p => p.role = role) =
      m'.packages.any fun p => p.role = role := fun role => h.any_eq
  have hsel : (m.selectedUnsorted withPython withDevel).insertionSort byName =
      (m'.selectedUnsorted withPython withDevel).insertionSort byName := by
    refine List.Perm.eq_of_pairwise
      (fun (a b : ReleasePackage) _ _ (hab : a.name < b.name) hba =>
        absurd (hab.trans hba) (lt_irrefl _))
      (m.selected_sorted withPython withDevel) (m'.selected_sorted withPython withDevel) ?_
    exact ((m.selected_perm ..).trans (h.filter _)).trans (m'.selected_perm ..).symm
  simp only [selectedPackages, hany, hsel]

end ReleaseManifest

/-! ### A smallest release

Two packages, one of which provides all six components. The bytes are real documents, and on them
`Minimal.crates` answers as the crates do. -/

namespace Minimal

def tools : ReleasePackage where
  name := "intel-npu-stack-tools"
  nevr := "0:1.0-1.fc44"
  arch := "x86_64"
  filename := "intel-npu-stack-tools-1.0-1.fc44.x86_64.rpm"
  sha256 := "f9d35d43770d39092a663e665e82ae1d84a9e0da3d0d10c407acada6a40cd281"
  role := .runtime

def stack : ReleasePackage where
  name := "intel-npu-stack"
  nevr := "0:1.0-1.fc44"
  arch := "noarch"
  filename := "intel-npu-stack-1.0-1.fc44.noarch.rpm"
  sha256 := "6ee08e6eb3bc6f45bc99fcd39fcc479286a1beb0c04d39f204c61762378075d6"
  role := .runtime

def document : ManifestDocument where
  schemaVersion := 1
  stackRelease := "1.0.0"
  testOnly := false
  profileSha256 := "1719d9a9ff69065b8ab3cd43cda862dee577c3818775ad7397226e81d12bc83b"
  repository := ⟨"npu", "https://a.b/1.0.0/",
    "d0df476353bf7bd128a22e414a59d0baebd1fb57d11d6a197ad839227e02dad0"⟩
  packages := [tools, stack]

def manifest : ReleaseManifest := ⟨document, rfl⟩

def packageJson (p : ReleasePackage) : Json := .obj [("name", .str p.name), ("nevr", .str p.nevr),
  ("arch", .str p.arch), ("filename", .str p.filename), ("sha256", .str p.sha256),
  ("role", .str "runtime")]

def manifestJson : Json := .obj [("schema_version", .num "1"), ("stack_release", .str "1.0.0"),
  ("profile_sha256", .str document.profileSha256),
  ("repository", .obj [("id", .str document.repository.id),
    ("base_url", .str document.repository.baseUrl),
    ("repomd_sha256", .str document.repository.repomdSha256)]),
  ("packages", .arr [packageJson tools, packageJson stack])]

def manifestBytes : Bytes := utf8 manifestJson.render

def component : ComponentRequirement where
  version := "1.0"
  source := "https://a.b/c"
  sha256 := tools.sha256
  provider := ⟨tools.name, tools.nevr, .reboot,
    [⟨"/usr/bin/npu", "3b9c358f36f0a31b6ad3e14f309c7cf198ac9246e8316f9ce543d5b19ac02b80"⟩]⟩
  license := ⟨"MIT", .allowed, "ee8250fb76e094b34b471f13a73dbbe51d1ae142e9df59d7c0d31ec20f0a0a8e"⟩

def componentText (name : String) : String :=
  "[components." ++ name ++ "]\nversion = \"1.0\"\nsource = \"https://a.b/c\"\nsha256 = \"" ++
  component.sha256 ++ "\"\n[components." ++ name ++ ".provider]\npackage = \"intel-npu-stack-tools\"\n" ++
  "version = \"0:1.0-1.fc44\"\nactivation = \"reboot\"\n[[components." ++ name ++
  ".provider.files]]\npath = \"/usr/bin/npu\"\nsha256 = " ++
  "\"3b9c358f36f0a31b6ad3e14f309c7cf198ac9246e8316f9ce543d5b19ac02b80\"\n[components." ++ name ++
  ".license]\nexpression = \"MIT\"\nredistribution = \"allowed\"\nevidence_sha256 = " ++
  "\"ee8250fb76e094b34b471f13a73dbbe51d1ae142e9df59d7c0d31ec20f0a0a8e\"\n"

def profile : Profile where
  schemaVersion := 1
  id := "npu"
  stackRelease := "1.0.0"
  status := .experimental
  packageManager := .rpm
  conflicts := []
  platform := ⟨"fedora", "44", "x86_64"⟩
  hardware := [⟨"8086", "643e"⟩]
  kernel := ⟨"6.0.0", "8.0.0", "intel_vpu"⟩
  components := ⟨REQUIRED_COMPONENTS.map (·, component), by decide +kernel⟩
  qualification := none

def profileText : String :=
  "schema_version = 1\nid = \"npu\"\nstack_release = \"1.0.0\"\nstatus = \"experimental\"\n" ++
  "package_manager = \"rpm\"\nconflicts = []\n[platform]\nid = \"fedora\"\nversion_id = \"44\"\n" ++
  "arch = \"x86_64\"\n[[hardware]]\nvendor = \"8086\"\ndevice = \"643e\"\n[kernel]\nmin = \"6.0.0\"\n" ++
  "max_exclusive = \"8.0.0\"\nmodule = \"intel_vpu\"\n" ++
  String.join (REQUIRED_COMPONENTS.map componentText)

def profileBytes : Bytes := utf8 profileText

def crates : Crates where
  sha256 bytes :=
    if bytes = profileBytes then document.profileSha256
    else if bytes = manifestBytes then
      "dc155e53448afffa0c550e5b4c01f8c6431a2f5802f43e861368e2fe8dddd754"
    else "0000000000000000000000000000000000000000000000000000000000000000"
  json bytes := if bytes = manifestBytes then some manifestJson else none
  toml text := if text = profileText then .ok profile else .error "expected a key"

theorem manifest_length : manifestBytes.length = 712 := by
  rw [manifestBytes, length_utf8]
  decide +kernel

theorem profile_length : profileBytes.length = 3775 := by
  rw [profileBytes, length_utf8]
  decide +kernel

theorem manifest_parsed : ReleaseManifest.parseJson crates manifestBytes = .ok manifest := by
  refine ReleaseManifest.parseJson_ok.mpr ⟨?_, ?_⟩
  · rw [manifest_length]
    decide
  · have : crates.json manifestBytes = some manifestJson := by simp only [crates, if_true]
    rw [this]
    rfl

theorem profile_parsed : Profile.parseToml crates.toml profileText = .ok profile := by
  have hbound : len profileText ≤ MAX_PROFILE_BYTES := by
    rw [← length_utf8, ← profileBytes, profile_length]
    decide
  have hparsed : crates.toml profileText = .ok profile := by simp only [crates, if_true]
  refine Profile.parseToml_ok.mpr ⟨hbound, hparsed, rfl⟩

theorem profile_bound : manifest.bindProfile crates profileBytes = .ok profile := by
  refine ReleaseManifest.bindProfile_ok.mpr
    ⟨?_, ?_, ⟨profileText, fromUtf8_utf8 _, profile_parsed⟩, rfl, rfl, rfl, ?_⟩
  · rw [profile_length]
    decide
  · simp only [crates, if_true]
    rfl
  · have hcomponent : ∀ name, ReleaseManifest.bindComponent manifest.packages (name, component) =
        .ok () := fun _ => rfl
    intro entry hentry
    obtain ⟨name, -, rfl⟩ := List.mem_map.mp hentry
    exact hcomponent name

end Minimal

end NpuStack.Install
