import NpuStack.Ci.Signatures
import NpuStack.Schemes.FileTree
import NpuStack.Schemes.PyValue

/-! `check_release.py`: the gates of a signed release tree.

        release.json ─┬─ profile ── assembly-manifest.json ── output digests
                      ├─ checksums.sha256 ◀── every file of the tree
                      ├─ evidence
                      └─ signatures: release.json, checksums.sha256, repomd.xml, every RPM

    The tree is read as it stands, links followed where Python follows them. GnuPG, rpmkeys, SHA-256 and
    the JSON and TOML readers are parameters, collected in `Tools`. -/

namespace NpuStack.Ci
open Interaction Text FileTree
open Py (Value)

/-- What `check_release` runs or imports. -/
structure Tools where
  sha256 : Bytes → String
  /-- `json.loads` and `tomllib.loads`. -/
  json : String → Option Value
  toml : String → Option Value
  /-- `gpg --with-colons --import-options show-only --import` of the pinned key. -/
  keyListing : String
  /-- Whether GnuPG and rpm import the pinned key into an empty home. -/
  gpgImports : Bool
  rpmImports : Bool
  /-- `gpg --status-fd 1 --verify` of a signature over signed bytes: exit code and standard output. -/
  gpg : Bytes → Bytes → ℤ × String
  /-- `rpmkeys --checksig --verbose` of a file. -/
  rpmkeys : Option Bytes → ℤ × String

/-- A release tree. `outside` is what a package file name leads to that is absolute or climbs. -/
structure ReleaseTree where
  root : Node
  wellFormed : root.WellFormed
  outside : String → Target
  /-- What `rglob` yields below a directory that a link leads to. -/
  linked : List String → List Target

/-! ### Files of a tree -/

namespace ReleaseTree

def file (tree : ReleaseTree) (path : List String) : Target := lookup tree.root path

/-- `tree / 'packages' / filename`. -/
def package (tree : ReleaseTree) (filename : String) : Target :=
  if startsWith "/" filename || (split '/' filename).contains ".." then tree.outside filename
  else tree.file ("packages" :: (split '/' filename).filter fun part => part ≠ "" && part ≠ ".")

/-- Names `(tree / 'packages').glob('*.rpm')` yields. -/
def rpmNames (tree : ReleaseTree) : List String :=
  match (tree.file ["packages"]).found with
  | some (.directory names) => names.filter (endsWith ".rpm")
  | _ => []

/-- Every path below the tree that `is_file()`, links to files included. -/
def files (tree : ReleaseTree) : List (List String) :=
  ((walk [] tree.root).filter fun entry => entry.2.target.isFile).map Prod.fst

/-- What `(tree / path).rglob('*')` yields. -/
def below (tree : ReleaseTree) (path : List String) : List Target :=
  match reach tree.root path with
  | some node => (walk [] node).map fun entry => entry.2.target
  | none => tree.linked path

end ReleaseTree

/-! ### The gates -/

def QUALIFICATION_FIELDS : List String :=
  ["evidence_id", "evidence_sha256", "qualified_at", "hardware_class", "test_suite_version"]

def PACKAGE_FIELDS : List String := ["name", "nevr", "arch", "filename", "sha256", "role"]

def EVIDENCE_DIRS : List (List String) :=
  [["evidence", "spdx"], ["evidence", "notices"], ["evidence", "rollback"]]

/-- Files the checksums cannot list. -/
def UNLISTED : List String := ["checksums.sha256", "checksums.sha256.sig", "assembly-manifest.json"]

def isDigest (value : String) : Bool := Py.len value = 64 && all isLowerHex value

/-- An operation on a value of the wrong kind. -/
def raised : String := "TypeError, AttributeError or KeyError"

def malformed : String := "malformed release input"

def safeRelative (relative : String) : Except String Unit :=
  require (relative ≠ "" ∧ startsWith "/" relative = false ∧ contains '\\' relative = false ∧
    ∀ part ∈ split '/' relative, part ∉ ["", ".", ".."])
    "unsafe relative path in release evidence"

section
variable (tools : Tools)

def loadJson (target : Target) : Except String Value := do
  let content ← need (target.content) malformed
  let text ← need (Py.readText content) malformed
  let value ← need (tools.json text) malformed
  require value.asDict.isSome "unexpected JSON shape"
  return value

def loadToml (content : Bytes) : Except String Value := do
  let text ← need (Py.readText content) malformed
  need (tools.toml text) malformed

/-- `sha(path)`. -/
def shaOf (target : Target) : Except String String := do
  let content ← need (target.content) malformed
  return tools.sha256 content

/-- One entry of `release['packages']` against its file. -/
def verifyPackageEntry (tree : ReleaseTree) (entry : Value) : Except String Unit := do
  require entry.asDict.isSome "release package entries must be objects"
  forM PACKAGE_FIELDS fun field => do
    let value ← need (entry.get field) raised
    require (value.asStr.any (· ≠ "") = true) "incomplete release package entry"
  let sha256 ← need ((entry.index "sha256").bind Value.asStr) raised
  let filename ← need ((entry.index "filename").bind Value.asStr) raised
  require (isDigest sha256 = true) "invalid release package digest"
  require ((tree.package filename).isFile = true ∧ (tree.package filename).link = false)
    "release package is missing"
  let actual ← shaOf tools (tree.package filename)
  require (actual = sha256) "release package digest drift"

def verifyReleaseMetadata (tree : ReleaseTree) : Except String Value := do
  require ((tree.file ["release.json"]).isFile = true) "release metadata is missing"
  let release ← loadJson tools (tree.file ["release.json"])
  let schema ← need (release.get "schema_version") raised
  require (schema.eq (.int 1) = true) "unsupported release schema version"
  let testOnly ← need (release.get "test_only") raised
  require (testOnly matches .bool false) "signed release metadata must record a production composition"
  let packages ← need (release.get "packages") raised
  require (packages.asList.any (· ≠ []) = true) "release metadata lists no packages"
  forM (packages.asList.getD []) (verifyPackageEntry tools tree)
  let repository ← need (release.get "repository") raised
  require repository.asDict.isSome "release metadata lacks the repository record"
  let baseUrl ← need ((repository.getD "base_url" (.str "")).bind Value.asStr) raised
  require (startsWith "https://" baseUrl = true ∧ endsWith "/" baseUrl = true ∧
    contains '?' baseUrl = false ∧ contains '#' baseUrl = false)
    "release base URL must be an immutable HTTPS location"
  let repomd := tree.file ["repodata", "repomd.xml"]
  require (repomd.isFile = true ∧ repomd.link = false) "signed repomd is missing"
  let recorded ← need (repository.get "repomd_sha256") raised
  let actual ← shaOf tools repomd
  require (recorded.eq (.str actual) = true) "release metadata does not bind the repository metadata bytes"
  return release

/-- The documents of `verify_profile` with every component digest blanked. -/
def normalized (document : Value) : Except String Value := do
  let components ← need ((document.getD "components" (.dict [])).bind Value.asDict) raised
  let blanked ← components.mapM fun (capability, component) => do
    let component ← need (component.setItem "sha256" (.str "<rewritten>")) raised
    return (capability, component)
  if (document.index "components").isNone then return document
  else need (document.setItem "components" (.dict blanked)) raised

/-- Names and digests of the packages; of two entries of a name the last counts. -/
def byName (packages : List Value) : Except String (List (Value × Value)) :=
  packages.mapM fun entry => do
    let name ← need (entry.index "name") raised
    let sha256 ← need (entry.index "sha256") raised
    require name.hashable raised
    return (name, sha256)

def verifyComponent (byName : List (Value × Value)) (entry : String × Value) : Except String Unit := do
  let provider ← need ((entry.2.getD "provider" (.dict [])).bind (Value.get "package")) raised
  require provider.hashable raised
  let bound := (byName.reverse.find? fun entry => entry.1.eq provider).elim Value.none Prod.snd
  let own ← need (entry.2.get "sha256") raised
  require (bound.eq own = true) "shipped profile component digest does not bind its release package"

/-- The selected profile and the shipped one; returns the qualification record. -/
def verifyProfile (profile : Bytes) (release : Value) (tree : ReleaseTree) : Except String Value := do
  let document ← loadToml tools profile
  let status ← need (document.get "status") raised
  require (status.eq (.str "qualified") = true) "publication requires a qualified profile"
  let evidence ← need (document.get "qualification") raised
  require evidence.asDict.isSome "qualified profile lacks qualification evidence"
  forM QUALIFICATION_FIELDS fun field => do
    let value ← need (evidence.get field) raised
    require (value.asStr.any (Py.strip · ≠ "") = true) "qualification evidence field is empty"
  let evidenceSha256 ← need ((evidence.index "evidence_sha256").bind Value.asStr) raised
  require (isDigest evidenceSha256 = true) "qualification evidence SHA-256 is invalid"
  let stackRelease ← need (release.index "stack_release") raised
  let documentRelease ← need (document.get "stack_release") raised
  require (documentRelease.eq stackRelease = true) "profile release does not match the release metadata"
  let shippedFile := tree.file ["profile.toml"]
  require (shippedFile.isFile = true) "release tree profile is missing"
  let content ← need shippedFile.content malformed
  let shipped ← loadToml tools content
  let shippedStatus ← need (shipped.get "status") raised
  require (shippedStatus.eq (.str "qualified") = true)
    "the shipped profile must be qualified for stable selection"
  let shippedEvidence ← need (shipped.get "qualification") raised
  require (shippedEvidence.eq evidence = true)
    "shipped profile qualification record differs from the promoted profile"
  let recorded ← need (release.get "profile_sha256") raised
  require (recorded.eq (.str (tools.sha256 content)) = true)
    "release metadata does not bind the shipped profile bytes"
  let first ← normalized shipped
  let second ← normalized document
  require (first.eq second = true)
    "shipped profile diverges from the promoted profile beyond the signed-digest rewrite"
  let packages ← need ((release.getD "packages" (.list [])).bind Value.asList) raised
  let names ← byName packages
  let components ← need ((shipped.getD "components" (.dict [])).bind Value.asDict) raised
  forM components (verifyComponent names)
  return evidence

def verifyAssembly (tree : ReleaseTree) (release : Value) : Except String Value := do
  let manifest ← loadJson tools (tree.file ["assembly-manifest.json"])
  let passed ← need (manifest.get "passed") raised
  require (passed matches .bool true) "assembly did not pass"
  let testOnly ← need (manifest.get "test_only") raised
  require (testOnly matches .bool false)
    "publication requires a production assembly, not a test-only assembly"
  let ready ← need (manifest.get "release_ready") raised
  require (ready matches .bool false) "assembly must not claim release readiness by itself"
  let count ← need (manifest.get "package_count") raised
  let packages ← need ((release.getD "packages" (.list [])).bind Value.asList) raised
  require (count.eq (.int packages.length) = true)
    "assembly package count does not match the release metadata"
  return manifest

def verifyTreeDigests (tree : ReleaseTree) (manifest : Value) : Except String Unit := do
  let recorded ← need (manifest.get "output_digests") raised
  require (recorded.asDict.any (fun items => items.length ≠ 0) = true)
    "assembly records no output digests"
  forM (recorded.asDict.getD []) fun (relative, expected) => do
    safeRelative relative
    let target := tree.file (split '/' relative)
    require (target.isFile = true ∧ target.link = false) "assembly output is missing"
    let actual ← shaOf tools target
    require (expected.eq (.str actual) = true) "assembly output digest drift"

/-- `([0-9a-f]{64})  (.+)` in full: digest and path. -/
def checksumLine (line : String) : Option (String × String) :=
  let digest := String.ofList (line.toList.take 64)
  match stripPrefix "  " (String.ofList (line.toList.drop 64)) with
  | some relative =>
    if isDigest digest && relative ≠ "" && !contains '\n' relative then some (digest, relative) else none
  | none => none

/-- One line of the checksums file, after the entries read so far. -/
def recordChecksum (recorded : List (String × String)) (line : String) :
    Except String (List (String × String)) := do
  let (digest, relative) ← need (checksumLine line) "malformed checksums line"
  safeRelative relative
  require (relative ∉ recorded.map Prod.fst) "duplicate checksums entry"
  return recorded ++ [(relative, digest)]

/-- A file of the tree against the recorded entries. -/
def checkRecorded (tree : ReleaseTree) (recorded : List (String × String)) (path : List String) :
    Except String Unit := do
  if posix path ∈ UNLISTED then return () else do
    let digest ← need (recorded.lookup (posix path)) "file missing from checksums"
    let actual ← shaOf tools (tree.file path)
    require (actual = digest) "checksums drift"

def readChecksums (tree : ReleaseTree) : Except String (List (String × String)) := do
  let checksums := tree.file ["checksums.sha256"]
  require (checksums.isFile = true) "checksums file is missing"
  let text ← need (checksums.content.bind Py.readText) malformed
  (Py.splitlines text).foldlM recordChecksum []

def verifyChecksums (tree : ReleaseTree) : Except String (List (String × String)) := do
  let recorded ← readChecksums tree
  forM (tree.files.mergeSort (· ≤ ·)) (checkRecorded tools tree recorded)
  return recorded

def verifyEvidence (tree : ReleaseTree) : Except String (List (String × ℕ)) :=
  EVIDENCE_DIRS.mapM fun path => do
    require ((tree.file path).found matches some (.directory _)) "required evidence is missing"
    let files := (tree.below path).filter Target.isFile
    require (files.length ≠ 0) "required evidence is empty"
    return (posix path, files.length)

/-- `gpg_verify` on files of the tree. -/
def verifyFile (tree : ReleaseTree) (signature signed : List String) (fingerprint : String) :
    Except String Unit := do
  require (tools.gpgImports = true) malformed
  let signature ← need (tree.file signature).content malformed
  let signed ← need (tree.file signed).content malformed
  let (returncode, stdout) := tools.gpg signature signed
  gpgVerify returncode stdout fingerprint

def verifySignatures (tree : ReleaseTree) (fingerprint : String) : Except String Unit := do
  require ((tree.file ["release.json.sig"]).isFile = true)
    "detached release metadata signature is missing"
  verifyFile tools tree ["release.json.sig"] ["release.json"] fingerprint
  require ((tree.file ["checksums.sha256.sig"]).isFile = true) "detached checksums signature is missing"
  verifyFile tools tree ["checksums.sha256.sig"] ["checksums.sha256"] fingerprint
  require ((tree.file ["repodata", "repomd.xml"]).isFile = true ∧
    (tree.file ["repodata", "repomd.xml.asc"]).isFile = true) "signed repomd is missing"
  verifyFile tools tree ["repodata", "repomd.xml.asc"] ["repodata", "repomd.xml"] fingerprint

/-- `release['packages']` by file name. -/
def releaseFilenames (release : Value) : Except String (List String) := do
  let packages ← need ((release.index "packages").bind Value.asList) raised
  packages.mapM fun entry => need ((entry.index "filename").bind Value.asStr) raised

def verifyRpmSignatures (tree : ReleaseTree) (fingerprint : String) (release : Value) :
    Except String ℕ := do
  require (tree.rpmNames ≠ []) "no release packages found"
  let filenames ← releaseFilenames release
  require ((∀ name ∈ tree.rpmNames, name ∈ filenames) ∧ ∀ name ∈ filenames, name ∈ tree.rpmNames)
    "package files do not match the release metadata inventory"
  require (tree.rpmNames.length = filenames.length) "package count does not match the release metadata"
  require (tools.rpmImports = true) malformed
  forM tree.rpmNames fun name =>
    let (returncode, stdout) := tools.rpmkeys (tree.file ["packages", name]).content
    verifyRpmSignature returncode stdout fingerprint
  return tree.rpmNames.length

/-- The fingerprint of the pinned key, from the first `fpr:` line. -/
def pinnedFingerprint : Except String String := do
  let line ← need ((Py.splitlines tools.keyListing).find? (startsWith "fpr:"))
    "cannot read the pinned production fingerprint"
  let fingerprint ← need ((split ':' line)[9]?) raised
  require (isHexKey 40 fingerprint = true) "cannot read the pinned production fingerprint"
  return fingerprint

end

/-- What `check_release` reports of an accepted tree. -/
structure CheckResult where
  releaseVersion : Value
  repositoryId : Value
  baseUrl : Value
  profileSha256 : Value
  qualificationEvidenceSha256 : Value
  releaseKeyFingerprint : String
  packageCount : ℕ
  rpmSignaturesVerified : ℕ
  evidenceFiles : List (String × ℕ)
  treeDigests : List (String × String)

section
variable (tools : Tools)

def checkRelease (tree : ReleaseTree) (profile : Bytes) (outputExists keyIsFile : Bool) :
    Except String CheckResult := do
  require (outputExists = false) "publication manifest already exists"
  let release ← verifyReleaseMetadata tools tree
  let evidence ← verifyProfile tools profile release tree
  let manifest ← verifyAssembly tools tree release
  verifyTreeDigests tools tree manifest
  let _ ← verifyChecksums tools tree
  let evidenceFiles ← verifyEvidence tree
  require (keyIsFile = true) "pinned production trust key is missing"
  let fingerprint ← pinnedFingerprint tools
  verifySignatures tools tree fingerprint
  let rpmCount ← verifyRpmSignatures tools tree fingerprint release
  let repository ← need (release.index "repository") raised
  let packages ← need ((release.index "packages").bind Value.asList) raised
  let outputs ← need ((manifest.index "output_digests").bind Value.asDict) raised
  let treeDigests ← (outputs.map Prod.fst).mapM fun relative => do
    let sha256 ← shaOf tools (tree.file (split '/' relative))
    return (relative, sha256)
  return {
    releaseVersion := ← need (release.index "stack_release") raised
    repositoryId := ← need (repository.index "id") raised
    baseUrl := ← need (repository.index "base_url") raised
    profileSha256 := ← need (release.index "profile_sha256") raised
    qualificationEvidenceSha256 := ← need (evidence.index "evidence_sha256") raised
    releaseKeyFingerprint := fingerprint
    packageCount := packages.length
    rpmSignaturesVerified := rpmCount
    evidenceFiles := evidenceFiles
    treeDigests := treeDigests }

/-! ### What the gates establish -/

variable {tools}

/-- A path with no empty, current or parent part, and not absolute. -/
def Inside (relative : String) : Prop :=
  relative ≠ "" ∧ startsWith "/" relative = false ∧ ∀ part ∈ split '/' relative, part ∉ ["", ".", ".."]

/-- The entries read so far are inside the tree and listed once. -/
structure Recorded (recorded : List (String × String)) : Prop where
  inside : ∀ relative ∈ recorded.map Prod.fst, Inside relative
  unique : (recorded.map Prod.fst).Nodup

theorem shaOf_ok {target : Target} {sha256 : String} :
    shaOf tools target = .ok sha256 ↔ ∃ content, target.content = some content ∧
      tools.sha256 content = sha256 := by
  simp only [shaOf, except_bind_ok, need_ok]
  constructor
  · rintro ⟨content, hc, h⟩
    exact ⟨content, hc, Except.ok.inj h⟩
  · rintro ⟨content, hc, rfl⟩
    exact ⟨content, hc, rfl⟩

/-- What an accepted tree holds, read off the gates. -/
structure Accepted (tools : Tools) (tree : ReleaseTree) (recorded : List (String × String))
    (packages : List Value) (filenames : List String) : Prop where
  listing : Recorded recorded
  covered : ∀ path ∈ tree.files, posix path ∉ UNLISTED → ∃ digest content,
    recorded.lookup (posix path) = some digest ∧ (tree.file path).content = some content ∧
      tools.sha256 content = digest
  entries : ∀ entry ∈ packages, verifyPackageEntry tools tree entry = .ok ()
  names : packages.mapM (fun entry => need ((entry.index "filename").bind Value.asStr) raised) =
    Except.ok filenames
  nonempty : tree.rpmNames ≠ []
  inventory : ∀ name, name ∈ tree.rpmNames ↔ name ∈ filenames

theorem index_of_get {value : Value} {key : String} {items : List Value}
    (h : value.get key = some (.list items)) : value.index key = some (.list items) := by
  cases value with
  | dict fields =>
    rw [Value.get, Option.some.injEq] at h
    rw [Value.index]
    cases hl : fields.lookup key with
    | none =>
      rw [hl] at h
      cases h
    | some v =>
      rw [hl] at h
      exact congrArg some h
  | _ => cases h

/-- A name in the packages directory is a package path of one part. -/
theorem package_eq {tree : ReleaseTree} {filename : String} (h : isName filename = true) :
    tree.package filename = tree.file ["packages", filename] := by
  have hslash := slash_notMem h
  simp only [isName, Bool.and_eq_true, decide_eq_true_eq] at h
  obtain ⟨⟨⟨hne, -⟩, hdot⟩, hdots⟩ := h
  have hstart : startsWith "/" filename = false := by
    by_contra hs
    have htext := Py.removePrefix_of_startsWith (Bool.eq_true_of_not_eq_false hs)
    exact hslash (by rw [htext]; simp)
  have hclimb : [filename].contains ".." = false := by
    simp [List.contains_eq_mem, Ne.symm hdots]
  rw [ReleaseTree.package, split_of_notMem hslash, hstart, hclimb]
  simp [hne, hdot]

end

/-! ### A tree of one package, whose checksums also list a file that is not there -/

namespace Minimal

def RPM : String := "46b2f886ccac260bda27d4caf1a82d2990dc0c66d9361700a10bae24483084b4"

def PROFILE : String := "fdebe9e3e5d51055628061e282e80e67105777d573af91620bce964be4dc0ad0"

def REPOMD : String := "92b1fc7b34b24722c692f6abacf2a0dfc7b7f1bda4ac31f36351f324e30c5064"

def RELEASE : String := "a2310e479857e61c6bb58184a7931ab38db33a58f06320a9e253545661b19602"

def LICENSE : String := "195dcf5a72d45bbdab0460fa1aaa4feec43308b9a5c90a19da07005eb475d6e7"

def INDEX : String := "ca3d163bab055381827226140568f3bef7eaac187cebd76878e0b63e9e442356"

def SPDX : String := "1d6faa9e1a76d13f3ab8558a3640158b1f0a54f624a4e37ddc3ef41ed4191058"

def RELEASE_SIG : String := "f8ff64255261520153609c8f36731188c01d2b341b42ccbc4e418119a46b1112"

def REPOMD_ASC : String := "675c6b67ab9a1bc206e0576f0b2c4d2256f81c747fc29ee0b5cdf5dd65b77c0b"

def EVIDENCE : String := "aaaaaaaaaaaaaaaaaaaaaaaaaaaaaaaaaaaaaaaaaaaaaaaaaaaaaaaaaaaaaaaa"

/-- The SHA-256 of the files below, which all differ in length. -/
def DIGESTS : List (ℕ × String) :=
  [(13, LICENSE), (3, INDEX), (4, SPDX), (12, RPM), (364, PROFILE), (490, RELEASE), (18, RELEASE_SIG),
   (10, REPOMD), (17, REPOMD_ASC)]

def SUMS : List (String × String) :=
  [("evidence/notices/LICENSE", LICENSE), ("evidence/rollback/index.json", INDEX),
   ("evidence/spdx/doc.json", SPDX), ("evidence/spdx/gone.json", EVIDENCE), ("packages/npu-1.rpm", RPM),
   ("profile.toml", PROFILE), ("release.json", RELEASE), ("release.json.sig", RELEASE_SIG),
   ("repodata/repomd.xml", REPOMD), ("repodata/repomd.xml.asc", REPOMD_ASC)]

def profileLines : List String :=
  ["status = \"qualified\"", "stack_release = \"1.0.0\"", "[qualification]", "evidence_id = \"e\"",
   "evidence_sha256 = \"aaaaaaaaaaaaaaaaaaaaaaaaaaaaaaaaaaaaaaaaaaaaaaaaaaaaaaaaaaaaaaaa\"",
   "qualified_at = \"t\"", "hardware_class = \"h\"", "test_suite_version = \"1\"",
   "[components.npu]",
   "sha256 = \"46b2f886ccac260bda27d4caf1a82d2990dc0c66d9361700a10bae24483084b4\"",
   "[components.npu.provider]", "package = \"npu\""]

def evidenceValue : Value := .dict [("evidence_id", .str "e"), ("evidence_sha256", .str EVIDENCE),
  ("qualified_at", .str "t"), ("hardware_class", .str "h"), ("test_suite_version", .str "1")]

def profileValue : Value := .dict [("status", .str "qualified"), ("stack_release", .str "1.0.0"),
  ("qualification", evidenceValue), ("components", .dict [("npu", .dict [("sha256", .str RPM),
    ("provider", .dict [("package", .str "npu")])])])]

def releaseLines : List String :=
  ["\x7b\"packages\": [\x7b\"arch\": \"noarch\", \"filename\": \"npu-1.rpm\", \"name\": \"npu\",",
   "\"nevr\": \"0:1-1\", \"role\": \"runtime\",",
   "\"sha256\": \"46b2f886ccac260bda27d4caf1a82d2990dc0c66d9361700a10bae24483084b4\"\x7d],",
   "\"profile_sha256\": \"fdebe9e3e5d51055628061e282e80e67105777d573af91620bce964be4dc0ad0\",",
   "\"repository\": \x7b\"base_url\": \"https://a.b/1.0.0/\", \"id\": \"npu\",",
   "\"repomd_sha256\": \"92b1fc7b34b24722c692f6abacf2a0dfc7b7f1bda4ac31f36351f324e30c5064\"\x7d,",
   "\"schema_version\": 1, \"stack_release\": \"1.0.0\", \"test_only\": false\x7d"]

def packageValue : Value := .dict [("arch", .str "noarch"), ("filename", .str "npu-1.rpm"),
  ("name", .str "npu"), ("nevr", .str "0:1-1"), ("role", .str "runtime"), ("sha256", .str RPM)]

def repositoryValue : Value := .dict [("base_url", .str "https://a.b/1.0.0/"), ("id", .str "npu"),
  ("repomd_sha256", .str REPOMD)]

def releaseValue : Value := .dict [("packages", .list [packageValue]), ("profile_sha256", .str PROFILE),
  ("repository", repositoryValue), ("schema_version", .int 1), ("stack_release", .str "1.0.0"),
  ("test_only", .bool false)]

def manifestLines : List String :=
  ["\x7b\"output_digests\":",
   "\x7b\"release.json\": \"a2310e479857e61c6bb58184a7931ab38db33a58f06320a9e253545661b19602\"\x7d,",
   "\"package_count\": 1, \"passed\": true, \"release_ready\": false, \"test_only\": false\x7d"]

def manifestValue : Value := .dict [("output_digests", .dict [("release.json", .str RELEASE)]),
  ("package_count", .int 1), ("passed", .bool true), ("release_ready", .bool false),
  ("test_only", .bool false)]

def tools : Tools where
  sha256 := fun content => (DIGESTS.lookup content.length).getD ""
  json := fun text => if text = unlines releaseLines then some releaseValue
    else if text = unlines manifestLines then some manifestValue else none
  toml := fun text => if text = unlines profileLines then some profileValue else none
  keyListing := "fpr:::::::::" ++ PRIMARY ++ ":\n"
  gpgImports := true
  rpmImports := true
  gpg := fun _ _ => (0, unlines (GOOD.map record))
  rpmkeys := fun _ =>
    (0, report "npu-1.rpm" (rpmSignatureLine PRIMARY "RSA/SHA256") HEADER_OK PAYLOAD_OK)

def textFile (s : String) : Node := .file (utf8 s)

def sumsText : String := unlines (SUMS.map fun entry => entry.2 ++ "  " ++ entry.1)

def root : Node := .dir [
  ("assembly-manifest.json", textFile (unlines manifestLines)),
  ("checksums.sha256", textFile sumsText),
  ("checksums.sha256.sig", textFile "checksums signature\n"),
  ("evidence", .dir [("notices", .dir [("LICENSE", textFile "license text\n")]),
    ("rollback", .dir [("index.json", textFile "\x7b\x7d\n")]),
    ("spdx", .dir [("doc.json", textFile "\x7b \x7d\n")])]),
  ("packages", .dir [("npu-1.rpm", textFile "rpm payload\n")]),
  ("profile.toml", textFile (unlines profileLines)),
  ("release.json", textFile (unlines releaseLines)),
  ("release.json.sig", textFile "release signature\n"),
  ("repodata", .dir [("repomd.xml", textFile "<repomd/>\n"),
    ("repomd.xml.asc", textFile "repomd signature\n")])]

theorem root_wellFormed : root.WellFormed := by
  simp [root, Node.WellFormed, WellFormedIn, textFile, isName]
  decide

def tree : ReleaseTree where
  root := root
  wellFormed := root_wellFormed
  outside := fun _ => Target.absent
  linked := fun _ => []

theorem readText_text {ls : List String}
    (h : ∀ l ∈ ls, all (fun c => !Py.isLineBreak c) l = true) :
    Py.readText (utf8 (unlines ls)) = some (unlines ls) := by
  have hall : all (· ≠ '\r') (unlines ls) = true := by
    refine all_unlines (by decide) fun l hl => all_iff.mpr fun c hc => decide_eq_true ?_
    rintro rfl
    exact absurd (all_iff.mp (h l hl) _ hc) (by decide)
  refine Py.readText_utf8 fun hr => ?_
  simpa using all_iff.mp hall _ hr

theorem length_text (ls : List String) :
    (utf8 (unlines ls)).length = (ls.map fun l => len l + 1).sum := by
  rw [length_utf8]
  induction ls with
  | nil => decide
  | cons l ls ih =>
    have hnewline : len "\n" = 1 := by decide
    rw [unlines, len_append, len_append, ih, hnewline, List.map_cons, List.sum_cons]

theorem release_breaks : ∀ l ∈ releaseLines, all (fun c => !Py.isLineBreak c) l = true := by
  simp only [releaseLines, List.forall_mem_cons, List.not_mem_nil, false_implies, implies_true, and_true]
  refine ⟨?_, ?_, ?_, ?_, ?_, ?_, ?_⟩
  all_goals exact all_chars (by decide)

theorem manifest_breaks : ∀ l ∈ manifestLines, all (fun c => !Py.isLineBreak c) l = true := by
  simp only [manifestLines, List.forall_mem_cons, List.not_mem_nil, false_implies, implies_true,
    and_true]
  refine ⟨?_, ?_, ?_⟩
  all_goals exact all_chars (by decide)

theorem profile_breaks : ∀ l ∈ profileLines, all (fun c => !Py.isLineBreak c) l = true := by
  simp only [profileLines, List.forall_mem_cons, List.not_mem_nil, false_implies, implies_true, and_true]
  refine ⟨?_, ?_, ?_, ?_, ?_, ?_, ?_, ?_, ?_, ?_, ?_, ?_⟩
  all_goals exact all_chars (by decide)

theorem json_release : tools.json (unlines releaseLines) = some releaseValue := by
  simp only [tools, if_true]

theorem json_manifest : tools.json (unlines manifestLines) = some manifestValue := by
  have hne : unlines manifestLines ≠ unlines releaseLines := by
    intro h
    have := congrArg Py.splitlines h
    rw [Py.splitlines_unlines manifest_breaks, Py.splitlines_unlines release_breaks] at this
    exact absurd (congrArg List.length this) (by decide)
  simp only [tools, if_neg hne, if_true]

theorem toml_profile : tools.toml (unlines profileLines) = some profileValue := by
  simp only [tools, if_true]

theorem sha256_utf8 (s : String) (n : ℕ) (h : len s = n) :
    tools.sha256 (utf8 s) = (DIGESTS.lookup n).getD "" := by
  rw [← h, ← length_utf8]
  rfl

theorem sha256_release : tools.sha256 (utf8 (unlines releaseLines)) = RELEASE :=
  sha256_utf8 _ 490 ((length_utf8 _).symm.trans ((length_text _).trans (by decide)))

theorem sha256_profile : tools.sha256 (utf8 (unlines profileLines)) = PROFILE :=
  sha256_utf8 _ 364 ((length_utf8 _).symm.trans ((length_text _).trans (by decide)))

theorem sha256_rpm : tools.sha256 (utf8 "rpm payload\n") = RPM := sha256_utf8 _ 12 (by decide)

theorem tree_file {path : List String} {content : Bytes} (h : reach root path = some (.file content)) :
    tree.file path = ⟨some (.file content), false⟩ := lookup_of_reach h

theorem release_file :
    tree.file ["release.json"] = ⟨some (.file (utf8 (unlines releaseLines))), false⟩ :=
  tree_file (by simp [root, reach, reachIn, textFile])

theorem rpm_file : tree.file ["packages", "npu-1.rpm"] = ⟨some (.file (utf8 "rpm payload\n")), false⟩ :=
  tree_file (by simp [root, reach, reachIn, textFile])

theorem package_ok : verifyPackageEntry tools tree packageValue = .ok () := by
  have hpackage : tree.package "npu-1.rpm" = ⟨some (.file (utf8 "rpm payload\n")), false⟩ :=
    (package_eq (by decide)).trans rpm_file
  simp only [verifyPackageEntry, except_bind_ok, need_ok, require_ok, except_forM_ok]
  refine ⟨(), rfl, (), ?_, RPM, rfl, "npu-1.rpm", rfl, (), by decide, (), ?_, RPM, ?_, rfl⟩
  · decide
  · rw [hpackage]
    exact ⟨rfl, rfl⟩
  · rw [hpackage, shaOf_ok]
    exact ⟨_, rfl, sha256_rpm⟩

theorem loadJson_release : loadJson tools (tree.file ["release.json"]) = .ok releaseValue := by
  simp only [loadJson, except_bind_ok, need_ok, require_ok]
  rw [release_file]
  exact ⟨_, rfl, _, readText_text release_breaks, _, json_release, (), rfl, rfl⟩

theorem manifest_file :
    tree.file ["assembly-manifest.json"] = ⟨some (.file (utf8 (unlines manifestLines))), false⟩ :=
  tree_file (by simp [root, reach, reachIn, textFile])

theorem profile_file :
    tree.file ["profile.toml"] = ⟨some (.file (utf8 (unlines profileLines))), false⟩ :=
  tree_file (by simp [root, reach, reachIn, textFile])

theorem repomd_file :
    tree.file ["repodata", "repomd.xml"] = ⟨some (.file (utf8 "<repomd/>\n")), false⟩ :=
  tree_file (by simp [root, reach, reachIn, textFile])

theorem metadata_ok : verifyReleaseMetadata tools tree = .ok releaseValue := by
  simp only [verifyReleaseMetadata, except_bind_ok, need_ok, require_ok, except_forM_ok]
  refine ⟨(), by rw [release_file]; rfl, releaseValue, loadJson_release, .int 1, rfl, (), rfl,
    .bool false, rfl, (), rfl, .list [packageValue], rfl, (), rfl, (), ?_, ?_⟩
  · intro entry hentry
    rw [List.mem_singleton.mp hentry]
    exact package_ok
  refine ⟨repositoryValue, rfl, (), rfl, "https://a.b/1.0.0/", rfl, (), by decide, (), ?_,
    .str REPOMD, rfl,
    REPOMD, ?_, (), by decide, rfl⟩
  · rw [repomd_file]
    exact ⟨rfl, rfl⟩
  · rw [repomd_file, shaOf_ok]
    exact ⟨_, rfl, sha256_utf8 _ 10 (by decide)⟩

theorem loadToml_profile : loadToml tools (utf8 (unlines profileLines)) = .ok profileValue := by
  simp only [loadToml, except_bind_ok, need_ok]
  exact ⟨_, readText_text profile_breaks, toml_profile⟩

theorem normalized_profile : ∃ value, normalized profileValue = .ok value ∧ value.eq value = true := by
  refine ⟨_, rfl, ?_⟩
  decide

theorem profile_ok :
    verifyProfile tools (utf8 (unlines profileLines)) releaseValue tree = .ok evidenceValue := by
  obtain ⟨value, hnormalized, hself⟩ := normalized_profile
  simp only [verifyProfile, except_bind_ok, need_ok, require_ok, except_forM_ok]
  refine ⟨profileValue, loadToml_profile, .str "qualified", rfl, (), by decide, evidenceValue,
    rfl, (), rfl,
    (), ?_, EVIDENCE, rfl, (), by decide, .str "1.0.0", rfl, .str "1.0.0", rfl, (),
    by decide, ?_⟩
  · intro field hfield
    simp only [QUALIFICATION_FIELDS, List.mem_cons, List.not_mem_nil, or_false] at hfield
    rcases hfield with rfl | rfl | rfl | rfl | rfl
    · exact ⟨.str "e", rfl, by decide⟩
    · exact ⟨.str EVIDENCE, rfl, by decide⟩
    · exact ⟨.str "t", rfl, by decide⟩
    · exact ⟨.str "h", rfl, by decide⟩
    · exact ⟨.str "1", rfl, by decide⟩
  rw [profile_file]
  refine ⟨(), rfl, _, rfl, profileValue, loadToml_profile, .str "qualified", rfl, (), by decide,
    evidenceValue, rfl, (), by decide, .str PROFILE, rfl, (), ?_, value, hnormalized, value,
    hnormalized,
    (), hself, [packageValue], rfl, [(.str "npu", .str RPM)], rfl,
    [("npu", .dict [("sha256", .str RPM), ("provider", .dict [("package", .str "npu")])])], rfl, (),
    ?_, rfl⟩
  · rw [sha256_profile]
    decide
  · intro entry hentry
    rw [List.mem_singleton.mp hentry]
    simp only [verifyComponent, except_bind_ok, need_ok, require_ok]
    exact ⟨.str "npu", rfl, (), rfl, .str RPM, rfl, by decide⟩

theorem assembly_ok : verifyAssembly tools tree releaseValue = .ok manifestValue := by
  simp only [verifyAssembly, loadJson, except_bind_ok, need_ok, require_ok]
  rw [manifest_file]
  refine ⟨manifestValue, ⟨_, rfl, _, readText_text manifest_breaks, manifestValue, json_manifest, (),
    rfl, rfl⟩, .bool true, rfl, (), rfl, .bool false, rfl, (), rfl, .bool false, rfl, (), rfl, .int 1,
    rfl,
    [packageValue], rfl, (), by decide, rfl⟩

theorem sha_release : shaOf tools (tree.file (split '/' "release.json")) = .ok RELEASE := by
  have hpath : split '/' "release.json" = ["release.json"] := by decide
  rw [hpath, release_file, shaOf_ok]
  exact ⟨_, rfl, sha256_release⟩

theorem digests_ok : verifyTreeDigests tools tree manifestValue = .ok () := by
  simp only [verifyTreeDigests, except_bind_ok, need_ok, require_ok, except_forM_ok]
  refine ⟨.dict [("release.json", .str RELEASE)], rfl, (), rfl, ?_⟩
  intro entry hentry
  rw [List.mem_singleton.mp hentry]
  refine ⟨(), by decide, (), ?_, RELEASE, sha_release, by decide⟩
  have hpath : split '/' "release.json" = ["release.json"] := by decide
  rw [hpath, release_file]
  exact ⟨rfl, rfl⟩

theorem evidence_ok : ∃ counts, verifyEvidence tree = .ok counts := ⟨_, rfl⟩

theorem fingerprint_ok : pinnedFingerprint tools = .ok PRIMARY := by
  have hline : (Py.splitlines tools.keyListing).find? (startsWith "fpr:") =
      some ("fpr:::::::::" ++ PRIMARY ++ ":") := by
    decide
  have hfield : (split ':' ("fpr:::::::::" ++ PRIMARY ++ ":"))[9]? = some PRIMARY := by decide
  rw [pinnedFingerprint, hline, need, except_ok_bind, hfield, need, except_ok_bind, require,
    if_pos (by decide)]
  rfl

theorem good_verified : gpgVerify 0 (unlines (GOOD.map record)) PRIMARY = .ok () := by
  have hfields := recordFields_record valid_isField
  rw [gpgVerify_ok, splitlines_records good_isField]
  refine ⟨rfl, record VALIDSIG, by simp [GOOD], startsWith_validRecord, ?_⟩
  exact getLast_valid (Py.startsWith_append _ _) (by rw [hfields]; rfl) (by rw [hfields]; rfl)

theorem verifyFile_ok {signature signed : List String} {sig content : Bytes}
    (hsig : reach root signature = some (.file sig))
    (hsigned : reach root signed = some (.file content)) :
    verifyFile tools tree signature signed PRIMARY = .ok () := by
  simp only [verifyFile, except_bind_ok, need_ok, require_ok]
  rw [tree_file hsig, tree_file hsigned]
  exact ⟨(), rfl, sig, rfl, content, rfl, good_verified⟩

theorem signatures_ok : verifySignatures tools tree PRIMARY = .ok () := by
  have hrelease : reach root ["release.json"] = some (.file (utf8 (unlines releaseLines))) := by
    simp [root, reach, reachIn, textFile]
  have hsig : reach root ["release.json.sig"] = some (.file (utf8 "release signature\n")) := by
    simp [root, reach, reachIn, textFile]
  have hrepomd : reach root ["repodata", "repomd.xml"] = some (.file (utf8 "<repomd/>\n")) := by
    simp [root, reach, reachIn, textFile]
  have hasc : reach root ["repodata", "repomd.xml.asc"] = some (.file (utf8 "repomd signature\n")) := by
    simp [root, reach, reachIn, textFile]
  have hsums : reach root ["checksums.sha256"] = some (.file (utf8 sumsText)) := by
    simp [root, reach, reachIn, textFile]
  have hsumsSig : reach root ["checksums.sha256.sig"] = some (.file (utf8 "checksums signature\n")) := by
    simp [root, reach, reachIn, textFile]
  simp only [verifySignatures, except_bind_ok, require_ok]
  refine ⟨(), by rw [tree_file hsig]; rfl, (), verifyFile_ok hsig hrelease, (),
    by rw [tree_file hsumsSig]; rfl, (),
    verifyFile_ok hsumsSig hsums, (), ?_, verifyFile_ok hasc hrepomd⟩
  rw [tree_file hrepomd, tree_file hasc]
  exact ⟨rfl, rfl⟩

theorem rpms_ok : verifyRpmSignatures tools tree PRIMARY releaseValue = .ok 1 := by
  have hnames : tree.rpmNames = ["npu-1.rpm"] := by decide
  have hfilenames : releaseFilenames releaseValue = .ok ["npu-1.rpm"] := rfl
  have hkey : isHexKey 40 PRIMARY = true := by decide
  have halgorithm : "RSA/SHA256" ∈ RPM_ALGORITHMS := by decide
  have hlines := @report_lines "npu-1.rpm" _ _ _ (trimmed_signature hkey halgorithm) trimmed_header
    trimmed_payload
  have haccepted : verifyRpmSignature 0 (report "npu-1.rpm" (rpmSignatureLine PRIMARY "RSA/SHA256")
      HEADER_OK PAYLOAD_OK) PRIMARY = .ok () := by
    rw [verifyRpmSignature_ok, hlines]
    exact ⟨rfl, ⟨"RSA/SHA256", halgorithm, by simp⟩, by simp, by simp⟩
  simp only [verifyRpmSignatures, except_bind_ok, require_ok, except_forM_ok, hnames]
  refine ⟨(), by simp, ["npu-1.rpm"], hfilenames, (), ⟨by simp, by simp⟩, (), rfl, (), rfl, (), ?_, rfl⟩
  intro name hname
  exact haccepted

/-- An entry of the sums, as a line that can be read back. -/
structure Listable (entry : String × String) : Prop where
  digest : isDigest entry.2 = true
  path : entry.1 ≠ "" ∧ '\n' ∉ entry.1.toList
  safe : safeRelative entry.1 = .ok ()

theorem checksumLine_of {digest relative : String} (hdigest : isDigest digest = true)
    (hpath : relative ≠ "" ∧ '\n' ∉ relative.toList) :
    checksumLine (digest ++ "  " ++ relative) = some (digest, relative) := by
  have hlen : digest.toList.length = 64 := by
    simp only [isDigest, Bool.and_eq_true, decide_eq_true_eq] at hdigest
    exact hdigest.1
  have htake : (digest ++ "  " ++ relative).toList.take 64 = digest.toList := by
    rw [String.append_assoc, String.toList_append, ← hlen, List.take_left]
  have hdrop : (digest ++ "  " ++ relative).toList.drop 64 = ("  " ++ relative).toList := by
    rw [String.append_assoc, String.toList_append, ← hlen, List.drop_left]
  rw [checksumLine, htake, hdrop, String.ofList_toList, String.ofList_toList, stripPrefix_append]
  simp [hdigest, hpath, contains]

theorem readLines : ∀ {entries recorded : List (String × String)}, (∀ entry ∈ entries, Listable entry) →
    ((recorded ++ entries).map Prod.fst).Nodup →
    (entries.map fun entry => entry.2 ++ "  " ++ entry.1).foldlM recordChecksum recorded =
      .ok (recorded ++ entries)
  | [], recorded, _, _ => by rw [List.append_nil]; rfl
  | entry :: entries, recorded, h, hnodup => by
    obtain ⟨hentry, hentries⟩ := List.forall_mem_cons.mp h
    have hfresh : entry.1 ∉ recorded.map Prod.fst := by
      rw [List.map_append, List.map_cons, List.nodup_append] at hnodup
      intro hmem
      exact hnodup.2.2 _ hmem _ List.mem_cons_self rfl
    have hstep : recordChecksum recorded (entry.2 ++ "  " ++ entry.1) = .ok (recorded ++ [entry]) := by
      rw [recordChecksum, checksumLine_of hentry.digest hentry.path, need, except_ok_bind]
      simp only [hentry.safe, except_ok_bind, require, if_pos hfresh]
      rfl
    rw [List.map_cons, List.foldlM_cons, hstep, except_ok_bind,
      readLines hentries (by simpa using hnodup)]
    simp

theorem safe_ofList {cs : List Char} (h : (cs ≠ [] && cs.all (fun c => c ≠ '\n' && c ≠ '\\') &&
    (cs.splitOn '/').all fun part => part ∉ [[], ['.'], ['.', '.']]) = true) :
    safeRelative (String.ofList cs) = .ok () := by
  simp only [Bool.and_eq_true, decide_eq_true_eq, List.all_eq_true] at h
  obtain ⟨⟨hne, hfree⟩, hparts⟩ := h
  have hpart : ∀ part ∈ split '/' (String.ofList cs), part ∉ ["", ".", ".."] := by
    rw [split_ofList]
    intro part hpart
    obtain ⟨p, hp, rfl⟩ := List.mem_map.mp hpart
    have := hparts p hp
    simpa [← String.toList_inj] using this
  have hstart : startsWith "/" (String.ofList cs) = false := by
    by_contra hs
    have htext := Py.removePrefix_of_startsWith (Bool.eq_true_of_not_eq_false hs)
    have hslash : "/".toList = ['/'] := by decide
    have hcs := congrArg String.toList htext
    rw [String.toList_append, String.toList_ofList, hslash, List.singleton_append] at hcs
    refine hpart "" ?_ (by simp)
    rw [split_ofList, hcs, List.splitOn, List.splitOnP_cons_eq_if_modifyHead]
    simp
  refine if_pos ⟨?_, hstart, ?_, hpart⟩
  · simpa [← String.toList_inj] using hne
  · by_contra hbackslash
    rw [Bool.not_eq_false, contains, String.toList_ofList, List.contains_iff_mem] at hbackslash
    exact (hfree _ hbackslash).2 rfl

theorem isDigest_ofList {cs : List Char} (h : (cs.length = 64 && cs.all isLowerHex) = true) :
    isDigest (String.ofList cs) = true := by
  rw [isDigest, Py.len, all_ofList, String.toList_ofList, h]

theorem sums_listable : ∀ entry ∈ SUMS, Listable entry := by
  simp only [SUMS, List.forall_mem_cons, List.not_mem_nil, false_implies, implies_true, and_true]
  refine ⟨?_, ?_, ?_, ?_, ?_, ?_, ?_, ?_, ?_, ?_⟩
  all_goals exact ⟨isDigest_ofList (by decide), ⟨by decide, by decide⟩,
    safe_ofList (by decide)⟩

theorem sums_breaks : ∀ l ∈ SUMS.map fun entry => entry.2 ++ "  " ++ entry.1,
    all (fun c => !Py.isLineBreak c) l = true := by
  have hspaces : all (fun c => !Py.isLineBreak c) "  " = true := by decide
  simp only [SUMS, List.map_cons, List.map_nil, List.forall_mem_cons, List.not_mem_nil, false_implies,
    implies_true, and_true, all_append, hspaces, Bool.and_eq_true]
  refine ⟨?_, ?_, ?_, ?_, ?_, ?_, ?_, ?_, ?_, ?_⟩
  all_goals exact ⟨all_chars (by decide), all_chars (by decide)⟩

theorem read_ok : readChecksums tree = .ok SUMS := by
  have hsums : reach root ["checksums.sha256"] = some (.file (utf8 sumsText)) := by
    simp [root, reach, reachIn, textFile]
  have hlines : Py.splitlines sumsText = _ := Py.splitlines_unlines sums_breaks
  have hcontent : (tree.file ["checksums.sha256"]).content = some (utf8 sumsText) := by
    rw [tree_file hsums]
    rfl
  have htext : Py.readText (utf8 sumsText) = some sumsText := readText_text sums_breaks
  have hread := @readLines SUMS [] sums_listable (by decide)
  have hfold : (Py.splitlines sumsText).foldlM recordChecksum [] = .ok SUMS :=
    (congrArg (List.foldlM recordChecksum []) hlines).trans hread
  have hfile : (tree.file ["checksums.sha256"]).isFile = true := by rw [Target.isFile, hcontent]; rfl
  rw [readChecksums, require, if_pos hfile, except_ok_bind, hcontent, Option.bind_some, htext, need,
    except_ok_bind, hfold]

theorem listed_ok {path : List String} {s digest : String} (hreach : reach root path = some (textFile s))
    (hlookup : SUMS.lookup (posix path) = some digest)
    (hsha : tools.sha256 (utf8 s) = digest) (hlisted : posix path ∉ UNLISTED) :
    checkRecorded tools tree SUMS path = .ok () := by
  rw [checkRecorded, if_neg hlisted]
  simp only [except_bind_ok, need_ok, require_ok, shaOf_ok]
  exact ⟨digest, hlookup, digest, ⟨utf8 s, by rw [tree_file hreach]; rfl, hsha⟩, rfl⟩

theorem unlisted_ok {path : List String} (hlisted : posix path ∈ UNLISTED) :
    checkRecorded tools tree SUMS path = .ok () := by
  rw [checkRecorded, if_pos hlisted]
  rfl

theorem tree_files : tree.files = [["assembly-manifest.json"], ["checksums.sha256"],
    ["checksums.sha256.sig"], ["evidence", "notices", "LICENSE"], ["evidence", "rollback", "index.json"],
    ["evidence", "spdx", "doc.json"],
    ["packages", "npu-1.rpm"], ["profile.toml"], ["release.json"], ["release.json.sig"],
    ["repodata", "repomd.xml"], ["repodata", "repomd.xml.asc"]] := rfl

theorem checksums_ok : verifyChecksums tools tree = .ok SUMS := by
  have hall : ∀ path ∈ tree.files, checkRecorded tools tree SUMS path = .ok () := by
    rw [tree_files]
    simp only [List.forall_mem_cons, List.not_mem_nil, false_implies, implies_true, and_true]
    refine ⟨unlisted_ok (by decide), unlisted_ok (by decide),
      unlisted_ok (by decide),
      ?_, ?_, ?_, ?_, ?_, ?_, ?_, ?_, ?_⟩
    · exact listed_ok rfl (by decide) (sha256_utf8 "license text\n" 13 (by decide))
        (by decide)
    · exact listed_ok rfl (by decide) (sha256_utf8 "\x7b\x7d\n" 3 (by decide))
        (by decide)
    · exact listed_ok rfl (by decide) (sha256_utf8 "\x7b \x7d\n" 4 (by decide))
        (by decide)
    · exact listed_ok rfl (by decide) sha256_rpm (by decide)
    · exact listed_ok rfl (by decide) sha256_profile (by decide)
    · exact listed_ok rfl (by decide) sha256_release (by decide)
    · exact listed_ok rfl (by decide) (sha256_utf8 "release signature\n" 18 (by decide))
        (by decide)
    · exact listed_ok rfl (by decide) (sha256_utf8 "<repomd/>\n" 10 (by decide))
        (by decide)
    · exact listed_ok rfl (by decide) (sha256_utf8 "repomd signature\n" 17 (by decide))
        (by decide)
  simp only [verifyChecksums, except_bind_ok, except_forM_ok]
  exact ⟨SUMS, read_ok, (), fun path hpath => hall path (List.mem_mergeSort.mp hpath), rfl⟩

/-- The tree passes every gate. -/
theorem accepted : ∃ result,
    checkRelease tools tree (utf8 (unlines profileLines)) false true = .ok result := by
  obtain ⟨counts, hcounts⟩ := evidence_ok
  simp only [checkRelease, except_bind_ok, need_ok, require_ok]
  refine ⟨_, (), trivial, releaseValue, metadata_ok, evidenceValue, profile_ok, manifestValue,
    assembly_ok, (), digests_ok, SUMS, checksums_ok, counts, hcounts, (), trivial, PRIMARY,
    fingerprint_ok, (), signatures_ok, 1, rpms_ok,
    repositoryValue, rfl, [packageValue], rfl, [("release.json", .str RELEASE)], rfl,
    [("release.json", RELEASE)], ?_,
    .str "1.0.0", rfl, .str "npu", rfl, .str "https://a.b/1.0.0/", rfl, .str PROFILE, rfl,
    .str EVIDENCE, rfl, rfl⟩
  rw [List.map_cons, List.map_nil, List.mapM_cons, sha_release]
  rfl

end Minimal

end NpuStack.Ci
