import NpuStack.Publish.Archive

/-! `release_publish.py`: the Pages site, composed from the published releases.

        releases ──candidates──▶ each, oldest first ─┬─ retired ─▶ gone
                                                     └─ served ──▶ versions, output
        then: registry entries, tags, live sums, budget ──▶ manifest

    Every answer of GitHub and of the live site is one of a question, so a run may be told anything. -/

namespace NpuStack.Publish
open Interaction Text

/-! ### GitHub and the live site -/

structure Asset where
  name : String
  digest : Option String
  url : String
deriving DecidableEq

structure Release where
  id : ℕ
  tagName : String
  draft : Bool
  prerelease : Bool
  immutable : Option Bool
  name : Option String
  body : Option String
  targetCommitish : String
  uploadUrl : String
  assets : List Asset

/-- The fields of a request that creates or updates a release; `none` leaves a field out. -/
structure Fields where
  tagName : String
  targetCommitish : String
  name : String
  body : String
  draft : Option Bool
  prerelease : Option Bool
  makeLatest : Option String

/-- How opening and writing the manifest file ends. -/
inductive Save where
  | saved
  | exists
  | torn

inductive Question where
  | releases
  | release (id : ℕ)
  | tags
  | tagCommit (tag : String)
  | download (url : String)
  | create (fields : Fields)
  | update (id : ℕ) (fields : Fields)
  | upload (uploadUrl name : String) (content : Bytes)
  | fetch (url : String)
  | saveManifest

/-- A call that fails or answers out of form has no answer. -/
def Answer : Question → Type
  | .releases => Option (List Release)
  | .release _ => Option Release
  | .tags => Option (List (String × String))
  | .tagCommit _ => Option (Option String)
  | .download _ => Option Bytes
  | .create _ => Option Release
  | .update _ _ => Option Unit
  | .upload _ _ _ => Option Unit
  | .fetch _ => Option (ℕ × Bytes)
  | .saveManifest => Save

abbrev Publishing (α : Type) : Type := Prog Answer String α

def listReleases : Publishing (List Release) :=
  Prog.expect .releases fun answer => need answer "GET /releases failed"

def listTags : Publishing (List (String × String)) :=
  Prog.expect .tags fun answer => need answer "GET tags failed"

def tagCommit (tag : String) : Publishing (Option String) :=
  Prog.expect (.tagCommit tag) fun answer => need answer "GET tag failed"

def downloadAsset (asset : Asset) : Publishing Bytes :=
  Prog.expect (.download asset.url) fun answer => need answer "asset could not be read back"

def fetch (url : String) : Publishing (ℕ × Bytes) :=
  Prog.expect (.fetch url) fun answer => need answer "network failure"

/-- `{asset['name']: asset for asset in assets}`. -/
def Release.assetsByName (release : Release) : List (String × Asset) :=
  (release.assets.map fun asset => (asset.name, asset)).foldl Py.insertItem []

/-- `site_location`: host, prefix and last segment of a URL of the trust seam's characters. -/
def siteLocation (baseUrl : String) : Except String (String × List String × String) := do
  let rest ← need (stripPrefix "https://" baseUrl) "the base URL must be versioned HTTPS"
  let (host, path) := Py.partition '/' rest
  let segments := split '/' (Py.rstrip '/' (String.ofList (path.toList.dropWhile (· = '/'))))
  require (host ≠ "" ∧ 2 ≤ segments.length) "the base URL must be versioned HTTPS"
  return (asciiLowercase host, segments.dropLast, segments.getLast?.getD "")

/-- `site_root`: the URL the version directories are served under. -/
def siteRoot (baseUrl : String) : Except String String := do
  let (host, segments, _) ← siteLocation baseUrl
  return "https://" ++ host ++ "/" ++ join '/' segments ++ "/"

/-! ### Composition -/

/-- What the manifest records of a composed version. -/
structure Composed where
  sums : String
  archive : String
  files : ℕ
  releaseId : ℕ
  commit : String

/-- What is composed so far. -/
structure Composition where
  versions : List (String × Composed)
  gone : List (String × List String)
  output : List (String × Site)

def Composition.empty : Composition := ⟨[], [], []⟩

/-- The non-draft `vX.Y.Z` releases but the pending one, oldest first, with their versions. -/
def candidates (pending : Option String) (releases : List Release) : List (String × Release) :=
  (releases.filterMap fun release =>
    match tagVersion release.tagName with
    | some version =>
      if release.draft || pending = some version then none else some (version, release)
    | none => none).mergeSort fun a b => versionKey a.1 ≤ versionKey b.1

/-- The files a retired version could have served. -/
def goneFiles (sums : Bytes) : Except String (List String) := do
  let text ← need (fromUtf8 sums) malformed
  match (Py.splitlines text).foldlM parseLine [] with
  | .error _ => return SUMS_FILES
  | .ok listed =>
    let paths := (listed.map Prod.fst ++ SUMS_FILES).dedup.mergeSort (· ≤ ·)
    if paths.length ≤ MAX_MEMBERS then return paths else return SUMS_FILES

section
variable (tools : Tools)

def apiDigest (content : Bytes) : String := "sha256:" ++ tools.sha256 content

/-- A release its registry entry retires. -/
def composeRetired (release : Release) (digest : String) : Publishing (List String) := do
  let asset ← liftM (need (release.assetsByName.lookup "SHA256SUMS") "retired release has no SHA256SUMS")
  let sums ← downloadAsset asset
  liftM (require (asset.digest = some (apiDigest tools sums) ∧ tools.sha256 sums = digest)
    "the retired entry does not match its release SHA256SUMS")
  liftM (goneFiles sums)

def downloadChecked (item : String × Asset) : Publishing (String × Bytes) := do
  let content ← downloadAsset item.2
  liftM (require (item.2.digest = some (apiDigest tools content)) "the API digest differs from its bytes")
  return (item.1, content)

/-- Everything about the downloaded assets that needs no further question. -/
def unpackServed (fingerprint version : String) (data : List (String × Bytes)) :
    Except String (Bytes × Bytes × Site) := do
  let archive ← need (data.lookup (archiveName version)) malformed
  let sums ← need (data.lookup "SHA256SUMS") malformed
  let signature ← need (data.lookup "SHA256SUMS.asc") malformed
  require (tools.verifySignature fingerprint signature sums = true) "bad signature"
  let site ← unpackRelease tools archive version sums signature
  return (archive, sums, site)

/-- The gates on an unpacked release that follow its tag. -/
def checkServed (fingerprint rootUrl version : String) (release : Release) (data : List (String × Bytes))
    (archive : Bytes) (site : Site) (commit : String) : Except String Unit := do
  checkIdentity tools site version (rootUrl ++ version ++ "/") fingerprint commit
  checkInstallerSignature tools site fingerprint
  require (tools.canonicalSha site = some (tools.sha256 archive))
    "the archive is not the canonical archive of its site"
  let notes ← need (tools.renderNotes version site archive) "the notes cannot be rendered"
  let notes ← need (fromUtf8 notes) malformed
  require (release.name = some (releaseTitle version) ∧ release.body = some notes)
    "the release does not carry its title and rendered notes"
  checkStandalone tools archive version fun name => data.lookup name

/-- A release that is served. -/
def composeServed (fingerprint rootUrl version : String) (release : Release) :
    Publishing (Composed × Site) := do
  let assets := release.assetsByName
  liftM (require ((∀ item ∈ assets, item.1 ∈ releaseAssets version) ∧
    ∀ name ∈ releaseAssets version, name ∈ assets.map Prod.fst)
    "the release does not carry exactly the release assets")
  let data ← assets.mapM (downloadChecked tools)
  let (archive, sums, site) ← liftM (unpackServed tools fingerprint version data)
  let commit ← tagCommit release.tagName
  let commit ← liftM (need commit "the release has no tag")
  liftM (checkServed tools fingerprint rootUrl version release data archive site commit)
  return (⟨tools.sha256 sums, tools.sha256 archive, site.length, release.id, commit⟩, site)

/-- One round of the loop of `compose_releases`. -/
def composeRelease (fingerprint rootUrl : String) (registry : Registry) (composition : Composition)
    (candidate : String × Release) : Publishing Composition := do
  let (version, release) := candidate
  liftM (require (version ∉ composition.versions.map Prod.fst ∧ version ∉ composition.gone.map Prod.fst)
    "the version's folder exists")
  liftM (require (release.immutable = some true) "release is not immutable")
  liftM (require (release.prerelease = false) "release is marked a prerelease")
  match registry.retired.lookup version with
  | some digest => do
    let files ← composeRetired tools release digest
    return { composition with gone := composition.gone ++ [(version, files)] }
  | none => do
    let (composed, site) ← composeServed tools fingerprint rootUrl version release
    return { composition with
      versions := composition.versions ++ [(version, composed)],
      output := composition.output ++ [(version, site)] }

/-- Every registry entry has its release. -/
def checkEntries (registry : Registry) (composition : Composition) : Except String Unit := do
  forM registry.published fun (version, digest) => do
    let composed ← need (composition.versions.lookup version) "published version is missing"
    require (composed.sums = digest) "published version has another SHA256SUMS than recorded"
  require (∀ version ∈ registry.retired.map Prod.fst, version ∈ composition.gone.map Prod.fst)
    "retired versions without an immutable release"

def composeReleases (fingerprint rootUrl : String) (registry : Registry) (pending : Option String) :
    Publishing Composition := do
  let releases ← listReleases
  liftM (require (∀ candidate ∈ candidates pending releases, ∀ version ∈ pending,
    versionKey candidate.1 < versionKey version) "versions are published in increasing order")
  let composition ← (candidates pending releases).foldlM
    (composeRelease tools fingerprint rootUrl registry) Composition.empty
  liftM (checkEntries registry composition)
  return composition

end

/-- `check_recorded`. -/
def checkRecorded (registry : Registry) (version : Option String) : Publishing Unit := do
  let tags ← listTags
  liftM (require (∀ tag ∈ tags, ∀ tagged ∈ tagVersion tag.1,
    tagged ∈ registry.versions ∨ version = some tagged)
    "tagged versions without an entry in published-versions.json")

section
variable (tools : Tools)

/-- `check_live_sums`, of versions with their digests. -/
def checkLiveSums (rootUrl : String) (versions : List (String × String)) (undeployed : Option String) :
    Publishing Unit :=
  forM versions fun (version, digest) => do
    if undeployed = some version then return ()
    else do
      let (status, body) ← fetch (rootUrl ++ version ++ "/SHA256SUMS")
      liftM (require (status = 200 ∧ tools.sha256 body = digest) "the live SHA256SUMS differs from its release")

def Composition.sums (composition : Composition) : List (String × String) :=
  composition.versions.map fun (version, composed) => (version, composed.sums)

/-- `site_bytes` of the output. -/
def Composition.bytes (composition : Composition) : ℕ :=
  (composition.output.map fun (_, site) => siteBytes site).sum

/-- `check_pages_room`: bytes and digests of the composition without this version. -/
def checkPagesRoom (values : Values) (registry : Bytes) (reserve : ℕ) : Publishing Composition := do
  let registry ← liftM (loadRegistry tools registry)
  liftM (require (values.version ∉ registry.versions) "published-versions.json already lists this version")
  let rootUrl ← liftM (siteRoot values.baseUrl)
  let composition ← composeReleases tools values.primaryFingerprint rootUrl registry (some values.version)
  checkRecorded registry (some values.version)
  checkLiveSums tools rootUrl composition.sums none
  liftM (require (composition.bytes + reserve ≤ MAX_SITE) "the Pages site would be above the budget")
  return composition

/-- The Pages manifest. -/
structure Manifest where
  baseUrl : String
  versions : List (String × Composed)
  totalBytes : ℕ
  newVersion : Option String
  retired : List (String × List String)

/-- The newest of the versions is this one, if there is one. -/
def checkNewest (versions : List String) (newVersion : Option String) : Except String Unit :=
  match newVersion with
  | none => .ok ()
  | some version => do
    require (version ∈ versions) "the new version is not composed"
    require (∀ other ∈ versions, versionKey other ≤ versionKey version)
      "the new version is not the newest release"

/-- The body of `compose_pages` behind its first checks. -/
def composeBody (values : Values) (fingerprint : String) (registry : Registry) (rootUrl : String)
    (newVersion : Option String) (limit : ℕ) : Publishing (Composition × Manifest) := do
  let composition ← composeReleases tools fingerprint rootUrl registry none
  liftM (checkNewest (composition.versions.map Prod.fst) newVersion)
  checkRecorded registry newVersion
  checkLiveSums tools rootUrl composition.sums newVersion
  liftM (require (composition.bytes ≤ limit) "the Pages site is above the budget")
  let manifest : Manifest :=
    ⟨values.baseUrl, composition.versions, composition.bytes, newVersion, composition.gone⟩
  Prog.expect .saveManifest fun save =>
    match save with
    | .saved => .ok (composition, manifest)
    | .exists => .error "the manifest exists"
    | .torn => .error "the manifest could not be written"

end

/-- The output directory and the manifest file. -/
structure Disk where
  output : Option (List (String × Site))
  manifest : Option Manifest

/-- What `compose_pages` checks before it asks anything. -/
def composeInputs (tools : Tools) (values : Values) (registry : Bytes) (newVersion : Option String)
    (placed : Bool) (disk : Disk) : Except String (Registry × String) := do
  require (disk.output.isNone = true ∧ disk.manifest.isNone = true) "outputs are never overwritten"
  require (placed = true) "the Pages manifest must be a new file in an existing directory"
  require (newVersion = none ∨ newVersion = some values.version) "the new version is not the committed version"
  let registry ← loadRegistry tools registry
  let rootUrl ← siteRoot values.baseUrl
  return (registry, rootUrl)

/-- `compose_pages`, with the disk it leaves. `placed` is whether the manifest is to be a file in an
    existing directory, neither inside the output nor containing it. -/
def composePages (tools : Tools) (values : Values) (fingerprint : String) (registry : Bytes)
    (newVersion : Option String) (limit : ℕ) (placed : Bool) (disk : Disk) :
    Publishing (Except String Manifest × Disk) :=
  match composeInputs tools values registry newVersion placed disk with
  | .error refusal => return (.error refusal, disk)
  | .ok (registry, rootUrl) => do
    match ← (composeBody tools values fingerprint registry rootUrl newVersion limit).attempt with
    | .ok (composition, manifest) => return (.ok manifest, ⟨some composition.output, some manifest⟩)
    -- The output is removed, and so is a manifest this run has opened.
    | .error refusal => return (.error refusal, ⟨none, disk.manifest⟩)

end NpuStack.Publish
