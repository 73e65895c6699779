import NpuStack.Publish.Compose

/-! `publish_release`: from a proved publication to an immutable release.

        local assets ──▶ room check ──▶ fresh | draft-resume | published-resume
              draft ──describe, upload, read back──▶ checked draft ──undraft──▶ release
                                                                  final checks ──▶ Publication

    Every answer of GitHub is one of a question, as in the composition. The files of the publication
    and its notes are read before anything is asked and do not change during a run. -/

namespace NpuStack.Publish
open Interaction Text

/-- Digests by the names of the publication assets. -/
abbrev Digests := List (String × String)

/-! ### The publication at hand -/

section
variable (tools : Tools)

/-- `local_assets`: digests of the publication assets and the bytes of their site. `files` holds the
    regular files of the assets directory. -/
def localAssets (values : Values) (files : String → Option Bytes) (commit : String)
    (notes : Option Bytes) : Except String (Digests × ℕ) := do
  let version := values.version
  let digests ← (releaseAssets version).mapM fun name => do
    let content ← need (files name) ("publication asset is missing: " ++ name)
    return (name, tools.sha256 content)
  let archive ← need (files (archiveName version)) malformed
  checkStandalone tools archive version files
  let sums ← need (files "SHA256SUMS") malformed
  let signature ← need (files "SHA256SUMS.asc") malformed
  require (tools.verifySignature values.primaryFingerprint signature sums = true) "bad signature"
  let site ← unpackRelease tools archive version sums signature
  checkIdentity tools site version values.baseUrl values.primaryFingerprint commit
  checkInstallerSignature tools site values.primaryFingerprint
  require (tools.canonicalSha site = some (tools.sha256 archive))
    "the archive is not the canonical archive of its site"
  require (∀ text ∈ notes, tools.renderNotes version site archive = some text)
    "the release notes are not the rendering of this release"
  require (siteBytes site ≤ MAX_SITE) "the site is above the Pages budget"
  return (digests, siteBytes site)

end

/-! ### What is served besides this version -/

/-- What a snapshot keeps of a release. -/
structure ServedRelease where
  tagName : String
  immutable : Option Bool
  prerelease : Bool
  name : Option String
  body : Option String
  assets : List (String × String)
deriving DecidableEq

/-- The other live releases by their ids, and the other tags with the objects they name. -/
structure ServedState where
  releases : List (ℕ × ServedRelease)
  tags : List (String × String)
deriving DecidableEq

/-- Tuples of two strings in Python's order. -/
def pairLe (a b : String × String) : Bool := a.1 < b.1 || (a.1 = b.1 && a.2 ≤ b.2)

def servedRelease (release : Release) : ServedRelease :=
  ⟨release.tagName, release.immutable, release.prerelease, release.name, release.body,
    (release.assets.map fun asset => (asset.name, asset.digest.getD "None")).mergeSort pairLe⟩

/-- The live releases of other versions, as listed. -/
def otherReleases (version : String) (releases : List Release) : List Release :=
  releases.filter fun release =>
    !release.draft && (tagVersion release.tagName).isSome && release.tagName ≠ "v" ++ version

/-- The snapshot of two listings. A dictionary is listed by its keys, so that equal ones are equal
    lists. -/
def snapshot (version : String) (releases : List Release) (tags : List (String × String)) :
    ServedState where
  releases := (((otherReleases version releases).map fun release =>
    (release.id, servedRelease release)).foldl Py.insertItem []).mergeSort fun a b => a.1 ≤ b.1
  tags := (tags.filter fun tag => tag.1 ≠ "v" ++ version).mergeSort pairLe

/-- `served_state`. -/
def servedState (version : String) : Publishing ServedState := do
  let releases ← listReleases
  let tags ← listTags
  return snapshot version releases tags

/-! ### Requests -/

def draftFields (values : Values) (commit body : String) : Fields where
  tagName := "v" ++ values.version
  targetCommitish := commit
  name := releaseTitle values.version
  body := body
  draft := some true
  prerelease := some false
  makeLatest := none

/-- The title and notes of a draft. An update that omits the tag would drop it. -/
def notesFields (values : Values) (commit body : String) : Fields where
  tagName := "v" ++ values.version
  targetCommitish := commit
  name := releaseTitle values.version
  body := body
  draft := none
  prerelease := none
  makeLatest := none

/-- The irreversible request. -/
def undraftFields (values : Values) (commit body : String) : Fields where
  tagName := "v" ++ values.version
  targetCommitish := commit
  name := releaseTitle values.version
  body := body
  draft := some false
  prerelease := some false
  makeLatest := some "true"

def createRelease (fields : Fields) : Publishing Release :=
  Prog.expect (.create fields) fun answer => need answer "POST /releases failed"

def updateRelease (id : ℕ) (fields : Fields) : Publishing Unit :=
  Prog.expect (.update id fields) fun answer => need answer "PATCH release failed"

def readRelease (id : ℕ) : Publishing Release :=
  Prog.expect (.release id) fun answer => need answer "GET release failed"

/-- `upload`: the upload URL is a template. -/
def uploadAsset (release : Release) (name : String) (content : Bytes) : Publishing Unit :=
  Prog.expect (.upload (Py.partition '{' release.uploadUrl).1 name content) fun answer =>
    need answer ("uploading " ++ name ++ " failed")

/-! ### The state of the publication -/

/-- What GitHub has of this publication. -/
inductive Found where
  | fresh
  | draftResume (release : Release)
  | publishedResume (release : Release)

def Found.state : Found → String
  | .fresh => "fresh"
  | .draftResume _ => "draft-resume"
  | .publishedResume _ => "published-resume"

def assetDigest (digest : String) : String := "sha256:" ++ digest

/-- `publish_state`. -/
def publishState (values : Values) (locals : Digests) (commit : String) : Publishing Found := do
  let tag := "v" ++ values.version
  let releases ← listReleases
  let matched := releases.filter fun release => release.tagName = tag
  liftM (require (matched.length ≤ 1) ("more than one release uses tag " ++ tag))
  let tagSha ← tagCommit tag
  match matched with
  | [] => do
    liftM (require (tagSha = none) ("tag " ++ tag ++ " exists without a release"))
    return .fresh
  | release :: _ => do
    let assets := release.assetsByName
    liftM (require (∀ item ∈ assets, ∃ digest ∈ locals.lookup item.1, item.2.digest = some
      (assetDigest digest))
      ("the existing " ++ tag ++ " release or draft differs from this publication"))
    liftM (require (release.prerelease = false) ("the existing " ++ tag ++
      " release is a prerelease"))
    if release.draft then do
      -- Publishing a draft creates its tag at the target, so the draft must already name this commit.
      liftM (require (release.targetCommitish = commit ∧ (tagSha = none ∨ tagSha = some commit))
        ("the " ++ tag ++ " draft targets another commit than this publication"))
      return .draftResume release
    else do
      liftM (require ((∀ name ∈ locals.map Prod.fst, name ∈ assets.map Prod.fst) ∧
          release.immutable = some true ∧ tagSha = some commit)
        ("a published " ++ tag ++ " release exists and is not this immutable publication"))
      return .publishedResume release

section
variable (tools : Tools)

/-- One asset of `check_release_assets`. -/
def checkReleaseAsset (release : Release) (readback : Bool) (item : String × String) :
    Publishing Unit := do
  let (name, digest) := item
  let asset ← liftM (need (release.assetsByName.lookup name) malformed)
  liftM (require (asset.digest = some (assetDigest digest))
    ("the API digest of " ++ name ++ " differs"))
  if readback then do
    let content ← downloadAsset asset
    liftM (require (tools.sha256 content = digest) ("the uploaded " ++ name ++
      " reads back differently"))
  else return ()

/-- `check_release_assets`. -/
def checkReleaseAssets (release : Release) (locals : Digests) (readback : Bool) :
    Publishing Unit := do
  let assets := release.assetsByName
  liftM (require ((∀ item ∈ assets, item.1 ∈ locals.map Prod.fst) ∧
      ∀ name ∈ locals.map Prod.fst, name ∈ assets.map Prod.fst)
    "the release does not carry exactly the publication assets")
  forM locals (checkReleaseAsset tools release readback)

/-- `check_draft`: read again right before the undraft. -/
def checkDraft (id : ℕ) (values : Values) (commit body : String) (locals : Digests) :
    Publishing Unit := do
  let tag := "v" ++ values.version
  let release ← readRelease id
  liftM (require (release.draft = true ∧ release.prerelease = false ∧ release.tagName = tag ∧
      release.targetCommitish = commit) ("the " ++ tag ++ " draft changed before publication"))
  liftM (require (release.name = some (releaseTitle values.version) ∧ release.body = some body)
    ("the " ++ tag ++ " draft does not carry this publication's title and notes"))
  checkReleaseAssets tools release locals false
  let tagSha ← tagCommit tag
  liftM (require (tagSha = none ∨ tagSha = some commit)
    ("tag " ++ tag ++ " names another commit than this publication"))

/-! ### The publication -/

structure Publication where
  state : String
  releaseId : ℕ
  tag : String
  commit : String
  assets : Digests

/-- Upload an asset the draft lacks. -/
def uploadMissing (files : String → Option Bytes) (release : Release) (name : String) :
    Publishing Unit :=
  if name ∈ release.assets.map Asset.name then return ()
  else do
    let content ← liftM (need (files name) malformed)
    uploadAsset release name content

/-- The block of `publish_release` for a fresh or resumed draft, and the release it publishes. -/
def publishDraft (values : Values) (files : String → Option Bytes) (commit body : String)
    (locals : Digests)
    (served : ServedState) (room : Composition) (release : Release) : Publishing Release := do
  let tag := "v" ++ values.version
  updateRelease release.id (notesFields values commit body)
  forM (releaseAssets values.version) (uploadMissing files release)
  let release ← readRelease release.id
  liftM (require (release.draft = true ∧ release.name = some (releaseTitle values.version) ∧
      release.body = some body)
        ("the " ++ tag ++ " draft does not carry this publication's title and notes"))
  checkReleaseAssets tools release locals true
  checkDraft tools release.id values commit body locals
  let again ← servedState values.version
  liftM (require (again = served) "the served releases or v tags changed before publication")
  let rootUrl ← liftM (siteRoot values.baseUrl)
  checkLiveSums tools rootUrl room.sums none
  updateRelease release.id (undraftFields values commit body)
  return release

/-- The last reading of the published release. -/
def checkPublished (id : ℕ) (values : Values) (commit body : String) (locals : Digests) :
    Publishing Release := do
  let tag := "v" ++ values.version
  let final ← readRelease id
  liftM (require (final.draft = false ∧ final.immutable = some true)
    ("the " ++ tag ++ " release is not an immutable published release"))
  liftM (require (final.prerelease = false ∧ final.tagName = tag)
    ("the " ++ tag ++ " release was published as a prerelease or under another tag"))
  liftM (require (final.name = some (releaseTitle values.version) ∧ final.body = some body)
    ("the published " ++ tag ++ " release does not carry this publication's title and notes"))
  checkReleaseAssets tools final locals false
  let tagSha ← tagCommit tag
  liftM (require (tagSha = some commit) ("tag " ++ tag ++ " does not name the release commit"))
  return final

/-- What is served besides this version, and the composition of it the room check has run. -/
def checkRoom (values : Values) (registry : Bytes) (size : ℕ) :
    Publishing (ServedState × Composition) := do
  let served ← servedState values.version
  let room ← checkPagesRoom tools values registry size
  let again ← servedState values.version
  liftM (require (again = served) "the served releases or v tags changed during the room check")
  return (served, room)

/-- The release that is published, or already was. -/
def publishFound (values : Values) (files : String → Option Bytes) (commit body : String)
    (locals : Digests) (served : ServedState) (room : Composition) : Found → Publishing Release
  | .fresh => do
    let release ← createRelease (draftFields values commit body)
    publishDraft tools values files commit body locals served room release
  | .draftResume release => publishDraft tools values files commit body locals served room release
  | .publishedResume release => return release

/-- `publish_release`. -/
def publishRelease (values : Values) (files : String → Option Bytes) (notes : Bytes)
    (commit : String) (registry : Bytes) : Publishing Publication := do
  let (locals, size) ← liftM (localAssets tools values files commit (some notes))
  let body ← liftM (need (Py.readText notes) malformed)
  liftM (require (0 < Py.len body ∧ Py.len body ≤ 120000)
    "release notes must be non-empty and within the GitHub limit")
  let (served, room) ← checkRoom tools values registry size
  let found ← publishState values locals commit
  let release ← publishFound tools values files commit body locals served room found
  let final ← checkPublished tools release.id values commit body locals
  return ⟨found.state, final.id, "v" ++ values.version, commit, locals⟩

end

end NpuStack.Publish
