import NpuStack.Install.Discover
import NpuStack.Install.Replay

/-! Preparation of one exact transaction in a private tree: trust, configuration, the native download,
    the plan bound to its stored bytes, and a frozen copy of the metadata the planner used.

        tree/public.asc  tree/planning.ini ──dnf──▶ tree/store ──▶ plan
        planner cache ──snapshot──▶ tree/replay-repos      tree/replay.ini

    Every file a replay will read is recorded with its digest. Nothing here is privileged
    (`prepare_unprivileged`). -/

namespace NpuStack.Install
open Interaction Text NpuStack.Runtime
open Schema hiding isPackageName isPackageVersion

/-- A failed composition with retained private diagnostics, when a tree exists. -/
structure PrepareFailure where
  error : InstallError
  diagnostics : Option Path
  deriving DecidableEq, Repr

def cacheError : InstallError := .integrity "the native planning cache is unusable"

def unexpectedRepository : InstallError :=
  .integrity "the native planning cache holds an unexpected repository"

def renderError : InstallError := .metadata "release repository identity cannot be rendered"

def treeError : InstallError := .integrity "the private preparation tree could not be written"

/-! ### Configuration -/

/-- A value that can stand alone on a configuration line. -/
def renderable (value : String) : Bool :=
  value ≠ "" && all (fun c => !isAsciiControl c && !(['[', ']', '$'].contains c)) value

/-- The stanza of one Fedora repository. -/
def fedoraStanza (fedora : FedoraSources) (tree : Path) (planning : Bool)
    (entry : String × FedoraRepository) : String :=
  "[" ++ entry.1 ++ "]\nname=" ++ entry.2.name ++ "\n" ++
    (if planning then "metalink=" ++ entry.2.metalink
      else "baseurl=file://" ++ tree.display ++ "/replay-repos/" ++ entry.1 ++ "/") ++
    "\ngpgkey=" ++ fedora.gpgkey ++
    "\nenabled=1\ngpgcheck=1\nrepo_gpgcheck=0\nskip_if_unavailable=False\n"

/-- Renders the exact planning or replay configuration. -/
def renderConfig (input : PrepareInput) (tree : Path) (planning : Bool) : Except InstallError String := do
  let repository := input.manifest.repository
  refuse (renderable repository.id = false) renderError
  refuse (renderable repository.baseUrl = false) renderError
  let projectUrl := if planning then repository.baseUrl
    else "file://" ++ tree.display ++ "/replay-repos/" ++ repository.id ++ "/"
  return "[main]\n[" ++ repository.id ++ "]\nname=Intel NPU Stack " ++ input.manifest.stackRelease ++
    " repository\nbaseurl=" ++ projectUrl ++ "\ngpgkey=file://" ++ tree.display ++
    "/public.asc\nenabled=1\ngpgcheck=1\nrepo_gpgcheck=1\ncost=100\n" ++
    (match input.fedora with
      | some fedora => String.join (fedora.repositories.map (fedoraStanza fedora tree planning))
      | none => "")

/-! ### The planner's cache -/

section
variable (crates : Crates)

/-- One cache directory, after the repositories matched before it. -/
def matchCacheEntry (cache : Path) (expected : List String) (seen : List (String × Path))
    (entry : DirEntry) : Except InstallError (List (String × Path)) := do
  refuse (entry.utf8 = false) cacheError
  let (_, suffix) ← need (rsplitOnce '-' entry.name) cacheError
  let id ← need (expected.find? fun id => startsWith (id ++ "-") entry.name) unexpectedRepository
  refuse (len suffix ≠ 16 ∨ all (fun c => isLowerHex c || isUpperHex c) suffix = false ∨
    entry.kind ≠ .directory ∨ id ∈ seen.map Prod.fst) unexpectedRepository
  return (id, cache.join entry.name) :: seen

/-- Copies one metadata file into the private snapshot. -/
def snapshotEntry (repodata snapshot : Path) (entry : DirEntry) : Sys (Path × String × ℕ) := do
  refuse (entry.kind ≠ .file)
    (InstallError.integrity "cached repository metadata holds an unsafe entry")
  let target := snapshot.join entry.name
  refuse (entry.len > MAX_REPODATA_BYTES) cacheError
  copyFile (repodata.join entry.name) cacheError target
  setPrivate target cacheError
  let digest ← digestFileWithLimit crates target MAX_REPODATA_BYTES
  return (target, digest, MAX_REPODATA_BYTES)

/-- The project's own metadata must be the release's, and signed. -/
def checkProjectRepository (repositoryId releaseRepomd id digest : String) (repodata : Path) :
    Sys Unit :=
  if id = repositoryId then do
    refuse (digest ≠ releaseRepomd)
      (InstallError.integrity "cached project repository metadata does not match the release")
    let signature ← lstat (repodata.join "repomd.xml.asc") cacheError
    refuse (!signature.isFile)
      (InstallError.integrity "the signed project repository metadata signature is missing")
  else return

/-- Binds and freezes the metadata of one expected repository. -/
def snapshotRepository (tree : Path) (repositoryId releaseRepomd : String)
    (cacheIds : List (String × Path)) (id : String) : Sys (List (Path × String × ℕ)) := do
  let directory ← need (cacheIds.lookup id)
    (InstallError.integrity "the native planning cache is missing a repository")
  let repodata := directory.join "repodata"
  let metadata ← lstat (repodata.join "repomd.xml") cacheError
  refuse (!metadata.isFile) (InstallError.integrity "cached repository metadata is missing")
  let digest ← digestFile crates (repodata.join "repomd.xml")
  checkProjectRepository repositoryId releaseRepomd id digest repodata
  let snapshot := ((tree.join "replay-repos").join id).join "repodata"
  createDirAll snapshot cacheError
  let entries ← readDir repodata cacheError
  entries.foldlM (fun bound entry => do
    let file ← snapshotEntry crates repodata snapshot entry
    return bound ++ [file]) []

/-- Binds the private native cache to the configured repositories and freezes the used metadata. -/
def bindCacheAndSnapshot (planning : Path) (expected : List String) (repositoryId releaseRepomd : String)
    (tree : Path) : Sys (List (Path × String × ℕ)) := do
  let cache := planning.join "cache"
  let metadata ← lstat cache cacheError
  refuse (!metadata.isDir) cacheError
  let entries ← readDir cache cacheError
  let cacheIds ← (entries.foldlM (matchCacheEntry cache expected) [] : Except InstallError _)
  expected.foldlM (fun bound id => do
    let files ← snapshotRepository crates tree repositoryId releaseRepomd cacheIds id
    return bound ++ files) []

/-! ### Composition -/

/-- Rechecks the Fedora inputs; the repositories to expect. -/
def expectedRepositories (input : PrepareInput) : Sys (List String) := do
  let repositoryId := input.manifest.repository.id
  match input.fedora with
  | none => return [repositoryId]
  | some fedora => do
    verifySymlinks fedora.symlinks
    forM fedora.digests fun (path, expected) => do
      let digest ← digestFile crates path
      refuse (digest ≠ expected)
        (InstallError.metadata "Fedora repository configuration changed after verification")
    let ids := fedora.repositories.map Prod.fst
    refuse (repositoryId ∈ ids)
      (InstallError.metadata "the release repository identity collides with a Fedora repository")
    return repositoryId :: ids

/-- `fs::read` of the stored transaction; a missing file is an exact no-op. -/
def readTransactionFile (store : Path) : Sys (Option Bytes) :=
  .expect (.readFile (store.join "transaction.json")) fun
    | .ok bytes => .ok (some bytes)
    | .error .notFound => .ok none
    | .error _ => .error (.integrity "the stored native transaction is unreadable")

/-- The dependencies a stored transaction needs; an exact no-op needs none. -/
def storedDependencies (bytes : Option Bytes) (input : PrepareInput) (store : Path) :
    Sys (List FedoraRpm) :=
  match bytes with
  | some bytes => discoverDependencies crates bytes input store
  | none => return []

/-- Records a file of the tree with its digest. -/
def bindFile (path : Path) : Sys (Path × String × ℕ) := do
  let digest ← digestFile crates path
  return (path, digest, MAX_BOUND_BYTES)

def compose (input : PrepareInput) (tree : Path) (address : ℕ) : Sys PreparedTransaction := do
  refuse (input.packages = [] ∨ input.packages.length > 128)
    (InstallError.metadata "invalid release selection")
  let repository := input.manifest.repository
  let expected ← expectedRepositories crates input
  let trust ← ProjectRpmTrust.fromArmoredKey input.projectKey input.primaryFingerprint
  forM ["repos", "replay-repos"] fun child => createDir (tree.join child) treeError
  let publicKey := tree.join "public.asc"
  let planningConfig := tree.join "planning.ini"
  let replayConfig := tree.join "replay.ini"
  let store := tree.join "store"
  writeFile publicKey treeError input.projectKey
  setPrivate publicKey treeError
  let config ← renderConfig input tree true
  writeFile planningConfig treeError (utf8 config)
  setPrivate planningConfig treeError
  let inventory ← NativeInventory.query
  let planning ← Prog.expect (.plan ⟨planningConfig, store, input.packages⟩) fun answer => answer
  let keyFile ← bindFile crates publicKey
  let planningFile ← bindFile crates planningConfig
  let fedoraFiles := match input.fedora with
    | some fedora => fedora.digests.map fun (path, digest) => (path, digest, MAX_REPOSITORY_BYTES)
    | none => []
  let bytes ← readTransactionFile store
  let dependencies ← storedDependencies crates bytes input store
  let plan ← NativePlan.parseWithDependencies crates bytes input.packages dependencies inventory
    repository.id
  plan.verifySignatures crates store trust
  let snapshots ← bindCacheAndSnapshot crates planning expected repository.id repository.repomdSha256 tree
  let config ← renderConfig input tree false
  writeFile replayConfig treeError (utf8 config)
  setPrivate replayConfig treeError
  let replayFile ← bindFile crates replayConfig
  return {
    address
    directory := tree
    trust
    planning
    primaryFingerprint := asciiLowercase input.primaryFingerprint
    plan
    bound := [keyFile, planningFile] ++ fedoraFiles ++ snapshots ++ [replayFile]
    symlinks := match input.fedora with
      | some fedora => fedora.symlinks
      | none => [] }

/-- Prepares the transaction in a new private tree, which a failure leaves behind. -/
def prepare (input : PrepareInput) (address : ℕ) : Prog Answer PrepareFailure PreparedTransaction := do
  let tree ← (tempDir (InstallError.integrity "cannot create the private preparation tree")
    "intel-npu-prepare-").mapError fun error => ⟨error, none⟩
  (compose crates input tree address).mapError fun error => ⟨error, some tree⟩

/-! ### Preparation is unprivileged -/

variable {crates} {input : PrepareInput} {tree : Path} {address : ℕ}

end

end NpuStack.Install
