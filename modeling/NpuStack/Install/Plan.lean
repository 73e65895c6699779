import NpuStack.Install.NativeRpm
import NpuStack.Schemes.Keyed

/-! The native plan: every action of the stored transaction bound to an authenticated input.

        inputs ──stageInput──▶ incoming ↦ (package, replaced record)      replacements
                                     │  one removal per row                    │
        rows  ──bindRow────────▶  Install / Upgrade rows                 Replaced rows
                                     └──────── both tables end empty ──────────┘

    Rows and inputs meet only through their printed identity `name-[epoch:]version-release.arch`,
    from which name, version and architecture can be read back (`nativeIdentity_inj`). -/

namespace NpuStack.Install
open Interaction Text Serde NpuStack.Runtime
open Schema hiding isPackageName isPackageVersion

/-! ### Stored transactions -/

structure StoredRpm where
  nevra : String
  action : String
  reason : String
  repoId : String
  packagePath : Option String
  deriving DecidableEq, Repr

structure StoredTransaction where
  version : String
  rpms : List StoredRpm
  deriving DecidableEq, Repr

/-- Missing paths are absent; a present path must be a string, so explicit null is invalid. -/
def presentPath (f : String → Option Json) (name : String) : Option (Option String) :=
  defaulted f name (fun j => (readStr j).map some) none

def ROW_FIELDS : List String := ["nevra", "action", "reason", "repo_id", "package_path"]

def readStoredRpm (j : Json) : Option StoredRpm := do
  let f ← j.fields ROW_FIELDS
  return {
    nevra := ← required f "nevra" readStr
    action := ← required f "action" readStr
    reason := ← required f "reason" readStr
    repoId := ← required f "repo_id" readStr
    packagePath := ← presentPath f "package_path" }

def readTransaction (j : Json) : Option StoredTransaction := do
  let f ← j.fields ["version", "rpms"]
  return {
    version := ← required f "version" readStr
    rpms := ← required f "rpms" (readVec readStoredRpm) }

/-! ### Plans -/

inductive RpmAuthority where
  | project | fedora
  deriving DecidableEq, Repr

structure BoundRpm where
  native : StoredRpm
  sha256 : String
  replaces : Option String
  expected : ReleasePackage
  authority : RpmAuthority
  deriving DecidableEq, Repr

/-- Exact installation actions bound to independently authenticated RPM inputs. -/
structure NativePlan where
  packages : List BoundRpm
  transactionSha256 : Option String
  inventoryFingerprint : Option String
  deriving DecidableEq, Repr

def NativePlan.isEmpty (plan : NativePlan) : Bool := plan.packages = []

def transactionError : InstallError := ⟨30, "INSTALL_TRANSACTION_INVALID",
  "native transaction does not match the supported exact installation plan"⟩

def MAX_PROJECT_INPUTS : ℕ := 128
def MAX_INPUTS : ℕ := 4096
def MAX_TRANSACTION_BYTES : ℕ := 8388608

/-- The version as identities print it. -/
def shownEvr (evr : String) : String := (stripPrefix "0:" evr).getD evr

def nativeIdentity (name evr arch : String) : String := name ++ "-" ++ shownEvr evr ++ "." ++ arch

def identityOf (p : ReleasePackage) : String := nativeIdentity p.name p.nevr p.arch

def recordIdentity (r : InstalledRpm) : String := nativeIdentity r.name r.evr r.arch

/-- The path a row must give for a file name. -/
def packagePath (filename : String) : String := "./packages/" ++ filename

def safePackagePath (path : String) : Bool :=
  match stripPrefix "./packages/" path with
  | none => false
  | some filename =>
    len filename ≤ 512 && endsWith ".rpm" filename && filename.toList.head?.any Char.isAlphanum &&
      all fileChar filename

/-! ### Staging the inputs -/

/-- Names seen so far, inputs waiting for their row, and records waiting for their removal. -/
structure Staged where
  names : List String
  incoming : List (String × ReleasePackage × Option String)
  replacements : List String

/-- Installed records of the input's name and architecture. -/
def installedAt (inventory : NativeInventory) (package : ReleasePackage) : List InstalledRpm :=
  inventory.packages.filter fun old => old.name = package.name && old.arch = package.arch

def stageInput (inventory : NativeInventory) (staged : Staged) (package : ReleasePackage) :
    Sys Staged := do
  refuse (package.name ∈ staged.names) transactionError
  let names := package.name :: staged.names
  match installedAt inventory package with
  | [] =>
    return { staged with
      names
      incoming := Keyed.insert (identityOf package) (package, none) staged.incoming }
  | [old] =>
    if old.evr = package.nevr then return { staged with names }
    else do
      let ordering ← compareRpmVersions old.evr package.nevr
      refuse (ordering ≠ .lt) transactionError
      let identity := recordIdentity old
      return {
        names
        incoming := Keyed.insert (identityOf package) (package, some identity) staged.incoming
        replacements := staged.replacements.insert identity }
  | _ => .fail transactionError

/-! ### Binding the rows -/

/-- What is still waiting, the paths used, and the rows bound so far. -/
structure Binding where
  incoming : List (String × ReleasePackage × Option String)
  replacements : List String
  paths : List String
  packages : List BoundRpm

/-- Repository labels a bound row may carry. -/
def allowedRepositories (repositoryId : String) : List String :=
  ["@commandline", "fedora", "updates", repositoryId].map fun id =>
    "@stored_transaction(" ++ id ++ ")"

def rowAction (replaces : Option String) : String :=
  if replaces.isSome then "Upgrade" else "Install"

def authorityOf (projectInputs : List ReleasePackage) (package : ReleasePackage) : RpmAuthority :=
  if projectInputs.any fun p => p.name = package.name then .project else .fedora

def bindRow (repositoryId : String) (projectInputs : List ReleasePackage) (binding : Binding)
    (native : StoredRpm) : Except InstallError Binding := do
  refuse (native.reason ≠ "User" ∧ native.reason ≠ "Dependency") transactionError
  if native.action = "Replaced" then do
    refuse (native.repoId ≠ "@System" ∨ native.packagePath.isSome ∨
      native.nevra ∉ binding.replacements) transactionError
    return { binding with replacements := binding.replacements.erase native.nevra }
  else do
    let (package, replaces) ← need (Keyed.find native.nevra binding.incoming) transactionError
    let path ← need native.packagePath transactionError
    refuse (native.action ≠ rowAction replaces ∨ native.repoId ∉ allowedRepositories repositoryId ∨
      safePackagePath path = false ∨ path ≠ packagePath package.filename ∨ path ∈ binding.paths)
      transactionError
    return {
      incoming := Keyed.erase native.nevra binding.incoming
      replacements := binding.replacements
      paths := path :: binding.paths
      packages := binding.packages ++ [{
        native
        sha256 := package.sha256
        replaces
        expected := package
        authority := authorityOf projectInputs package }] }

def byNevra (a b : BoundRpm) : Prop := a.native.nevra ≤ b.native.nevra

instance : DecidableRel byNevra := fun a b =>
  inferInstanceAs (Decidable (a.native.nevra ≤ b.native.nevra))

/-- The decoded document against the staged inputs. -/
def bindRows (repositoryId : String) (projectInputs : List ReleasePackage) (staged : Staged)
    (document : StoredTransaction) : Except InstallError (List BoundRpm) := do
  refuse (document.version ≠ "1.0" ∨
    document.rpms.length ≠ staged.incoming.length + staged.replacements.length) transactionError
  let binding ← document.rpms.foldlM (bindRow repositoryId projectInputs)
    ⟨staged.incoming, staged.replacements, [], []⟩
  refuse (binding.incoming ≠ [] ∨ binding.replacements ≠ []) transactionError
  return binding.packages.insertionSort byNevra

def validRepositoryId (id : String) : Bool :=
  id ≠ "" && len id ≤ 128 && all (fun c => c.isAlphanum || "-_.".toList.contains c) id

section
variable (crates : Crates)

namespace NativePlan

def parseInputs (bytes : Option Bytes) (expected projectInputs : List ReleasePackage)
    (inventory : NativeInventory) (repositoryId : String) : Sys NativePlan := do
  refuse (expected = [] ∨ validRepositoryId repositoryId = false) transactionError
  let staged ← expected.foldlM (stageInput inventory) ⟨[], [], []⟩
  match bytes with
  | none =>
    refuse (staged.incoming ≠ []) transactionError
    return ⟨[], none, some (inventory.fingerprint crates)⟩
  | some bytes =>
    refuse (staged.incoming = [] ∨ bytes.length > MAX_TRANSACTION_BYTES) transactionError
    let document ← need ((crates.json bytes).bind readTransaction) transactionError
    let packages ← bindRows repositoryId projectInputs staged document
    return ⟨packages, some (crates.sha256 bytes), some (inventory.fingerprint crates)⟩

/-- Binds every native action to exact inputs, project ones and verified Fedora dependencies. -/
def parseWithDependencies (bytes : Option Bytes) (expected : List ReleasePackage)
    (dependencies : List FedoraRpm) (inventory : NativeInventory) (repositoryId : String) :
    Sys NativePlan := do
  refuse (expected.length > MAX_PROJECT_INPUTS ∨
    expected.length + dependencies.length > MAX_INPUTS) transactionError
  forM expected fun package => (validatePackage package : Sys Unit)
  parseInputs crates bytes (expected ++ dependencies.map (·.package)) expected inventory repositoryId

end NativePlan

end

/-! ### Identities can be read back -/

theorem notMem_arch {arch : String} (h : arch = "x86_64" ∨ arch = "noarch") : '.' ∉ arch.toList := by
  rcases h with rfl | rfl <;> decide

theorem notMem_rpmArch {name arch : String} (h : rpmArch name arch = true) : '.' ∉ arch.toList := by
  simp only [rpmArch, Bool.and_eq_true, Bool.or_eq_true, decide_eq_true_eq] at h
  rcases h.2 with hall | ⟨-, rfl⟩
  · intro hmem
    have := all_iff.mp hall _ hmem
    simp at this
  · decide

/-- The printed version hides the epoch exactly when it is zero. -/
theorem shownEvr_cases {evr : String} (h : validEvr evr = true) :
    ∃ epoch version release : String, canonicalEpoch epoch = true ∧ rpmScalar version = true ∧
      rpmScalar release = true ∧ evr = epoch ++ ":" ++ (version ++ "-" ++ release) ∧
      ((epoch = "0" ∧ shownEvr evr = version ++ "-" ++ release) ∨ shownEvr evr = evr) := by
  obtain ⟨-, epoch, version, release, hepoch, hversion, hrelease, rfl⟩ := validEvr_iff.mp h
  refine ⟨epoch, version, release, hepoch, hversion, hrelease, rfl, ?_⟩
  rw [shownEvr]
  cases hstrip : stripPrefix "0:" (epoch ++ ":" ++ (version ++ "-" ++ release)) with
  | none => exact .inr rfl
  | some rest =>
    have hcolon : ":".toList = [':'] := by decide
    have hzero : "0:".toList = ['0', ':'] := by decide
    have heq := congrArg String.toList (stripPrefix_eq_some.mp hstrip)
    have hfirst : splitOnce ':' (epoch ++ ":" ++ (version ++ "-" ++ release)) =
        some (epoch, version ++ "-" ++ release) :=
      splitOnce_eq_some.mpr ⟨by simp [hcolon], notMem_of_canonicalEpoch hepoch (by decide)⟩
    have hsecond : splitOnce ':' (epoch ++ ":" ++ (version ++ "-" ++ release)) = some ("0", rest) :=
      splitOnce_eq_some.mpr ⟨by rw [heq]; simp [hzero], by decide⟩
    obtain ⟨h₁, h₂⟩ := Prod.mk.inj (Option.some.inj (hfirst.symm.trans hsecond))
    exact .inl ⟨h₁, h₂.symm⟩

/-- A printed version is a part without dash, a dash, and a release without dash. -/
theorem shownEvr_parts {evr : String} (h : validEvr evr = true) : ∃ front release : String,
    shownEvr evr = front ++ "-" ++ release ∧ '-' ∉ front.toList ∧ '-' ∉ release.toList := by
  obtain ⟨epoch, version, release, hepoch, hversion, hrelease, rfl, hshown⟩ := shownEvr_cases h
  have hv : '-' ∉ version.toList := notMem_of_rpmScalar hversion (by decide) (by decide)
  have hr : '-' ∉ release.toList := notMem_of_rpmScalar hrelease (by decide) (by decide)
  have he : '-' ∉ epoch.toList := notMem_of_canonicalEpoch hepoch (by decide)
  rcases hshown with ⟨-, hshown⟩ | hshown
  · exact ⟨version, release, hshown, hv, hr⟩
  · refine ⟨epoch ++ ":" ++ version, release, by rw [hshown]; simp [String.append_assoc], ?_, hr⟩
    simp [he, hv]

theorem shownEvr_inj {evr evr' : String} (h : validEvr evr = true) (h' : validEvr evr' = true)
    (heq : shownEvr evr = shownEvr evr') : evr = evr' := by
  obtain ⟨e, v, r, -, hv, hr, rfl, hshown⟩ := shownEvr_cases h
  obtain ⟨e', v', r', -, hv', hr', rfl, hshown'⟩ := shownEvr_cases h'
  have hcolon : ":".toList = [':'] := by decide
  have hdash : "-".toList = ['-'] := by decide
  -- A version printed without its epoch has no colon, one printed with it has.
  have hfree : ∀ {v r : String}, rpmScalar v = true → rpmScalar r = true →
      ':' ∉ (v ++ "-" ++ r).toList := by
    intro v r hv hr
    have hv' : ':' ∉ v.toList := notMem_of_rpmScalar hv (by decide) (by decide)
    have hr' : ':' ∉ r.toList := notMem_of_rpmScalar hr (by decide) (by decide)
    simp [hdash, hv', hr']
  have hhas : ∀ e vr : String, ':' ∈ (e ++ ":" ++ vr).toList := fun e vr => by simp [hcolon]
  rcases hshown with ⟨rfl, hs⟩ | hs <;> rcases hshown' with ⟨rfl, hs'⟩ | hs'
  · rw [← hs, ← hs', heq]
  · rw [hs, hs'] at heq
    have hnone := hfree hv hr
    rw [heq] at hnone
    exact absurd (hhas e' _) hnone
  · rw [hs, hs'] at heq
    have hnone := hfree hv' hr'
    rw [← heq] at hnone
    exact absurd (hhas e _) hnone
  · rw [← hs, ← hs', heq]

/-- Name, version and architecture are determined by the printed identity. -/
theorem nativeIdentity_inj {name evr arch name' evr' arch' : String} (hevr : validEvr evr = true)
    (hevr' : validEvr evr' = true) (harch : '.' ∉ arch.toList) (harch' : '.' ∉ arch'.toList)
    (h : nativeIdentity name evr arch = nativeIdentity name' evr' arch') :
    name = name' ∧ evr = evr' ∧ arch = arch' := by
  obtain ⟨f, r, hshown, hf, hr⟩ := shownEvr_parts hevr
  obtain ⟨f', r', hshown', hf', hr'⟩ := shownEvr_parts hevr'
  have hdash : "-".toList = ['-'] := by decide
  have hdot : ".".toList = ['.'] := by decide
  -- The last dot starts the architecture, the last dash before it the release, and so on.
  have hlist := congrArg String.toList h
  simp only [nativeIdentity, String.toList_append, hdot, List.append_assoc,
    List.singleton_append] at hlist
  rw [← List.append_assoc, ← List.append_assoc, ← List.append_assoc, ← List.append_assoc] at hlist
  obtain ⟨hfront, harchs⟩ := append_sep_inj harch harch' hlist
  simp only [hshown, hshown', String.toList_append, hdash] at hfront
  have hrel : name.toList ++ '-' :: f.toList = name'.toList ++ '-' :: f'.toList ∧
      r.toList = r'.toList := append_sep_inj hr hr' (by simpa using hfront)
  have hname := append_sep_inj hf hf' hrel.1
  refine ⟨String.toList_inj.mp hname.1, shownEvr_inj hevr hevr' ?_, String.toList_inj.mp harchs⟩
  rw [hshown, hshown', String.toList_inj.mp hname.2, String.toList_inj.mp hrel.2]

end NpuStack.Install
