import Mathlib.Data.List.Dedup
import NpuStack.Runtime.Device
import NpuStack.Schemes.Keyed

/-! Native providers of a profile: one query for each package named by a component or a conflict,
    then, component by component, the critical files and their owners.

        names ──query──▶ queries ──component──▶ missing, failed, other version
                                     └─present─▶ file digest, owner  (each path asked once)

    Every component gets exactly one check, `package.` and its name, whatever the answers. -/

namespace NpuStack.Runtime
open Interaction Interaction.Prog Text Schema

def OWNER_FORMAT : String := "%\x7bNAME\x7d\n"

def MAX_CRITICAL_FILE_BYTES : ℕ := 2 * 1024 * 1024 * 1024

structure RpmPackageInspector where
  rpmExecutable : String
  root : String
  /-- Lowercase hexadecimal SHA-256 of the bytes. -/
  sha256 : Bytes → String

structure PackageInspection where
  checks : List DiagnosticCheck
  packages : List (String × InstalledPackage)

inductive FileObservation where
  | digest (sha256 : String)
  | failed (code : String)
  deriving DecidableEq, Repr

/-- What was already observed: files and owners by path. -/
structure Observed where
  files : List (String × FileObservation)
  owners : List (String × Except String String)

/-! ### Queries -/

namespace RpmPackageInspector

def queryInstalled (inspector : RpmPackageInspector) (package : String) : Inspection PackageQuery := do
  return classify package (← ask (.run (packageRequest inspector.rpmExecutable package)))

def ownerRequest (inspector : RpmPackageInspector) (path : String) : ProcessRequest where
  executable := inspector.rpmExecutable
  args := ["-qf", "--qf", OWNER_FORMAT, "--", path]
  timeout := QUERY_TIMEOUT
  stdoutLimit := STDOUT_LIMIT
  stderrLimit := STDERR_LIMIT
  environment := []

def parseOwnerOutput (bytes : Bytes) : Option String :=
  (parseOneLine bytes).filter fun owner => isPackageName owner

def classifyOwner : Except ProcessError ProcessOutput → Except String String
  | .error _ => .error "PACKAGE_QUERY_FAILED"
  | .ok output =>
    if output.stdoutOverflow || output.stderrOverflow then .error "PACKAGE_OUTPUT_INVALID"
    else if output.termination ≠ .exit 0 then .error "PACKAGE_OWNERSHIP_MISMATCH"
    else need (parseOwnerOutput output.stdout) "PACKAGE_OUTPUT_INVALID"

def queryOwner (inspector : RpmPackageInspector) (path : String) :
    Inspection (Except String String) := do
  return classifyOwner (← ask (.run (inspector.ownerRequest path)))

/-! ### Files -/

def fileIoCode : IoErrorKind → String
  | .notFound => "PACKAGE_FILE_MISSING"
  | _ => "PACKAGE_FILE_UNREADABLE"

def sameFile (left right : Metadata) : Bool := left.dev = right.dev && left.ino = right.ino

/-- The digest of a regular file that is the same file before, at and after opening. -/
def hashRegularFile (inspector : RpmPackageInspector) (path : String) : Inspection FileObservation := do
  match ← ask (.symlinkMetadata path) with
  | .error e => return .failed (fileIoCode e)
  | .ok before =>
    if before.kind ≠ .file then return .failed "PACKAGE_FILE_INVALID"
    if before.len > MAX_CRITICAL_FILE_BYTES then return .failed "PACKAGE_FILE_INVALID"
    match ← ask (.openRead path) with
    | .error e => return .failed (fileIoCode e)
    | .ok _ =>
      match ← ask (.handleMetadata path) with
      | .error _ => return .failed "PACKAGE_FILE_UNREADABLE"
      | .ok opened =>
        match ← ask (.symlinkMetadata path) with
        | .error _ => return .failed "PACKAGE_FILE_INVALID"
        | .ok after =>
          if after.kind ≠ .file || opened.len > MAX_CRITICAL_FILE_BYTES ||
              !sameFile before opened || !sameFile opened after then
            return .failed "PACKAGE_FILE_INVALID"
          match ← ask (.readToEnd path) with
          | .error _ => return .failed "PACKAGE_FILE_UNREADABLE"
          | .ok bytes => return .digest (inspector.sha256 bytes)

def inspectFile (inspector : RpmPackageInspector) (path : String) : Inspection FileObservation :=
  match stripPrefix "/" path with
  | none => pure (.failed "PACKAGE_FILE_INVALID")
  | some relative => inspector.hashRegularFile (joinPath inspector.root relative)

end RpmPackageInspector

/-! ### Checks -/

def providerCheck (capability : String) (status : CheckStatus) (details : Details) :
    DiagnosticCheck :=
  check ("package." ++ capability) status "Native provider matches the selected profile" details

def providerFailure (capability code package : String) (extra : List (String × Value)) :
    DiagnosticCheck :=
  providerCheck capability .fail
    (Details.extend (details [("error_code", .str code), ("package", .str package)]) extra)

/-- `map.entry(path).or_insert_with(…)`. -/
def entryOr {α : Type} (path : String) (known : List (String × α)) (make : Inspection α) :
    Inspection (α × List (String × α)) :=
  match known.lookup path with
  | some a => pure (a, known)
  | none => do
    let a ← make
    return (a, (path, a) :: known)

/-- The critical files of an installed provider, in order, up to the first that differs. -/
def inspectProviderFiles (inspector : RpmPackageInspector) (capability : String)
    (provider : NativeProvider) (installed : InstalledPackage) :
    List InstalledFile → Observed → Inspection (DiagnosticCheck × Observed)
  | [], observed => pure (providerCheck capability .pass
      (details [("package", .str installed.name), ("version", .str installed.version)]), observed)
  | expected :: rest, observed => do
    let (file, files) ← entryOr expected.path observed.files (inspector.inspectFile expected.path)
    let observed := { observed with files }
    match file with
    | .failed code => return (providerFailure capability code provider.package [], observed)
    | .digest actual =>
      if actual ≠ expected.sha256 then
        return (providerFailure capability "PACKAGE_DIGEST_MISMATCH" provider.package [], observed)
      let (owner, owners) ← entryOr expected.path observed.owners (inspector.queryOwner expected.path)
      let observed := { observed with owners }
      match owner with
      | .error code => return (providerFailure capability code provider.package [], observed)
      | .ok actual =>
        if actual ≠ provider.package then
          return (providerFailure capability "PACKAGE_OWNERSHIP_MISMATCH" provider.package
            [("actual_package", .str actual)], observed)
        inspectProviderFiles inspector capability provider installed rest observed

/-- What a conflict reports: its code, the package and, when installed, its version. -/
structure ConflictFailure where
  code : String
  package : String
  version : Option String

def conflictFailure (queries : List (String × PackageQuery)) :
    List PackageConflict → Except Panic (Option ConflictFailure)
  | [] => .ok none
  | conflict :: rest => do
    match ← need (queries.lookup conflict.package) ⟨"all validated conflicts were queried"⟩ with
    | .present installed => return some ⟨"PACKAGE_CONFLICT", installed.name, some installed.version⟩
    | .failed code => return some ⟨code, conflict.package, none⟩
    | .missing => conflictFailure queries rest

/-- The check of one component, before conflicts. -/
def inspectComponent (inspector : RpmPackageInspector) (queries : List (String × PackageQuery))
    (capability : String) (provider : NativeProvider) (observed : Observed) :
    Inspection (DiagnosticCheck × Observed) := do
  match ← (liftM (need (queries.lookup provider.package)
    (Panic.mk "all validated providers were queried")) : Inspection PackageQuery) with
  | .missing =>
    return (providerFailure capability "PACKAGE_NOT_INSTALLED" provider.package [], observed)
  | .failed code => return (providerFailure capability code provider.package [], observed)
  | .present installed =>
    if installed.version ≠ provider.version then
      return (providerFailure capability "PACKAGE_VERSION_MISMATCH" provider.package
        [("expected_version", .str provider.version), ("actual_version", .str installed.version)],
        observed)
    else inspectProviderFiles inspector capability provider installed provider.files observed

/-- A conflict turns a passing provider into a failure. -/
def withConflict (capability : String) (conflict : Option ConflictFailure) (c : DiagnosticCheck) :
    DiagnosticCheck :=
  match conflict with
  | some failure =>
    if c.status = .pass then
      providerFailure capability failure.code failure.package
        (match failure.version with
        | some version => [("actual_version", .str version)]
        | none => [])
    else c
  | none => c

def inspectStep (inspector : RpmPackageInspector) (queries : List (String × PackageQuery))
    (conflict : Option ConflictFailure) (acc : List DiagnosticCheck × Observed)
    (entry : String × ComponentRequirement) : Inspection (List DiagnosticCheck × Observed) := do
  let (c, observed) ← inspectComponent inspector queries entry.1 entry.2.provider acc.2
  return (acc.1 ++ [withConflict entry.1 conflict c], observed)

/-- The names to query, sorted and once each. -/
def packageNames (profile : Profile) : List String :=
  (profile.components.values.map (fun c => c.provider.package) ++
    profile.conflicts.map fun c => c.package).dedup.mergeSort (· ≤ ·)

def sortChecks (checks : List DiagnosticCheck) : List DiagnosticCheck :=
  checks.mergeSort fun left right => left.id ≤ right.id

/-- The check of a component when the package manager is another one. -/
def unavailableCheck (entry : String × ComponentRequirement) : DiagnosticCheck :=
  providerCheck entry.1 .blocked (details [("error_code", .str "PACKAGE_INSPECTOR_UNAVAILABLE"),
    ("package", .str entry.2.provider.package)])

def RpmPackageInspector.inspect (inspector : RpmPackageInspector) (profile : Profile) :
    Inspection PackageInspection := do
  if profile.packageManager ≠ .rpm then
    return ⟨profile.components.entries.map unavailableCheck, []⟩
  let queries ← (packageNames profile).mapM fun package => do
    return (package, ← inspector.queryInstalled package)
  let packages := queries.filterMap fun (name, result) =>
    match result with
    | .present package => some (name, package)
    | _ => none
  let conflict ← (liftM (conflictFailure queries profile.conflicts) : Inspection _)
  let (checks, _) ← profile.components.entries.foldlM (inspectStep inspector queries conflict)
    ([], ⟨[], []⟩)
  return ⟨sortChecks checks, packages⟩

/-! ### What package inspection gives -/

/-- Only queries of the package manager are run: they have no environment of their own. -/
def NoProbe (q : Question) : Prop := ∀ request, q = .run request → request.environment = []

theorem noProbe_of_passive (q : Question) (h : Passive q) : NoProbe q :=
  fun request heq => absurd heq (h request)

/-- A value that names an error names a documented one. -/
def PackageQuery.Documented : PackageQuery → Prop
  | .failed code => code ∈ ERROR_CODES
  | _ => True

def FileObservation.Documented : FileObservation → Prop
  | .failed code => code ∈ ERROR_CODES
  | .digest _ => True

def OwnerDocumented : Except String String → Prop
  | .error code => code ∈ ERROR_CODES
  | .ok _ => True

/-- Everything observed so far names documented errors. -/
def Observed.Documented (o : Observed) : Prop :=
  (∀ p ∈ o.files, p.2.Documented) ∧ ∀ p ∈ o.owners, OwnerDocumented p.2

theorem classify_documented (package : String) (answer : Except ProcessError ProcessOutput) :
    (classify package answer).Documented := by
  cases answer with
  | error e => exact show "PACKAGE_QUERY_FAILED" ∈ ERROR_CODES by decide
  | ok output =>
    rw [classify]
    split
    · exact show "PACKAGE_OUTPUT_INVALID" ∈ ERROR_CODES by decide
    split
    · split
      · trivial
      · exact show "PACKAGE_OUTPUT_INVALID" ∈ ERROR_CODES by decide
    · split
      · trivial
      · exact show "PACKAGE_QUERY_FAILED" ∈ ERROR_CODES by decide
    · exact show "PACKAGE_QUERY_FAILED" ∈ ERROR_CODES by decide

namespace RpmPackageInspector

variable (inspector : RpmPackageInspector)

theorem queryInstalled_gives (package : String) :
    (inspector.queryInstalled package).Gives NoProbe PackageQuery.Documented := by
  refine gives_query_bind ?_ fun answer => gives_pure (classify_documented package answer)
  rintro _ ⟨⟩
  rfl

theorem classifyOwner_documented (answer : Except ProcessError ProcessOutput) :
    OwnerDocumented (classifyOwner answer) := by
  cases answer with
  | error e => exact show "PACKAGE_QUERY_FAILED" ∈ ERROR_CODES by decide
  | ok output =>
    rw [classifyOwner]
    split
    · exact show "PACKAGE_OUTPUT_INVALID" ∈ ERROR_CODES by decide
    split
    · exact show "PACKAGE_OWNERSHIP_MISMATCH" ∈ ERROR_CODES by decide
    · cases parseOwnerOutput output.stdout with
      | none => exact show "PACKAGE_OUTPUT_INVALID" ∈ ERROR_CODES by decide
      | some owner => trivial

theorem queryOwner_gives (path : String) :
    (inspector.queryOwner path).Gives NoProbe OwnerDocumented := by
  refine gives_query_bind ?_ fun answer => gives_pure (classifyOwner_documented answer)
  rintro _ ⟨⟩
  rfl

theorem fileIoCode_documented (e : IoErrorKind) : fileIoCode e ∈ ERROR_CODES := by
  cases e <;> decide

theorem hashRegularFile_gives (path : String) :
    (inspector.hashRegularFile path).Gives NoProbe FileObservation.Documented := by
  have hinvalid : (FileObservation.failed "PACKAGE_FILE_INVALID").Documented :=
    show "PACKAGE_FILE_INVALID" ∈ ERROR_CODES by decide
  have hunreadable : (FileObservation.failed "PACKAGE_FILE_UNREADABLE").Documented :=
    show "PACKAGE_FILE_UNREADABLE" ∈ ERROR_CODES by decide
  refine gives_query_bind nofun fun before => ?_
  cases before with
  | error e => exact gives_pure (fileIoCode_documented e)
  | ok before =>
    dsimp only
    split
    · exact gives_pure hinvalid
    split
    · exact gives_pure hinvalid
    refine gives_query_bind nofun fun opened => ?_
    cases opened with
    | error e => exact gives_pure (fileIoCode_documented e)
    | ok _ =>
      refine gives_query_bind nofun fun opened => ?_
      cases opened with
      | error e => exact gives_pure hunreadable
      | ok opened =>
        refine gives_query_bind nofun fun after => ?_
        cases after with
        | error e => exact gives_pure hinvalid
        | ok after =>
          dsimp only
          split
          · exact gives_pure hinvalid
          refine gives_query_bind nofun fun bytes => ?_
          cases bytes with
          | error e => exact gives_pure hunreadable
          | ok bytes => exact gives_pure trivial

theorem inspectFile_gives (path : String) :
    (inspector.inspectFile path).Gives NoProbe FileObservation.Documented := by
  rw [inspectFile]
  split
  · exact gives_pure (show "PACKAGE_FILE_INVALID" ∈ ERROR_CODES by decide)
  · exact inspector.hashRegularFile_gives _

end RpmPackageInspector

theorem documented_providerFailure {capability code package : String}
    {extra : List (String × Value)} (hcode : code ∈ ERROR_CODES)
    (hextra : "error_code" ∉ extra.map Prod.fst) :
    Documented (providerFailure capability code package extra) :=
  documented_of_details (x := ("package", .str package) :: extra) rfl (by simpa using hextra) hcode

/-- The check of a component: its own identifier, and a documented error if any. -/
def ComponentCheck (capability : String) (c : DiagnosticCheck) : Prop :=
  c.id = "package." ++ capability ∧ Documented c

theorem componentCheck_failure {capability code package : String} {extra : List (String × Value)}
    (hcode : code ∈ ERROR_CODES) (hextra : "error_code" ∉ extra.map Prod.fst) :
    ComponentCheck capability (providerFailure capability code package extra) :=
  ⟨rfl, documented_providerFailure hcode hextra⟩

/-- A cached or fresh value keeps what every cached value and every fresh one has. -/
theorem entryOr_gives {α : Type} {path : String} {known : List (String × α)} {make : Inspection α}
    {P : α → Prop} (hknown : ∀ p ∈ known, P p.2) (hmake : make.Gives NoProbe P) :
    (entryOr path known make).Gives NoProbe fun r => P r.1 ∧ ∀ p ∈ r.2, P p.2 := by
  rw [entryOr]
  split
  · next a hfound => exact gives_pure ⟨hknown (path, a) (Keyed.mem_of_lookup hfound), hknown⟩
  · exact gives_bind hmake fun a ha => gives_pure ⟨ha, List.forall_mem_cons.mpr ⟨ha, hknown⟩⟩

/-- A component's check, and still only documented errors observed. -/
def CheckedComponent (capability : String) (r : DiagnosticCheck × Observed) : Prop :=
  ComponentCheck capability r.1 ∧ r.2.Documented

theorem inspectProviderFiles_gives (inspector : RpmPackageInspector) (capability : String)
    (provider : NativeProvider) (installed : InstalledPackage) : ∀ files observed,
    observed.Documented →
    (inspectProviderFiles inspector capability provider installed files observed).Gives NoProbe
      (CheckedComponent capability)
  | [], observed, hobs => gives_pure ⟨⟨rfl, documented_of_absent rfl (by simp)⟩, hobs⟩
  | expected :: rest, observed, hobs => by
    rw [inspectProviderFiles]
    refine gives_bind (entryOr_gives hobs.1 (inspector.inspectFile_gives _)) ?_
    rintro ⟨file, files⟩ ⟨hfile, hfiles⟩
    cases file with
    | failed code =>
      exact gives_pure ⟨componentCheck_failure hfile (by simp), hfiles, hobs.2⟩
    | digest actual =>
      dsimp only
      split
      · exact gives_pure ⟨componentCheck_failure (by decide) (by simp), hfiles, hobs.2⟩
      refine gives_bind (entryOr_gives hobs.2 (inspector.queryOwner_gives _)) ?_
      rintro ⟨owner, owners⟩ ⟨howner, howners⟩
      cases owner with
      | error code => exact gives_pure ⟨componentCheck_failure howner (by simp), hfiles, howners⟩
      | ok actual =>
        dsimp only
        split
        · exact gives_pure ⟨componentCheck_failure (by decide) (by simp), hfiles, howners⟩
        · exact inspectProviderFiles_gives inspector capability provider installed rest _
            ⟨hfiles, howners⟩

/-- The queries of an inspection: one for each name, each with documented errors. -/
structure Queried (names : List String) (queries : List (String × PackageQuery)) : Prop where
  complete : ∀ name ∈ names, ∃ query, queries.lookup name = some query
  documented : ∀ p ∈ queries, p.2.Documented

theorem Queried.lookup {names : List String} {queries : List (String × PackageQuery)}
    (h : Queried names queries) {name : String} (hname : name ∈ names) :
    ∃ query, queries.lookup name = some query ∧ query.Documented := by
  obtain ⟨query, hquery⟩ := h.complete name hname
  exact ⟨query, hquery, h.documented _ (Keyed.mem_of_lookup hquery)⟩

/-- The conflicts of a profile are all queried, so reading them cannot panic. -/
theorem conflictFailure_ok {names : List String} {queries : List (String × PackageQuery)}
    (hq : Queried names queries) : ∀ {conflicts : List PackageConflict},
    (∀ c ∈ conflicts, c.package ∈ names) →
    ∃ conflict, conflictFailure queries conflicts = .ok conflict ∧
      ∀ failure ∈ conflict, failure.code ∈ ERROR_CODES
  | [], _ => ⟨none, rfl, by simp⟩
  | conflict :: rest, h => by
    obtain ⟨hfirst, hrest⟩ := List.forall_mem_cons.mp h
    obtain ⟨answer, hlookup, hdoc⟩ := hq.lookup hfirst
    rw [conflictFailure, hlookup]
    cases answer with
    | present installed =>
      have hcode : "PACKAGE_CONFLICT" ∈ ERROR_CODES := by decide
      exact ⟨_, rfl, by rintro _ ⟨⟩; exact hcode⟩
    | failed code => exact ⟨_, rfl, by rintro _ ⟨⟩; exact hdoc⟩
    | missing => exact conflictFailure_ok hq hrest

theorem inspectComponent_gives (inspector : RpmPackageInspector) {names : List String}
    {queries : List (String × PackageQuery)} (hq : Queried names queries) (capability : String)
    (provider : NativeProvider) (hprovider : provider.package ∈ names) {observed : Observed}
    (hobs : observed.Documented) :
    (inspectComponent inspector queries capability provider observed).Gives NoProbe
      (CheckedComponent capability) := by
  obtain ⟨answer, hlookup, hdoc⟩ := hq.lookup hprovider
  refine gives_bind (gives_lift (need_ok.mpr hlookup) (P := fun found => found = answer) rfl) ?_
  rintro found rfl
  cases found with
  | missing => exact gives_pure ⟨componentCheck_failure (by decide) (by simp), hobs⟩
  | failed code => exact gives_pure ⟨componentCheck_failure hdoc (by simp), hobs⟩
  | present installed =>
    dsimp only
    split
    · exact gives_pure ⟨componentCheck_failure (by decide) (by simp), hobs⟩
    · exact inspectProviderFiles_gives inspector capability provider installed _ _ hobs

theorem withConflict_check {capability : String} {conflict : Option ConflictFailure}
    {c : DiagnosticCheck} (hconflict : ∀ failure ∈ conflict, failure.code ∈ ERROR_CODES)
    (hc : ComponentCheck capability c) : ComponentCheck capability (withConflict capability conflict c) := by
  cases conflict with
  | none => exact hc
  | some failure =>
    rw [withConflict]
    split
    · refine componentCheck_failure (hconflict failure rfl) ?_
      split <;> simp
    · exact hc

/-- The checks of a package inspection: one for each component, in some order. -/
structure PackageChecks (profile : Profile) (r : PackageInspection) : Prop where
  ids : (r.checks.map (·.id)).Perm (profile.components.keys.map fun key => "package." ++ key)
  documented : ∀ c ∈ r.checks, Documented c

theorem mem_packageNames {profile : Profile} {name : String} : name ∈ packageNames profile ↔
    (∃ c ∈ profile.components.values, c.provider.package = name) ∨
      ∃ c ∈ profile.conflicts, c.package = name := by
  rw [packageNames, List.mem_mergeSort, List.mem_dedup, List.mem_append, List.mem_map, List.mem_map]

/-- Whatever the package manager and the files answer, every component gets its check. -/
theorem inspect_gives (inspector : RpmPackageInspector) (profile : Profile) :
    (inspector.inspect profile).Gives NoProbe (PackageChecks profile) := by
  rw [RpmPackageInspector.inspect]
  split
  · refine gives_pure ⟨?_, fun c hc => ?_⟩
    · simp [unavailableCheck, providerCheck, check, OrderedMap.keys, Function.comp_def]
    · obtain ⟨entry, -, rfl⟩ := List.mem_map.mp hc
      exact documented_of_details (x := [("package", .str entry.2.provider.package)]) rfl
        (by simp) (by decide)
  refine gives_bind (gives_mapM (fun name p => p.1 = name ∧ p.2.Documented) fun package _ =>
    gives_bind (inspector.queryInstalled_gives package) fun query hquery =>
      gives_pure ⟨rfl, hquery⟩) fun queries hqueries => ?_
  have hq : Queried (packageNames profile) queries := by
    refine ⟨fun name hname => ?_, fun p hp => ?_⟩
    · obtain ⟨p, hp, rfl, -⟩ := Keyed.exists_of_mem_left hqueries name hname
      exact Option.isSome_iff_exists.mp (Keyed.lookup_isSome hp)
    · obtain ⟨_, -, -, hdoc⟩ := Keyed.exists_of_mem_right hqueries p hp
      exact hdoc
  obtain ⟨conflict, hconflict, hcodes⟩ := @conflictFailure_ok _ _ hq profile.conflicts
    fun c hc => mem_packageNames.mpr (.inr ⟨c, hc, rfl⟩)
  refine gives_bind (gives_lift hconflict (P := fun c => c = conflict) rfl) ?_
  rintro _ rfl
  refine gives_bind (gives_foldlM (s := [])
    (fun seen acc => List.Forall₂ (fun (entry : String × ComponentRequirement) c =>
      ComponentCheck entry.1 c) seen acc.1 ∧ acc.2.Documented) ?_ ⟨.nil, by simp [Observed.Documented]⟩) ?_
  · rintro seen entry acc hentry ⟨hchecks, hobs⟩
    refine gives_bind (inspectComponent_gives inspector hq entry.1 entry.2.provider
      (mem_packageNames.mpr (.inl ⟨entry.2, List.mem_map_of_mem hentry, rfl⟩)) hobs) ?_
    rintro ⟨c, observed⟩ ⟨hc, hobs⟩
    exact gives_pure ⟨List.rel_append hchecks (.cons (withConflict_check hcodes hc) .nil), hobs⟩
  · rintro ⟨checks, observed⟩ ⟨hchecks, -⟩
    have hperm := List.mergeSort_perm checks fun left right => left.id ≤ right.id
    refine gives_pure ⟨?_, fun c hc => ?_⟩
    · have hids : profile.components.entries.map (fun entry => "package." ++ entry.1) =
          checks.map (·.id) := Keyed.map_eq_of_forall₂ (hchecks.imp fun _ _ h => h.1.symm)
      refine (hperm.map _).trans (List.Perm.of_eq ?_)
      rw [← hids, OrderedMap.keys, List.map_map]
      rfl
    · obtain ⟨_, -, -, hdoc⟩ := Keyed.exists_of_mem_right hchecks c (hperm.mem_iff.mp hc)
      exact hdoc

end NpuStack.Runtime
