import NpuStack.Runtime.Inspect

/-! Package inspection without its caches. The inspector asks for each package once, and for each
    file and its owner at most once, over all components; `inspectAlone` asks again every time:

        inspect       queries ─┬─ component ─▶ check      files and owners shared
                               └─ component ─▶ check
        inspectAlone  component ─▶ its own queries, files, owners and conflicts ─▶ check

    As long as the same question is answered the same way, both give the same check. -/

namespace NpuStack.Runtime
open Interaction Interaction.Prog Text Schema

/-- What the package manager and the files say. -/
structure Observations where
  query : String → PackageQuery
  file : String → FileObservation
  owner : String → Except String String

/-- Wherever the trace holds a query, the hash of a file or a question for its owner, it is answered
    as observed. -/
structure Deterministic (inspector : RpmPackageInspector) (o : Observations)
    (t : List (Event Answer)) : Prop where
  query : ∀ name s q, s <:+: t → Runs (inspector.queryInstalled name) s (.ok q) → q = o.query name
  file : ∀ path s f, s <:+: t → Runs (inspector.inspectFile path) s (.ok f) → f = o.file path
  owner : ∀ path s r, s <:+: t → Runs (inspector.queryOwner path) s (.ok r) → r = o.owner path

/-! ### One component, asked alone -/

namespace RpmPackageInspector

def checkFilesAlone (inspector : RpmPackageInspector) (capability : String) (provider : NativeProvider)
    (installed : InstalledPackage) : List InstalledFile → Inspection DiagnosticCheck
  | [] => pure <| providerCheck capability .pass
      (details [("package", .str installed.name), ("version", .str installed.version)])
  | expected :: rest => do
    match ← inspector.inspectFile expected.path with
    | .failed code => return providerFailure capability code provider.package []
    | .digest actual =>
      if actual ≠ expected.sha256 then
        return providerFailure capability "PACKAGE_DIGEST_MISMATCH" provider.package []
      match ← inspector.queryOwner expected.path with
      | .error code => return providerFailure capability code provider.package []
      | .ok actual =>
        if actual ≠ provider.package then
          return providerFailure capability "PACKAGE_OWNERSHIP_MISMATCH" provider.package
            [("actual_package", .str actual)]
        inspector.checkFilesAlone capability provider installed rest

def conflictAlone (inspector : RpmPackageInspector) :
    List PackageConflict → Inspection (Option ConflictFailure)
  | [] => return none
  | conflict :: rest => do
    match ← inspector.queryInstalled conflict.package with
    | .present installed => return some ⟨"PACKAGE_CONFLICT", installed.name, some installed.version⟩
    | .failed code => return some ⟨code, conflict.package, none⟩
    | .missing => inspector.conflictAlone rest

/-- The check of one component under some conflicts, with every question asked anew. -/
def inspectAlone (inspector : RpmPackageInspector) (conflicts : List PackageConflict)
    (entry : String × ComponentRequirement) : Inspection DiagnosticCheck := do
  let provider := entry.2.provider
  let c ← match ← inspector.queryInstalled provider.package with
    | .missing => pure (providerFailure entry.1 "PACKAGE_NOT_INSTALLED" provider.package [])
    | .failed code => pure (providerFailure entry.1 code provider.package [])
    | .present installed =>
      if installed.version ≠ provider.version then
        pure (providerFailure entry.1 "PACKAGE_VERSION_MISMATCH" provider.package
          [("expected_version", .str provider.version), ("actual_version", .str installed.version)])
      else inspector.checkFilesAlone entry.1 provider installed provider.files
  let conflict ← inspector.conflictAlone conflicts
  return withConflict entry.1 conflict c

end RpmPackageInspector

/-! ### The check as a function of what is observed -/

namespace Observations

def filesCheck (o : Observations) (capability : String) (provider : NativeProvider)
    (installed : InstalledPackage) : List InstalledFile → DiagnosticCheck
  | [] => providerCheck capability .pass
      (details [("package", .str installed.name), ("version", .str installed.version)])
  | expected :: rest =>
    match o.file expected.path with
    | .failed code => providerFailure capability code provider.package []
    | .digest actual =>
      if actual ≠ expected.sha256 then
        providerFailure capability "PACKAGE_DIGEST_MISMATCH" provider.package []
      else match o.owner expected.path with
      | .error code => providerFailure capability code provider.package []
      | .ok actual =>
        if actual ≠ provider.package then
          providerFailure capability "PACKAGE_OWNERSHIP_MISMATCH" provider.package
            [("actual_package", .str actual)]
        else o.filesCheck capability provider installed rest

def providerCheckOf (o : Observations) (capability : String) (provider : NativeProvider) :
    DiagnosticCheck :=
  match o.query provider.package with
  | .missing => providerFailure capability "PACKAGE_NOT_INSTALLED" provider.package []
  | .failed code => providerFailure capability code provider.package []
  | .present installed =>
    if installed.version ≠ provider.version then
      providerFailure capability "PACKAGE_VERSION_MISMATCH" provider.package
        [("expected_version", .str provider.version), ("actual_version", .str installed.version)]
    else o.filesCheck capability provider installed provider.files

def conflictOf (o : Observations) : List PackageConflict → Option ConflictFailure
  | [] => none
  | conflict :: rest =>
    match o.query conflict.package with
    | .present installed => some ⟨"PACKAGE_CONFLICT", installed.name, some installed.version⟩
    | .failed code => some ⟨code, conflict.package, none⟩
    | .missing => o.conflictOf rest

def checkOf (o : Observations) (conflicts : List PackageConflict)
    (entry : String × ComponentRequirement) : DiagnosticCheck :=
  withConflict entry.1 (o.conflictOf conflicts) (o.providerCheckOf entry.1 entry.2.provider)

end Observations

/-! ### Deterministic answers -/

section
variable {inspector : RpmPackageInspector} {o : Observations}

theorem Deterministic.mono {s t : List (Event Answer)} (h : Deterministic inspector o t)
    (hs : s <:+: t) : Deterministic inspector o s where
  query name s' q hs' := h.query name s' q (hs'.trans hs)
  file path s' f hs' := h.file path s' f (hs'.trans hs)
  owner path s' r hs' := h.owner path s' r (hs'.trans hs)

theorem splits_deterministic : Splits (Deterministic inspector o) := by
  intro t t' h
  exact ⟨h.mono (List.prefix_append t t').isInfix, h.mono (List.suffix_append t t').isInfix⟩

/-- A program that always returns, and returns what is observed on every part of the trace. -/
theorem meets_observed {α : Type} {p : Inspection α} {R : Question → Prop} {P : α → Prop} {a : α}
    (hgives : p.Gives R P)
    (hobserved : ∀ t, Deterministic inspector o t → ∀ b, Runs p t (.ok b) → b = a) :
    p.Meets (Deterministic inspector o) (· = a) := by
  intro t r hrun ht
  obtain ⟨b, rfl, -⟩ := returns_runs hgives hrun
  exact ⟨b, rfl, hobserved t ht b hrun⟩

theorem queryInstalled_meets (name : String) :
    (inspector.queryInstalled name).Meets (Deterministic inspector o) (· = o.query name) :=
  meets_observed (inspector.queryInstalled_gives name) fun t ht _ hrun =>
    ht.query name t _ (List.infix_refl t) hrun

theorem inspectFile_meets (path : String) :
    (inspector.inspectFile path).Meets (Deterministic inspector o) (· = o.file path) :=
  meets_observed (inspector.inspectFile_gives path) fun t ht _ hrun =>
    ht.file path t _ (List.infix_refl t) hrun

theorem queryOwner_meets (path : String) :
    (inspector.queryOwner path).Meets (Deterministic inspector o) (· = o.owner path) :=
  meets_observed (inspector.queryOwner_gives path) fun t ht _ hrun =>
    ht.owner path t _ (List.infix_refl t) hrun

/-- What answers that depend on the question alone say. -/
def Observations.ofAnswers (inspector : RpmPackageInspector) (answers : ∀ q, Answer q) :
    Observations where
  query name := classify name (answers (.run (packageRequest inspector.rpmExecutable name)))
  file path :=
    match (inspector.inspectFile path).eval answers with
    | .ok f => f
    | .error _ => .failed ""
  owner path := RpmPackageInspector.classifyOwner (answers (.run (inspector.ownerRequest path)))

/-- Such answers are deterministic. -/
theorem deterministic_of_answers (answers : ∀ q, Answer q) {t : List (Event Answer)}
    (ht : ∀ e ∈ t, e.answer = answers e.question) :
    Deterministic inspector (.ofAnswers inspector answers) t := by
  have heval {α : Type} {p : Inspection α} {s : List (Event Answer)} {a : α} (hs : s <:+: t)
      (hrun : Runs p s (.ok a)) : p.eval answers = .ok a :=
    eval_of_runs hrun fun e he => ht e (hs.subset he)
  refine ⟨fun name s q hs hrun => ?_, fun path s f hs hrun => ?_, fun path s r hs hrun => ?_⟩
  · exact (Except.ok.inj (heval hs hrun)).symm
  · simp only [Observations.ofAnswers, heval hs hrun]
  · exact (Except.ok.inj (heval hs hrun)).symm

/-! ### Both evaluations give the check -/

theorem checkFilesAlone_meets {capability : String} {provider : NativeProvider}
    {installed : InstalledPackage} (files : List InstalledFile) :
    (inspector.checkFilesAlone capability provider installed files).Meets (Deterministic inspector o)
      (· = o.filesCheck capability provider installed files) := by
  induction files with
  | nil => exact meets_pure rfl
  | cons expected rest ih =>
    rw [RpmPackageInspector.checkFilesAlone, Observations.filesCheck]
    refine meets_bind splits_deterministic (inspectFile_meets expected.path) ?_
    rintro file rfl
    cases o.file expected.path with
    | failed code => exact meets_pure rfl
    | digest actual =>
      dsimp only
      split
      · exact meets_pure rfl
      refine meets_bind splits_deterministic (queryOwner_meets expected.path) ?_
      rintro owner rfl
      cases o.owner expected.path with
      | error code => exact meets_pure rfl
      | ok actual =>
        dsimp only
        split
        · exact meets_pure rfl
        · exact ih

theorem conflictAlone_meets (conflicts : List PackageConflict) :
    (inspector.conflictAlone conflicts).Meets (Deterministic inspector o) (· = o.conflictOf conflicts) := by
  induction conflicts with
  | nil => exact meets_pure rfl
  | cons conflict rest ih =>
    rw [RpmPackageInspector.conflictAlone, Observations.conflictOf]
    refine meets_bind splits_deterministic (queryInstalled_meets conflict.package) ?_
    rintro query rfl
    cases o.query conflict.package with
    | present installed => exact meets_pure rfl
    | failed code => exact meets_pure rfl
    | missing => exact ih

theorem inspectAlone_meets {conflicts : List PackageConflict} {entry : String × ComponentRequirement} :
    (inspector.inspectAlone conflicts entry).Meets (Deterministic inspector o)
      (· = o.checkOf conflicts entry) := by
  rw [RpmPackageInspector.inspectAlone, Observations.checkOf, Observations.providerCheckOf]
  refine meets_bind splits_deterministic (queryInstalled_meets entry.2.provider.package) ?_
  rintro query rfl
  have hcheck (c : DiagnosticCheck) : (do
      let conflict ← inspector.conflictAlone conflicts
      return withConflict entry.1 conflict c : Inspection DiagnosticCheck).Meets (Deterministic inspector o)
      (· = withConflict entry.1 (o.conflictOf conflicts) c) := by
    refine meets_bind splits_deterministic (conflictAlone_meets conflicts) ?_
    rintro conflict rfl
    exact meets_pure rfl
  cases o.query entry.2.provider.package with
  | missing => exact hcheck _
  | failed code => exact hcheck _
  | present installed =>
    dsimp only
    split
    · exact hcheck _
    · refine meets_bind splits_deterministic (checkFilesAlone_meets _) ?_
      rintro c rfl
      exact hcheck _

/-- What is cached is what is observed. -/
structure Observations.Holds (o : Observations) (observed : Observed) : Prop where
  files : ∀ p ∈ observed.files, p.2 = o.file p.1
  owners : ∀ p ∈ observed.owners, p.2 = o.owner p.1

/-- A cached or fresh value is the observed one, and so is everything cached after it. -/
theorem entryOr_meets {α : Type} {path : String} {known : List (String × α)} {make : Inspection α}
    {f : String → α} (hknown : ∀ p ∈ known, p.2 = f p.1)
    (hmake : make.Meets (Deterministic inspector o) (· = f path)) :
    (entryOr path known make).Meets (Deterministic inspector o) fun r =>
      r.1 = f path ∧ ∀ p ∈ r.2, p.2 = f p.1 := by
  rw [entryOr]
  split
  · next a hfound => exact meets_pure ⟨hknown (path, a) (Keyed.mem_of_lookup hfound), hknown⟩
  · refine meets_bind splits_deterministic hmake ?_
    rintro a rfl
    exact meets_pure ⟨rfl, List.forall_mem_cons.mpr ⟨rfl, hknown⟩⟩

theorem inspectProviderFiles_meets {capability : String} {provider : NativeProvider}
    {installed : InstalledPackage} (files : List InstalledFile) {observed : Observed}
    (hobserved : o.Holds observed) :
    (inspectProviderFiles inspector capability provider installed files observed).Meets
      (Deterministic inspector o)
      fun r => r.1 = o.filesCheck capability provider installed files ∧ o.Holds r.2 := by
  induction files generalizing observed with
  | nil => exact meets_pure ⟨rfl, hobserved⟩
  | cons expected rest ih =>
    rw [inspectProviderFiles, Observations.filesCheck]
    refine meets_bind splits_deterministic
      (entryOr_meets hobserved.files (inspectFile_meets expected.path)) ?_
    rintro ⟨_, files⟩ ⟨rfl, hfiles⟩
    dsimp only
    cases o.file expected.path with
    | failed code => exact meets_pure ⟨rfl, hfiles, hobserved.owners⟩
    | digest actual =>
      dsimp only
      split
      · exact meets_pure ⟨rfl, hfiles, hobserved.owners⟩
      refine meets_bind splits_deterministic
        (entryOr_meets hobserved.owners (queryOwner_meets expected.path)) ?_
      rintro ⟨_, owners⟩ ⟨rfl, howners⟩
      dsimp only
      cases o.owner expected.path with
      | error code => exact meets_pure ⟨rfl, hfiles, howners⟩
      | ok actual =>
        dsimp only
        split
        · exact meets_pure ⟨rfl, hfiles, howners⟩
        · exact ih ⟨hfiles, howners⟩

/-- The queries that were made are what is observed of each name. -/
def queriesOf (o : Observations) (names : List String) : List (String × PackageQuery) :=
  names.map fun name => (name, o.query name)

theorem lookup_queriesOf {names : List String} {name : String} (h : name ∈ names) :
    (queriesOf o names).lookup name = some (o.query name) := by
  induction names with
  | nil => cases h
  | cons first names ih =>
    rw [queriesOf, List.map_cons, List.lookup_cons]
    by_cases heq : name = first
    · subst heq
      rw [beq_self_eq_true]
    · rw [beq_eq_false_iff_ne.mpr heq]
      exact ih ((List.mem_cons.mp h).resolve_left heq)

theorem conflictFailure_eq {names : List String} {conflicts : List PackageConflict}
    (h : ∀ c ∈ conflicts, c.package ∈ names) :
    conflictFailure (queriesOf o names) conflicts = .ok (o.conflictOf conflicts) := by
  induction conflicts with
  | nil => rfl
  | cons conflict rest ih =>
    obtain ⟨hfirst, hrest⟩ := List.forall_mem_cons.mp h
    rw [conflictFailure, lookup_queriesOf hfirst, Observations.conflictOf]
    cases o.query conflict.package with
    | present installed => rfl
    | failed code => rfl
    | missing => exact ih hrest

theorem inspectComponent_meets {names : List String} {capability : String} {provider : NativeProvider}
    (hname : provider.package ∈ names) {observed : Observed} (hobserved : o.Holds observed) :
    (inspectComponent inspector (queriesOf o names) capability provider observed).Meets
      (Deterministic inspector o)
      fun r => r.1 = o.providerCheckOf capability provider ∧ o.Holds r.2 := by
  rw [inspectComponent, Observations.providerCheckOf]
  refine meets_bind splits_deterministic
    (meets_lift (need_ok.mpr (lookup_queriesOf hname)) (P := (· = o.query provider.package)) rfl) ?_
  rintro query rfl
  cases o.query provider.package with
  | missing => exact meets_pure ⟨rfl, hobserved⟩
  | failed code => exact meets_pure ⟨rfl, hobserved⟩
  | present installed =>
    dsimp only
    split
    · exact meets_pure ⟨rfl, hobserved⟩
    · exact inspectProviderFiles_meets _ hobserved

/-- The present ones among the queried packages. -/
def presentPackages (o : Observations) (names : List String) : List (String × InstalledPackage) :=
  (queriesOf o names).filterMap fun (name, result) =>
    match result with
    | .present package => some (name, package)
    | _ => none

theorem inspect_meets {profile : Profile} (hrpm : profile.packageManager = .rpm) :
    (inspector.inspect profile).Meets (Deterministic inspector o)
      (· = ⟨sortChecks (profile.components.entries.map (o.checkOf profile.conflicts)),
        presentPackages o (packageNames profile)⟩) := by
  have hqueries : ((packageNames profile).mapM fun package => do
      return (package, ← inspector.queryInstalled package) : Inspection _).Meets
      (Deterministic inspector o) (· = queriesOf o (packageNames profile)) := by
    refine (meets_mapM splits_deterministic (S := fun name p => p = (name, o.query name))
      fun package _ => ?_).mono fun queries hqueries => ?_
    · refine meets_bind splits_deterministic (queryInstalled_meets package) ?_
      rintro query rfl
      exact meets_pure rfl
    · rw [queriesOf, ← List.forall₂_eq_eq_eq, List.forall₂_map_right_iff]
      exact (hqueries.imp fun _ _ h => h).flip
  rw [RpmPackageInspector.inspect, if_neg (not_not.mpr hrpm)]
  refine meets_bind splits_deterministic hqueries ?_
  rintro _ rfl
  have hconflict : conflictFailure (queriesOf o (packageNames profile)) profile.conflicts =
      .ok (o.conflictOf profile.conflicts) :=
    conflictFailure_eq fun c hc => mem_packageNames.mpr (.inr ⟨c, hc, rfl⟩)
  refine meets_bind splits_deterministic
    (meets_lift hconflict (P := (· = o.conflictOf profile.conflicts)) rfl) ?_
  rintro _ rfl
  refine meets_bind splits_deterministic (meets_foldlM splits_deterministic
    (I := fun seen acc => acc.1 = seen.map (o.checkOf profile.conflicts) ∧ o.Holds acc.2)
    (s := []) ?_ ⟨rfl, by simp, by simp⟩) ?_
  · rintro seen entry acc hentry ⟨hchecks, hobserved⟩
    have hname : entry.2.provider.package ∈ packageNames profile :=
      mem_packageNames.mpr (.inl ⟨entry.2, List.mem_map_of_mem hentry, rfl⟩)
    refine meets_bind splits_deterministic (inspectComponent_meets hname hobserved) ?_
    rintro ⟨_, observed⟩ ⟨rfl, hobserved⟩
    refine meets_pure ⟨?_, hobserved⟩
    rw [hchecks, List.map_append]
    rfl
  · rintro ⟨checks, observed⟩ ⟨hchecks, -⟩
    refine meets_pure ?_
    have heq : checks = profile.components.entries.map (o.checkOf profile.conflicts) := hchecks
    rw [heq]
    rfl

/-! ### When a check passes -/

/-- The hash of a file: it begins at the root, is regular and bounded whenever it is looked at, stays
    the same file, and has the digest. -/
def BoundedRegular (inspector : RpmPackageInspector) (path digest : String) (s : List (Event Answer)) :
    Prop :=
  ∃ relative before opened after bytes, stripPrefix "/" path = some relative ∧
    s = [⟨.symlinkMetadata (joinPath inspector.root relative), .ok before⟩,
      ⟨.openRead (joinPath inspector.root relative), .ok ()⟩,
      ⟨.handleMetadata (joinPath inspector.root relative), .ok opened⟩,
      ⟨.symlinkMetadata (joinPath inspector.root relative), .ok after⟩,
      ⟨.readToEnd (joinPath inspector.root relative), .ok bytes⟩] ∧
    before.kind = .file ∧ before.len ≤ MAX_CRITICAL_FILE_BYTES ∧ after.kind = .file ∧
    opened.len ≤ MAX_CRITICAL_FILE_BYTES ∧ RpmPackageInspector.sameFile before opened = true ∧
    RpmPackageInspector.sameFile opened after = true ∧ inspector.sha256 bytes = digest

/-- What a component needs to pass. -/
structure Observations.Satisfies (o : Observations) (profile : Profile) (provider : NativeProvider) :
    Prop where
  installed : ∃ installed, o.query provider.package = .present installed ∧
    installed.version = provider.version
  files : ∀ f ∈ provider.files, o.file f.path = .digest f.sha256 ∧ o.owner f.path = .ok provider.package
  conflicts : ∀ c ∈ profile.conflicts, o.query c.package = .missing

theorem filesCheck_pass {capability : String} {provider : NativeProvider} {installed : InstalledPackage}
    {files : List InstalledFile} :
    (o.filesCheck capability provider installed files).status = .pass ↔
      ∀ f ∈ files, o.file f.path = .digest f.sha256 ∧ o.owner f.path = .ok provider.package := by
  have hfail {capability code package : String} {extra : List (String × Value)} :
      (providerFailure capability code package extra).status ≠ .pass := nofun
  induction files with
  | nil => simp [Observations.filesCheck, providerCheck, check]
  | cons expected rest ih =>
    rw [Observations.filesCheck, List.forall_mem_cons]
    cases o.file expected.path with
    | failed code => simp [hfail]
    | digest actual =>
      dsimp only
      split
      · next hdigest => simp [hfail, hdigest]
      next hdigest =>
      cases o.owner expected.path with
      | error code => simp [hfail]
      | ok owner =>
        dsimp only
        split
        · next howner => simp [hfail, howner]
        · next howner =>
          rw [not_not] at hdigest howner
          refine ih.trans ⟨fun h => ⟨⟨?_, ?_⟩, h⟩, fun h => h.2⟩
          · rw [hdigest]
          · rw [howner]

theorem providerCheckOf_pass {capability : String} {provider : NativeProvider} :
    (o.providerCheckOf capability provider).status = .pass ↔
      (∃ installed, o.query provider.package = .present installed ∧
        installed.version = provider.version) ∧
      ∀ f ∈ provider.files, o.file f.path = .digest f.sha256 ∧ o.owner f.path = .ok provider.package := by
  have hfail {capability code package : String} {extra : List (String × Value)} :
      (providerFailure capability code package extra).status ≠ .pass := nofun
  rw [Observations.providerCheckOf]
  cases o.query provider.package with
  | missing => simp [hfail]
  | failed code => simp [hfail]
  | present installed =>
    dsimp only
    split
    · next hversion => simp [hfail, hversion]
    · next hversion =>
      rw [not_not] at hversion
      simp [filesCheck_pass, hversion]

theorem conflictOf_none {conflicts : List PackageConflict} :
    o.conflictOf conflicts = none ↔ ∀ c ∈ conflicts, o.query c.package = .missing := by
  induction conflicts with
  | nil => simp [Observations.conflictOf]
  | cons conflict rest ih =>
    rw [Observations.conflictOf, List.forall_mem_cons]
    cases o.query conflict.package with
    | present installed => simp
    | failed code => simp
    | missing => simp [ih]

/-- A conflict fails what passed and leaves the rest. -/
theorem withConflict_cases (capability : String) (conflict : Option ConflictFailure)
    (c : DiagnosticCheck) : withConflict capability conflict c = c ∧ (conflict = none ∨ c.status ≠ .pass) ∨
      conflict ≠ none ∧ c.status = .pass ∧ (withConflict capability conflict c).status = .fail := by
  cases conflict with
  | none => exact .inl ⟨rfl, .inl rfl⟩
  | some failure =>
    rw [withConflict]
    split
    · next hpass => exact .inr ⟨by simp, hpass, rfl⟩
    · next hpass => exact .inl ⟨rfl, .inr hpass⟩

theorem checkOf_pass {profile : Profile} {entry : String × ComponentRequirement} :
    (o.checkOf profile.conflicts entry).status = .pass ↔ o.Satisfies profile entry.2.provider := by
  have hprovider := @providerCheckOf_pass o entry.1 entry.2.provider
  have hconflicts := @conflictOf_none o profile.conflicts
  rw [Observations.checkOf]
  constructor
  · intro hpass
    rcases withConflict_cases entry.1 (o.conflictOf profile.conflicts)
      (o.providerCheckOf entry.1 entry.2.provider) with ⟨heq, hnone⟩ | ⟨-, -, hfail⟩
    · rw [heq] at hpass
      obtain ⟨hinstalled, hfiles⟩ := hprovider.mp hpass
      exact ⟨hinstalled, hfiles, hconflicts.mp (hnone.resolve_right (not_not.mpr hpass))⟩
    · rw [hpass] at hfail
      cases hfail
  · intro h
    rw [hconflicts.mpr h.conflicts]
    exact hprovider.mpr ⟨h.installed, h.files⟩

theorem runs_ask_bind {α : Type} {q : Question} {f : Answer q → Inspection α} {s : List (Event Answer)}
    {r : Except Panic α} : Runs (NpuStack.Runtime.ask q >>= f) s r ↔
      ∃ a s', s = ⟨q, a⟩ :: s' ∧ Runs (f a) s' r :=
  @runs_ask _ Answer _ _ _ q f r

/-- A digest is read exactly off a bounded regular file. -/
theorem inspectFile_digest {path digest : String} {s : List (Event Answer)} :
    Runs (inspector.inspectFile path) s (.ok (.digest digest)) ↔
      BoundedRegular inspector path digest s := by
  have hno {code : String} {s : List (Event Answer)} :
      ¬ Runs (pure (.failed code) : Inspection FileObservation) s (.ok (.digest digest)) := by
    intro h
    cases (runs_pure.mp h).2
  constructor
  · intro h
    rw [RpmPackageInspector.inspectFile] at h
    split at h
    · exact absurd h hno
    next relative hrelative =>
    rw [RpmPackageInspector.hashRegularFile] at h
    replace h := runs_ask_bind.mp h
    obtain ⟨before, s₁, rfl, h⟩ := h
    cases before with
    | error e => exact absurd h hno
    | ok before =>
    dsimp only at h
    split at h
    · exact absurd h hno
    next hkind =>
    split at h
    · exact absurd h hno
    next hlen =>
    replace h := runs_ask_bind.mp h
    obtain ⟨handle, s₂, rfl, h⟩ := h
    cases handle with
    | error e => exact absurd h hno
    | ok handle =>
    replace h := runs_ask_bind.mp h
    obtain ⟨opened, s₃, rfl, h⟩ := h
    cases opened with
    | error e => exact absurd h hno
    | ok opened =>
    replace h := runs_ask_bind.mp h
    obtain ⟨after, s₄, rfl, h⟩ := h
    cases after with
    | error e => exact absurd h hno
    | ok after =>
    dsimp only at h
    split at h
    · exact absurd h hno
    next hsame =>
    replace h := runs_ask_bind.mp h
    obtain ⟨bytes, s₅, rfl, h⟩ := h
    cases bytes with
    | error e => exact absurd h hno
    | ok bytes =>
    replace h := runs_pure.mp h
    obtain ⟨rfl, ⟨⟩⟩ := h
    simp only [Bool.or_eq_true, Bool.not_eq_true', decide_eq_true_eq, not_or, not_not, not_lt,
      Bool.not_eq_false] at hsame hkind hlen
    obtain ⟨⟨⟨hafter, hopened⟩, hfirst⟩, hsecond⟩ := hsame
    exact ⟨relative, before, opened, after, bytes, hrelative, rfl, hkind, hlen, hafter, hopened, hfirst,
      hsecond, rfl⟩
  · rintro ⟨relative, before, opened, after, bytes, hrelative, rfl, hkind, hlen, hafter, hopened, hfirst,
      hsecond, rfl⟩
    have hsame : ¬ (decide (after.kind ≠ .file) || decide (opened.len > MAX_CRITICAL_FILE_BYTES) ||
        !RpmPackageInspector.sameFile before opened || !RpmPackageInspector.sameFile opened after) = true := by
      simp [hafter, hopened, hfirst, hsecond]
    rw [RpmPackageInspector.inspectFile, hrelative]
    dsimp only
    rw [RpmPackageInspector.hashRegularFile]
    refine runs_ask_bind.mpr ⟨_, _, rfl, ?_⟩
    dsimp only
    rw [if_neg (not_not.mpr hkind), if_neg (not_lt.mpr hlen)]
    refine runs_ask_bind.mpr ⟨_, _, rfl, runs_ask_bind.mpr ⟨_, _, rfl, runs_ask_bind.mpr ⟨_, _, rfl, ?_⟩⟩⟩
    dsimp only
    rw [if_neg hsame]
    exact runs_ask_bind.mpr ⟨_, _, rfl, runs_pure.mpr ⟨rfl, rfl⟩⟩

/-! ### The inspection and its plain counterpart -/

theorem mem_presentPackages {names : List String} {name : String} {installed : InstalledPackage} :
    (name, installed) ∈ presentPackages o names ↔ name ∈ names ∧ o.query name = .present installed := by
  simp only [presentPackages, queriesOf, List.mem_filterMap, List.mem_map, Prod.exists, Prod.mk.injEq]
  constructor
  · rintro ⟨_, query, ⟨name', hname, rfl, rfl⟩, hsome⟩
    split at hsome
    · next hpresent =>
      obtain ⟨rfl, rfl⟩ := Prod.mk.inj (Option.some.inj hsome)
      exact ⟨hname, hpresent⟩
    · cases hsome
  · rintro ⟨hname, hpresent⟩
    refine ⟨name, _, ⟨name, hname, rfl, rfl⟩, ?_⟩
    rw [hpresent]

/-- The names are asked for in order, once each. -/
theorem packageNames_increasing (profile : Profile) : (packageNames profile).Pairwise (· < ·) := by
  have hsorted : (packageNames profile).Pairwise (· ≤ ·) := by
    have h := @List.pairwise_mergeSort _ (fun a b : String => decide (a ≤ b))
      (fun a b c hab hbc => by simpa using le_trans (by simpa using hab) (by simpa using hbc))
      (fun a b => by simpa using le_total a b)
      (profile.components.values.map (fun c => c.provider.package) ++
        profile.conflicts.map fun c => c.package).dedup
    exact h.imp fun hab => by simpa using hab
  have hnodup : (packageNames profile).Nodup :=
    (List.mergeSort_perm _ _).nodup_iff.mpr (List.nodup_dedup _)
  exact (hsorted.and hnodup).imp fun h => lt_of_le_of_ne h.1 h.2

theorem presentPackages_increasing {names : List String} (h : names.Pairwise (· < ·)) :
    ((presentPackages o names).map Prod.fst).Pairwise (· < ·) := by
  refine h.sublist ?_
  induction names with
  | nil => exact List.Sublist.refl _
  | cons name names ih =>
    have hrest := ih (List.pairwise_cons.mp h).2
    rw [presentPackages, queriesOf, List.map_cons, List.filterMap_cons]
    cases o.query name with
    | present installed => exact hrest.cons_cons name
    | missing => exact hrest.cons name
    | failed code => exact hrest.cons name

/-- A check of the inspection, against an evaluation of its component alone. -/
structure PlainCheck (inspector : RpmPackageInspector) (profile : Profile) (o : Observations)
    (entry : String × ComponentRequirement) (c : DiagnosticCheck) : Prop where
  alone : (inspector.inspectAlone profile.conflicts entry).Meets (Deterministic inspector o) (· = c)
  pass_iff : c.status = .pass ↔ o.Satisfies profile entry.2.provider
  conflicts : ∃ unopposed,
    (inspector.inspectAlone [] entry).Meets (Deterministic inspector o) (· = unopposed) ∧
    (c = unopposed ∨ unopposed.status = .pass ∧ c.status = .fail)

theorem checkOf_plain {profile : Profile} {entry : String × ComponentRequirement} :
    PlainCheck inspector profile o entry (o.checkOf profile.conflicts entry) := by
  refine ⟨inspectAlone_meets, checkOf_pass, _, inspectAlone_meets, ?_⟩
  have hunopposed : o.checkOf [] entry = o.providerCheckOf entry.1 entry.2.provider := rfl
  rw [hunopposed, Observations.checkOf]
  rcases withConflict_cases entry.1 (o.conflictOf profile.conflicts)
    (o.providerCheckOf entry.1 entry.2.provider) with ⟨heq, -⟩ | ⟨-, hpass, hfail⟩
  · exact .inl heq
  · exact .inr ⟨hpass, hfail⟩

/-- Under deterministic answers the inspection returns the checks of its components, each as if that
    component were evaluated alone without a cache, and exactly the present packages. A file's digest
    is read off a bounded regular file only. -/
theorem inspect_uncached {profile : Profile} {t : List (Event Answer)} {r : Except Panic PackageInspection}
    (hrpm : profile.packageManager = .rpm) (hanswers : Deterministic inspector o t)
    (hrun : Runs (inspector.inspect profile) t r) :
    (∃ inspection checkOf, r = .ok inspection ∧
      inspection.checks = sortChecks (profile.components.entries.map checkOf) ∧
      (∀ entry ∈ profile.components.entries, PlainCheck inspector profile o entry (checkOf entry)) ∧
      (∀ name installed, (name, installed) ∈ inspection.packages ↔
        name ∈ packageNames profile ∧ o.query name = .present installed) ∧
      (inspection.packages.map Prod.fst).Pairwise (· < ·)) ∧
    ∀ path digest s, Runs (inspector.inspectFile path) s (.ok (.digest digest)) ↔
      BoundedRegular inspector path digest s := by
  obtain ⟨inspection, rfl, rfl⟩ := inspect_meets hrpm t r hrun hanswers
  refine ⟨⟨_, o.checkOf profile.conflicts, rfl, rfl, fun entry _ => checkOf_plain, ?_, ?_⟩, ?_⟩
  · intro name installed
    exact mem_presentPackages
  · exact presentPackages_increasing (packageNames_increasing profile)
  · intro path digest s
    exact inspectFile_digest

end

namespace Healthy

def inspector : RpmPackageInspector where
  rpmExecutable := "/usr/bin/rpm"
  root := "/"
  sha256 := fun _ => "3b9c358f36f0a31b6ad3e14f309c7cf198ac9246e8316f9ce543d5b19ac02b80"

/-- The provider is installed, and its file is its own. -/
def answers : ∀ q : Question, Answer q
  | .run request => .ok ⟨.exit 0, if "-qf" ∈ request.args then utf8 "intel-npu\n"
      else utf8 "intel-npu\t0:1.0-1.fc44\t7\n", false, false⟩
  | .symlinkMetadata _ | .handleMetadata _ => .ok ⟨.file, 10, 1, 2⟩
  | .openRead _ | .openReadWrite _ => .ok ()
  | .readToEnd _ => .ok []
  | .readDir _ => .ok []

def observations : Observations := .ofAnswers inspector answers

end Healthy

theorem inspect_uncached_healthy : ∃ t r, Runs (Healthy.inspector.inspect Silent.profile) t r ∧
    ∃ inspection checkOf, r = .ok inspection ∧
      inspection.checks = sortChecks (Silent.profile.components.entries.map checkOf) ∧
      ∀ entry ∈ Silent.profile.components.entries,
        PlainCheck Healthy.inspector Silent.profile Healthy.observations entry (checkOf entry) := by
  obtain ⟨t, hrun, ht⟩ := runs_eval_answers Healthy.answers (Healthy.inspector.inspect Silent.profile)
  obtain ⟨⟨inspection, checkOf, hr, hchecks, hplain, -⟩, -⟩ :=
    @inspect_uncached _ _ Silent.profile _ _ rfl (deterministic_of_answers Healthy.answers ht) hrun
  exact ⟨t, _, hrun, inspection, checkOf, hr, hchecks, hplain⟩

end NpuStack.Runtime
