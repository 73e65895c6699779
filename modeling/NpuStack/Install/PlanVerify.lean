import NpuStack.Install.PlanExact

/-! Verification of a plan's stored RPMs. Each row's file is checked against the bound digest, then
    by the verifier of the row's own authority:

        row ──authority──▶ project   pinned key database, four algorithms, exact release entry
                      └──▶ fedora    system database, one pinned line, exact discovered package

    The authority was decided from the inputs when the row was bound, never from the row's label, so
    relabelling the rows of a transaction changes no verifier. -/

namespace NpuStack.Install
open Interaction Text Serde NpuStack.Runtime
open Schema hiding isPackageName isPackageVersion

def changedError : InstallError := ⟨30, "INSTALL_TRANSACTION_CHANGED",
  "stored native transaction no longer matches the observed plan"⟩

def stateChangedError : InstallError := ⟨30, "INSTALL_STATE_CHANGED",
  "installed packages changed after planning"⟩

def contentError : InstallError := .integrity "stored transaction RPM content is invalid"

namespace NativePlan

section
variable (crates : Crates) (plan : NativePlan)

/-- Checks the stored file of one row. -/
def verifyPackage (root : Path) (package : BoundRpm) : Sys Unit := do
  let relative ← need package.native.packagePath contentError
  let metadata ← lstat (root.join relative) contentError
  refuse (!metadata.isFile || metadata.len > MAX_RPM_BYTES) contentError
  let input ← readFile (root.join relative) contentError
  refuse ((input.take (MAX_RPM_BYTES + 1)).length ≠ metadata.len ∨
    crates.sha256 (input.take (MAX_RPM_BYTES + 1)) ≠ package.sha256) contentError

/-- Checks current bytes in a caller-owned private transaction directory. -/
def verifyPackages (root : Path) : Sys Unit := do
  if plan.isEmpty then return
  else do
    forM [root, root.join "packages"] fun directory => do
      let metadata ← lstat directory contentError
      refuse (!metadata.isDir) contentError
    forM plan.packages (verifyPackage crates root)

/-- Asks the verifier of the row's authority. -/
def verifySignature (root : Path) (projectTrust : ProjectRpmTrust) (package : BoundRpm) :
    Sys Unit := do
  let relative ← need package.native.packagePath transactionError
  match package.authority with
  | .project => do
    let _ ← ProjectRpm.verify crates (root.join relative) package.expected projectTrust
    return
  | .fedora => do
    let verified ← FedoraRpm.verify crates (root.join relative) package.sha256
    refuse (verified.package ≠ package.expected) transactionError

/-- Verifies every incoming stored RPM against its original input authority. -/
def verifySignatures (root : Path) (projectTrust : ProjectRpmTrust) : Sys Unit := do
  verifyPackages crates plan root
  forM plan.packages (verifySignature crates root projectTrust)

/-- Rechecks exact stored bytes, RPM content and the observed package state. -/
def verifyStored (root : Path) : Sys Unit := do
  let fingerprint ← need plan.inventoryFingerprint changedError
  let expected ← need plan.transactionSha256 changedError
  let metadata ← lstat root changedError
  refuse (!metadata.isDir) changedError
  let path := root.join "transaction.json"
  let metadata ← lstat path changedError
  refuse (!metadata.isFile || metadata.len > MAX_TRANSACTION_BYTES) changedError
  let bytes ← readFile path changedError
  refuse ((bytes.take (MAX_TRANSACTION_BYTES + 1)).length ≠ metadata.len ∨
    crates.sha256 (bytes.take (MAX_TRANSACTION_BYTES + 1)) ≠ expected) changedError
  verifyPackages crates plan root
  let inventory ← NativeInventory.query
  refuse (inventory.fingerprint crates ≠ fingerprint) stateChangedError

end

def previewLine (package : BoundRpm) : String :=
  package.native.action ++ " " ++
    (match package.replaces with
      | some old => old ++ " -> "
      | none => "") ++
    package.native.nevra ++ " sha256:" ++ package.sha256 ++ "\n"

/-- Displays every bound action and content identity in deterministic order. -/
def preview (plan : NativePlan) : String :=
  if plan.isEmpty then "No package changes.\n" else String.join (plan.packages.map previewLine)

end NativePlan

/-! ### What verification saw -/

variable {crates : Crates} {plan : NativePlan} {t t' : Trace} {root : Path}
  {trust : ProjectRpmTrust}

/-- The row's stored file has the bound digest. -/
def Stored (crates : Crates) (t : Trace) (root : Path) (b : BoundRpm) : Prop :=
  ∃ relative bytes metadata, b.native.packagePath = some relative ∧
    Saw t (.symlinkMetadata (root.join relative)) (.ok metadata) ∧ metadata.isFile = true ∧
    Saw t (.readFile (root.join relative)) (.ok bytes) ∧ bytes.length ≤ MAX_RPM_BYTES ∧
    crates.sha256 bytes = b.sha256

/-- The row's stored file passed the verifier of the row's authority. -/
def Signed (crates : Crates) (t : Trace) (root : Path) (trust : ProjectRpmTrust) (b : BoundRpm) :
    Prop :=
  ∃ relative, b.native.packagePath = some relative ∧
    match b.authority with
    | .project => ∃ line ∈ trust.signatures,
        NativelyVerified crates t (root.join relative) b.expected.sha256 (some trust.database) line
          b.expected
    | .fedora =>
        NativelyVerified crates t (root.join relative) b.sha256 none FEDORA_SIGNATURE b.expected

theorem Stored.mono {b : BoundRpm} (h : Stored crates t root b) (ht : t ⊆ t') :
    Stored crates t' root b := by
  obtain ⟨relative, bytes, metadata, hp, hm, hfile, hread, hrest⟩ := h
  exact ⟨relative, bytes, metadata, hp, hm.mono ht, hfile, hread.mono ht, hrest⟩

theorem Signed.mono {b : BoundRpm} (h : Signed crates t root trust b) (ht : t ⊆ t') :
    Signed crates t' root trust b := by
  obtain ⟨relative, hp, h⟩ := h
  refine ⟨relative, hp, ?_⟩
  split at h
  · obtain ⟨line, hline, hverified⟩ := h
    exact ⟨line, hline, hverified.mono ht⟩
  · exact NativelyVerified.mono h ht

theorem verifyPackage_runs {b : BoundRpm}
    (h : (NativePlan.verifyPackage crates root b).Runs t (.ok ())) : Stored crates t root b := by
  simp only [NativePlan.verifyPackage, Prog.runs_lift_bind_ok, lstat, readFile,
    Prog.runs_expect_bind_ok, okOr_ok, exists_eq_left, need_ok, refuse_ok, not_or, not_not,
    Bool.or_eq_true, Bool.not_eq_true', decide_eq_true_eq, not_lt, Prog.runs_lift] at h
  obtain ⟨relative, hpath, metadata, _, rfl, _, ⟨hfile, hlen⟩, input, _, rfl, rfl, hsize, hhash⟩ := h
  have hall : input.take (MAX_RPM_BYTES + 1) = input := take_of_length_le (by omega)
  rw [hall] at hsize hhash
  exact ⟨relative, input, metadata, hpath, by simp [Saw], by simpa using hfile, by simp [Saw],
    by omega, hhash⟩

/-- Every stored file was checked. -/
theorem verifyPackages_runs (h : (plan.verifyPackages crates root).Runs t (.ok ())) :
    ∀ b ∈ plan.packages, Stored crates t root b := by
  intro b hb
  have hne : plan.isEmpty = false := by
    simp only [NativePlan.isEmpty, decide_eq_false_iff_not]
    rintro hnil
    simp [hnil] at hb
  rw [NativePlan.verifyPackages, hne, if_neg (by simp), Prog.runs_bind_ok] at h
  obtain ⟨_, t₁, t₂, rfl, -, h⟩ := h
  obtain ⟨t', ht', hrun⟩ := Prog.runs_forM_ok h b hb
  exact (verifyPackage_runs hrun).mono (List.subset_append_of_subset_right _ ht')

theorem verifySignature_runs {b : BoundRpm}
    (h : (NativePlan.verifySignature crates root trust b).Runs t (.ok ())) :
    Signed crates t root trust b := by
  simp only [NativePlan.verifySignature, Prog.runs_lift_bind_ok, need_ok] at h
  obtain ⟨relative, hpath, h⟩ := h
  refine ⟨relative, hpath, ?_⟩
  split at h
  · simp only [ProjectRpm.verify, bind_assoc, Prog.runs_lift_bind_ok] at h
    obtain ⟨_, -, h⟩ := h
    rw [Prog.runs_bind_ok] at h
    obtain ⟨p, t₁, t₂, rfl, hverify, h⟩ := h
    simp only [Prog.runs_lift_bind_ok, refuse_ok, not_or, not_not] at h
    obtain ⟨_, ⟨hname, hnevr, harch, hfile⟩, -⟩ := h
    obtain ⟨line, hline, hverified⟩ := verifyNativeRpm_runs hverify
    exact ⟨line, hline, (hverified.congr hname hnevr harch hfile rfl).mono
      (List.subset_append_left _ _)⟩
  · simp only [FedoraRpm.verify, bind_assoc] at h
    rw [Prog.runs_bind_ok] at h
    obtain ⟨p, t₁, t₂, rfl, hverify, h⟩ := h
    simp only [pure_bind, Prog.runs_lift, refuse_ok, not_not] at h
    obtain ⟨rfl, hexpected⟩ := h
    obtain ⟨line, hline, hverified⟩ := verifyNativeRpm_runs hverify
    obtain rfl := List.mem_singleton.mp hline
    rw [← hexpected]
    exact hverified.mono (List.subset_append_left _ _)

/-- Every row passed its verifier. -/
theorem verifySignatures_runs (h : (plan.verifySignatures crates root trust).Runs t (.ok ())) :
    ∀ b ∈ plan.packages, Stored crates t root b ∧ Signed crates t root trust b := by
  rw [NativePlan.verifySignatures, Prog.runs_bind_ok] at h
  obtain ⟨_, t₁, t₂, rfl, hstored, h⟩ := h
  intro b hb
  obtain ⟨t', ht', hrun⟩ := Prog.runs_forM_ok h b hb
  exact ⟨(verifyPackages_runs hstored b hb).mono (List.subset_append_left _ _),
    (verifySignature_runs hrun).mono (List.subset_append_of_subset_right _ ht')⟩

/-- The stored transaction, its RPMs and the installed state are what the plan was made from. -/
structure StoredExactly (crates : Crates) (t : Trace) (root : Path) (plan : NativePlan) : Prop where
  transaction : ∃ bytes, Saw t (.readFile (root.join "transaction.json")) (.ok bytes) ∧
    bytes.length ≤ MAX_TRANSACTION_BYTES ∧ plan.transactionSha256 = some (crates.sha256 bytes)
  packages : ∀ b ∈ plan.packages, Stored crates t root b
  state : ∃ inventory : NativeInventory, NativeInventory.Observed t inventory ∧
    plan.inventoryFingerprint = some (inventory.fingerprint crates)

theorem StoredExactly.mono (h : StoredExactly crates t root plan) (ht : t ⊆ t') :
    StoredExactly crates t' root plan := by
  obtain ⟨⟨bytes, hread, hrest⟩, hpackages, inventory, hobserved, hfingerprint⟩ := h
  exact ⟨⟨bytes, hread.mono ht, hrest⟩, fun b hb => (hpackages b hb).mono ht, inventory,
    hobserved.mono ht, hfingerprint⟩

section
variable {bytes bytes' : Bytes} {expected projectInputs : List ReleasePackage}
  {dependencies : List FedoraRpm} {inventory : NativeInventory} {repositoryId : String}
  {plan' : NativePlan}

/-- Among inputs with distinct names, the name decides which ones are project inputs. -/
theorem authorityOf_project {p : ReleasePackage}
    (hdistinct : ((planInputs expected dependencies).map (·.name)).Nodup)
    (hp : p ∈ planInputs expected dependencies) :
    authorityOf expected p = .project ↔ p ∈ expected := by
  have hany : authorityOf expected p = .project ↔ ∃ q ∈ expected, q.name = p.name := by
    rw [authorityOf]
    split <;> simp_all
  rw [hany]
  constructor
  · rintro ⟨q, hq, hname⟩
    exact List.inj_on_of_nodup_map hdistinct (List.mem_append_left _ hq) hp hname ▸ hq
  · exact fun hp => ⟨p, hp, rfl⟩

/-- A bound package without the labels the solver chose. -/
def BoundRpm.unlabelled (b : BoundRpm) : BoundRpm :=
  { b with native := { b.native with repoId := "", reason := "" } }

/-- The only package an input can be bound as, up to labels. -/
def boundOf (projectInputs : List ReleasePackage) (inventory : NativeInventory) (p : ReleasePackage) :
    BoundRpm where
  native := {
    nevra := identityOf p
    action := if installedAt inventory p = [] then "Install" else "Upgrade"
    reason := ""
    repoId := ""
    packagePath := some (packagePath p.filename) }
  sha256 := p.sha256
  replaces := (installedAt inventory p).head?.map recordIdentity
  expected := p
  authority := authorityOf projectInputs p

theorem BoundExactly.unlabelled {inputs : List ReleasePackage} {rows : List StoredRpm}
    {packages : List BoundRpm}
    (h : BoundExactly repositoryId projectInputs inventory inputs rows packages) :
    packages.map BoundRpm.unlabelled =
      (packages.map (·.expected)).map (boundOf projectInputs inventory) := by
  rw [List.map_map]
  refine List.map_congr_left fun b hb => ?_
  obtain ⟨hbinds, hsha, hreplaces, hauthority⟩ := h.entries b hb
  obtain ⟨⟨nevra, action, reason, repoId, path⟩, sha, replaces, p, authority⟩ := b
  have hn := hbinds.nevra
  have ha := hbinds.action
  have hp := hbinds.path
  simp only at hn ha hp hsha hreplaces hauthority
  simp [BoundRpm.unlabelled, boundOf, hn, ha, hp, hsha, hreplaces, hauthority]

/-- Two plans from the same inputs differ in labels only. -/
theorem BoundExactly.eq_unlabelled {inputs : List ReleasePackage} {rows rows' : List StoredRpm}
    {packages packages' : List BoundRpm}
    (h : BoundExactly repositoryId projectInputs inventory inputs rows packages)
    (h' : BoundExactly repositoryId projectInputs inventory inputs rows' packages') :
    packages.map BoundRpm.unlabelled = packages'.map BoundRpm.unlabelled := by
  have hperm : (packages.map BoundRpm.unlabelled).Perm (packages'.map BoundRpm.unlabelled) := by
    rw [h.unlabelled, h'.unlabelled]
    exact (h.expected.trans h'.expected.symm).map _
  have hsorted : ∀ {packages : List BoundRpm},
      (packages.Pairwise fun a b => a.native.nevra < b.native.nevra) →
      (packages.map BoundRpm.unlabelled).Pairwise fun a b => a.native.nevra < b.native.nevra :=
    fun hs => List.pairwise_map.mpr hs
  exact List.Perm.eq_of_pairwise (fun _ _ _ _ hab hba => absurd (hab.trans hba) (lt_irrefl _))
    (hsorted h.sorted) (hsorted h'.sorted) hperm

/-- A plan's rows have project authority exactly when they are project inputs, labels play no part,
    and each row is verified by its own authority only. -/
theorem trust_domains_separate
    (h : (NativePlan.parseWithDependencies crates (some bytes) expected dependencies inventory
      repositoryId).Runs t (.ok plan)) :
    (∀ b ∈ plan.packages, b.authority = .project ↔ b.expected ∈ expected) ∧
    (∀ bytes' t' plan', (NativePlan.parseWithDependencies crates (some bytes') expected dependencies
        inventory repositoryId).Runs t' (.ok plan') →
      plan'.packages.map BoundRpm.unlabelled = plan.packages.map BoundRpm.unlabelled) ∧
    ∀ root trust t', (plan.verifySignatures crates root trust).Runs t' (.ok ()) →
      ∀ b ∈ plan.packages, Stored crates t' root b ∧
        ((b.expected ∈ expected ∧ ∃ line ∈ trust.signatures,
          NativelyVerified crates t' (root.join (packagePath b.expected.filename)) b.sha256
            (some trust.database) line b.expected) ∨
        (b.expected ∉ expected ∧ (∃ d ∈ dependencies, b.expected = d.package) ∧
          NativelyVerified crates t' (root.join (packagePath b.expected.filename)) b.sha256
            none FEDORA_SIGNATURE b.expected)) := by
  have hexact := parseWithDependencies_sound h
  obtain ⟨rows, -, -, hbound⟩ := hexact.rows
  have hinput : ∀ b ∈ plan.packages, b.expected ∈ planInputs expected dependencies := fun b hb =>
    pendingInputs_subset (hbound.expected.mem_iff.mp (List.mem_map_of_mem hb))
  have hauthority : ∀ b ∈ plan.packages, b.authority = .project ↔ b.expected ∈ expected := by
    intro b hb
    rw [(hbound.entries b hb).2.2.2]
    exact authorityOf_project hexact.admissible.distinct (hinput b hb)
  refine ⟨hauthority, fun bytes' t' plan' h' => ?_, fun root trust t' hverify b hb => ?_⟩
  · obtain ⟨rows', -, -, hbound'⟩ := (parseWithDependencies_sound h').rows
    exact hbound'.eq_unlabelled hbound
  · obtain ⟨hstored, relative, hpath, hsigned⟩ := verifySignatures_runs hverify b hb
    refine ⟨hstored, ?_⟩
    obtain ⟨hbinds, hsha, -, -⟩ := hbound.entries b hb
    obtain rfl := Option.some.inj (hbinds.path.symm.trans hpath)
    cases hb' : b.authority with
    | project =>
      rw [hb'] at hsigned
      rw [hsha]
      exact .inl ⟨(hauthority b hb).mp hb', hsigned⟩
    | fedora =>
      rw [hb'] at hsigned
      have hnot : b.expected ∉ expected := fun hmem => by
        rw [(hauthority b hb).mpr hmem] at hb'
        cases hb'
      refine .inr ⟨hnot, ?_, hsigned⟩
      obtain ⟨d, hd, heq⟩ := List.mem_map.mp ((List.mem_append.mp (hinput b hb)).resolve_left hnot)
      exact ⟨d, hd, heq.symm⟩

end

/-- Both packages of the upgrade are project inputs. -/
theorem trust_domains_separate_upgrade : ∃ t plan,
    (NativePlan.parseWithDependencies (Minimal.planning Minimal.upgrade)
      (some (Minimal.transactionBytes Minimal.upgrade)) [Minimal.stack, Minimal.tools] []
      Minimal.outdated "npu").Runs t (.ok plan) ∧
    ∀ b ∈ plan.packages, b.authority = .project ↔ b.expected ∈ [Minimal.stack, Minimal.tools] := by
  obtain ⟨t, plan, hrun⟩ := Minimal.upgrade_planned
  exact ⟨t, plan, hrun, (trust_domains_separate hrun).1⟩

end NpuStack.Install
