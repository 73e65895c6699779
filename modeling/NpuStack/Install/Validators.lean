import NpuStack.Install.Discover
import NpuStack.Install.Fingerprint
import NpuStack.Install.PlanExact

/-! The checks on a package identity agree. A release package is read from the manifest, and then
    meets five more checks, each of which takes the identity apart in its own way:

        validatePackage ──▶ parseQuery            name | epoch:version-release | arch
                        ──▶ compareRpmVersions    epoch:version-release
                        ──▶ bindRow               ./packages/filename
                        ──▶ discoverRow           filename
                        ──▶ nativePackage         name, what follows the epoch, arch

    What the first accepts, none of the others refuses (`validators_agree`). -/

namespace NpuStack.Install
open Interaction Text Serde NpuStack.Runtime

/-! ### The query line -/

/-- The record of a package installed at some time. -/
def ReleasePackage.installed (p : ReleasePackage) (installTime : ℕ) : InstalledRpm :=
  ⟨p.name, p.nevr, p.arch, installTime⟩

section
variable {p : ReleasePackage}

theorem rpmArch_of_shape (hp : NativeShape p) : rpmArch p.name p.arch = true := by
  have harch : p.arch ≠ "" ∧ len p.arch ≤ 32 ∧ all (fun c => c.isAlphanum || c = '_') p.arch = true := by
    rcases hp.arch with h | h
    · rw [h]
      decide
    · rw [h]
      decide
  simp only [rpmArch, Bool.and_eq_true, Bool.or_eq_true, decide_eq_true_eq]
  exact ⟨⟨harch.1, harch.2.1⟩, .inl harch.2.2⟩

theorem validRecord_installed (hp : NativeShape p) {installTime : ℕ} (htime : installTime < 2 ^ 64) :
    validRecord (p.installed installTime) = true := by
  simp only [validRecord, ReleasePackage.installed, Bool.and_eq_true]
  exact ⟨⟨⟨hp.name, hp.evr⟩, rpmArch_of_shape hp⟩, decide_eq_true htime⟩

/-- An inventory of one record. -/
def NativeInventory.single (r : InstalledRpm) (h : validRecord r = true) : NativeInventory where
  packages := [r]
  valid := List.forall_mem_singleton.mpr h
  increasing := List.pairwise_singleton _ _

/-- A single line that states a well-formed record is accepted as that record. -/
theorem parseQuery_single {line : String} {r : InstalledRpm} (hvalid : validRecord r = true)
    (hstates : States line r) (hsize : len line < MAX_INVENTORY_BYTES) :
    NativeInventory.parseQuery (utf8 (unlines [line])) = .ok (.single r hvalid) := by
  have hline : len (unlines [line]) ≤ MAX_INVENTORY_BYTES := by
    rw [len_unlines, List.map_singleton, List.sum_singleton]
    exact hsize
  exact parseQuery_states (by simp) hline (.cons hstates .nil) (.refl _) (by simp)

/-- A package's own line is short. -/
theorem len_recordText_installed (hp : NativeShape p) {installTime : ℕ} (htime : installTime < 2 ^ 64) :
    len (recordText (p.installed installTime)) < MAX_INVENTORY_BYTES := by
  have hname : len p.name ≤ 128 := by
    have h := hp.name
    simp only [rpmName, Bool.and_eq_true, decide_eq_true_eq] at h
    exact h.1.2
  have hevr : len p.nevr ≤ 256 := (validEvr_iff.mp hp.evr).1
  have harch : len p.arch ≤ 32 := by
    have h := rpmArch_of_shape hp
    simp only [rpmArch, Bool.and_eq_true, decide_eq_true_eq] at h
    exact h.1.2
  have hdigits : len installTime.repr ≤ 20 := by
    rw [len_of_isDigits (isDigits_repr _), Nat.toList_repr]
    exact (Nat.length_toDigits_le_iff (by decide) (by decide)).mpr (htime.trans (by decide))
  rw [recordText, len_join_four, MAX_INVENTORY_BYTES]
  simp only [ReleasePackage.installed]
  omega

/-! ### The native comparison -/

/-- Two well-formed versions are always given to the native tool. -/
theorem compareRpmVersions_eq {left right : String} (hleft : validEvr left = true)
    (hright : validEvr right = true) : compareRpmVersions left right = (do
      let output ← nativeRpm ["--eval", compareExpression left right] 16
      need (parseOrdering output) observationError : Sys Ordering) := by
  have hpass : refuse (!validEvr left || !validEvr right) observationError = .ok () := by
    rw [hleft, hright]
    rfl
  rw [compareRpmVersions, hpass]
  rfl

/-! ### The stored rows -/

/-- The stored name of a package, as every later check takes it. -/
structure StoredName (filename : String) : Prop where
  suffix : endsWith ".rpm" filename = true
  chars : all fileChar filename = true
  length : len filename ≤ 512
  slash : contains '/' filename = false
  first : filename.toList.head?.any Char.isAlphanum = true

theorem storedName_of_validatePackage (h : validatePackage p = .ok ()) : StoredName p.filename := by
  have hp := nativeShape_of_validatePackage h
  obtain ⟨-, vr, -, hfile⟩ := hp.filename
  refine ⟨?_, hp.chars, hp.length, ?_, filename_head_of_validatePackage h⟩
  · rw [endsWith, hfile, nativeFilename, String.toList_append, List.isSuffixOf_iff_suffix]
    exact List.suffix_append _ _
  · rw [contains, ← Bool.not_eq_true, List.contains_iff_mem]
    intro hmem
    exact absurd (all_iff.mp hp.chars _ hmem) (by decide)

/-- A stored row that waits for the package, in order but for the path check. -/
structure WaitingRow (p : ReleasePackage) (repositoryId : String) (binding : Binding)
    (native : StoredRpm) (replaces : Option String) : Prop where
  reason : native.reason = "User" ∨ native.reason = "Dependency"
  action : native.action = rowAction replaces
  repository : native.repoId ∈ allowedRepositories repositoryId
  waiting : Keyed.find native.nevra binding.incoming = some (p, replaces)
  path : native.packagePath = some (packagePath p.filename)
  fresh : packagePath p.filename ∉ binding.paths

/-- Such a row is bound to the package. -/
theorem bindRow_eq (h : validatePackage p = .ok ()) {repositoryId : String}
    {projectInputs : List ReleasePackage} {binding : Binding} {native : StoredRpm}
    {replaces : Option String} (hrow : WaitingRow p repositoryId binding native replaces) :
    bindRow repositoryId projectInputs binding native = .ok {
      incoming := Keyed.erase native.nevra binding.incoming
      replacements := binding.replacements
      paths := packagePath p.filename :: binding.paths
      packages := binding.packages ++ [⟨native, p.sha256, replaces, p, authorityOf projectInputs p⟩] } := by
  obtain ⟨hreason, haction, hrepository, hfind, hpath, hfresh⟩ := hrow
  have hreplaced : native.action ≠ "Replaced" := by
    rw [haction]
    cases replaces with
    | none => decide
    | some _ => simp [rowAction]
  have hsafe := safePackagePath_packagePath (nativeShape_of_validatePackage h)
    (filename_head_of_validatePackage h)
  simp only [bindRow, if_neg hreplaced, except_bind_ok, refuse_ok, need_ok, pure, Except.pure]
  refine ⟨(), ?_, (p, replaces), hfind, _, hpath, (), ?_, rfl⟩
  · rintro ⟨huser, hdependency⟩
    exact hreason.elim huser hdependency
  · simp only [not_or, not_not, hsafe, Bool.true_eq_false, not_false_iff]
    exact ⟨haction, hrepository, trivial, trivial, hfresh⟩

/-- A row of the untyped document that gives the package's path, from a known repository and for no
    project input. -/
structure DependencyNamed (p : ReleasePackage) (input : PrepareInput) (row : Json) : Prop where
  action : (row.get "action").asStr ≠ some "Replaced"
  repository : ∃ label repository, (row.get "repo_id").asStr = some label ∧
    labelledRepository label = some repository ∧ repository ∈ knownRepositories input ∧
    repository ≠ "@commandline"
  nevra : ∃ nevra, (row.get "nevra").asStr = some nevra ∧
    ∀ package ∈ input.packages, nevra ≠ identityOf package
  path : (row.get "package_path").asStr = some (packagePath p.filename)

/-- Such a row is always looked at natively. -/
theorem discoverRow_eq (h : validatePackage p = .ok ()) {crates : Crates} {input : PrepareInput}
    {store : Path} {dependencies : List FedoraRpm} {row : Json} (hrow : DependencyNamed p input row) :
    discoverRow crates input store dependencies row = (do
      let digest ← digestFile crates ((store.join "packages").join p.filename)
      let verified ← FedoraRpm.verify crates ((store.join "packages").join p.filename) digest
      return dependencies ++ [verified] : Sys (List FedoraRpm)) := by
  obtain ⟨haction, ⟨label, repository, hlabel, hnamed, hknown, hcommand⟩, ⟨nevra, hnevra, hproject⟩,
    hpath⟩ := hrow
  have hstored := storedName_of_validatePackage h
  have hnot : ¬ input.packages.any (fun package => nevra = identityOf package) = true := by
    simpa using hproject
  have hsource : refuse (repository ∉ knownRepositories input ∨ repository = "@commandline") rowError =
      .ok () := by
    simp [hknown, hcommand]
  have hname : refuse (contains '/' p.filename = true ∨ endsWith ".rpm" p.filename = false ∨
      len p.filename > 512 ∨ all fileChar p.filename = false) rowError = .ok () := by
    simp [hstored.slash, hstored.suffix, hstored.length, hstored.chars]
  rw [discoverRow, if_neg haction]
  simp only [hlabel, Option.bind_some, hnamed, need, hnevra, Prog.lift_ok_bind, if_neg hnot, hsource, hpath,
    packagePath, stripPrefix_append, hname]

/-! ### The rebuilt file name -/

/-- The queried identity of a package rebuilds the package, under its own file name. -/
theorem nativePackage_eq (h : validatePackage p = .ok ()) {sha256 : String} (hsha : digest sha256 = true)
    (hchars : all fileChar p.filename = true) (hlen : len p.filename ≤ 512) {inventory : NativeInventory}
    {installTime : ℕ} (hone : inventory.packages = [p.installed installTime]) :
    ∃ package, nativePackage p.filename sha256 hsha hchars hlen inventory = .ok package ∧
      package.val = { p with sha256, role := .runtime } := by
  have hp := nativeShape_of_validatePackage h
  obtain ⟨epoch, vr, hsplit, hfile⟩ := hp.filename
  rw [nativePackage]
  split
  · next identity hidentity =>
    have hrecord : identity = p.installed installTime := by
      rw [hone] at hidentity
      exact (List.singleton_inj.mp hidentity).symm
    subst hrecord
    have harch : ensure ((p.installed installTime).arch = "x86_64" ∨
        (p.installed installTime).arch = "noarch") nativeInvalid = .ok ⟨hp.arch⟩ := dif_pos hp.arch
    rw [harch, except_ok_bind]
    dsimp only
    split
    · next hnone =>
      rw [show (p.installed installTime).evr = p.nevr from rfl, hsplit] at hnone
      cases hnone
    · next epoch' vr' hsome =>
      rw [show (p.installed installTime).evr = p.nevr from rfl, hsplit] at hsome
      obtain ⟨-, rfl⟩ := Prod.mk.inj (Option.some.inj hsome)
      have hrebuilt : ensure (p.filename = nativeFilename (p.installed installTime).name vr
          (p.installed installTime).arch) nativeInvalid = .ok ⟨hfile⟩ := dif_pos hfile
      rw [hrebuilt]
      exact ⟨_, rfl, rfl⟩
  · next hnone => exact absurd hone (hnone _)

/-! ### Agreement -/

/-- Every later check takes the identity of the package. -/
structure TakenEverywhere (p : ReleasePackage) : Prop where
  queried : ∀ installTime < 2 ^ 64, ∃ inventory,
    NativeInventory.parseQuery (utf8 (unlines [recordText (p.installed installTime)])) = .ok inventory ∧
    inventory.packages = [p.installed installTime]
  compared : ∀ other, validEvr other = true → ∀ versions ∈ [(other, p.nevr), (p.nevr, other)],
    compareRpmVersions versions.1 versions.2 = (do
      let output ← nativeRpm ["--eval", compareExpression versions.1 versions.2] 16
      need (parseOrdering output) observationError : Sys Ordering)
  safe : safePackagePath (packagePath p.filename) = true
  planned : ∀ repositoryId projectInputs binding native replaces,
    WaitingRow p repositoryId binding native replaces →
      ∃ binding', bindRow repositoryId projectInputs binding native = .ok binding' ∧
        binding'.packages = binding.packages ++
          [⟨native, p.sha256, replaces, p, authorityOf projectInputs p⟩]
  discovered : ∀ crates input store dependencies row, DependencyNamed p input row →
    discoverRow crates input store dependencies row = (do
      let digest ← digestFile crates ((store.join "packages").join p.filename)
      let verified ← FedoraRpm.verify crates ((store.join "packages").join p.filename) digest
      return dependencies ++ [verified] : Sys (List FedoraRpm))
  stored : StoredName p.filename
  rebuilt : ∀ sha256 (hsha : digest sha256 = true) inventory installTime,
    inventory.packages = [p.installed installTime] →
      ∃ package, nativePackage p.filename sha256 hsha stored.chars stored.length inventory =
        .ok package ∧ package.val = { p with sha256, role := .runtime }

theorem takenEverywhere (h : validatePackage p = .ok ()) : TakenEverywhere p := by
  have hp := nativeShape_of_validatePackage h
  have hstored := storedName_of_validatePackage h
  refine ⟨?_, ?_, safePackagePath_packagePath hp hstored.first, ?_, ?_, hstored, ?_⟩
  · intro installTime htime
    have hvalid := validRecord_installed hp htime
    exact ⟨_, parseQuery_single hvalid (states_recordText _) (len_recordText_installed hp htime), rfl⟩
  · intro other hother versions hmem
    rcases List.mem_pair.mp hmem with rfl | rfl
    · exact compareRpmVersions_eq hother hp.evr
    · exact compareRpmVersions_eq hp.evr hother
  · intro repositoryId projectInputs binding native replaces hrow
    exact ⟨_, bindRow_eq h hrow, rfl⟩
  · intro crates input store dependencies row hrow
    exact discoverRow_eq h hrow
  · intro sha256 hsha inventory installTime hone
    exact nativePackage_eq h hsha hstored.chars hstored.length hone

end

/-- What the manifest accepts as a package, no later check refuses for the shape of its identity. -/
theorem validators_agree : (∀ p, validatePackage p = .ok () → TakenEverywhere p) ∧
    ∀ m : ReleaseManifest, ∀ p ∈ m.packages, TakenEverywhere p :=
  ⟨fun _ h => takenEverywhere h, fun m _ hp => takenEverywhere (m.package_valid hp)⟩

theorem validators_agree_stack : TakenEverywhere Minimal.stack :=
  validators_agree.1 Minimal.stack (by rfl)

/-- The identifier of a release's repository is not a package's: there the planner is narrower than
    the manifest by exactly the plus sign. -/
theorem validRepositoryId_iff {id : String} (h : identifier id = true) :
    validRepositoryId id = true ↔ '+' ∉ id.toList := by
  simp only [identifier, Bool.and_eq_true, decide_eq_true_eq] at h
  obtain ⟨⟨⟨hne, hlen⟩, -⟩, hchars⟩ := h
  simp only [validRepositoryId, Bool.and_eq_true, decide_eq_true_eq, hne, hlen, not_false_iff, true_and,
    ne_eq, all_iff]
  constructor
  · intro hall hmem
    exact absurd (hall _ hmem) (by decide)
  · intro hplus c hc
    have hchar := all_iff.mp hchars c hc
    simp only [identifierChar, Bool.or_eq_true, List.contains_iff_mem] at hchar ⊢
    refine hchar.imp_right fun hmem => ?_
    have hsub : ∀ d ∈ "-_.+".toList, d = '+' ∨ d ∈ "-_.".toList := forall_chars (by decide)
    refine (hsub c hmem).resolve_left ?_
    rintro rfl
    exact hplus hc

end NpuStack.Install
