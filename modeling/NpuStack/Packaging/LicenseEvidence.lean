import Mathlib.Data.List.Dedup
import Mathlib.Data.List.Sort
import NpuStack.Schemes.Keyed
import NpuStack.Xtask.SourceLock

/-! The license evidence of the source lock at package build time, read a second time in Python.

        lock ──validate──▶ accepted            (paths in order of their names)
          └─▶ prepare ──▶ evidence archive ──inspectInputs──▶ every record again
                                                (paths in order of their characters)

    Both readers check the form and the order of the paths, how many there are and their digest. They
    agree on a record unless one of its paths is not spelled plainly, or a directory of one path is
    continued in another by a character below the slash (`records_accepted_iff`). -/

namespace NpuStack.Packaging.LicenseEvidence
open Interaction Text NpuStack.Xtask NpuStack.Xtask.SourceLock
open PosixPath (names isAbsolute pureStr Plain Crosses)

def LICENSES : String := "packaging/fedora/44/licenses/"

def MAX_MEMBER_BYTES : ℕ := 1048576

/-- `sorted(set(paths))`. -/
def sortedSet (paths : List String) : List String := paths.dedup.mergeSort (· ≤ ·)

/-! ### The archive -/

/-- `_posix_split_name`: the name fits the two fields of a header. -/
def storable (name : String) : Bool :=
  let pieces := split '/' name
  len name ≤ 100 || (List.range' 1 (pieces.length - 1)).any fun i =>
    len (Text.join '/' (pieces.take i)) ≤ 155 && len (Text.join '/' (pieces.drop i)) ≤ 100

/-- `canonical(REPO/relative, False)`, and its bytes. -/
def evidenceMember (fs : FileSystem) (repo : List String) (relative : String) :
    Except String (String × Bytes) := do
  let source := if isAbsolute relative then names relative else repo ++ names relative
  let resolved ← fs.canonicalize ⟨source, false⟩
  require (source = resolved) "canonical absolute path required"
  require (fs.isFile source = true) "wrong input type"
  require (repo.isPrefixOf source = true ∧ source ≠ repo) "license evidence leaves repository"
  let data ← fs.read source
  require (storable relative = true) "name is too long"
  return (relative, data)

/-- The members `prepare` adds for a lock, in their order. -/
def evidenceArchive (fs : FileSystem) (repo : List String) (lock : ValidatedSourceLock) :
    Except String (List (String × Bytes)) :=
  (sortedSet (lock.sources.flatMap SourceRecord.licenseFiles)).mapM (evidenceMember fs repo)

/-! ### The second reader -/

/-- `member_bytes`: the last member of the name, nonempty and bounded. -/
def memberBytes (evidence : List (String × Bytes)) (name : String) : Except String Bytes := do
  let data ← need (evidence.reverse.lookup (Py.rstrip '/' name)) "KeyError"
  require (0 < data.length ∧ data.length ≤ MAX_MEMBER_BYTES) "notice must be a nonempty bounded regular member"
  return data

/-- One license file of a record, behind what is hashed already. -/
def hashMember (evidence : List (String × Bytes)) (hashed : Bytes) (relative : String) : Except String Bytes := do
  require (isAbsolute relative = false ∧ ".." ∉ names relative ∧ pureStr relative = relative ∧
    startsWith LICENSES relative = true) "unsafe license evidence path"
  let data ← memberBytes evidence relative
  return hashed ++ data

/-- What `inspect_inputs` checks of one record. -/
def inspectRecord (sha256 : Bytes → String) (evidence : List (String × Bytes)) (record : SourceRecord) :
    Except String Unit := do
  let paths := record.licenseFiles
  require (0 < paths.length ∧ paths.length ≤ 64 ∧ paths = sortedSet paths)
    "sorted, unique license evidence paths required"
  let hashed ← paths.foldlM (hashMember evidence) []
  require (sha256 hashed = record.licenseEvidenceSha256)
    ("source-lock license evidence mismatch: " ++ record.name)

/-! ### Orders -/

theorem sortedSet_pairwise (paths : List String) : (sortedSet paths).Pairwise (· < ·) := by
  have hle : (sortedSet paths).Pairwise (· ≤ ·) := List.pairwise_mergeSort' (· ≤ ·) _
  have hnd : (sortedSet paths).Nodup := (List.mergeSort_perm _ _).nodup_iff.mpr (List.nodup_dedup _)
  exact (hle.and hnd).imp fun h => lt_of_le_of_ne h.1 h.2

/-- A list is its own sorted set when it is strictly increasing. -/
theorem eq_sortedSet_iff {paths : List String} : paths = sortedSet paths ↔ paths.Pairwise (· < ·) := by
  constructor
  · intro h
    rw [h]
    exact sortedSet_pairwise paths
  · intro h
    have hnd : paths.Nodup := h.imp fun hlt => hlt.ne
    rw [sortedSet, List.Nodup.dedup hnd]
    exact (List.mergeSort_eq_self (r := (· ≤ ·)) (h.imp fun hlt => hlt.le)).symm

/-- The sorted set of what a permutation of an increasing list holds. -/
theorem sortedSet_of_perm {paths sorted : List String} (h : sorted.Pairwise (· < ·)) (hperm : paths.Perm sorted) :
    sortedSet paths = sorted := by
  have hnd : paths.Nodup := hperm.nodup_iff.mpr (h.imp fun hlt => hlt.ne)
  have hset : (sortedSet paths).Perm sorted := by
    rw [sortedSet, List.Nodup.dedup hnd]
    exact (List.mergeSort_perm _ _).trans hperm
  exact hset.eq_of_pairwise (fun a b _ _ hab hba => absurd hba hab.asymm) (sortedSet_pairwise paths) h

/-- In a list that two orders put in the same places, they agree on all pairs. -/
theorem not_opposed {α : Type} {r s : α → α → Prop} (hr : ∀ {a b}, r a b → ¬r b a)
    (hs : ∀ {a b}, s a b → ¬s b a) {l : List α} (hl : l.Pairwise r) (hl' : l.Pairwise s) {a b : α}
    (ha : a ∈ l) (hb : b ∈ l) (hab : r a b) : ¬s b a := by
  intro hba
  have hne : a ≠ b := fun heq => by
    subst heq
    exact hr hab hab
  have hboth : l.Pairwise fun x y => (r x y ∧ s x y) ∨ (r y x ∧ s y x) :=
    (hl.and hl').imp fun h => .inl h
  have hsymm : Std.Symm fun x y => (r x y ∧ s x y) ∨ (r y x ∧ s y x) := ⟨fun _ _ h => h.symm⟩
  rcases hboth.forall ha hb hne with ⟨-, h⟩ | ⟨h, -⟩
  · exact hs h hba
  · exact hr hab h

/-! ### Paths -/

/-- The path lies below the directory of the licenses. -/
def Below (path : String) : Prop :=
  ∃ rest, rest ≠ [] ∧ names path = ["packaging", "fedora", "44", "licenses"] ++ rest

theorem Below.names_ne_nil {path : String} (h : Below path) : names path ≠ [] := by
  obtain ⟨rest, -, heq⟩ := h
  rw [heq]
  exact List.cons_ne_nil _ _

theorem Below.startsWith {path : String} (h : Below path) (hplain : Plain path) :
    startsWith LICENSES path = true := by
  obtain ⟨rest, hne, heq⟩ := h
  obtain ⟨name, rest, rfl⟩ := List.exists_cons_of_ne_nil hne
  have hpath : Text.join '/' (names path) = path := by
    rw [PosixPath.names_of_plain hplain, join_split]
  rw [startsWith_iff]
  refine ⟨Text.join '/' (name :: rest), ?_⟩
  rw [← hpath, heq, ← String.toList_inj]
  have hlicenses : LICENSES.toList = "packaging".toList ++ '/' :: ("fedora".toList ++ '/' ::
      ("44".toList ++ '/' :: ("licenses".toList ++ ['/']))) := by decide
  simp [Text.join, hlicenses, List.intercalate_cons_cons]

/-- A plain path does not end in a slash. -/
theorem rstrip_of_plain {path : String} (h : Plain path) : Py.rstrip '/' path = path := by
  have hlast : path.toList.getLast? ≠ some '/' := by
    intro hlast
    obtain ⟨front, hfront⟩ := List.getLast?_eq_some_iff.mp hlast
    have hsplit : split '/' path = (front.splitOn '/').map String.ofList ++ [""] := by
      rw [split, hfront, List.splitOn_append_cons_self, List.map_append]
      rfl
    exact (h "" (by simp [hsplit])).1 rfl
  have hstrip := Py.rstrip_append hlast 0
  rwa [List.replicate_zero, String.ofList_nil, String.append_empty] at hstrip

/-! ### The archive holds the files -/

section
variable {sha256 : Bytes → String} {fs : FileSystem} {root : List String} {lock : ValidatedSourceLock}
  {evidence : List (String × Bytes)}

theorem evidenceMember_ok {relative : String} {member : String × Bytes}
    (h : evidenceMember fs root relative = .ok member) : member.1 = relative ∧
      let source := if isAbsolute relative then names relative else root ++ names relative
      fs.canonicalize ⟨source, false⟩ = .ok source ∧ fs.read source = .ok member.2 := by
  simp only [evidenceMember, except_bind_ok, require_ok] at h
  obtain ⟨resolved, hresolved, _, heq, _, -, _, -, data, hdata, _, -, h⟩ := h
  cases h
  exact ⟨rfl, heq ▸ hresolved, hdata⟩

/-- Both readers find one file at the path of a license. -/
theorem evidenceMember_of_licenseFile {relative : String} {bytes : Bytes} {member : String × Bytes}
    (hfile : LicenseFile fs root relative bytes) (h : evidenceMember fs root relative = .ok member) :
    member = (relative, bytes) := by
  obtain ⟨hname, hcanonical, hread⟩ := evidenceMember_ok h
  rw [(PosixPath.isNormal_iff.mp hfile.normal).1, if_neg Bool.false_ne_true] at hcanonical hread
  obtain ⟨canonical, hresolved, -, hisFile, hbytes⟩ := hfile.resolved
  have hdirectory : endsAsDirectory relative = false := by
    by_contra hends
    have hnot := fs.directory (join root relative) canonical (by simpa [SourceLock.join] using hends) hresolved
    rw [hisFile] at hnot
    cases hnot
  rw [SourceLock.join, hdirectory, hcanonical] at hresolved
  cases hresolved
  rw [hread] at hbytes
  cases hbytes
  exact Prod.ext hname rfl

theorem lookup_evidence {record : SourceRecord} {relative : String} {bytes : Bytes}
    (harchive : evidenceArchive fs root lock = .ok evidence) (hrecord : record ∈ lock.sources)
    (hrelative : relative ∈ record.licenseFiles) (hfile : LicenseFile fs root relative bytes) :
    evidence.reverse.lookup relative = some bytes := by
  have hmembers := except_mapM_ok.mp harchive
  have hnames : evidence.map Prod.fst = sortedSet (lock.sources.flatMap SourceRecord.licenseFiles) := by
    have heq := Keyed.map_eq_of_forall₂ (f := id) (g := Prod.fst)
      (hmembers.imp fun _ _ h => (evidenceMember_ok h).1.symm)
    rw [← heq, List.map_id]
  have hnd : (evidence.reverse.map Prod.fst).Nodup := by
    rw [List.map_reverse, List.nodup_reverse, hnames]
    exact (sortedSet_pairwise _).imp fun h => h.ne
  have hmem : relative ∈ sortedSet (lock.sources.flatMap SourceRecord.licenseFiles) := by
    rw [sortedSet, List.mem_mergeSort, List.mem_dedup, List.mem_flatMap]
    exact ⟨record, hrecord, hrelative⟩
  obtain ⟨member, hin, hmember⟩ := Keyed.exists_of_mem_left hmembers _ hmem
  rw [evidenceMember_of_licenseFile hfile hmember] at hin
  exact Keyed.lookup_of_mem hnd (List.mem_reverse.mpr hin)

/-! ### The second reading of a record -/

/-- A path and its member pass the checks. -/
structure Passes (evidence : List (String × Bytes)) (relative : String) (data : Bytes) : Prop where
  form : isAbsolute relative = false ∧ ".." ∉ names relative ∧ pureStr relative = relative ∧
    startsWith LICENSES relative = true
  member : memberBytes evidence relative = .ok data

theorem hashMember_ok {hashed next : Bytes} {relative : String} :
    hashMember evidence hashed relative = .ok next ↔
      ∃ data, Passes evidence relative data ∧ next = hashed ++ data := by
  simp only [hashMember, except_bind_ok, require_ok, exists_const, pure, Except.pure, Except.ok.injEq]
  constructor
  · rintro ⟨hform, data, hmember, rfl⟩
    exact ⟨data, ⟨hform, hmember⟩, rfl⟩
  · rintro ⟨data, hpasses, rfl⟩
    exact ⟨hpasses.form, data, hpasses.member, rfl⟩

/-- The loop hashes the members in the order of the paths, and all of them pass. -/
theorem hashMembers_ok {paths : List String} : ∀ {hashed result : Bytes},
    paths.foldlM (hashMember evidence) hashed = .ok result ↔
      ∃ files, List.Forall₂ (Passes evidence) paths files ∧ result = hashed ++ files.flatten := by
  induction paths with
  | nil =>
    intro hashed result
    simp [pure, Except.pure, eq_comm]
  | cons relative paths ih =>
    intro hashed result
    rw [List.foldlM_cons, except_bind_ok]
    constructor
    · rintro ⟨next, hstep, hrest⟩
      obtain ⟨data, hpasses, rfl⟩ := hashMember_ok.mp hstep
      obtain ⟨files, hfiles, rfl⟩ := ih.mp hrest
      exact ⟨data :: files, .cons hpasses hfiles, by rw [List.flatten_cons, List.append_assoc]⟩
    · rintro ⟨files, hfiles, rfl⟩
      cases hfiles with
      | cons hpasses hrest =>
        exact ⟨_, hashMember_ok.mpr ⟨_, hpasses, rfl⟩, ih.mpr ⟨_, hrest, by simp⟩⟩

/-- Plainly spelled, and no directory continued by a character below the slash. -/
structure Agreeable (paths : List String) : Prop where
  plain : ∀ path ∈ paths, Plain path
  uncrossed : ∀ p ∈ paths, ∀ q ∈ paths, ¬Crosses p.toList q.toList

/-- Sorted paths in the one order are sorted in the other. -/
theorem increasing_of_agreeable {paths : List String} (h : Agreeable paths)
    (hnormal : ∀ path ∈ paths, PosixPath.isNormal path = true)
    (hsorted : paths.Pairwise fun p q => PosixPath.key p < PosixPath.key q) : paths.Pairwise (· < ·) := by
  refine hsorted.imp_of_mem fun {p q} hp hq hlt => ?_
  rw [PosixPath.key_lt_iff (hnormal p hp) (hnormal q hq) (h.plain p hp) (h.plain q hq)] at hlt
  rcases PosixPath.lt_or_crosses hlt with hlt | hcrosses
  · exact String.lt_iff_toList_lt.mpr hlt
  · exact absurd hcrosses (h.uncrossed p hp q hq)

/-- The two readers of a record agree. -/
theorem inspectRecord_iff {record : SourceRecord} (hrecord : record ∈ lock.sources)
    (harchive : evidenceArchive fs root lock = .ok evidence) (hevident : Evident sha256 fs root record)
    (hbelow : ∀ path ∈ record.licenseFiles, Below path)
    (hsize : ∀ path ∈ record.licenseFiles, ∀ data, content fs root path = some data →
      0 < data.length ∧ data.length ≤ MAX_MEMBER_BYTES) :
    inspectRecord sha256 evidence record = .ok () ↔ Agreeable record.licenseFiles := by
  obtain ⟨files, hfiles, hdigest⟩ := hevident.digest
  have hnormal : ∀ path ∈ record.licenseFiles, PosixPath.isNormal path = true := by
    intro path hpath
    obtain ⟨bytes, -, hfile⟩ := Keyed.exists_of_mem_left hfiles _ hpath
    exact hfile.normal
  have hplain : ∀ path ∈ record.licenseFiles, pureStr path = path ↔ Plain path := fun path hpath =>
    PosixPath.pureStr_eq_iff (PosixPath.isNormal_iff.mp (hnormal path hpath)).1
      (hbelow path hpath).names_ne_nil
  simp only [inspectRecord, except_bind_ok, require_ok, exists_const, eq_sortedSet_iff, hashMembers_ok]
  constructor
  · rintro ⟨⟨-, -, hincreasing⟩, hashed, ⟨checked, hchecked, -⟩, -⟩
    have hall : ∀ path ∈ record.licenseFiles, Plain path := by
      intro path hpath
      obtain ⟨data, -, hpasses⟩ := Keyed.exists_of_mem_left hchecked _ hpath
      exact (hplain path hpath).mp hpasses.form.2.2.1
    refine ⟨hall, fun p hp q hq hcrosses => ?_⟩
    obtain ⟨htext, hrank⟩ := hcrosses.lt
    have hkey := (PosixPath.key_lt_iff (hnormal p hp) (hnormal q hq) (hall p hp) (hall q hq)).mpr hrank
    exact not_opposed (fun h => h.asymm) (fun h => h.asymm) hevident.sorted hincreasing hp hq hkey
      (String.lt_iff_toList_lt.mpr htext)
  · intro hagree
    have hcount := hevident.count
    have hpasses : List.Forall₂ (Passes evidence) record.licenseFiles files := by
      refine List.forall₂_iff_zip.mpr ⟨hfiles.length_eq, fun {path data} hpair => ?_⟩
      have hpath := (List.of_mem_zip hpair).1
      have hfile := (List.forall₂_iff_zip.mp hfiles).2 hpair
      obtain ⟨habsolute, -, hparent⟩ := PosixPath.isNormal_iff.mp hfile.normal
      have hpathPlain := hagree.plain path hpath
      refine ⟨⟨habsolute, hparent, (hplain path hpath).mpr hpathPlain,
        (hbelow path hpath).startsWith hpathPlain⟩, ?_⟩
      have hlookup := lookup_evidence harchive hrecord hpath hfile
      simp only [memberBytes, rstrip_of_plain hpathPlain, hlookup, except_bind_ok, need_ok, require_ok]
      exact ⟨data, rfl, ⟨⟩, hsize path hpath data hfile.content, rfl⟩
    exact ⟨⟨List.length_pos_iff.mpr hcount.1, hcount.2, increasing_of_agreeable hagree hnormal hevident.sorted⟩,
      files.flatten, ⟨files, hpasses, by simp⟩, hdigest⟩

/-- An accepted lock is accepted again where the paths of its records are agreeable, and only there. -/
theorem records_accepted_iff {toml : String → Except String ValidatedSourceLock}
    {path repositoryRoot : SourceLock.Location} (h : validate sha256 fs toml path repositoryRoot = .ok lock)
    (_hsealed : lock.status = .sealed)
    (hroot : fs.canonicalize repositoryRoot = .ok root)
    (hbelow : ∀ record ∈ lock.sources, ∀ path ∈ record.licenseFiles, Below path)
    (hsize : ∀ record ∈ lock.sources, ∀ path ∈ record.licenseFiles, ∀ data, content fs root path = some data →
      0 < data.length ∧ data.length ≤ MAX_MEMBER_BYTES)
    (harchive : evidenceArchive fs root lock = .ok evidence) :
    (∀ record ∈ lock.sources, inspectRecord sha256 evidence record = .ok ()) ↔
      ∀ record ∈ lock.sources, Agreeable record.licenseFiles := by
  obtain ⟨root', hroot', hevident⟩ := validate_evident h
  rw [hroot] at hroot'
  cases hroot'
  exact forall₂_congr fun record hrecord =>
    inspectRecord_iff hrecord harchive (hevident record hrecord) (hbelow record hrecord) (hsize record hrecord)

end

/-! ### A directory continued by a hyphen -/

/-- What `prepare` writes for the sample of the lock. -/
def driverEvidence : List (String × Bytes) :=
  [(LICENSES ++ "npu-compiler/LICENSE", utf8 "c"), (LICENSES ++ "npu/LICENSE", utf8 "ab")]

theorem driverEvidence_built : evidenceArchive (repository "ab" "c") ["r"] driverLock = .ok driverEvidence := by
  have hpaths : sortedSet (driverLock.sources.flatMap SourceRecord.licenseFiles) =
      driverEvidence.map Prod.fst := sortedSet_of_perm (by decide) (.swap _ _ [])
  rw [evidenceArchive, hpaths]
  rfl

theorem driver_below : ∀ record ∈ driverLock.sources, ∀ path ∈ record.licenseFiles, Below path := by
  rw [driverLock, List.forall_mem_singleton, driver, List.forall_mem_cons, List.forall_mem_singleton]
  exact ⟨⟨["npu", "LICENSE"], List.cons_ne_nil _ _, rfl⟩,
    ⟨["npu-compiler", "LICENSE"], List.cons_ne_nil _ _, rfl⟩⟩

theorem driver_bounded : ∀ record ∈ driverLock.sources, ∀ path ∈ record.licenseFiles, ∀ data,
    content (repository "ab" "c") ["r"] path = some data → 0 < data.length ∧ data.length ≤ MAX_MEMBER_BYTES := by
  rw [driverLock, List.forall_mem_singleton, driver, List.forall_mem_cons, List.forall_mem_singleton]
  constructor
  · intro data hdata
    cases hdata
    decide
  · intro data hdata
    cases hdata
    decide

theorem records_accepted_driver :
    (∀ record ∈ driverLock.sources, inspectRecord digestOf driverEvidence record = .ok ()) ↔
      ∀ record ∈ driverLock.sources, Agreeable record.licenseFiles :=
  records_accepted_iff (repository_accepted (by decide)) rfl rfl driver_below driver_bounded driverEvidence_built

/-- The lock is accepted, and the second reader refuses its order. -/
theorem hyphen_refused : ¬ ∀ {sha256 : Bytes → String} {fs : FileSystem} {root : List String}
    {lock : ValidatedSourceLock} {evidence : List (String × Bytes)}
    {toml : String → Except String ValidatedSourceLock}
    {path repositoryRoot : SourceLock.Location},
    validate sha256 fs toml path repositoryRoot = .ok lock → lock.status = .sealed →
    fs.canonicalize repositoryRoot = .ok root →
    (∀ record ∈ lock.sources, ∀ path ∈ record.licenseFiles, Below path) →
    (∀ record ∈ lock.sources, ∀ path ∈ record.licenseFiles, ∀ data, content fs root path = some data →
      0 < data.length ∧ data.length ≤ MAX_MEMBER_BYTES) →
    evidenceArchive fs root lock = .ok evidence →
    ∀ record ∈ lock.sources, inspectRecord sha256 evidence record = .ok () := by
  intro h
  have hdriver := h (repository_accepted (by decide)) rfl rfl driver_below driver_bounded driverEvidence_built
    driver (List.mem_singleton_self driver)
  simp only [inspectRecord, except_bind_ok, require_ok, exists_const, eq_sortedSet_iff] at hdriver
  have hsorted := hdriver.1.2.2
  exact absurd hsorted (by decide)

end NpuStack.Packaging.LicenseEvidence
