import NpuStack.Schemes.FileTree
import NpuStack.Schemes.Interaction
import NpuStack.Schemes.PyValue

/-! `release_artifact.py`: sealing a directory and checking what arrives.

        seal    files, sorted ──one line each──▶ ARTIFACT-SHA256SUMS ──▶ digest
        check   digest ──▶ ARTIFACT-SHA256SUMS ──splitlines──▶ paths and digests ──▶ files

    The writer refuses a line feed in a path and nothing else; the reader breaks lines wherever Python
    does. A sealed directory is accepted again exactly when no path has one of those other breaks
    (`sealed_exact_iff`). -/

namespace NpuStack.Ci.Artifact
open Interaction Text FileTree

def SUMS : String := "ARTIFACT-SHA256SUMS"

/-- Why an artifact is refused. -/
inductive Refusal where
  | notDirectory
  | symlink (relative : String)
  | special (relative : String)
  | newline
  | alreadySealed
  | noFiles
  | malformedDigest
  | otherSums
  | malformedSums
  | differ (missing unexpected : List String)
  | changed (relative : String)
  /-- An exception of Python's own. -/
  | raised
  deriving DecidableEq, Repr

/-! ### The inventory -/

/-- Entries `os.walk` lists among the directories, links to directories included. -/
def isDirName : Node → Bool
  | .dir _ => true
  | .link follow =>
    match (follow []).found with
    | some (.directory _) => true
    | _ => false
  | _ => false

/-- One entry of a directory, and the file it contributes. -/
def checkEntry (above : List String) (entry : String × Node) : Except Refusal (List String) :=
  let relative := posix (above ++ [entry.1])
  match entry.2 with
  | .link _ => .error (.symlink relative)
  | .dir _ => .ok []
  | .special => .error (.special relative)
  | .file _ => do
    refuse (contains '\n' relative = true) .newline
    return if relative = SUMS then [] else [relative]

mutual

/-- A directory's entries, directories first, and then what is below them. -/
def inventoryBelow : List String → Node → Except Refusal (List String)
  | above, .dir entries => do
    let here ← (entries.filter (fun entry => isDirName entry.2) ++
      entries.filter fun entry => !isDirName entry.2).mapM (checkEntry above)
    let below ← inventoryIn above entries
    return here.flatten ++ below
  | _, _ => return []

def inventoryIn : List String → List (String × Node) → Except Refusal (List String)
  | _, [] => return []
  | above, (name, node) :: entries => do
    let first ← inventoryBelow (above ++ [name]) node
    let rest ← inventoryIn above entries
    return first ++ rest

end

/-- Regular files under the root except the sums file, sorted. -/
def inventory (root : Node) : Except Refusal (List String) :=
  match root with
  | .dir _ => do
    let files ← inventoryBelow [] root
    return files.mergeSort (· ≤ ·)
  | _ => .error .notDirectory

/-! ### Seal and check -/

section
variable (sha256 : Bytes → String)

/-- `sha(root / relative)`. -/
def shaOf (root : Node) (relative : String) : Except Refusal String := do
  let content ← need (lookup root (split '/' relative)).content .raised
  return sha256 content

def sumsLine (digest relative : String) : String := digest ++ "  " ++ relative

/-- The directory with one more file. -/
def addFile (root : Node) (name : String) (content : Bytes) : Node :=
  match root with
  | .dir entries => .dir (entries ++ [(name, .file content)])
  | other => other

def sealDirectory (root : Node) : Except Refusal (String × Node) := do
  refuse ((lookup root [SUMS]).found.isSome = true) .alreadySealed
  let files ← inventory root
  refuse (files = []) .noFiles
  let lines ← files.mapM fun relative => do
    let digest ← shaOf sha256 root relative
    return sumsLine digest relative
  let sums := utf8 (unlines lines)
  return (sha256 sums, addFile root SUMS sums)

/-- `[0-9a-f]{64}`, matched whole. -/
def isHex64 (value : String) : Bool := Py.len value = 64 && all isLowerHex value

/-- `([0-9a-f]{64})  (.+)`, matched whole. -/
def parseLine (line : String) : Option (String × String) :=
  match stripPrefix "  " (String.ofList (line.toList.drop 64)) with
  | some relative =>
    let digest := String.ofList (line.toList.take 64)
    if isHex64 digest && relative ≠ "" && !contains '\n' relative then some (digest, relative) else none
  | none => none

/-- The listed files with their digests, in the order of the lines. -/
def readSums : List String → List (String × String) → Except Refusal (List (String × String))
  | [], listed => return listed
  | line :: rest, listed => do
    let (digest, relative) ← need (parseLine line) .malformedSums
    refuse (relative ∈ listed.map Prod.fst) .malformedSums
    readSums rest (listed ++ [(relative, digest)])

/-- Those of the one list that are not in the other, sorted. -/
def minus (left right : List String) : List String :=
  (left.filter fun name => name ∉ right).mergeSort (· ≤ ·)

def checkFile (root : Node) (listed : List (String × String)) (relative : String) :
    Except Refusal Unit := do
  let actual ← shaOf sha256 root relative
  refuse (listed.lookup relative ≠ some actual) (.changed relative)

def check (root : Node) (digest : String) : Except Refusal ℕ := do
  refuse (isHex64 digest = false) .malformedDigest
  let sums ← need (lookup root [SUMS]).content .otherSums
  refuse (sha256 sums ≠ digest) .otherSums
  let text ← need (Py.readText sums) .raised
  let listed ← readSums (Py.splitlines text) []
  let files ← inventory root
  refuse (¬((∀ relative ∈ files, relative ∈ listed.map Prod.fst) ∧
      ∀ relative ∈ listed.map Prod.fst, relative ∈ files))
    (.differ (minus (listed.map Prod.fst) files) (minus files (listed.map Prod.fst)))
  forM files (checkFile sha256 root listed)
  return files.length

end

/-! ### What an inventory is -/

/-- A directory, or a regular file whose path has no line feed. -/
def Plain (entry : List String × Node) : Prop :=
  (∃ entries, entry.2 = .dir entries) ∨
    ∃ content, entry.2 = .file content ∧ '\n' ∉ (posix entry.1).toList

/-- The path of a regular file other than the sums file. -/
def fileOf (entry : List String × Node) : List String :=
  match entry.2 with
  | .file _ => if posix entry.1 = SUMS then [] else [posix entry.1]
  | _ => []

theorem checkEntry_ok {above : List String} {entry : String × Node} {files : List String} :
    checkEntry above entry = .ok files ↔
      Plain (above ++ [entry.1], entry.2) ∧ files = fileOf (above ++ [entry.1], entry.2) := by
  obtain ⟨name, node⟩ := entry
  cases node with
  | link follow => simp [checkEntry, Plain]
  | special => simp [checkEntry, Plain]
  | dir entries => simp [checkEntry, Plain, fileOf, eq_comm]
  | file content =>
    simp only [checkEntry, except_bind_ok, refuse_ok, pure, Except.pure, Except.ok.injEq, contains,
      List.contains_iff_mem, Plain, fileOf, reduceCtorEq, exists_false, Node.file.injEq, false_or,
      exists_eq_left', eq_comm (a := files)]
    constructor
    · rintro ⟨_, hfree, h⟩
      exact ⟨hfree, h⟩
    · rintro ⟨hfree, h⟩
      exact ⟨(), hfree, h⟩

/-- The entries of one directory: each is plain, and their files are collected in some order. -/
theorem checkEntries_ok {above : List String} {entries : List (String × Node)}
    {here : List (List String)} :
    (entries.filter (fun entry => isDirName entry.2) ++
      entries.filter fun entry => !isDirName entry.2).mapM (checkEntry above) = .ok here ↔
    (∀ entry ∈ entries, Plain (above ++ [entry.1], entry.2)) ∧
      here = (entries.filter (fun entry => isDirName entry.2) ++
        entries.filter fun entry => !isDirName entry.2).map fun entry =>
          fileOf (above ++ [entry.1], entry.2) := by
  rw [except_mapM_ok]
  have hall : (∀ entry ∈ entries, Plain (above ++ [entry.1], entry.2)) ↔
      ∀ entry ∈ entries.filter (fun entry => isDirName entry.2) ++
        entries.filter fun entry => !isDirName entry.2, Plain (above ++ [entry.1], entry.2) := by
    refine forall_congr' fun entry => ?_
    rw [((List.filter_append_perm (fun entry : String × Node => isDirName entry.2) entries).mem_iff)]
  rw [hall]
  generalize entries.filter (fun entry => isDirName entry.2) ++
        entries.filter (fun entry => !isDirName entry.2) = listing
  induction listing generalizing here with
  | nil => simp
  | cons entry listing ih =>
    rw [List.forall₂_cons_left_iff, List.forall_mem_cons, List.map_cons]
    constructor
    · rintro ⟨first, rest, hfirst, hrest, rfl⟩
      obtain ⟨hplain, rfl⟩ := checkEntry_ok.mp hfirst
      obtain ⟨hplains, rfl⟩ := ih.mp hrest
      exact ⟨⟨hplain, hplains⟩, rfl⟩
    · rintro ⟨⟨hplain, hplains⟩, rfl⟩
      exact ⟨_, _, checkEntry_ok.mpr ⟨hplain, rfl⟩, ih.mpr ⟨hplains, rfl⟩, rfl⟩

/-- The files of the walk below the entries of a directory. -/
def filesBelow (above : List String) (entries : List (String × Node)) : List String :=
  entries.flatMap fun entry => (walk (above ++ [entry.1]) entry.2).flatMap fileOf

/-- A directory's walk is plain when its entries are and what is below them is. -/
theorem plain_walkIn {above : List String} {entries : List (String × Node)} :
    (∀ e ∈ walkIn above entries, Plain e) ↔
      (∀ entry ∈ entries, Plain (above ++ [entry.1], entry.2)) ∧
        ∀ entry ∈ entries, ∀ e ∈ walk (above ++ [entry.1]) entry.2, Plain e := by
  have hmem : ∀ e, e ∈ walkIn above entries ↔
      (∃ entry ∈ entries, (above ++ [entry.1], entry.2) = e) ∨
        ∃ entry ∈ entries, e ∈ walk (above ++ [entry.1]) entry.2 := by
    intro e
    rw [(walkIn_perm above entries).mem_iff, List.mem_append, List.mem_map, List.mem_flatMap]
  constructor
  · intro h
    refine ⟨?_, ?_⟩
    · intro entry hentry
      exact h _ ((hmem _).mpr (Or.inl ⟨entry, hentry, rfl⟩))
    · intro entry hentry e he
      exact h _ ((hmem _).mpr (Or.inr ⟨entry, hentry, he⟩))
  · rintro ⟨hentries, hbelow⟩ e he
    rcases (hmem e).mp he with ⟨entry, hentry, rfl⟩ | ⟨entry, hentry, he⟩
    · exact hentries entry hentry
    · exact hbelow entry hentry e he

mutual

/-- A listed tree is plain, and its files are those of the walk. -/
theorem inventoryBelow_ok : ∀ {node : Node} {above files : List String},
    inventoryBelow above node = .ok files →
      (∀ e ∈ walk above node, Plain e) ∧ files.Perm ((walk above node).flatMap fileOf)
  | .dir entries, above, files, h => by
    simp only [inventoryBelow, except_bind_ok, checkEntries_ok, pure, Except.pure,
      Except.ok.injEq] at h
    obtain ⟨here, ⟨hplain, hhere⟩, below, hbelow, rfl⟩ := h
    obtain ⟨hplains, hperm⟩ := inventoryIn_ok hbelow
    rw [walk]
    refine ⟨plain_walkIn.mpr ⟨hplain, hplains⟩, ?_⟩
    refine List.Perm.trans ?_ ((walkIn_perm above entries).flatMap_right fileOf).symm
    rw [List.flatMap_append, List.flatMap_map, List.flatMap_assoc, hhere, ← List.flatMap_def]
    exact ((List.filter_append_perm (fun entry : String × Node => isDirName entry.2)
      entries).flatMap_right _).append hperm
  | .file _, above, files, h => by
    cases h
    exact ⟨by simp [walk], List.Perm.refl _⟩
  | .special, above, files, h => by
    cases h
    exact ⟨by simp [walk], List.Perm.refl _⟩
  | .link _, above, files, h => by
    cases h
    exact ⟨by simp [walk], List.Perm.refl _⟩

theorem inventoryIn_ok : ∀ {entries : List (String × Node)} {above files : List String},
    inventoryIn above entries = .ok files →
      (∀ entry ∈ entries, ∀ e ∈ walk (above ++ [entry.1]) entry.2, Plain e) ∧
        files.Perm (filesBelow above entries)
  | [], above, files, h => by
    cases h
    exact ⟨by simp, List.Perm.refl _⟩
  | (name, node) :: entries, above, files, h => by
    simp only [inventoryIn, except_bind_ok, pure, Except.pure, Except.ok.injEq] at h
    obtain ⟨first, hfirst, rest, hrest, rfl⟩ := h
    obtain ⟨hplain, hperm⟩ := inventoryBelow_ok hfirst
    obtain ⟨hplains, hperms⟩ := inventoryIn_ok hrest
    exact ⟨List.forall_mem_cons.mpr ⟨hplain, hplains⟩, hperm.append hperms⟩

end

mutual

/-- A plain tree is listed. -/
theorem inventoryBelow_of_plain : ∀ {node : Node} {above : List String},
    (∀ e ∈ walk above node, Plain e) → ∃ files, inventoryBelow above node = .ok files
  | .dir entries, above, h => by
    rw [walk, plain_walkIn] at h
    obtain ⟨below, hbelow⟩ := inventoryIn_of_plain h.2
    rw [inventoryBelow]
    exact ⟨_, except_bind_ok.mpr ⟨_, checkEntries_ok.mpr ⟨h.1, rfl⟩,
      except_bind_ok.mpr ⟨below, hbelow, rfl⟩⟩⟩
  | .file _, above, _ => ⟨[], rfl⟩
  | .special, above, _ => ⟨[], rfl⟩
  | .link _, above, _ => ⟨[], rfl⟩

theorem inventoryIn_of_plain : ∀ {entries : List (String × Node)} {above : List String},
    (∀ entry ∈ entries, ∀ e ∈ walk (above ++ [entry.1]) entry.2, Plain e) →
      ∃ files, inventoryIn above entries = .ok files
  | [], above, _ => ⟨[], rfl⟩
  | (name, node) :: entries, above, h => by
    obtain ⟨hfirst, hrest⟩ := List.forall_mem_cons.mp h
    obtain ⟨first, hfirst⟩ := inventoryBelow_of_plain hfirst
    obtain ⟨rest, hrest⟩ := inventoryIn_of_plain hrest
    refine ⟨first ++ rest, ?_⟩
    simp only [inventoryIn, except_bind_ok]
    exact ⟨first, hfirst, rest, hrest, rfl⟩

end

/-- A tree of real directories and regular files, none with a line feed in its path. -/
def Clean (root : Node) : Prop :=
  (∃ entries, root = .dir entries) ∧ ∀ path node, path ≠ [] → reach root path = some node →
    Plain (path, node)

/-- The regular file at a path other than that of the sums file. -/
def FileAt (root : Node) (path : List String) (content : Bytes) : Prop :=
  path ≠ [SUMS] ∧ reach root path = some (.file content)

theorem plain_walk_iff {root : Node} (hwf : root.WellFormed) :
    (∀ e ∈ walk [] root, Plain e) ↔
      ∀ path node, path ≠ [] → reach root path = some node → Plain (path, node) := by
  constructor
  · intro h path node hne hreach
    exact h _ ((mem_walk hwf).mpr ⟨path, hne, rfl, hreach⟩)
  · rintro h ⟨path, node⟩ he
    obtain ⟨below, hne, heq, hreach⟩ := (mem_walk hwf).mp he
    rw [List.nil_append] at heq
    subst heq
    exact h path node hne hreach

theorem posix_inj {root root' : Node} (hwf : root.WellFormed) (hwf' : root'.WellFormed)
    {path path' : List String} {node node' : Node} (hne : path ≠ []) (hreach : reach root path = some node)
    (hne' : path' ≠ []) (hreach' : reach root' path' = some node') (h : posix path = posix path') :
    path = path' := by
  rw [← split_posix hne (names_of_reach hwf hreach), h,
    split_posix hne' (names_of_reach hwf' hreach')]

theorem posix_sums : posix [SUMS] = SUMS := by
  rw [posix, join]
  simp

/-- Only the sums file at the top has its name as its path. -/
theorem posix_eq_sums {root : Node} (hwf : root.WellFormed) {path : List String} {node : Node}
    (hne : path ≠ []) (hreach : reach root path = some node) : posix path = SUMS ↔ path = [SUMS] := by
  constructor
  · intro h
    have hslash : '/' ∉ SUMS.toList := by decide
    rw [← split_posix hne (names_of_reach hwf hreach), h, split_of_notMem hslash]
  · rintro rfl
    exact posix_sums

theorem mem_fileOf {entry : List String × Node} {relative : String} :
    relative ∈ fileOf entry ↔ (∃ content, entry.2 = .file content) ∧ posix entry.1 ≠ SUMS ∧
      posix entry.1 = relative := by
  obtain ⟨path, node⟩ := entry
  cases node with
  | link follow => simp [fileOf]
  | special => simp [fileOf]
  | dir entries => simp [fileOf]
  | file content =>
    have hfile : fileOf (path, .file content) = if posix path = SUMS then [] else [posix path] := rfl
    rw [hfile]
    split
    · next h => simp [h]
    · next h => simp [h, eq_comm]

/-- The inventory of a tree: it is clean, and each of its files is listed once. -/
theorem inventory_ok {root : Node} {files : List String} (hwf : root.WellFormed)
    (h : inventory root = .ok files) : Clean root ∧ files.Perm ((walk [] root).flatMap fileOf) := by
  rw [inventory.eq_def] at h
  split at h
  · next entries =>
    rw [except_bind_ok] at h
    obtain ⟨unsorted, hbelow, h⟩ := h
    cases h
    obtain ⟨hplain, hperm⟩ := inventoryBelow_ok hbelow
    exact ⟨⟨⟨entries, rfl⟩, (plain_walk_iff hwf).mp hplain⟩, (List.mergeSort_perm _ _).trans hperm⟩
  · cases h

theorem inventory_of_clean {root : Node} (hwf : root.WellFormed) (h : Clean root) :
    ∃ files, inventory root = .ok files := by
  obtain ⟨⟨entries, rfl⟩, hplain⟩ := h
  obtain ⟨files, hfiles⟩ := inventoryBelow_of_plain ((plain_walk_iff hwf).mpr hplain)
  exact ⟨_, except_bind_ok.mpr ⟨files, hfiles, rfl⟩⟩

theorem mem_inventory {root : Node} {files : List String} (hwf : root.WellFormed)
    (h : inventory root = .ok files) {relative : String} :
    relative ∈ files ↔ ∃ path content, path ≠ [] ∧ FileAt root path content ∧ posix path = relative := by
  rw [(inventory_ok hwf h).2.mem_iff, List.mem_flatMap]
  constructor
  · rintro ⟨⟨path, node⟩, hmem, hfile⟩
    obtain ⟨below, hne, heq, hreach⟩ := (mem_walk hwf).mp hmem
    rw [List.nil_append] at heq
    subst heq
    obtain ⟨⟨content, rfl⟩, hother, hposix⟩ := mem_fileOf.mp hfile
    exact ⟨path, content, hne, ⟨mt (posix_eq_sums hwf hne hreach).mpr hother, hreach⟩, hposix⟩
  · rintro ⟨path, content, hne, ⟨hother, hreach⟩, hposix⟩
    refine ⟨(path, .file content), (mem_walk hwf).mpr ⟨path, hne, rfl, hreach⟩, ?_⟩
    exact mem_fileOf.mpr ⟨⟨content, rfl⟩, mt (posix_eq_sums hwf hne hreach).mp hother, hposix⟩

theorem nodup_inventory {root : Node} {files : List String} (hwf : root.WellFormed)
    (h : inventory root = .ok files) : files.Nodup := by
  rw [(inventory_ok hwf h).2.nodup_iff, List.nodup_flatMap]
  refine ⟨?_, ?_⟩
  · rintro ⟨path, node⟩ _
    rw [fileOf]
    split
    · split <;> simp
    · simp
  · have hpaths := List.pairwise_map.mp (nodup_walk [] hwf)
    refine hpaths.imp_of_mem ?_
    intro a b ha hb hne relative hra hrb
    obtain ⟨below, hnea, heqa, hreacha⟩ := (@mem_walk _ _ a.1 a.2 hwf).mp ha
    obtain ⟨below', hneb, heqb, hreachb⟩ := (@mem_walk _ _ b.1 b.2 hwf).mp hb
    rw [List.nil_append] at heqa heqb
    rw [← heqa] at hnea hreacha
    rw [← heqb] at hneb hreachb
    refine hne (posix_inj hwf hwf hnea hreacha hneb hreachb ?_)
    rw [(mem_fileOf.mp hra).2.2, (mem_fileOf.mp hrb).2.2]

/-- The regular files of a tree. -/
def regularFiles (root : Node) : List (List String × Node) :=
  (walk [] root).filter fun entry => entry.2 matches .file _

theorem length_files : ∀ {entries : List (List String × Node)},
    (∀ e ∈ entries, posix e.1 ≠ SUMS) → (entries.flatMap fileOf).length =
      (entries.filter fun entry => entry.2 matches .file _).length := by
  intro entries h
  induction entries with
  | nil => rfl
  | cons e entries ih =>
    obtain ⟨he, hrest⟩ := List.forall_mem_cons.mp h
    obtain ⟨path, node⟩ := e
    rw [List.flatMap_cons, List.length_append, ih hrest]
    cases node with
    | file content =>
      rw [fileOf, if_neg he, List.filter_cons_of_pos (by rfl), List.length_cons]
      simp
      omega
    | special => simp [fileOf]
    | dir entries => simp [fileOf]
    | link follow => simp [fileOf]

/-! ### The lines of the sums file -/

theorem parseLine_sumsLine {digest relative : String} (hdigest : isHex64 digest = true)
    (hne : relative ≠ "") (hfree : '\n' ∉ relative.toList) :
    parseLine (sumsLine digest relative) = some (digest, relative) := by
  have hlen : digest.toList.length = 64 := by
    rw [isHex64, Bool.and_eq_true, decide_eq_true_eq] at hdigest
    exact hdigest.1
  have hline : (sumsLine digest relative).toList = digest.toList ++ ("  " ++ relative).toList := by
    rw [sumsLine, String.append_assoc, String.toList_append]
  have hdrop : String.ofList ((sumsLine digest relative).toList.drop 64) = "  " ++ relative := by
    rw [hline, ← hlen, List.drop_left, String.ofList_toList]
  have htake : String.ofList ((sumsLine digest relative).toList.take 64) = digest := by
    rw [hline, ← hlen, List.take_left, String.ofList_toList]
  have hcontains : contains '\n' relative = false := by
    rw [contains, Bool.eq_false_iff, ne_eq, List.contains_iff_mem]
    exact hfree
  rw [parseLine, hdrop, stripPrefix_append]
  simp [htake, hdigest, hne, hcontains]

/-- A parsed line is a digest, two spaces and a path. -/
theorem parseLine_some {line digest relative : String} (h : parseLine line = some (digest, relative)) :
    ∀ c ∈ relative.toList, c ∈ line.toList := by
  rw [parseLine] at h
  split at h
  · next name hstrip =>
    dsimp only at h
    split at h
    · cases h
      intro c hc
      have hdrop := stripPrefix_eq_some.mp hstrip
      refine List.mem_of_mem_drop (i := 64) ?_
      rw [← @String.toList_ofList (line.toList.drop 64), hdrop, String.toList_append]
      exact List.mem_append_right _ hc
    · cases h
  · cases h

/-- The written lines read back as their paths and digests, in order. -/
theorem readSums_lines {digestOf : String → String} {files : List String}
    {listed : List (String × String)} (hdigest : ∀ relative ∈ files, isHex64 (digestOf relative) = true)
    (hname : ∀ relative ∈ files, relative ≠ "" ∧ '\n' ∉ relative.toList)
    (hfresh : ∀ relative ∈ files, relative ∉ listed.map Prod.fst) (hnodup : files.Nodup) :
    readSums (files.map fun relative => sumsLine (digestOf relative) relative) listed =
      .ok (listed ++ files.map fun relative => (relative, digestOf relative)) := by
  induction files generalizing listed with
  | nil => simp [readSums, pure, Except.pure]
  | cons relative files ih =>
    obtain ⟨hd, hds⟩ := List.forall_mem_cons.mp hdigest
    obtain ⟨⟨hne, hfree⟩, hnames⟩ := List.forall_mem_cons.mp hname
    obtain ⟨hnew, hnews⟩ := List.forall_mem_cons.mp hfresh
    obtain ⟨hnotin, hnodup⟩ := List.nodup_cons.mp hnodup
    have hrest := @ih (listed ++ [(relative, digestOf relative)]) hds hnames (by
      intro other hother hmem
      rw [List.map_append, List.mem_append] at hmem
      rcases hmem with hmem | hmem
      · exact hnews other hother hmem
      · have heq : other = relative := by simpa using hmem
        exact hnotin (heq ▸ hother)) hnodup
    rw [List.map_cons, readSums, except_bind_ok]
    refine ⟨_, need_ok.mpr (parseLine_sumsLine hd hne hfree), ?_⟩
    dsimp only
    rw [except_bind_ok]
    refine ⟨(), refuse_ok.mpr hnew, ?_⟩
    rw [hrest, List.append_assoc]
    rfl

/-- A listed path comes from one of the lines. -/
theorem readSums_mem {lines : List String} {listed result : List (String × String)}
    (h : readSums lines listed = .ok result) : ∀ relative ∈ result.map Prod.fst,
      relative ∈ listed.map Prod.fst ∨ ∃ line ∈ lines, ∀ c ∈ relative.toList, c ∈ line.toList := by
  induction lines generalizing listed with
  | nil =>
    cases h
    intro relative hmem
    exact Or.inl hmem
  | cons line lines ih =>
    rw [readSums, except_bind_ok] at h
    obtain ⟨⟨digest, name⟩, hparse, h⟩ := h
    dsimp only at h
    rw [except_bind_ok] at h
    obtain ⟨_, _, h⟩ := h
    intro relative hmem
    rcases ih h relative hmem with hold | ⟨other, hother, hchars⟩
    · rw [List.map_append, List.mem_append] at hold
      rcases hold with hold | hold
      · exact Or.inl hold
      · have heq : relative = name := by simpa using hold
        exact Or.inr ⟨line, by simp, heq ▸ parseLine_some (need_ok.mp hparse)⟩
    · exact Or.inr ⟨other, List.mem_cons_of_mem _ hother, hchars⟩

/-! ### Sealed directories -/

section
variable {sha256 : Bytes → String} {root sealed : Node} {digest : String}

/-- The bytes of a file of the tree. -/
def contentOf (root : Node) (relative : String) : Bytes :=
  ((lookup root (split '/' relative)).content).getD []

theorem content_of_fileAt {path : List String} {content : Bytes} (hwf : root.WellFormed)
    (hne : path ≠ []) (h : reach root path = some (.file content)) :
    (lookup root (split '/' (posix path))).content = some content := by
  rw [split_posix hne (names_of_reach hwf h), lookup_of_reach h]
  rfl

theorem shaOf_ok {relative value : String} : shaOf sha256 root relative = .ok value ↔
    ∃ content, (lookup root (split '/' relative)).content = some content ∧ value = sha256 content := by
  simp only [shaOf, except_bind_ok, need_ok, pure, Except.pure, Except.ok.injEq, eq_comm (a := value)]

/-- The line of a sealed file. -/
def lineOf (sha256 : Bytes → String) (root : Node) (relative : String) : String :=
  sumsLine (sha256 (contentOf root relative)) relative

/-- What a seal writes, and what it is computed from. -/
structure Sealed (sha256 : Bytes → String) (root : Node) (digest : String) (sealed : Node)
    (files : List String) : Prop where
  fresh : (lookup root [SUMS]).found = none
  listed : inventory root = .ok files
  nonempty : files ≠ []
  digest : digest = sha256 (utf8 (unlines (files.map (lineOf sha256 root))))
  result : sealed = addFile root SUMS (utf8 (unlines (files.map (lineOf sha256 root))))

theorem seal_ok (h : sealDirectory sha256 root = .ok (digest, sealed)) :
    ∃ files, Sealed sha256 root digest sealed files := by
  simp only [sealDirectory, except_bind_ok, refuse_ok, pure, Except.pure, Except.ok.injEq,
    Prod.mk.injEq] at h
  obtain ⟨_, hfresh, files, hfiles, _, hne, lines, hlines, hdigest, hsealed⟩ := h
  have hmap : lines = files.map (lineOf sha256 root) := by
    rw [except_mapM_ok] at hlines
    rw [← List.forall₂_eq_eq_eq, List.forall₂_map_right_iff]
    have hline : ∀ relative line, (shaOf sha256 root relative >>= fun digest =>
        .ok (sumsLine digest relative)) = Except.ok line → line = lineOf sha256 root relative := by
      intro relative line hline
      obtain ⟨value, hvalue, hline⟩ := except_bind_ok.mp hline
      obtain ⟨content, hcontent, rfl⟩ := shaOf_ok.mp hvalue
      rw [lineOf, contentOf, hcontent, Option.getD_some]
      exact (Except.ok.inj hline).symm
    exact (hlines.imp hline).flip
  refine ⟨files, ?_, hfiles, hne, ?_, ?_⟩
  · simpa using hfresh
  · rw [← hdigest, hmap]
  · rw [← hsealed, hmap]

variable {files : List String}

/-- There was no sums file before. -/
theorem Sealed.absent (h : Sealed sha256 root digest sealed files) (hwf : root.WellFormed)
    (node : Node) : reach root [SUMS] ≠ some node := by
  intro hreach
  have hfound := h.fresh
  rw [lookup_of_reach hreach] at hfound
  rcases (inventory_ok hwf h.listed).1.2 [SUMS] node (by simp) hreach with ⟨_, hnode⟩ | ⟨_, hnode, _⟩
  · dsimp only at hnode
    rw [hnode] at hfound
    cases hfound
  · dsimp only at hnode
    rw [hnode] at hfound
    cases hfound

theorem Sealed.notMem {entries : List (String × Node)}
    (h : Sealed sha256 (.dir entries) digest sealed files) (hwf : Node.WellFormed (.dir entries)) :
    SUMS ∉ entries.map Prod.fst := by
  intro hmem
  obtain ⟨node, hreach⟩ := reachIn_of_mem hmem
  exact h.absent hwf node (by rw [reach, hreach])

/-- The sums file is new, and every other path leads where it did. -/
theorem Sealed.reach_iff (h : Sealed sha256 root digest sealed files) (hwf : root.WellFormed)
    {path : List String} (hne : path ≠ []) {node : Node} : reach sealed path = some node ↔
      (path = [SUMS] ∧ node = .file (utf8 (unlines (files.map (lineOf sha256 root))))) ∨
        reach root path = some node := by
  obtain ⟨⟨⟨entries, rfl⟩, _⟩, _⟩ := inventory_ok hwf h.listed
  have hnew := h.notMem hwf
  rw [h.result, addFile]
  obtain ⟨name, below, rfl⟩ := List.exists_cons_of_ne_nil hne
  rw [reach, reachIn_concat hnew, reach]
  by_cases hname : name = SUMS
  · subst hname
    have hnone : ∀ node, reachIn entries SUMS below ≠ some node := by
      intro node hreach
      exact hnew (reachIn_name hreach)
    rw [if_pos rfl]
    cases below with
    | nil => simp [reach, hnone, eq_comm]
    | cons part below => simp [reach, hnone]
  · rw [if_neg hname]
    simp [hname]

theorem Sealed.fileAt_iff (h : Sealed sha256 root digest sealed files) (hwf : root.WellFormed)
    {path : List String} (hne : path ≠ []) {content : Bytes} :
    FileAt sealed path content ↔ reach root path = some (.file content) := by
  rw [FileAt, h.reach_iff hwf hne]
  constructor
  · rintro ⟨hother, ⟨heq, _⟩ | hreach⟩
    · exact absurd heq hother
    · exact hreach
  · intro hreach
    refine ⟨?_, Or.inr hreach⟩
    rintro rfl
    exact h.absent hwf _ hreach

theorem Sealed.fileAt_root (h : Sealed sha256 root digest sealed files) (hwf : root.WellFormed)
    {path : List String} (hne : path ≠ []) {content : Bytes} :
    FileAt root path content ↔ reach root path = some (.file content) := by
  constructor
  · intro hfile
    exact hfile.2
  · intro hreach
    exact ⟨((h.fileAt_iff hwf hne).mpr hreach).1, hreach⟩

theorem Sealed.wellFormed (h : Sealed sha256 root digest sealed files) (hwf : root.WellFormed) :
    sealed.WellFormed := by
  obtain ⟨⟨⟨entries, rfl⟩, _⟩, _⟩ := inventory_ok hwf h.listed
  have hnew := h.notMem hwf
  rw [h.result, addFile, Node.WellFormed]
  rw [Node.WellFormed] at hwf
  refine ⟨?_, wellFormedIn_concat hwf.2 (by decide) (by simp [Node.WellFormed])⟩
  rw [List.map_append, List.nodup_append]
  refine ⟨hwf.1, by simp, ?_⟩
  intro a ha b hb heq
  have hb' : b = SUMS := by simpa using hb
  exact hnew (hb' ▸ heq ▸ ha)

theorem Sealed.clean (h : Sealed sha256 root digest sealed files) (hwf : root.WellFormed) :
    Clean sealed := by
  obtain ⟨⟨⟨entries, rfl⟩, hplain⟩, _⟩ := inventory_ok hwf h.listed
  refine ⟨⟨_, h.result⟩, ?_⟩
  intro path node hne hreach
  rcases (h.reach_iff hwf hne).mp hreach with ⟨rfl, rfl⟩ | hreach
  · exact Or.inr ⟨_, rfl, by rw [posix_sums]; decide⟩
  · exact hplain path node hne hreach

/-- The inventory of the sealed directory lists what was sealed. -/
theorem Sealed.inventory (h : Sealed sha256 root digest sealed files) (hwf : root.WellFormed)
    {files' : List String} (hfiles' : inventory sealed = .ok files') : files'.Perm files := by
  refine (List.perm_ext_iff_of_nodup (nodup_inventory (h.wellFormed hwf) hfiles')
    (nodup_inventory hwf h.listed)).mpr ?_
  intro relative
  rw [mem_inventory (h.wellFormed hwf) hfiles', mem_inventory hwf h.listed]
  refine exists_congr fun path => exists_congr fun content => and_congr_right fun hne => ?_
  rw [h.fileAt_iff hwf hne, h.fileAt_root hwf hne]

/-- As many files are sealed as the tree has. -/
theorem Sealed.length (h : Sealed sha256 root digest sealed files) (hwf : root.WellFormed) :
    files.length = (regularFiles root).length := by
  rw [(inventory_ok hwf h.listed).2.length_eq, regularFiles]
  refine length_files ?_
  rintro ⟨path, node⟩ hmem hsums
  obtain ⟨below, hne, heq, hreach⟩ := (mem_walk hwf).mp hmem
  rw [List.nil_append] at heq
  subst heq
  have hpath := (posix_eq_sums hwf hne hreach).mp hsums
  subst hpath
  exact h.absent hwf node hreach

/-! ### Accepted directories -/

/-- What a check reads on its way to acceptance. -/
structure Checked (sha256 : Bytes → String) (root : Node) (digest : String) (sums : Bytes)
    (text : String) (listed : List (String × String)) (files : List String) : Prop where
  hex : isHex64 digest = true
  read : (lookup root [SUMS]).content = some sums ∧ sha256 sums = digest
  decoded : Py.readText sums = some text
  parsed : readSums (Py.splitlines text) [] = .ok listed
  inventoried : inventory root = .ok files
  same : ∀ relative, relative ∈ files ↔ relative ∈ listed.map Prod.fst
  bytes : ∀ relative ∈ files, ∃ content,
    (lookup root (split '/' relative)).content = some content ∧
      listed.lookup relative = some (sha256 content)

theorem checkFile_ok {listed : List (String × String)} {relative : String} {u : Unit} :
    checkFile sha256 root listed relative = .ok u ↔ ∃ content,
      (lookup root (split '/' relative)).content = some content ∧
        listed.lookup relative = some (sha256 content) := by
  simp only [checkFile, except_bind_ok, refuse_ok, not_not, shaOf_ok]
  constructor
  · rintro ⟨_, ⟨content, hcontent, rfl⟩, hlookup⟩
    exact ⟨content, hcontent, hlookup⟩
  · rintro ⟨content, hcontent, hlookup⟩
    exact ⟨_, ⟨content, hcontent, rfl⟩, hlookup⟩

theorem check_ok {n : ℕ} : check sha256 root digest = .ok n ↔
    ∃ sums text listed files, Checked sha256 root digest sums text listed files ∧ n = files.length := by
  simp only [check, except_bind_ok, refuse_ok, need_ok, except_forM_ok, checkFile_ok, not_not,
    Bool.not_eq_false, pure, Except.pure, Except.ok.injEq]
  constructor
  · rintro ⟨_, hdigest, sums, hsums, _, hsha, text, htext, listed, hlisted, files, hfiles, _, hsame, _,
      hbytes, rfl⟩
    exact ⟨sums, text, listed, files, ⟨hdigest, ⟨hsums, hsha⟩, htext, hlisted, hfiles,
      fun relative => ⟨hsame.1 relative, hsame.2 relative⟩, hbytes⟩, rfl⟩
  · rintro ⟨sums, text, listed, files, h, rfl⟩
    exact ⟨(), h.hex, sums, h.read.1, (), h.read.2, text, h.decoded, listed, h.parsed, files, h.inventoried, (),
      ⟨fun relative => (h.same relative).mp, fun relative => (h.same relative).mpr⟩, ⟨⟩, h.bytes, rfl⟩

/-- No path of a file has a character that Python breaks lines at. -/
def Unbroken (root : Node) : Prop :=
  ∀ path content, reach root path = some (.file content) →
    ∀ c ∈ (posix path).toList, Py.isLineBreak c = false

theorem isLineBreak_of_isLowerHex {c : Char} (h : isLowerHex c = true) : Py.isLineBreak c = false := by
  have hgraphic := isGraphic_of_isLowerHex h
  simp only [isGraphic, Bool.and_eq_true, decide_eq_true_eq] at hgraphic
  have hascii : c.toNat < 128 := by
    simp only [isLowerHex, Bool.or_eq_true, Bool.and_eq_true, decide_eq_true_eq] at h
    omega
  simp [Py.isLineBreak]
  omega

/-- A line of sealed names holds no break when the name holds none. -/
theorem sumsLine_unbroken {value relative : String} (hvalue : isHex64 value = true)
    (hrelative : ∀ c ∈ relative.toList, Py.isLineBreak c = false) :
    ∀ c ∈ (sumsLine value relative).toList, Py.isLineBreak c = false := by
  intro c hc
  rw [isHex64, Bool.and_eq_true] at hvalue
  simp only [sumsLine, String.toList_append, List.mem_append] at hc
  rcases hc with (hc | hc) | hc
  · exact isLineBreak_of_isLowerHex (all_iff.mp hvalue.2 c hc)
  · have hspace : c = ' ' := by simpa using hc
    rw [hspace]
    decide
  · exact hrelative c hc

theorem lookup_map_self {f : String → String} {names : List String} {name : String}
    (h : name ∈ names) : (names.map fun name => (name, f name)).lookup name = some (f name) := by
  induction names with
  | nil => cases h
  | cons first names ih =>
    rw [List.map_cons, List.lookup_cons]
    by_cases heq : name = first
    · subst heq
      rw [beq_self_eq_true]
    · rw [beq_eq_false_iff_ne.mpr heq]
      exact ih ((List.mem_cons.mp h).resolve_left heq)

/-- What is listed of a sealed directory whose names are unbroken. -/
theorem Sealed.read (h : Sealed sha256 root digest sealed files) (hwf : root.WellFormed)
    (hsha : ∀ bytes, isHex64 (sha256 bytes) = true) (hunbroken : Unbroken root) :
    Py.readText (utf8 (unlines (files.map (lineOf sha256 root)))) =
        some (unlines (files.map (lineOf sha256 root))) ∧
      readSums (Py.splitlines (unlines (files.map (lineOf sha256 root)))) [] =
        .ok (files.map fun relative => (relative, sha256 (contentOf root relative))) := by
  have hname : ∀ relative ∈ files, relative ≠ "" ∧
      ∀ c ∈ relative.toList, Py.isLineBreak c = false := by
    intro relative hmem
    obtain ⟨path, content, hne, hfile, rfl⟩ := (mem_inventory hwf h.listed).mp hmem
    refine ⟨?_, hunbroken path content hfile.2⟩
    intro hempty
    have hpath := split_posix hne (names_of_reach hwf hfile.2)
    rw [hempty, split_of_notMem (by simp)] at hpath
    have hisName := names_of_reach hwf hfile.2 "" (hpath ▸ List.mem_singleton.mpr rfl)
    revert hisName
    decide
  have hline : ∀ line ∈ files.map (lineOf sha256 root), ∀ c ∈ line.toList,
      Py.isLineBreak c = false := by
    intro line hline
    obtain ⟨relative, hmem, rfl⟩ := List.mem_map.mp hline
    exact sumsLine_unbroken (hsha _) (hname relative hmem).2
  have hreturn : '\r' ∉ (unlines (files.map (lineOf sha256 root))).toList := by
    have hall : all (fun c => c ≠ '\r') (unlines (files.map (lineOf sha256 root))) = true := by
      refine all_unlines (by decide) ?_
      intro line hmem
      rw [all_iff]
      intro c hc
      rw [decide_eq_true_eq]
      rintro rfl
      have hbreak := hline line hmem _ hc
      revert hbreak
      decide
    intro hmem
    have hself := all_iff.mp hall _ hmem
    simp at hself
  refine ⟨Py.readText_utf8 hreturn, ?_⟩
  rw [Py.splitlines_unlines]
  · have hlines := @readSums_lines (fun relative => sha256 (contentOf root relative)) files []
      (fun _ _ => hsha _) ?_ (by simp) (nodup_inventory hwf h.listed)
    · exact hlines
    · intro relative hmem
      refine ⟨(hname relative hmem).1, ?_⟩
      intro hnewline
      have hbreak := (hname relative hmem).2 _ hnewline
      revert hbreak
      decide
  · intro line hmem
    rw [all_iff]
    intro c hc
    rw [hline line hmem c hc]
    rfl

/-- The sums file of a sealed directory, as it is looked up. -/
theorem Sealed.lookup_sums (h : Sealed sha256 root digest sealed files) (hwf : root.WellFormed) :
    (lookup sealed [SUMS]).content = some (utf8 (unlines (files.map (lineOf sha256 root)))) := by
  rw [lookup_of_reach ((h.reach_iff hwf (by simp)).mpr (Or.inl ⟨rfl, rfl⟩))]
  rfl

/-- The bytes of a sealed file. -/
theorem Sealed.content (h : Sealed sha256 root digest sealed files) (hwf : root.WellFormed)
    {path : List String} {content : Bytes} (hne : path ≠ [])
    (hreach : reach root path = some (.file content)) :
    contentOf root (posix path) = content ∧
      (lookup sealed (split '/' (posix path))).content = some content := by
  refine ⟨?_, ?_⟩
  · rw [contentOf, content_of_fileAt hwf hne hreach, Option.getD_some]
  · exact content_of_fileAt (h.wellFormed hwf) hne ((h.fileAt_iff hwf hne).mpr hreach).2

/-- The digests a check looks up among those that were sealed. -/
theorem lookup_sealed {relative : String} (hmem : relative ∈ files) :
    (files.map fun relative => (relative, sha256 (contentOf root relative))).lookup relative =
      some (sha256 (contentOf root relative)) :=
  lookup_map_self (f := fun relative => sha256 (contentOf root relative)) hmem

theorem map_fst_sealed : (files.map fun relative => (relative, sha256 (contentOf root relative))).map
    Prod.fst = files := by
  rw [List.map_map]
  exact List.map_id files

/-- With unbroken names a sealed directory is accepted, with as many files as it has. -/
theorem Sealed.accepted (h : Sealed sha256 root digest sealed files) (hwf : root.WellFormed)
    (hsha : ∀ bytes, isHex64 (sha256 bytes) = true) (hunbroken : Unbroken root) :
    check sha256 sealed digest = .ok (regularFiles root).length := by
  obtain ⟨hdecoded, hparsed⟩ := h.read hwf hsha hunbroken
  obtain ⟨files', hfiles'⟩ := inventory_of_clean (h.wellFormed hwf) (h.clean hwf)
  have hperm := h.inventory hwf hfiles'
  rw [check_ok]
  refine ⟨_, _, _, files', ⟨?_, ⟨h.lookup_sums hwf, h.digest.symm⟩, hdecoded, hparsed, hfiles', ?_, ?_⟩, ?_⟩
  · rw [h.digest]
    exact hsha _
  · intro relative
    rw [map_fst_sealed, hperm.mem_iff]
  · intro relative hmem
    have hfile := hperm.mem_iff.mp hmem
    obtain ⟨path, content, hne, hfileAt, rfl⟩ := (mem_inventory hwf h.listed).mp hfile
    obtain ⟨hcontent, hlookup⟩ := h.content hwf hne hfileAt.2
    exact ⟨content, hlookup, by rw [lookup_sealed hfile, hcontent]⟩
  · rw [hperm.length_eq, h.length hwf]

/-- An accepted sealed directory has unbroken names: what is listed comes from lines. -/
theorem Sealed.unbroken (h : Sealed sha256 root digest sealed files) (hwf : root.WellFormed) {n : ℕ}
    (hcheck : check sha256 sealed digest = .ok n) : Unbroken root := by
  obtain ⟨sums, text, listed, files', hchecked, _⟩ := check_ok.mp hcheck
  intro path content hreach
  have hne : path ≠ [] := by
    rintro rfl
    obtain ⟨⟨⟨entries, rfl⟩, _⟩, _⟩ := inventory_ok hwf h.listed
    rw [reach] at hreach
    cases hreach
  have hmem : posix path ∈ files' := (mem_inventory (h.wellFormed hwf) hchecked.inventoried).mpr
    ⟨path, content, hne, (h.fileAt_iff hwf hne).mpr hreach, rfl⟩
  rcases readSums_mem hchecked.parsed _ ((hchecked.same _).mp hmem) with hnone | ⟨line, hline, hchars⟩
  · cases hnone
  · intro c hc
    exact Py.splitlines_free hline c (hchars c hc)

/-- No two files of the trees share a digest without sharing their bytes. -/
def NoCollision (sha256 : Bytes → String) (root root' : Node) : Prop :=
  ∀ path path' content content', reach root path = some (.file content) →
    reach root' path' = some (.file content') → sha256 content = sha256 content' → content = content'

/-- The other directory is the sealed one: the sums file of that digest, the same files with the same
    bytes, and nothing but directories beside them. -/
structure SameArtifact (sha256 : Bytes → String) (root : Node) (digest : String) (other : Node) :
    Prop where
  sums : ∃ content, reach other [SUMS] = some (.file content) ∧ sha256 content = digest
  regular : ∀ path node, path ≠ [] → reach other path = some node →
    (∃ entries, node = .dir entries) ∨ ∃ content, node = .file content
  files : ∀ path content, FileAt other path content ↔ reach root path = some (.file content)

/-- What a directory without links is looked up to hold, it holds. -/
theorem reach_of_content {other : Node} (hclean : Clean other) {name : String} {content : Bytes}
    (h : (lookup other [name]).content = some content) :
    reach other [name] = some (.file content) := by
  obtain ⟨⟨entries, rfl⟩, hplain⟩ := hclean
  have hmem : name ∈ entries.map Prod.fst := by
    by_contra hno
    rw [lookup, lookupIn_of_notMem hno] at h
    cases h
  obtain ⟨node, hreach⟩ := reachIn_of_mem hmem
  have hroot : reach (.dir entries) [name] = some node := by rw [reach, hreach]
  rw [lookup_of_reach hroot] at h
  rcases hplain _ _ (by simp) hroot with ⟨_, hnode⟩ | ⟨content', hnode, _⟩
  · dsimp only at hnode
    rw [hnode] at h
    cases h
  · dsimp only at hnode
    rw [hnode] at h
    cases h
    rw [hroot, hnode]

/-- With unbroken names nothing but the sealed directory is accepted under its digest. -/
theorem Sealed.sound (h : Sealed sha256 root digest sealed files) (hwf : root.WellFormed)
    (hsha : ∀ bytes, isHex64 (sha256 bytes) = true) (hunbroken : Unbroken root) {other : Node} {n : ℕ}
    (hwf' : other.WellFormed) (hcollision : NoCollision sha256 sealed other)
    (hcheck : check sha256 other digest = .ok n) : SameArtifact sha256 root digest other := by
  obtain ⟨sums, text, listed, files', hchecked, _⟩ := check_ok.mp hcheck
  obtain ⟨hclean, _⟩ := inventory_ok hwf' hchecked.inventoried
  have hsums := reach_of_content hclean hchecked.read.1
  -- the sums file is the sealed one, and so is everything read from it
  have hbytes : utf8 (unlines (files.map (lineOf sha256 root))) = sums := by
    refine hcollision [SUMS] [SUMS] _ _ ((h.reach_iff hwf (by simp)).mpr (Or.inl ⟨rfl, rfl⟩)) hsums ?_
    rw [← h.digest, hchecked.read.2]
  obtain ⟨hdecoded, hparsed⟩ := h.read hwf hsha hunbroken
  have htext := hchecked.decoded
  rw [← hbytes, hdecoded] at htext
  cases htext
  have hlisted := hchecked.parsed
  rw [hparsed] at hlisted
  cases hlisted
  have hsame : ∀ relative, relative ∈ files' ↔ relative ∈ files := by
    intro relative
    rw [hchecked.same, map_fst_sealed]
  have hnil : ∀ {tree : Node} {content : Bytes}, Clean tree → reach tree [] ≠ some (.file content) := by
    intro tree content hclean hreach
    obtain ⟨⟨entries, rfl⟩, _⟩ := hclean
    rw [reach] at hreach
    cases hreach
  have hforward : ∀ path content, FileAt other path content → reach root path = some (.file content) := by
    intro path content hfile
    have hne : path ≠ [] := by
      rintro rfl
      exact hnil hclean hfile.2
    have hmem : posix path ∈ files' :=
      (mem_inventory hwf' hchecked.inventoried).mpr ⟨path, content, hne, hfile, rfl⟩
    have hfiles := (hsame _).mp hmem
    obtain ⟨path₀, content₀, hne₀, hfile₀, hposix⟩ := (mem_inventory hwf h.listed).mp hfiles
    have hpath : path₀ = path := posix_inj hwf hwf' hne₀ hfile₀.2 hne hfile.2 hposix
    subst hpath
    obtain ⟨content', hlookup, hdigest⟩ := hchecked.bytes _ hmem
    rw [content_of_fileAt hwf' hne hfile.2] at hlookup
    cases hlookup
    rw [lookup_sealed hfiles, (h.content hwf hne hfile₀.2).1] at hdigest
    have heq : content₀ = content := hcollision path₀ path₀ _ _
      ((h.fileAt_iff hwf hne).mpr hfile₀.2).2 hfile.2 (Option.some.inj hdigest)
    rw [hfile₀.2, heq]
  refine ⟨⟨sums, hsums, hchecked.read.2⟩, ?_, ?_⟩
  · intro path node hne hreach
    rcases hclean.2 path node hne hreach with hdir | ⟨content, hfile, _⟩
    · exact Or.inl hdir
    · exact Or.inr ⟨content, hfile⟩
  · intro path content
    refine ⟨hforward path content, ?_⟩
    intro hreach
    have hne : path ≠ [] := by
      rintro rfl
      exact hnil (inventory_ok hwf h.listed).1 hreach
    have hmem : posix path ∈ files := (mem_inventory hwf h.listed).mpr
      ⟨path, content, hne, (h.fileAt_root hwf hne).mpr hreach, rfl⟩
    obtain ⟨path', content', hne', hfile', hposix⟩ :=
      (mem_inventory hwf' hchecked.inventoried).mp ((hsame _).mpr hmem)
    have hpath : path' = path := posix_inj hwf' hwf hne' hfile'.2 hne hreach hposix
    subst hpath
    have hback := hforward path' content' hfile'
    rw [hreach] at hback
    cases hback
    exact hfile'

end

/-- A sealed directory is accepted as it is, with its files counted, and nothing else is accepted in
    its place, exactly when no path has a character that lines are broken at. -/
theorem sealed_exact_iff {sha256 : Bytes → String} (hsha : ∀ bytes, isHex64 (sha256 bytes) = true)
    {root sealed : Node} {digest : String} (hwf : root.WellFormed)
    (hseal : sealDirectory sha256 root = .ok (digest, sealed)) :
    (check sha256 sealed digest = .ok (regularFiles root).length ∧
      ∀ other n, other.WellFormed → NoCollision sha256 sealed other →
        check sha256 other digest = .ok n → SameArtifact sha256 root digest other) ↔
    ∀ path content, reach root path = some (.file content) →
      ∀ c ∈ (posix path).toList, Py.isLineBreak c = false := by
  obtain ⟨files, h⟩ := seal_ok hseal
  constructor
  · rintro ⟨hcheck, _⟩
    exact h.unbroken hwf hcheck
  · intro hunbroken
    refine ⟨h.accepted hwf hsha hunbroken, ?_⟩
    intro other n hwf' hcollision hcheck
    exact h.sound hwf hsha hunbroken hwf' hcollision hcheck

/-! ### Small directories -/

namespace Small

/-- A directory with one file, which holds the letter x. -/
def holding (name : String) : Node := .dir [(name, .file [120])]

def fileDigest : String := "2d711642b726b04401627ca9fbac32f5c8530fb1903cc4db02258717921a4881"

/-- The sums file of that directory. -/
def sumsOf (name : String) : Bytes := utf8 (unlines [sumsLine fileDigest name])

def sha256 (bytes : Bytes) : String :=
  if bytes = [120] then fileDigest
  else if bytes = sumsOf "a" then
    "4a4b874a1e9776a52e38fd82a053825f309f46187a803a0fc0c6670c6670e768"
  else if bytes = sumsOf "a\rb" then
    "dce8a30aa69dd12308bc71e5a305892e83a6ea6572bbb2469e4bd5af5e225ccd"
  else "0000000000000000000000000000000000000000000000000000000000000000"

theorem sha256_isHex (bytes : Bytes) : isHex64 (sha256 bytes) = true := by
  rw [sha256]
  split
  · decide
  split
  · decide
  split <;> decide

theorem holding_wellFormed {name : String} (h : isName name = true) : (holding name).WellFormed := by
  simp [holding, Node.WellFormed, WellFormedIn, h]

/-- Sealing a directory with one file. -/
theorem seal_holding {name : String} (hsplit : split '/' name = [name]) (hne : name ≠ SUMS)
    (hfree : '\n' ∉ name.toList) : sealDirectory sha256 (holding name) =
      .ok (sha256 (sumsOf name), addFile (holding name) SUMS (sumsOf name)) := by
  have hposix : posix [name] = name := by
    rw [← hsplit, posix, join_split]
  have hinventory : inventory (holding name) = .ok [name] := by
    simp [inventory, holding, inventoryBelow, inventoryIn, isDirName, checkEntry, hposix, contains,
      hfree, hne, refuse, pure, Except.pure, bind, Except.bind]
  have hsha : shaOf sha256 (holding name) name = .ok fileDigest := by
    rw [shaOf, hsplit, holding, lookup, lookupIn, if_pos rfl, lookup]
    rfl
  have hfresh : (lookup (holding name) [SUMS]).found = none := by
    rw [holding, lookup, lookupIn, if_neg hne, lookupIn]
    rfl
  have hlines : ([name].mapM fun relative => do
      let digest ← shaOf sha256 (holding name) relative
      return sumsLine digest relative) = Except.ok [sumsLine fileDigest name] := by
    rw [List.mapM_cons, List.mapM_nil, hsha]
    rfl
  rw [sealDirectory, hfresh]
  simp only [except_bind_ok]
  exact ⟨(), refuse_ok.mpr (by simp), [name], hinventory, (), refuse_ok.mpr (by simp), _, hlines, rfl⟩

end Small

/-- A directory that is accepted under the digest it was sealed with. -/
theorem sealed_exact_small : ∃ sealed digest,
    sealDirectory Small.sha256 (Small.holding "a") = .ok (digest, sealed) ∧
      check Small.sha256 sealed digest = .ok (regularFiles (Small.holding "a")).length := by
  have hseal := @Small.seal_holding "a" (by decide) (by decide) (by decide)
  refine ⟨_, _, hseal, ?_⟩
  refine ((sealed_exact_iff Small.sha256_isHex (Small.holding_wellFormed (by decide)) hseal).mpr ?_).1
  intro path content hreach
  have hpath : path = ["a"] := by
    match path with
    | [] => simp [Small.holding, reach] at hreach
    | [name] =>
      by_cases h : "a" = name
      · rw [h]
      · simp [Small.holding, reach, reachIn, h] at hreach
    | name :: part :: below =>
      by_cases h : "a" = name
      · simp [Small.holding, reach, reachIn, h] at hreach
      · simp [Small.holding, reach, reachIn, h] at hreach
  subst hpath
  exact forall_chars (by decide)

/-- A name with a carriage return is sealed, and then refused. -/
theorem sealed_and_refused : ∃ sealed digest,
    sealDirectory Small.sha256 (Small.holding "a\rb") = .ok (digest, sealed) ∧
      ¬∃ n, check Small.sha256 sealed digest = .ok n := by
  have hseal := @Small.seal_holding "a\rb" (by decide) (by decide) (by decide)
  refine ⟨_, _, hseal, ?_⟩
  rintro ⟨n, hcheck⟩
  obtain ⟨files, h⟩ := seal_ok hseal
  have hwf := @Small.holding_wellFormed "a\rb" (by decide)
  have hreach : reach (Small.holding "a\rb") ["a\rb"] = some (.file [120]) := by
    simp [Small.holding, reach, reachIn]
  have hbreak := h.unbroken hwf hcheck _ _ hreach '\r' (by decide)
  revert hbreak
  decide

end NpuStack.Ci.Artifact
