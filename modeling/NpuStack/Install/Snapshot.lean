import Mathlib.Data.List.Dedup
import NpuStack.Install.Prepare
import NpuStack.Schemes.Gather

/-! Freezing the planner's metadata. Each directory of the planner's cache is attributed to the first
    expected repository whose id and a hyphen it starts with; what it holds is then copied, file by
    file, into the replay tree and bound by digest.

        cache/fedora-0123456789abcdef   ──▶ fedora      id, hyphen, 16 hexadecimal digits
        cache/fedora-x-0123456789abcdef ──▶ fedora      an id that merely extends an expected one

    The second line is the only way to a wrong attribution (`frozen_iff`): an expected id that is
    shadowed by a shorter one would be missing from the table, which is refused. -/

namespace NpuStack.Install
open Interaction Text NpuStack.Runtime

/-! ### The last separator -/

/-! ### Cache entries -/

/-- Sixteen hexadecimal digits. -/
def isCacheHash (suffix : String) : Bool :=
  len suffix = 16 && all (fun c => isLowerHex c || isUpperHex c) suffix

/-- A directory named by the repository id, a hyphen and a hash. -/
def IsCacheOf (id : String) (entry : DirEntry) : Prop :=
  entry.utf8 = true ∧ entry.kind = .directory ∧
    ∃ hash, isCacheHash hash = true ∧ entry.name = id ++ "-" ++ hash

/-- The entries and the expected repositories correspond one to one. -/
def Corresponds (expected : List String) (entries : List DirEntry) : Prop :=
  ∃ matched, matched.Perm entries ∧ List.Forall₂ IsCacheOf expected.dedup matched

/-- The entry's id is not expected, and merely begins with an expected id and a hyphen. -/
def Extends (expected : List String) (entry : DirEntry) : Prop :=
  ∃ id ∈ expected, ∃ more suffix : String,
    rsplitOnce '-' entry.name = some (id ++ "-" ++ more, suffix) ∧ id ++ "-" ++ more ∉ expected

/-- The repository an entry is attributed to. -/
def owner (expected : List String) (entry : DirEntry) : Option String :=
  expected.find? fun id => startsWith (id ++ "-") entry.name

/-- An accepted entry: a directory whose name ends with a hash, attributed to a repository. -/
def Attributed (expected : List String) (entry : DirEntry) (id : String) : Prop :=
  entry.utf8 = true ∧ entry.kind = .directory ∧ owner expected entry = some id ∧
    ∃ head suffix, rsplitOnce '-' entry.name = some (head, suffix) ∧ isCacheHash suffix = true

theorem matchCacheEntry_ok {cache : Path} {expected : List String} {seen seen' : List (String × Path)}
    {entry : DirEntry} : matchCacheEntry cache expected seen entry = .ok seen' ↔
      ∃ id, Attributed expected entry id ∧ id ∉ seen.map Prod.fst ∧
        seen' = (id, cache.join entry.name) :: seen := by
  simp only [matchCacheEntry, except_bind_ok, refuse_ok, need_ok, not_or, not_not, pure, Except.pure,
    Except.ok.injEq, Attributed, owner, isCacheHash, Bool.and_eq_true, decide_eq_true_eq,
    Bool.not_eq_false, ne_eq]
  constructor
  · rintro ⟨_, hutf8, ⟨head, suffix⟩, hsplit, id, hid, _, ⟨hlen, hhex, hkind, hfresh⟩, rfl⟩
    exact ⟨id, ⟨hutf8, hkind, hid, head, suffix, hsplit, hlen, hhex⟩, hfresh, rfl⟩
  · rintro ⟨id, ⟨hutf8, hkind, hid, head, suffix, hsplit, hlen, hhex⟩, hfresh, rfl⟩
    exact ⟨(), hutf8, (head, suffix), hsplit, id, hid, (), ⟨hlen, hhex, hkind, hfresh⟩, rfl⟩

/-- The entries under their repositories, the last one first. -/
def cacheTable (cache : Path) (ids : List String) (entries : List DirEntry) : List (String × Path) :=
  (ids.zip entries).reverse.map fun p => (p.1, cache.join p.2.name)

/-- The table of an accepted listing: every entry under its own repository, none twice. -/
theorem matchCacheEntries_ok {cache : Path} {expected : List String} {entries : List DirEntry}
    {seen cacheIds : List (String × Path)} (hseen : (seen.map Prod.fst).Nodup)
    (h : entries.foldlM (matchCacheEntry cache expected) seen = .ok cacheIds) :
    (cacheIds.map Prod.fst).Nodup ∧ ∃ ids, List.Forall₂ (Attributed expected) entries ids ∧
      cacheIds = cacheTable cache ids entries ++ seen := by
  induction entries generalizing seen with
  | nil =>
    cases h
    exact ⟨hseen, [], .nil, rfl⟩
  | cons entry entries ih =>
    rw [List.foldlM_cons, except_bind_ok] at h
    obtain ⟨mid, hstep, hrest⟩ := h
    obtain ⟨id, hid, hfresh, rfl⟩ := matchCacheEntry_ok.mp hstep
    have hseen' : (((id, cache.join entry.name) :: seen).map Prod.fst).Nodup :=
      List.nodup_cons.mpr ⟨hfresh, hseen⟩
    obtain ⟨hnodup, ids, hids, rfl⟩ := ih hseen' hrest
    exact ⟨hnodup, id :: ids, .cons hid hids, by simp [cacheTable]⟩

/-! ### Attribution -/

theorem hyphen_notMem {suffix : String} (h : isCacheHash suffix = true) : '-' ∉ suffix.toList := by
  simp only [isCacheHash, Bool.and_eq_true] at h
  intro hmem
  exact absurd (all_iff.mp h.2 _ hmem) (by decide)

theorem rsplitOnce_cache {id hash : String} (h : isCacheHash hash = true) :
    rsplitOnce '-' (id ++ "-" ++ hash) = some (id, hash) := by
  have hhyphen : "-".toList = ['-'] := by decide
  exact rsplitOnce_eq_some.mpr ⟨by simp [hhyphen], hyphen_notMem h⟩

/-- The attributed id is the entry's own, or a shorter one that it extends. -/
theorem Attributed.cases {expected : List String} {entry : DirEntry} {id : String}
    (h : Attributed expected entry id) : ∃ head hash, isCacheHash hash = true ∧
      entry.name = head ++ "-" ++ hash ∧ (head = id ∨ ∃ more, head = id ++ "-" ++ more) := by
  obtain ⟨-, -, howner, head, hash, hsplit, hhash⟩ := h
  have hhyphen : "-".toList = ['-'] := by decide
  have hname : entry.name = head ++ "-" ++ hash := by
    rw [← String.toList_inj, (rsplitOnce_eq_some.mp hsplit).1]
    simp [hhyphen]
  refine ⟨head, hash, hhash, hname, ?_⟩
  obtain ⟨rest, hrest⟩ := startsWith_iff.mp (by simpa using List.find?_some howner)
  -- The id ends at or before the last hyphen, since the hash has none.
  have hlist : head.toList ++ '-' :: hash.toList = id.toList ++ '-' :: rest.toList := by
    have := congrArg String.toList (hname.symm.trans hrest)
    simpa [hhyphen] using this
  rcases List.append_eq_append_iff.mp hlist with ⟨d, hd, hhash'⟩ | ⟨d, hd, hrest'⟩
  · cases d with
    | nil =>
      rw [List.append_nil] at hd
      exact .inl (String.toList_inj.mp hd.symm)
    | cons c d =>
      simp only [List.cons_append, List.cons.injEq] at hhash'
      exact absurd (hhash'.2 ▸ by simp) (hyphen_notMem hhash)
  · cases d with
    | nil =>
      rw [List.append_nil] at hd
      exact .inl (String.toList_inj.mp hd)
    | cons c d =>
      simp only [List.cons_append, List.cons.injEq] at hrest'
      refine .inr ⟨String.ofList d, ?_⟩
      rw [← String.toList_inj, hd, ← hrest'.1]
      simp [hhyphen]

/-- Of two elements of which neither stands before the other there is only one. -/
theorem eq_of_first {α : Type} {as bs as' bs' : List α} {a b : α}
    (h : as ++ a :: bs = as' ++ b :: bs') (hb : b ∉ as) (ha : a ∉ as') : a = b := by
  rcases List.append_eq_append_iff.mp h with ⟨d, rfl, hd⟩ | ⟨d, rfl, hd⟩
  · cases d with
    | nil => exact (List.cons.inj hd).1
    | cons c d =>
      obtain ⟨rfl, -⟩ := List.cons.inj hd
      exact absurd (by simp) ha
  · cases d with
    | nil => exact (List.cons.inj hd).1.symm
    | cons c d =>
      obtain ⟨rfl, -⟩ := List.cons.inj hd
      exact absurd (by simp) hb

/-- An expected id is not attributed to a shorter one while it has an entry of its own. -/
theorem owner_eq {expected : List String} {entry entry' : DirEntry} {id head : String}
    (hname : ∃ rest, entry.name = head ++ "-" ++ rest) (hshorter : ∃ more, head = id ++ "-" ++ more)
    (howner : owner expected entry = some id) (howner' : owner expected entry' = some head) :
    id = head := by
  obtain ⟨hid, as, bs, heq, has⟩ := List.find?_eq_some_iff_append.mp howner
  obtain ⟨hhead, as', bs', heq', has'⟩ := List.find?_eq_some_iff_append.mp howner'
  refine eq_of_first (heq ▸ heq') ?_ ?_
  · intro hmem
    have hnot := has head hmem
    rw [Bool.not_eq_true', ← Bool.not_eq_true, startsWith_iff] at hnot
    exact hnot hname
  · intro hmem
    have hnot := has' id hmem
    rw [Bool.not_eq_true', ← Bool.not_eq_true, startsWith_iff] at hnot
    obtain ⟨rest, hrest⟩ := startsWith_iff.mp hhead
    obtain ⟨more, rfl⟩ := hshorter
    exact hnot ⟨more ++ "-" ++ rest, by rw [hrest]; simp [String.append_assoc]⟩

/-! ### The table is right exactly when no id is extended -/

section
variable {expected ids : List String} {entries : List DirEntry}

/-- Without extended ids, every entry is attributed to the repository it is named for. -/
theorem isCacheOf_of_attributed (hids : List.Forall₂ (Attributed expected) entries ids)
    (hall : ∀ id ∈ expected, id ∈ ids) (hextends : ∀ entry ∈ entries, ¬ Extends expected entry) :
    List.Forall₂ IsCacheOf ids entries := by
  refine (List.forall₂_iff_zip.mpr ⟨hids.length_eq.symm, fun {id entry} hzip => ?_⟩)
  have hattributed : Attributed expected entry id := (List.forall₂_iff_zip.mp hids.flip).2 hzip
  obtain ⟨head, hash, hhash, hname, hhead⟩ := hattributed.cases
  obtain ⟨hutf8, hkind, howner, -⟩ := hattributed
  rcases hhead with rfl | ⟨more, hmore⟩
  · exact ⟨hutf8, hkind, hash, hhash, hname⟩
  · have hexpected : head ∈ expected := by
      by_contra hnot
      refine hextends entry (List.of_mem_zip hzip).2 ⟨id, List.mem_of_find?_eq_some howner, more, hash,
        ?_, hmore ▸ hnot⟩
      rw [hname, rsplitOnce_cache hhash, hmore]
    obtain ⟨entry', -, howner'⟩ := Keyed.exists_of_mem_right hids head (hall head hexpected)
    obtain rfl := owner_eq ⟨hash, hname⟩ ⟨more, hmore⟩ howner howner'.2.2.1
    exact ⟨hutf8, hkind, hash, hhash, hname⟩

/-- Entries that correspond to the repositories extend none of their ids. -/
theorem not_extends_of_corresponds (h : Corresponds expected entries) :
    ∀ entry ∈ entries, ¬ Extends expected entry := by
  obtain ⟨matched, hperm, hmatched⟩ := h
  rintro entry hentry ⟨id, -, more, suffix, hsplit, hnot⟩
  obtain ⟨own, hown, -, -, hash, hhash, hname⟩ :=
    Keyed.exists_of_mem_right hmatched entry (hperm.mem_iff.mpr hentry)
  rw [hname, rsplitOnce_cache hhash] at hsplit
  obtain ⟨rfl, -⟩ := Prod.mk.inj (Option.some.inj hsplit)
  exact hnot (List.mem_dedup.mp hown)

theorem corresponds_iff (hids : List.Forall₂ (Attributed expected) entries ids) (hnodup : ids.Nodup)
    (hall : ∀ id ∈ expected, id ∈ ids) :
    Corresponds expected entries ↔ ∀ entry ∈ entries, ¬ Extends expected entry := by
  constructor
  · exact not_extends_of_corresponds
  · intro hextends
    have hsub : ∀ id, id ∈ ids ↔ id ∈ expected.dedup := by
      intro id
      rw [List.mem_dedup]
      refine ⟨fun hid => ?_, hall id⟩
      obtain ⟨entry, -, -, -, howner, -⟩ := Keyed.exists_of_mem_right hids id hid
      exact List.mem_of_find?_eq_some howner
    have hperm : ids.Perm expected.dedup :=
      (List.perm_ext_iff_of_nodup hnodup (List.nodup_dedup _)).mpr hsub
    obtain ⟨matched, hmatched, hp⟩ :=
      Gather.forall₂_perm hperm (isCacheOf_of_attributed hids hall hextends)
    exact ⟨matched, hp.symm, hmatched⟩

end

/-! ### What was copied and bound -/

/-- Where the metadata of a repository is frozen. -/
def snapshotOf (tree : Path) (id : String) : Path :=
  ((tree.join "replay-repos").join id).join "repodata"

/-- The metadata directory of a cache entry. -/
def repodataOf (planning : Path) (name : String) : Path :=
  ((planning.join "cache").join name).join "repodata"

/-- The files copied from a metadata directory into a snapshot, bound by the digest of the copy. -/
structure Copies (crates : Crates) (repodata snapshot : Path) (t : Trace)
    (files : List (Path × String × ℕ)) : Prop where
  listed : ∀ source target a, Saw t (.copyFile source target) a → ∃ name content,
    source = repodata.join name ∧ target = snapshot.join name ∧
      Saw t (.readFile target) (.ok content) ∧
      (target, crates.sha256 content, MAX_REPODATA_BYTES) ∈ files
  only : ∀ file ∈ files, ∃ source, Saw t (.copyFile source file.1) (.ok ())

section
variable {crates : Crates} {t : Trace}

theorem digestFileWithLimit_trace {path : Path} {limit : ℕ} {digest : String}
    (h : (digestFileWithLimit crates path limit).Runs t (.ok digest)) :
    ∃ content, t = [⟨.readFile path, .ok content⟩] ∧ crates.sha256 content = digest := by
  simp only [digestFileWithLimit, readFile, Prog.runs_expect_bind_ok, okOr_ok, exists_eq_left,
    Prog.runs_lift_bind_ok, refuse_ok, not_lt, Prog.runs_pure, Except.ok.injEq] at h
  obtain ⟨content, _, rfl, _, hlen, rfl, hhash⟩ := h
  exact ⟨content, rfl, by rwa [take_of_length_le hlen] at hhash⟩

theorem snapshotEntry_runs {repodata snapshot : Path} {entry : DirEntry} {file : Path × String × ℕ}
    (h : (snapshotEntry crates repodata snapshot entry).Runs t (.ok file)) : ∃ content,
      file = (snapshot.join entry.name, crates.sha256 content, MAX_REPODATA_BYTES) ∧
      t = [⟨.copyFile (repodata.join entry.name) (snapshot.join entry.name), .ok ()⟩,
        ⟨.setPrivate (snapshot.join entry.name), .ok ()⟩,
        ⟨.readFile (snapshot.join entry.name), .ok content⟩] := by
  simp only [snapshotEntry, copyFile, setPrivate, Prog.runs_lift_bind_ok, Prog.runs_expect_bind_ok,
    okOr_ok, exists_eq_left] at h
  obtain ⟨_, -, _, -, ⟨⟩, _, rfl, ⟨⟩, _, rfl, h⟩ := h
  obtain ⟨digest, t₁, t₂, rfl, hdigest, h⟩ := Prog.runs_bind_ok.mp h
  obtain ⟨rfl, heq⟩ := Prog.runs_pure.mp h
  obtain rfl := Except.ok.inj heq
  obtain ⟨content, rfl, rfl⟩ := digestFileWithLimit_trace hdigest
  exact ⟨content, rfl, by simp⟩

theorem Copies.append {repodata snapshot : Path} {t' : Trace} {files files' : List (Path × String × ℕ)}
    (h : Copies crates repodata snapshot t files) (h' : Copies crates repodata snapshot t' files') :
    Copies crates repodata snapshot (t ++ t') (files ++ files') where
  listed := by
    intro source target a hsaw
    rcases List.mem_append.mp hsaw with hsaw | hsaw
    · obtain ⟨name, content, hsource, htarget, hread, hfile⟩ := h.listed source target a hsaw
      exact ⟨name, content, hsource, htarget, hread.mono (List.subset_append_left _ _),
        List.mem_append_left _ hfile⟩
    · obtain ⟨name, content, hsource, htarget, hread, hfile⟩ := h'.listed source target a hsaw
      exact ⟨name, content, hsource, htarget, hread.mono (List.subset_append_right _ _),
        List.mem_append_right _ hfile⟩
  only := by
    intro file hfile
    rcases List.mem_append.mp hfile with hfile | hfile
    · obtain ⟨source, hsaw⟩ := h.only file hfile
      exact ⟨source, hsaw.mono (List.subset_append_left _ _)⟩
    · obtain ⟨source, hsaw⟩ := h'.only file hfile
      exact ⟨source, hsaw.mono (List.subset_append_right _ _)⟩

theorem Copies.nil {repodata snapshot : Path} : Copies crates repodata snapshot [] [] where
  listed source target a hsaw := absurd hsaw (by simp [Saw])
  only := by simp

/-- Events that copy nothing change nothing. -/
theorem Copies.prepend {repodata snapshot : Path} {t' : Trace} {files : List (Path × String × ℕ)}
    (h : Copies crates repodata snapshot t' files)
    (hnone : ∀ source target a, ¬ Saw t (.copyFile source target) a) :
    Copies crates repodata snapshot (t ++ t') files := by
  have hempty : Copies crates repodata snapshot t [] :=
    ⟨fun source target a hsaw => absurd hsaw (hnone source target a), by simp⟩
  simpa using hempty.append h

theorem Copies.cons {repodata snapshot : Path} {files : List (Path × String × ℕ)} {q : Question}
    {a : Answer q} (h : Copies crates repodata snapshot t files)
    (hq : ∀ source target, q ≠ .copyFile source target) :
    Copies crates repodata snapshot (⟨q, a⟩ :: t) files := by
  refine @Copies.prepend crates [⟨q, a⟩] _ _ t files h fun source target b hsaw => ?_
  obtain ⟨rfl, -⟩ := Event.mk.inj (List.mem_singleton.mp hsaw)
  exact hq source target rfl

theorem snapshotEntry_copies {repodata snapshot : Path} {entry : DirEntry} {file : Path × String × ℕ}
    (h : (snapshotEntry crates repodata snapshot entry).Runs t (.ok file)) :
    Copies crates repodata snapshot t [file] := by
  obtain ⟨content, rfl, rfl⟩ := snapshotEntry_runs h
  constructor
  · intro source target a hsaw
    simp only [Saw, List.mem_cons, List.not_mem_nil, or_false, Event.mk.injEq, reduceCtorEq,
      false_and, or_false, Question.copyFile.injEq] at hsaw
    obtain ⟨⟨rfl, rfl⟩, -⟩ := hsaw
    exact ⟨entry.name, content, rfl, rfl, by simp [Saw], by simp⟩
  · intro file hfile
    rw [List.mem_singleton.mp hfile]
    exact ⟨repodata.join entry.name, by simp [Saw]⟩

/-- One directory, file by file. -/
theorem snapshotEntries_copies {repodata snapshot : Path} {entries : List DirEntry}
    {files : List (Path × String × ℕ)}
    (h : (entries.foldlM (fun bound entry => do
      let file ← snapshotEntry crates repodata snapshot entry
      return bound ++ [file]) []).Runs t (.ok files)) : Copies crates repodata snapshot t files := by
  have hfold := Prog.runs_foldlM_ok
    (fun _ bound t => Copies crates repodata snapshot t bound)
    (fun seen entry rest bound t bound' t' _ hI hrun => by
      obtain ⟨file, t₁, t₂, rfl, hentry, hpure⟩ := Prog.runs_bind_ok.mp hrun
      obtain ⟨rfl, heq⟩ := Prog.runs_pure.mp hpure
      obtain rfl := Except.ok.inj heq
      rw [List.append_nil]
      exact hI.append (snapshotEntry_copies hentry))
    (List.nil_append entries).symm (t := []) Copies.nil h
  simpa using hfold

theorem checkProjectRepository_runs {repositoryId releaseRepomd id digest : String} {repodata : Path}
    (h : (checkProjectRepository repositoryId releaseRepomd id digest repodata).Runs t (.ok ())) :
    (id = repositoryId → digest = releaseRepomd) ∧
      ∀ source target a, ¬ Saw t (.copyFile source target) a := by
  rw [checkProjectRepository] at h
  split at h
  · simp only [lstat, Prog.runs_lift_bind_ok, Prog.runs_expect_bind_ok, okOr_ok, exists_eq_left,
      refuse_ok, not_not, Prog.runs_lift] at h
    obtain ⟨_, hdigest, metadata, _, rfl, rfl, -⟩ := h
    exact ⟨fun _ => hdigest, by simp [Saw]⟩
  · next hid =>
    obtain ⟨rfl, -⟩ := Prog.runs_pure.mp h
    exact ⟨fun heq => absurd heq hid, by simp [Saw]⟩

/-- The release's own metadata is what the release records. -/
def Recorded (crates : Crates) (t : Trace) (repodata : Path) (releaseRepomd : String) : Prop :=
  ∃ content, Saw t (.readFile (repodata.join "repomd.xml")) (.ok content) ∧
    crates.sha256 content = releaseRepomd

theorem Recorded.mono {t' : Trace} {repodata : Path} {releaseRepomd : String}
    (h : Recorded crates t repodata releaseRepomd) (hsub : t ⊆ t') :
    Recorded crates t' repodata releaseRepomd := by
  obtain ⟨content, hread, hsha⟩ := h
  exact ⟨content, hread.mono hsub, hsha⟩

/-- One repository. -/
theorem snapshotRepository_runs {tree : Path} {repositoryId releaseRepomd id : String}
    {cacheIds : List (String × Path)} {files : List (Path × String × ℕ)}
    (h : (snapshotRepository crates tree repositoryId releaseRepomd cacheIds id).Runs t (.ok files)) :
    ∃ directory, cacheIds.lookup id = some directory ∧
      Copies crates (directory.join "repodata") (snapshotOf tree id) t files ∧
      (id = repositoryId → Recorded crates t (directory.join "repodata") releaseRepomd) := by
  rw [snapshotRepository, Prog.runs_lift_bind_ok] at h
  obtain ⟨directory, hlookup, h⟩ := h
  simp only [lstat, Prog.runs_expect_bind_ok, Prog.runs_lift_bind_ok, okOr_ok, exists_eq_left] at h
  obtain ⟨metadata, _, rfl, _, -, h⟩ := h
  obtain ⟨digest, t₁, t₂, rfl, hdigest, h⟩ := Prog.runs_bind_ok.mp h
  obtain ⟨content, rfl, rfl⟩ := digestFileWithLimit_trace hdigest
  obtain ⟨⟨⟩, t₃, t₄, rfl, hcheck, h⟩ := Prog.runs_bind_ok.mp h
  obtain ⟨hrecorded, hnone⟩ := checkProjectRepository_runs hcheck
  simp only [createDirAll, readDir, Prog.runs_expect_bind_ok, okOr_ok, exists_eq_left] at h
  obtain ⟨⟨⟩, _, rfl, entries, t₅, rfl, hcopies⟩ := h
  refine ⟨directory, need_ok.mp hlookup, ?_, fun hid => ⟨content, by simp [Saw], hrecorded hid⟩⟩
  have hlast : Copies crates (directory.join "repodata") (snapshotOf tree id) t₅ files :=
    snapshotEntries_copies hcopies
  have hlisted := (hlast.cons (q := .readDir (directory.join "repodata")) (a := .ok entries) (by simp)).cons
    (q := .createDirAll (snapshotOf tree id)) (a := .ok ()) (by simp)
  exact ((hlisted.prepend hnone).cons (by simp)).cons (by simp)

/-- What a run over the expected repositories has copied. -/
structure Snapshot (crates : Crates) (tree : Path) (repositoryId releaseRepomd : String)
    (cacheIds : List (String × Path)) (ids : List String) (t : Trace)
    (bound : List (Path × String × ℕ)) : Prop where
  found : ∀ id ∈ ids, ∃ directory, cacheIds.lookup id = some directory ∧
    (id = repositoryId → Recorded crates t (directory.join "repodata") releaseRepomd)
  listed : ∀ source target a, Saw t (.copyFile source target) a → ∃ id ∈ ids, ∃ directory name content,
    cacheIds.lookup id = some directory ∧ source = (directory.join "repodata").join name ∧
      target = (snapshotOf tree id).join name ∧ Saw t (.readFile target) (.ok content) ∧
      (target, crates.sha256 content, MAX_REPODATA_BYTES) ∈ bound
  only : ∀ file ∈ bound, ∃ source, Saw t (.copyFile source file.1) (.ok ())

theorem snapshots_runs {tree : Path} {repositoryId releaseRepomd : String}
    {cacheIds : List (String × Path)} {ids : List String} {bound : List (Path × String × ℕ)}
    (h : (ids.foldlM (fun bound id => do
      let files ← snapshotRepository crates tree repositoryId releaseRepomd cacheIds id
      return bound ++ files) []).Runs t (.ok bound)) :
    Snapshot crates tree repositoryId releaseRepomd cacheIds ids t bound := by
  have hfold := Prog.runs_foldlM_ok
    (fun seen bound t => Snapshot crates tree repositoryId releaseRepomd cacheIds seen t bound)
    (fun seen id rest bound t bound' t' _ hI hrun => by
      obtain ⟨files, t₁, t₂, rfl, hrepository, hpure⟩ := Prog.runs_bind_ok.mp hrun
      obtain ⟨rfl, heq⟩ := Prog.runs_pure.mp hpure
      obtain rfl := Except.ok.inj heq
      rw [List.append_nil]
      obtain ⟨directory, hlookup, hcopies, hrecorded⟩ := snapshotRepository_runs hrepository
      have hl : t ⊆ t ++ t₁ := List.subset_append_left _ _
      have hr : t₁ ⊆ t ++ t₁ := List.subset_append_right _ _
      refine ⟨fun id' hid => ?_, fun source target a hsaw => ?_, fun file hfile => ?_⟩
      · rcases List.mem_append.mp hid with hid | hid
        · obtain ⟨directory', hlookup', hrecorded'⟩ := hI.found id' hid
          exact ⟨directory', hlookup', fun heq => (hrecorded' heq).mono hl⟩
        · obtain rfl := List.mem_singleton.mp hid
          exact ⟨directory, hlookup, fun heq => (hrecorded heq).mono hr⟩
      · rcases List.mem_append.mp hsaw with hsaw | hsaw
        · obtain ⟨id', hid, directory', name, content, hlookup', hs, ht, hread, hmem⟩ :=
            hI.listed source target a hsaw
          exact ⟨id', List.mem_append_left _ hid, directory', name, content, hlookup', hs, ht,
            hread.mono hl, List.mem_append_left _ hmem⟩
        · obtain ⟨name, content, hs, ht, hread, hmem⟩ := hcopies.listed source target a hsaw
          exact ⟨id, by simp, directory, name, content, hlookup, hs, ht, hread.mono hr,
            List.mem_append_right _ hmem⟩
      · rcases List.mem_append.mp hfile with hfile | hfile
        · obtain ⟨source, hsaw⟩ := hI.only file hfile
          exact ⟨source, hsaw.mono hl⟩
        · obtain ⟨source, hsaw⟩ := hcopies.only file hfile
          exact ⟨source, hsaw.mono hr⟩)
    (List.nil_append ids).symm (t := []) ⟨by simp, by simp [Saw], by simp⟩ h
  simpa using hfold

/-- Copies that hold what they were copied from. -/
def Faithful (t : Trace) : Prop :=
  ∀ source target content content', Saw t (.copyFile source target) (.ok ()) →
    Saw t (.readFile source) (.ok content) → Saw t (.readFile target) (.ok content') →
    content' = content

/-- The cache was inspected first, and listed these entries. -/
def Listing (planning : Path) (entries : List DirEntry) (t : Trace) : Prop :=
  ∃ metadata rest, t = ⟨.symlinkMetadata (planning.join "cache"), .ok metadata⟩ ::
    ⟨.readDir (planning.join "cache"), .ok entries⟩ :: rest

/-- The frozen metadata is exactly that of the configured repositories. -/
structure FrozenMetadata (crates : Crates) (planning tree : Path) (expected : List String)
    (repositoryId releaseRepomd : String) (entries : List DirEntry) (t : Trace)
    (bound : List (Path × String × ℕ)) : Prop where
  corresponds : Corresponds expected entries
  /-- A repository's snapshot is copied from the directory named for it. -/
  own : ∀ source target a, Saw t (.copyFile source target) a → ∃ id ∈ expected, ∃ hash name : String,
    isCacheHash hash = true ∧ source = (repodataOf planning (id ++ "-" ++ hash)).join name ∧
      target = (snapshotOf tree id).join name
  /-- The bindings list every copied file with its digest, and nothing else. -/
  listed : ∀ source target a, Saw t (.copyFile source target) a → ∃ content,
    Saw t (.readFile target) (.ok content) ∧
      (target, crates.sha256 content, MAX_REPODATA_BYTES) ∈ bound
  only : ∀ file ∈ bound, ∃ source, Saw t (.copyFile source file.1) (.ok ())
  /-- The release's own metadata has the recorded digest, and so has its copy. -/
  release : repositoryId ∈ expected → ∃ hash, isCacheHash hash = true ∧
    Recorded crates t (repodataOf planning (repositoryId ++ "-" ++ hash)) releaseRepomd ∧
    ∀ target, Faithful t →
      Saw t (.copyFile ((repodataOf planning (repositoryId ++ "-" ++ hash)).join "repomd.xml") target)
        (.ok ()) → (target, releaseRepomd, MAX_REPODATA_BYTES) ∈ bound

/-- The directory a table without extended ids gives for an expected repository. -/
theorem lookup_own {planning : Path} {ids : List String} {entries : List DirEntry}
    (hmatch : List.Forall₂ IsCacheOf ids entries) {id : String} {directory : Path}
    (h : (cacheTable (planning.join "cache") ids entries ++ []).lookup id = some directory) :
    ∃ hash, isCacheHash hash = true ∧
      directory = (planning.join "cache").join (id ++ "-" ++ hash) := by
  have hmem := Keyed.mem_of_lookup h
  rw [List.append_nil, cacheTable, List.mem_map] at hmem
  obtain ⟨⟨own, entry⟩, hzip, heq⟩ := hmem
  obtain ⟨rfl, rfl⟩ := Prod.mk.inj heq
  obtain ⟨-, -, hash, hhash, hname⟩ := (List.forall₂_iff_zip.mp hmatch).2 (List.mem_reverse.mp hzip)
  exact ⟨hash, hhash, by rw [hname]⟩

/-- On success the frozen metadata is exactly that of the configured repositories if and only if no
    listed entry's id merely begins with an expected one and a hyphen. -/
theorem frozen_iff {planning tree : Path} {expected : List String} {repositoryId releaseRepomd : String}
    {entries : List DirEntry} {bound : List (Path × String × ℕ)} (hlisting : Listing planning entries t)
    (h : (bindCacheAndSnapshot crates planning expected repositoryId releaseRepomd tree).Runs t
      (.ok bound)) :
    FrozenMetadata crates planning tree expected repositoryId releaseRepomd entries t bound ↔
      ∀ entry ∈ entries, ¬ Extends expected entry := by
  obtain ⟨metadata, rest, rfl⟩ := hlisting
  simp only [bindCacheAndSnapshot, lstat, readDir, Prog.runs_expect_bind_ok, Prog.runs_lift_bind_ok,
    okOr_ok, exists_eq_left] at h
  obtain ⟨_, _, heq, _, -, _, _, rfl, cacheIds, hcache, h⟩ := h
  simp only [List.cons.injEq, Event.mk.injEq, heq_eq_eq, Except.ok.injEq, true_and] at heq
  obtain ⟨rfl, rfl, rfl⟩ := heq
  obtain ⟨hnodup, ids, hids, rfl⟩ := @matchCacheEntries_ok _ _ _ [] _ List.nodup_nil hcache
  have hsnapshot := snapshots_runs h
  have hkeys : (cacheTable (planning.join "cache") ids entries ++ []).map Prod.fst = ids.reverse := by
    have hfst : (ids.zip entries).map Prod.fst = ids := List.map_fst_zip (by rw [hids.length_eq])
    rw [List.append_nil, cacheTable, List.map_map, List.map_reverse]
    exact congrArg List.reverse hfst
  have hall : ∀ id ∈ expected, id ∈ ids := by
    intro id hid
    obtain ⟨directory, hlookup, -⟩ := hsnapshot.found id hid
    have hmem := List.mem_map_of_mem (f := Prod.fst) (Keyed.mem_of_lookup hlookup)
    rwa [hkeys, List.mem_reverse] at hmem
  have hcorresponds := corresponds_iff hids (by rwa [hkeys, List.nodup_reverse] at hnodup) hall
  refine ⟨fun hfrozen => hcorresponds.mp hfrozen.corresponds, fun hextends => ?_⟩
  have hmatch := isCacheOf_of_attributed hids hall hextends
  have hrest : ∀ {source target : Path} {a : Except IoError Unit},
      Saw (⟨.symlinkMetadata (planning.join "cache"), .ok metadata⟩ ::
        ⟨.readDir (planning.join "cache"), .ok entries⟩ :: rest) (.copyFile source target) a →
      Saw rest (.copyFile source target) a := by
    intro source target a hsaw
    simpa [Saw] using hsaw
  have hsub : rest ⊆ ⟨.symlinkMetadata (planning.join "cache"), .ok metadata⟩ ::
      ⟨.readDir (planning.join "cache"), .ok entries⟩ :: rest :=
    fun e he => List.mem_cons_of_mem _ (List.mem_cons_of_mem _ he)
  have hlisted : ∀ source target a, Saw rest (.copyFile source target) a → ∃ content,
      Saw rest (.readFile target) (.ok content) ∧
        (target, crates.sha256 content, MAX_REPODATA_BYTES) ∈ bound := by
    intro source target a hsaw
    obtain ⟨_, _, _, _, content, -, -, -, hread, hmem⟩ := hsnapshot.listed source target a hsaw
    exact ⟨content, hread, hmem⟩
  refine ⟨hcorresponds.mpr hextends, ?_, ?_, ?_, ?_⟩
  · intro source target a hsaw
    obtain ⟨id, hid, directory, name, -, hlookup, hsource, htarget, -⟩ :=
      hsnapshot.listed source target a (hrest hsaw)
    obtain ⟨hash, hhash, rfl⟩ := lookup_own hmatch hlookup
    exact ⟨id, hid, hash, name, hhash, hsource, htarget⟩
  · intro source target a hsaw
    obtain ⟨content, hread, hmem⟩ := hlisted source target a (hrest hsaw)
    exact ⟨content, hread.mono hsub, hmem⟩
  · intro file hfile
    obtain ⟨source, hsaw⟩ := hsnapshot.only file hfile
    exact ⟨source, hsaw.mono hsub⟩
  · intro hrelease
    obtain ⟨directory, hlookup, hrecorded⟩ := hsnapshot.found repositoryId hrelease
    obtain ⟨hash, hhash, rfl⟩ := lookup_own hmatch hlookup
    have hrecorded := hrecorded rfl
    refine ⟨hash, hhash, hrecorded.mono hsub, fun target hfaithful hsaw => ?_⟩
    obtain ⟨content', hread', hmem⟩ := hlisted _ _ _ (hrest hsaw)
    obtain ⟨content, hread, rfl⟩ := hrecorded
    rwa [hfaithful _ _ _ _ hsaw (hread.mono hsub) (hread'.mono hsub)] at hmem

end

/-! ### A testing repository beside the configured ones -/

namespace Minimal

def repomd : Bytes := utf8 "<repomd/>\n"

def repomdSha256 : String := "92b1fc7b34b24722c692f6abacf2a0dfc7b7f1bda4ac31f36351f324e30c5064"

/-- SHA-256 as far as the snapshot needs it. -/
def snapshotCrates : Crates :=
  { crates with sha256 := fun bytes => if bytes = repomd then repomdSha256 else crates.sha256 bytes }

def planningRoot : Path := ⟨["tmp", "planning"]⟩

def prepareTree : Path := ⟨["tmp", "tree"]⟩

def configured : List String := ["npu", "fedora", "updates"]

/-- A cache directory. -/
def cached (id : String) : DirEntry := ⟨id ++ "-" ++ "0123456789abcdef", true, .directory, 0⟩

/-- A file system whose planner cache holds these directories, each with one signed file. -/
def cacheAnswers (entries : List DirEntry) : ∀ q : Question, Answer q
  | .symlinkMetadata path => .ok ⟨if path.fileName = some "cache" then .directory else .file, 10⟩
  | .readDir path => .ok (if path.fileName = some "cache" then entries
      else [⟨"repomd.xml", true, .file, 10⟩, ⟨"repomd.xml.asc", true, .file, 10⟩])
  | .readFile _ => .ok repomd
  | .run _ => .error .spawn
  | .plan _ => .error cacheError
  | .detectPlatform => none
  | .readLink _ | .canonicalize _ | .tempDir _ | .execute _ | .readResponse => .error .other
  | .createDir _ | .createDirAll _ | .writeFile _ _ | .setPrivate _ | .copyFile _ _ | .writeOut _
  | .flushOut | .writeErr _ => .ok ()

/-- Freezing the configured repositories from such a cache. -/
def freeze (entries : List DirEntry) :
    List (Event Answer) × Except InstallError (List (Path × String × ℕ)) :=
  (bindCacheAndSnapshot snapshotCrates planningRoot configured "npu" repomdSha256 prepareTree).run
    (fun _ => cacheAnswers entries) []

/-- The files of every configured repository. -/
def frozenFiles : List (Path × String × ℕ) :=
  configured.flatMap fun id => ["repomd.xml", "repomd.xml.asc"].map fun name =>
    ((snapshotOf prepareTree id).join name, repomdSha256, MAX_REPODATA_BYTES)

/-- The cache of a planner that was given one more repository than configured. -/
def testing : List DirEntry := [cached "npu", cached "fedora", cached "updates-testing"]

theorem freeze_runs {entries : List DirEntry} {files : List (Path × String × ℕ)}
    (h : (freeze entries).2 = .ok files) :
    (bindCacheAndSnapshot snapshotCrates planningRoot configured "npu" repomdSha256 prepareTree).Runs
      (freeze entries).1 (.ok files) :=
  h ▸ Prog.runs_run (fun _ => cacheAnswers entries) _ []

theorem freeze_configured : (freeze (configured.map cached)).2 = .ok frozenFiles := by rfl

theorem freeze_testing : (freeze testing).2 = .ok frozenFiles := by rfl

theorem isCacheOf_cached (id : String) : IsCacheOf id (cached id) :=
  ⟨rfl, rfl, "0123456789abcdef", by decide, rfl⟩

theorem corresponds_configured : Corresponds configured (configured.map cached) := by
  have hdistinct : configured.dedup = configured := by decide
  refine ⟨_, .refl _, ?_⟩
  rw [hdistinct, List.forall₂_map_right_iff, List.forall₂_same]
  exact fun id _ => isCacheOf_cached id

end Minimal

/-- The configured repositories are frozen from a cache that holds exactly them. -/
theorem frozen_iff_configured :
    ∃ t, Listing Minimal.planningRoot (Minimal.configured.map Minimal.cached) t ∧
      FrozenMetadata Minimal.snapshotCrates Minimal.planningRoot Minimal.prepareTree Minimal.configured "npu"
        Minimal.repomdSha256 (Minimal.configured.map Minimal.cached) t Minimal.frozenFiles := by
  have hlisting : Listing Minimal.planningRoot (Minimal.configured.map Minimal.cached)
      (Minimal.freeze (Minimal.configured.map Minimal.cached)).1 := ⟨_, _, rfl⟩
  exact ⟨_, hlisting, (frozen_iff hlisting (Minimal.freeze_runs Minimal.freeze_configured)).mpr
    (not_extends_of_corresponds Minimal.corresponds_configured)⟩

/-- Metadata of a testing repository is frozen as that of the updates. -/
theorem testing_frozen : ∃ t,
    (bindCacheAndSnapshot Minimal.snapshotCrates Minimal.planningRoot Minimal.configured "npu"
      Minimal.repomdSha256 Minimal.prepareTree).Runs t (.ok Minimal.frozenFiles) ∧
    Listing Minimal.planningRoot Minimal.testing t ∧
    ¬ Corresponds Minimal.configured Minimal.testing := by
  refine ⟨_, Minimal.freeze_runs Minimal.freeze_testing, ⟨_, _, rfl⟩, fun hcorresponds => ?_⟩
  have hsplit : rsplitOnce '-' (Minimal.cached "updates-testing").name =
      some ("updates" ++ "-" ++ "testing", "0123456789abcdef") :=
    @rsplitOnce_cache "updates-testing" "0123456789abcdef" (by decide)
  exact not_extends_of_corresponds hcorresponds (Minimal.cached "updates-testing") (by simp [Minimal.testing])
    ⟨"updates", by decide, "testing", "0123456789abcdef", hsplit, by decide⟩

end NpuStack.Install
