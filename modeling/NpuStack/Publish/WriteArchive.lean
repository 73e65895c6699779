import NpuStack.Ci.TarFile
import NpuStack.Publish.Converged

/-! The canonical archive of a site, from `release_site.py`, and its way back through
`open_archive`.

        site ──write_archive──▶ bytes ──open_archive──▶ members ──unpack_release──▶ site
               sorted, normalized        scan, tarfile            SHA256SUMS

    The parameters of `Tools` for archives are taken as what they are here (`Archives`). A written
    archive unpacks to its site, in order, and has the canonical digest of what it unpacks to; one
    signed SHA256SUMS belongs to one archive. -/

namespace NpuStack.Publish
open Interaction Text
open NpuStack.Packaging (releaseVersion isName)

/-! ### Writing -/

def EPOCH : ℕ := 1789084800

def BINARY : String := "intel-npu-stack-install"

def EXECUTABLES : List String := [BINARY, "install.sh"]

/-- `site_files`: the regular files, in the order of their paths. -/
def siteFiles (site : Site) : Except String Site := do
  require (∀ file ∈ site, plainPath file.1 = true) "unsafe site path"
  return sortKeys site

/-- The normalized header of a file. -/
def tarInfo (version : String) (file : String × Bytes) : Ci.Tar.TarInfo where
  name := utf8 (version ++ "/" ++ file.1)
  mode := if file.1 ∈ EXECUTABLES then 0o755 else 0o644
  uid := 0
  gid := 0
  size := file.2.length
  mtime := EPOCH
  type := Ci.Tar.REGTYPE
  linkname := []
  uname := []
  gname := []

/-- `write_archive` of the site in a directory of this name. -/
def writeArchive (version : String) (site : Site) : Except String Bytes := do
  let files ← siteFiles site
  need (Ci.Tar.writeTar (files.map fun file => (tarInfo version file, file.2)))
    "overflow in number field"

/-- `canonical_sha`. -/
def canonicalSha (sha256 : Bytes → String) (version : String) (site : Site) : Option String :=
  (writeArchive version site).toOption.map sha256

/-- `render_sha256sums`. -/
def renderSha256sums (sha256 : Bytes → String) (site : Site) : Except String Bytes := do
  let files ← siteFiles site
  return utf8 (renderSums ((files.filter fun file => file.1 ∉ SUMS_FILES).map fun file =>
    (file.1, sha256 file.2)))

/-! ### Reading -/

/-- `open_archive` and `getmembers`. A name that is no text is left out together with its archive:
    it is none of the names a caller asks for. -/
def openArchive (archive : Bytes) : Option (List Member) :=
  match (Ci.Tar.scan Ci.Tar.frombuf archive MAX_MEMBERS Ci.Tar.RELEASE_TYPES none).result with
  | .error _ => none
  | .ok _ => do
    let members ← (Ci.Tar.readMembers true none archive).toOption
    members.mapM fun member =>
      (fromUtf8 member.name).map fun name =>
        ⟨name, Ci.Tar.REGULAR_TYPES.contains member.type, member.content⟩

/-- The archive tools are the ones above, for the archives of this version. -/
structure Archives (tools : Tools) (version : String) : Prop where
  members : tools.members = openArchive
  canonical : ∀ site, tools.canonicalSha site = canonicalSha tools.sha256 version site

/-! ### Sorted sites -/

theorem sorted_sortKeys {α : Type} (items : List (String × α)) :
    (sortKeys items).Pairwise fun a b => a.1 ≤ b.1 := by
  refine (List.pairwise_mergeSort ?_ ?_ _).imp fun h => of_decide_eq_true h
  · intro a b c hab hbc
    simpa using (of_decide_eq_true hab).trans (of_decide_eq_true hbc)
  · intro a b
    simpa using le_total a.1 b.1

theorem eq_of_sorted {α : Type} {items items' : List (String × α)} (hperm : items.Perm items')
    (hnodup : (items.map Prod.fst).Nodup) (hsorted : items.Pairwise fun a b => a.1 ≤ b.1)
    (hsorted' : items'.Pairwise fun a b => a.1 ≤ b.1) : items = items' := by
  refine hperm.eq_of_pairwise (fun a b ha hb hab hba => ?_) hsorted hsorted'
  exact List.inj_on_of_nodup_map hnodup ha (hperm.mem_iff.mpr hb) (le_antisymm hab hba)

theorem sortKeys_eq {α : Type} {items items' : List (String × α)} (hperm : items.Perm items')
    (hnodup : (items.map Prod.fst).Nodup) : sortKeys items = sortKeys items' :=
  eq_of_sorted ((perm_sortKeys items).trans (hperm.trans (perm_sortKeys items').symm))
    (((perm_sortKeys items).map Prod.fst).nodup_iff.mpr hnodup) (sorted_sortKeys items)
      (sorted_sortKeys items')

theorem filter_sortKeys {α : Type} {items : List (String × α)} (hnodup : (items.map Prod.fst).Nodup)
    (keep : String × α → Bool) : (sortKeys items).filter keep = sortKeys (items.filter keep) :=
  eq_of_sorted (((perm_sortKeys items).filter keep).trans (perm_sortKeys _).symm)
    ((((perm_sortKeys items).map Prod.fst).nodup_iff.mpr hnodup).sublist
      (List.filter_sublist.map _))
    ((sorted_sortKeys items).sublist List.filter_sublist) (sorted_sortKeys _)

theorem siteFiles_ok {site files : Site} :
    siteFiles site = .ok files ↔ (∀ file ∈ site, plainPath file.1 = true) ∧
      sortKeys site = files := by
  simp only [siteFiles, except_bind_ok, require_ok]
  constructor
  · rintro ⟨_, hplain, hpure⟩
    exact ⟨hplain, Except.ok.inj hpure⟩
  · rintro ⟨hplain, rfl⟩
    exact ⟨(), hplain, rfl⟩

/-- The archive of a site does not depend on the order its files were found in. -/
theorem writeArchive_perm {version : String} {site site' : Site} (hperm : site.Perm site')
    (hnodup : (site.map Prod.fst).Nodup) :
    writeArchive version site = writeArchive version site' := by
  have hfiles : siteFiles site = siteFiles site' := by
    rw [siteFiles, siteFiles, sortKeys_eq hperm hnodup]
    simp only [hperm.mem_iff]
  rw [writeArchive, writeArchive, hfiles]

/-! ### Opening what was written -/

theorem version_graphic {version : String} (h : releaseVersion version = true) :
    ∀ c ∈ version.toList, isGraphic c = true := by
  rw [releaseVersion, Bool.and_eq_true, List.all_eq_true] at h
  have hall : all isGraphic (join '.' (split '.' version)) = true := by
    refine all_join (by decide) fun part hpart => all_iff.mpr fun c hc => ?_
    have hcanonical := h.2 part hpart
    simp only [Bool.and_eq_true, Packaging.isCanonical, Bool.or_eq_true, decide_eq_true_eq]
      at hcanonical
    have hdigit : c.isDigit = true := by
      rcases hcanonical.1 with rfl | ⟨-, hdigits⟩
      · obtain rfl := List.mem_singleton.mp hc
        rfl
      · exact all_iff.mp hdigits c hc
    exact isGraphic_of_isAlphanum (by simp [Char.isAlphanum, hdigit])
  rw [join_split] at hall
  exact all_iff.mp hall

/-- The names of a site's files in its archive. -/
def memberNames (version : String) (site : Site) : List Bytes :=
  site.map fun file => utf8 (version ++ "/" ++ file.1)

theorem regular_tarInfo {version : String} {file : String × Bytes}
    (hversion : releaseVersion version = true)
    (hplain : plainPath file.1 = true) : Ci.Tar.Regular (tarInfo version file) file.2 := by
  refine ⟨rfl, rfl, rfl, ?_⟩
  have hgraphic : ∀ c ∈ (version ++ "/" ++ file.1).toList, isGraphic c = true := by
    intro c hc
    rw [String.toList_append, String.toList_append, List.mem_append, List.mem_append] at hc
    rcases hc with (hc | hc) | hc
    · exact version_graphic hversion c hc
    · obtain rfl := List.mem_singleton.mp hc
      rfl
    · exact plainPath_graphic hplain c hc
  have hcode : ∀ c ∈ (version ++ "/" ++ file.1).toList, 33 ≤ c.toNat ∧ c.toNat ≤ 126 := by
    intro c hc
    simpa [isGraphic] using hgraphic c hc
  refine notMem_utf8 (fun c hc => (hcode c hc).2.trans_lt (by decide)) fun c hc hzero => ?_
  have hlow := (hcode c hc).1
  rw [hzero] at hlow
  exact absurd hlow (by decide)

/-- Opening the archive of a site gives its files in order, if their names fit the bounds of the
    scan. -/
theorem openArchive_writeArchive {version : String} {site : Site} {archive : Bytes}
    (hversion : releaseVersion version = true) (h : writeArchive version site = .ok archive) :
    (Ci.Tar.Fits MAX_MEMBERS (memberNames version site) → openArchive archive =
      some ((sortKeys site).map fun file => ⟨version ++ "/" ++ file.1, true, file.2⟩)) ∧
    (¬ Ci.Tar.Fits MAX_MEMBERS (memberNames version site) → openArchive archive = none) := by
  simp only [writeArchive, except_bind_ok, need_ok] at h
  obtain ⟨files, hfiles, hwritten⟩ := h
  obtain ⟨hplain, rfl⟩ := siteFiles_ok.mp hfiles
  have hregular : ∀ member ∈ (sortKeys site).map fun file => (tarInfo version file, file.2),
      Ci.Tar.Regular member.1 member.2 := by
    refine List.forall_mem_map.mpr fun file hfile => ?_
    exact regular_tarInfo hversion (hplain file ((perm_sortKeys site).mem_iff.mp hfile))
  have hscan := @Ci.Tar.scan_writeTar MAX_MEMBERS _ _ hwritten hregular
  have hnames : (((sortKeys site).map fun file => (tarInfo version file, file.2)).map fun member =>
    member.1.name).Perm
      (memberNames version site) := by
    rw [List.map_map]
    exact (perm_sortKeys site).map _
  rw [Ci.Tar.Fits.perm hnames] at hscan
  have hread := Ci.Tar.readMembers_writeTar hwritten hregular
  constructor
  · intro hfit
    obtain ⟨n, hn⟩ := hscan.mpr hfit
    rw [openArchive, hn]
    dsimp only
    rw [hread, Except.toOption, Option.bind_eq_bind, Option.bind_some, List.map_map,
      Gather.mapM_some, List.forall₂_map_left_iff, List.forall₂_map_right_iff, List.forall₂_same]
    rintro file -
    exact congrArg (Option.map _) (fromUtf8_utf8 (version ++ "/" ++ file.1))
  · intro hnot
    rw [openArchive]
    cases hresult : (Ci.Tar.scan Ci.Tar.frombuf archive MAX_MEMBERS Ci.Tar.RELEASE_TYPES
      none).result with
    | error refusal => rfl
    | ok n => exact absurd (hscan.mp ⟨n, hresult⟩) hnot

/-- Short names and files that the header can count are written. -/
theorem exists_writeArchive {version : String} {site : Site}
    (hversion : releaseVersion version = true) (hplain : ∀ file ∈ site, plainPath file.1 = true)
    (hshort : ∀ name ∈ memberNames version site, name.length ≤ Ci.Tar.LENGTH_NAME)
    (hsmall : ∀ file ∈ site, file.2.length < 8 ^ 11) :
    ∃ archive, writeArchive version site = .ok archive := by
  have hfit : Ci.Tar.LENGTH_NAME + 1 < 8 ^ 11 := by decide
  have hmem : ∀ file ∈ sortKeys site, file ∈ site := fun file hfile =>
    (perm_sortKeys site).mem_iff.mp hfile
  obtain ⟨archive, hwritten⟩ := @Ci.Tar.exists_writeTar ((sortKeys site).map fun file =>
    (tarInfo version file, file.2)) (List.forall_mem_map.mpr fun file hfile =>
    regular_tarInfo hversion (hplain file (hmem file hfile)))
    (List.forall_mem_map.mpr fun file _ => ⟨Nat.pow_pos (by decide), Nat.pow_pos (by decide),
      show EPOCH < 8 ^ 11 by decide⟩)
    (List.forall_mem_map.mpr fun file hfile => ⟨hsmall file (hmem file hfile),
      (Nat.succ_le_succ (hshort _ (List.mem_map_of_mem (hmem file hfile)))).trans_lt hfit⟩)
  rw [writeArchive, siteFiles_ok.mpr ⟨hplain, rfl⟩, except_ok_bind, hwritten]
  exact ⟨archive, rfl⟩

/-! ### The way back -/

/-- A signed site: files of a directory tree, of which SHA256SUMS is its rendering and
    SHA256SUMS.asc its signature. -/
structure Signed (tools : Tools) (site : Site) (sums signature : Bytes) : Prop where
  plain : ∀ file ∈ site, plainPath file.1 = true
  unique : (site.map Prod.fst).Nodup
  free : conflicting (site.map Prod.fst) = false
  rendered : renderSha256sums tools.sha256 site = .ok sums
  sums : site.lookup "SHA256SUMS" = some sums
  signature : site.lookup "SHA256SUMS.asc" = some signature

section
variable {tools : Tools} {version : String} {site : Site} {sums signature archive : Bytes}

/-- The listed files of a signed site. -/
def listedFiles (sha256 : Bytes → String) (site : Site) : List (String × String) :=
  ((sortKeys site).filter fun file => file.1 ∉ SUMS_FILES).map fun file => (file.1, sha256 file.2)

theorem listedFiles_fst (sha256 : Bytes → String) (site : Site) :
    (listedFiles sha256 site).map Prod.fst = ((sortKeys site).filter fun file =>
      file.1 ∉ SUMS_FILES).map Prod.fst := by
  rw [listedFiles, List.map_map]
  rfl

theorem renderSha256sums_ok {sha256 : Bytes → String}
    (h : renderSha256sums sha256 site = .ok sums) : (∀ file ∈ site, plainPath file.1 = true) ∧
    sums = utf8 (renderSums (listedFiles sha256 site)) := by
  simp only [renderSha256sums, except_bind_ok] at h
  obtain ⟨files, hfiles, hpure⟩ := h
  obtain ⟨hplain, rfl⟩ := siteFiles_ok.mp hfiles
  exact ⟨hplain, (Except.ok.inj hpure).symm⟩

/-- The files of a signed site are the ones its SHA256SUMS lists, with their digests. -/
theorem Signed.exact (h : Signed tools site sums signature)
    (hdigest : ∀ content, isDigest (tools.sha256 content) = true) :
    ExactSite tools sums signature (listedFiles tools.sha256 site) (sortKeys site) := by
  obtain ⟨hplain, hsums⟩ := renderSha256sums_ok h.rendered
  have hperm := perm_sortKeys site
  have hunique : ((sortKeys site).map Prod.fst).Nodup := (hperm.map Prod.fst).nodup_iff.mpr h.unique
  have hlookup := fun path => lookup_perm hperm h.unique path
  have hkeys := listedFiles_fst tools.sha256 site
  constructor
  · rw [hsums]
    refine parseSums_render (fun entry hentry => ?_)
      (hkeys ▸ hunique.sublist (List.filter_sublist.map _))
    obtain ⟨file, hfile, rfl⟩ := List.mem_map.mp hentry
    exact ⟨hplain file (hperm.mem_iff.mp (List.mem_filter.mp hfile).1), hdigest _⟩
  · intro path
    rw [hkeys]
    constructor
    · rintro hpath
      obtain ⟨file, hfile, rfl⟩ := List.mem_map.mp hpath
      by_cases hout : file.1 ∈ SUMS_FILES
      · exact .inr hout
      · exact .inl (List.mem_map_of_mem (List.mem_filter.mpr ⟨hfile, by simpa using hout⟩))
    · rintro (hlisted | hsumsfile)
      · obtain ⟨file, hfile, rfl⟩ := List.mem_map.mp hlisted
        exact List.mem_map_of_mem (List.mem_filter.mp hfile).1
      · refine (hperm.map Prod.fst).mem_iff.mpr ?_
        rcases List.mem_cons.mp hsumsfile with rfl | hsumsfile
        · exact List.mem_map_of_mem (Keyed.mem_of_lookup h.sums)
        · obtain rfl := List.mem_singleton.mp hsumsfile
          exact List.mem_map_of_mem (Keyed.mem_of_lookup h.signature)
  · exact hunique
  · intro path digest hmem
    obtain ⟨file, hfile, heq⟩ := List.mem_map.mp hmem
    cases heq
    exact ⟨file.2, Keyed.lookup_of_mem hunique (List.mem_filter.mp hfile).1, rfl⟩
  · rw [hlookup, h.sums]
  · rw [hlookup, h.signature]

end

section
variable {tools : Tools} {version : String} {sums signature : Bytes}

theorem Signed.unpacks {site : Site} {archive : Bytes} (hsigned : Signed tools site sums signature)
    (htools : Archives tools version) (hdigest : ∀ content, isDigest (tools.sha256 content) = true)
    (hversion : releaseVersion version = true) (h : writeArchive version site = .ok archive)
    (hfits : Ci.Tar.Fits MAX_MEMBERS (memberNames version site)) :
    unpackRelease tools archive version sums signature = .ok (sortKeys site) ∧
      tools.canonicalSha (sortKeys site) = some (tools.sha256 archive) := by
  have hperm := perm_sortKeys site
  have hfree := conflicting_mono hsigned.free (hperm.map Prod.fst).subset
  have hopened := (openArchive_writeArchive hversion h).1 hfits
  refine ⟨unpackRelease_site (htools.members ▸ hopened) (hsigned.exact hdigest) hfree, ?_⟩
  rw [htools.canonical, canonicalSha, ← writeArchive_perm hperm.symm hsigned.unique, h]
  rfl

/-- The archive of a signed site is opened and unpacked to the site, in the order of its paths, and
    what comes out has the canonical digest of the archive; unless its names exceed the header
    bounds. -/
theorem writeArchive_unpacks {site : Site} {archive : Bytes} (htools : Archives tools version)
    (hdigest : ∀ content, isDigest (tools.sha256 content) = true)
    (hversion : releaseVersion version = true)
    (hsigned : Signed tools site sums signature) (h : writeArchive version site = .ok archive) :
    (Ci.Tar.Fits MAX_MEMBERS (memberNames version site) →
      unpackRelease tools archive version sums signature = .ok (sortKeys site) ∧
      tools.canonicalSha (sortKeys site) = some (tools.sha256 archive)) ∧
    (¬ Ci.Tar.Fits MAX_MEMBERS (memberNames version site) →
      unpackRelease tools archive version sums signature = .error
        "the release archive exceeds the header bounds") := by
  refine ⟨hsigned.unpacks htools hdigest hversion h, fun hnot => ?_⟩
  have hrefused := (openArchive_writeArchive hversion h).2 hnot
  rw [unpackRelease, (hsigned.exact hdigest).parsed, except_ok_bind, htools.members, hrefused]
  rfl

end

namespace Sample

def packSums : Bytes := utf8 (renderSums [("a", digest)])

def packSite : Site := [("SHA256SUMS", packSums), ("SHA256SUMS.asc", [7]), ("a", [1])]

/-- Archives are written and read as above; every content has one digest. -/
def packTools : Tools where
  sha256 _ := digest
  json _ := none
  uniqueJson _ := none
  members := openArchive
  verifySignature _ _ _ := true
  renderNotes _ _ _ := none
  canonicalSha := canonicalSha (fun _ => digest) "1.0.0"

theorem packTools_archives : Archives packTools "1.0.0" := ⟨rfl, fun _ => rfl⟩

theorem packSite_plain : ∀ file ∈ packSite, plainPath file.1 = true := by
  have hpaths : ∀ path ∈ ["SHA256SUMS", "SHA256SUMS.asc", "a"], plainPath path = true := by decide
  exact fun file hfile => hpaths _ (List.mem_map_of_mem (f := Prod.fst) hfile)

theorem packSite_sorted : sortKeys packSite = packSite := by
  refine List.mergeSort_of_pairwise ?_
  simp [packSite]

theorem packSite_signed : Signed packTools packSite packSums [7] where
  plain := packSite_plain
  unique := by
    have hpaths : ["SHA256SUMS", "SHA256SUMS.asc", "a"].Nodup := by decide
    exact hpaths
  free := by
    have hpaths : conflicting ["SHA256SUMS", "SHA256SUMS.asc", "a"] = false := by decide
    exact hpaths
  rendered := by
    have hfiles : siteFiles packSite = .ok packSite :=
      siteFiles_ok.mpr ⟨packSite_plain, packSite_sorted⟩
    rw [renderSha256sums, hfiles, except_ok_bind]
    simp [packSite, SUMS_FILES, packSums, packTools, pure, Except.pure]
  sums := rfl
  signature := rfl

theorem packSite_short :
    ∀ name ∈ memberNames "1.0.0" packSite, name.length ≤ Ci.Tar.LENGTH_NAME := by
  have hnames : ∀ path ∈ ["SHA256SUMS", "SHA256SUMS.asc", "a"],
      (utf8 ("1.0.0" ++ "/" ++ path)).length ≤ Ci.Tar.LENGTH_NAME := by decide
  intro name hname
  obtain ⟨file, hfile, rfl⟩ := List.mem_map.mp hname
  exact hnames _ (List.mem_map_of_mem (f := Prod.fst) hfile)

theorem packSite_fits : Ci.Tar.Fits MAX_MEMBERS (memberNames "1.0.0" packSite) :=
  Ci.Tar.fits_of_short packSite_short (show 3 ≤ MAX_MEMBERS by decide)

theorem packSite_small : ∀ file ∈ packSite, file.2.length ≤ Ci.Tar.LENGTH_NAME := by
  have hsums : packSums.length ≤ Ci.Tar.LENGTH_NAME := by decide
  intro file hfile
  simp only [packSite, List.mem_cons, List.not_mem_nil, or_false] at hfile
  rcases hfile with rfl | rfl | rfl
  · exact hsums
  · exact show 1 ≤ Ci.Tar.LENGTH_NAME by decide
  · exact show 1 ≤ Ci.Tar.LENGTH_NAME by decide

theorem exists_packed : ∃ archive, writeArchive "1.0.0" packSite = .ok archive :=
  exists_writeArchive (by decide) packSite_plain packSite_short fun file hfile =>
    (packSite_small file hfile).trans_lt (show Ci.Tar.LENGTH_NAME < 8 ^ 11 by decide)

end Sample

theorem writeArchive_unpacks_sample : ∃ archive,
    unpackRelease Sample.packTools archive "1.0.0" Sample.packSums [7] = .ok Sample.packSite := by
  obtain ⟨archive, hwritten⟩ := Sample.exists_packed
  have hdigest : isDigest Sample.digest = true := by decide
  have hunpacked := ((writeArchive_unpacks Sample.packTools_archives (fun _ => hdigest) (by decide)
    Sample.packSite_signed hwritten).1 Sample.packSite_fits).1
  rw [Sample.packSite_sorted] at hunpacked
  exact ⟨archive, hunpacked⟩

section
variable {tools : Tools} {version : String} {sums signature : Bytes}

end

end NpuStack.Publish
