import NpuStack.Ci.CheckRelease
import NpuStack.Publish.WriteArchive

/-! `release_site.py verify_site`: the file set of a site at one of two stages, and what signing
adds to it.

        tree files + installer set + records + derived  ──unsigned──▶  digests
                              + FINALIZE_FILES          ──signed────▶  the same digests, sums and signatures

    What a signer adds to a site of the unsigned stage is accepted at the signed stage
    (`finalized_accepted`), and is no larger than `signing_bytes` says (`siteBytes_finalized`). -/

namespace NpuStack.Publish
open Interaction Text
open NpuStack.Packaging (releaseVersion isName segmentChar)

/-! ### The files of a site -/

def MAX_SIGNATURE_BYTES : ℕ := 4096

def INSTALLER_SET : List String := [BINARY, "install.sh", "primary-command.txt"]

def SIGN_RECORDS : List String :=
  ["provider-identity.json", "signed-identity.json", "profile-generation.json",
    "profile-rpm-build.json"]

def DERIVED : List String :=
  ["support-matrix.json", "index.html", "publication-manifest.json", "records/installer-build.json",
    "records/installer-trust.rs"]

def FINALIZE_FILES : List String :=
  ["SHA256SUMS", "SHA256SUMS.asc", BINARY ++ ".asc", "install.sh.asc"]

/-- The files with a detached signature, as the signed stage goes through them. -/
def SIGNED_FILES : List String := [BINARY, "install.sh", "SHA256SUMS"]

inductive Stage where
  | unsigned
  | signed
  deriving DecidableEq

/-- What the site tool takes from elsewhere. -/
structure SiteTools where
  /-- `committed` and `tracked`. -/
  checkRepository : Except String Unit
  sha256 : Bytes → String
  /-- `verify_signature` of a signature over bytes, by the committed key. -/
  verifySignature : Bytes → Bytes → Bool
  /-- `release_sign.verify_detached`, by the key of the signing home. -/
  verifyDetached : Bytes → Bytes → Bool
  /-- `check_tree`, the trust seam, the installer records, the signing records and the renderings,
      of the unsigned files. -/
  checkContent : Site → Except String Unit
  /-- `json.loads`. -/
  json : String → Option Py.Value

/-- The signing home holds the committed key: what one accepts, the other does. -/
def SiteTools.Trusted (tools : SiteTools) : Prop :=
  ∀ signature content, tools.verifyDetached signature content = true →
    tools.verifySignature signature content = true

/-- `tree_subset`: what the checksums of the tree list, and the files they cannot list. -/
def treeSubset (site : Site) : Except String (List String) := do
  let text ← need ((site.lookup "checksums.sha256").bind Py.readText) malformed
  let listed ← (Py.splitlines text).mapM fun line => do
    let (_, relative) ← need (Ci.checksumLine line) "malformed checksums line"
    Ci.safeRelative relative
    return relative
  require (∀ path ∈ listed, path ∉ Ci.UNLISTED) "checksums.sha256 lists a file it cannot cover"
  return listed ++ Ci.UNLISTED

def unsignedFiles (site : Site) : Except String (List String) := do
  let subset ← treeSubset site
  return (subset ++ INSTALLER_SET ++ SIGN_RECORDS.map ("records/" ++ ·) ++ DERIVED).dedup.mergeSort
    (· ≤ ·)

/-- One mapping has the entries of the other. -/
def sameEntries (a b : Digests) : Bool := a.all b.contains && b.all a.contains

section
variable (tools : SiteTools)

/-- `digests`. -/
def digestsOf (site : Site) (files : List String) : Except String Digests :=
  files.mapM fun path => do
    let content ← need (site.lookup path) malformed
    return (path, tools.sha256 content)

def checkSignatureSize (site : Site) (signature : String) : Except String Unit := do
  let content ← need (site.lookup signature) malformed
  require (content.length ≤ MAX_SIGNATURE_BYTES) (signature ++ " is larger than 4096 bytes")

/-- `verify_signature` of a file by the signature beside it. -/
def checkSigned (site : Site) (path : String) : Except String Unit := do
  let signature ← need (site.lookup (path ++ ".asc")) malformed
  let content ← need (site.lookup path) malformed
  require (tools.verifySignature signature content = true)
    "signature does not satisfy the pinned release-key policy"

/-- What the signed stage checks besides. -/
def checkFinalized (expectedFiles : Option Digests) (unsigned : List String) (site : Site) :
    Except String Unit := do
  let expected ← need expectedFiles "the signed stage needs the unsigned verification report"
  let current ← digestsOf tools site unsigned
  require (sameEntries current expected = true) "unsigned files changed after verification"
  forM SIGNED_FILES fun path => checkSignatureSize site (path ++ ".asc")
  let sums ← renderSha256sums tools.sha256 site
  require (site.lookup "SHA256SUMS" = some sums) "SHA256SUMS differs from the site"
  forM SIGNED_FILES fun path => checkSigned tools site path

/-- `verify_site`: the digests of the stage's files. -/
def verifySite (stage : Stage) (expectedFiles : Option Digests) (site : Site) :
    Except String Digests := do
  tools.checkRepository
  let files ← siteFiles site
  let unsigned ← unsignedFiles site
  let expected := match stage with
    | .unsigned => unsigned
    | .signed => (unsigned ++ FINALIZE_FILES).mergeSort (· ≤ ·)
  require ((∀ path ∈ expected, path ∈ files.map Prod.fst) ∧ ∀ path ∈ files.map Prod.fst,
    path ∈ expected) "site file set differs"
  tools.checkContent (site.filter fun file => file.1 ∈ unsigned)
  match stage with
  | .unsigned => digestsOf tools site expected
  | .signed => do
    checkFinalized tools expectedFiles unsigned site
    digestsOf tools site expected

end

/-- `signing_bytes`: what signing adds to an unsigned site of these files at most. -/
def signingBytes (files : List String) : ℕ :=
  ((files ++ [BINARY ++ ".asc", "install.sh.asc"]).map fun name =>
    (utf8 (String.ofList (List.replicate 64 '0') ++ "  " ++ name ++ "\n")).length).sum +
      3 * MAX_SIGNATURE_BYTES

/-- The size budget of `check` at the unsigned stage: the bytes counted, if they are within it. -/
def checkBudget (site : Site) (maxBytes : Option ℕ) : Except String ℕ := do
  let files ← siteFiles site
  let budgeted := siteBytes site + signingBytes (files.map Prod.fst)
  require (∀ bound ∈ maxBytes, budgeted ≤ bound) "the site is above the size budget"
  return budgeted

/-! ### What signing adds -/

theorem plainPath_chars {cs : List Char}
    (h : ((cs.splitOn '/').all fun part => part.head?.any Char.isAlphanum &&
      part.all fun c => c.isAlphanum || ['.', '_', '+', '-'].contains c) = true) :
        plainPath (String.ofList cs) = true := by
  rw [plainPath, split_ofList, List.all_map, ← h]
  congr 1
  funext part
  have hsegment : segmentChar = fun c => c.isAlphanum || ['.', '_', '+', '-'].contains c := by
    funext c
    have hcs : "._+-".toList = ['.', '_', '+', '-'] := by decide
    rw [segmentChar, hcs]
  simp only [Function.comp_apply, isName, String.toList_ofList, all_ofList, hsegment]

theorem FINALIZE_FILES_plain : ∀ name ∈ FINALIZE_FILES, plainPath name = true := by
  simp only [FINALIZE_FILES, BINARY, String.reduceAppend, List.forall_mem_cons]
  exact ⟨plainPath_chars (by decide), plainPath_chars (by decide), plainPath_chars (by decide),
    plainPath_chars (by decide), by simp⟩

/-- A small signature of a file, as the signing home sees it. -/
def Verifies (tools : SiteTools) (site : Site) (data : String) (signature : Bytes) : Prop :=
  ∃ content, site.lookup data = some content ∧ signature.length ≤ MAX_SIGNATURE_BYTES ∧
    tools.verifyDetached signature content = true

theorem Verifies.of_lookup {tools : SiteTools} {site site' : Site} {data : String}
    {signature : Bytes}
    (h : Verifies tools site data signature) (hsame : site.lookup data = site'.lookup data) :
    Verifies tools site' data signature := by
  rwa [Verifies, ← hsame]

/-- The contents of the four files. -/
structure Finalization where
  binary : Bytes
  script : Bytes
  sums : Bytes
  signature : Bytes

def Finalization.files (f : Finalization) : Site :=
  [(BINARY ++ ".asc", f.binary), ("install.sh.asc", f.script), ("SHA256SUMS", f.sums),
    ("SHA256SUMS.asc", f.signature)]

/-- The signatures verify what they stand beside, and the sums are those of the site with the two
    signatures they list. -/
structure Finalized (tools : SiteTools) (start : Site) (f : Finalization) : Prop where
  binary : Verifies tools start BINARY f.binary
  script : Verifies tools start "install.sh" f.script
  sums : renderSha256sums tools.sha256
    (start ++ [(BINARY ++ ".asc", f.binary), ("install.sh.asc", f.script)]) = .ok f.sums
  signature : Verifies tools (start ++ f.files) "SHA256SUMS" f.signature

theorem lookup_added {base : Site} {name path : String} {content : Bytes}
    (hfresh : name ∉ base.map Prod.fst) : (base ++ [(name, content)]).lookup path = if path =
    name then some content else base.lookup path := by
  rw [List.lookup_append, List.lookup_cons, List.lookup_nil]
  by_cases hkey : path = name
  · have hnone : base.lookup path = none :=
      List.lookup_eq_none_iff.mpr fun file hfile => by
        simpa using fun heq : path = file.1 => hfresh (hkey ▸ heq ▸ List.mem_map_of_mem hfile)
    rw [hnone, if_pos hkey, hkey]
    simp
  · have hne : (path == name) = false := by simpa using hkey
    rw [if_neg hkey, hne]
    simp

section
variable {tools : SiteTools} {start : Site} {f : Finalization}

theorem names_files (f : Finalization) {path : String} :
    path ∈ f.files.map Prod.fst ↔ path ∈ FINALIZE_FILES := by
  have hnames : f.files.map Prod.fst = [BINARY ++ ".asc", "install.sh.asc", "SHA256SUMS",
    "SHA256SUMS.asc"] := rfl
  rw [hnames, FINALIZE_FILES]
  simp only [List.mem_cons, List.not_mem_nil, or_false]
  tauto

theorem lookup_unlisted {path : String} {site : Site} (h : path ∉ site.map Prod.fst) :
    site.lookup path = none :=
  List.lookup_eq_none_iff.mpr fun file hfile => by
    simpa using fun heq : path = file.1 => h (heq ▸ List.mem_map_of_mem hfile)

theorem lookup_start {path : String} (h : path ∉ FINALIZE_FILES) :
    (start ++ f.files).lookup path = start.lookup path := by
  rw [List.lookup_append, lookup_unlisted ((names_files f).not.mpr h), Option.or_none]

theorem lookup_final {path : String} (hfresh : ∀ name ∈ FINALIZE_FILES, name ∉ start.map Prod.fst)
    (h : path ∈ FINALIZE_FILES) : (start ++ f.files).lookup path = f.files.lookup path := by
  rw [List.lookup_append, lookup_unlisted (hfresh path h), Option.none_or]

theorem lookup_behind {done : Site} {path : String} (h : path ∉ done.map Prod.fst) :
    (start ++ done).lookup path = start.lookup path := by
  rw [List.lookup_append, lookup_unlisted h, Option.or_none]

theorem fresh_behind (hfresh : ∀ name ∈ FINALIZE_FILES, name ∉ start.map Prod.fst) {done : Site}
    {name : String} (hname : name ∈ FINALIZE_FILES) (hdone : name ∉ done.map Prod.fst) :
    name ∉ (start ++ done).map Prod.fst := by
  rw [List.map_append, List.mem_append]
  rintro (hstart | hmem)
  · exact hfresh name hname hstart
  · exact hdone hmem

/-- SHA256SUMS.asc stands beside what it signs. -/
theorem lookup_sums (hfresh : ∀ name ∈ FINALIZE_FILES, name ∉ start.map Prod.fst)
    (f : Finalization) : (start ++ [(BINARY ++ ".asc", f.binary), ("install.sh.asc", f.script),
    ("SHA256SUMS", f.sums)]).lookup "SHA256SUMS" =
      (start ++ f.files).lookup "SHA256SUMS" := by
  rw [List.lookup_append, List.lookup_append, lookup_unlisted (hfresh "SHA256SUMS" (by decide))]
  rfl

/-- Signing leaves what the stage expects of the rest of the site. -/
theorem unsignedFiles_finalized : unsignedFiles (start ++ f.files) = unsignedFiles start := by
  rw [unsignedFiles, unsignedFiles, treeSubset, treeSubset, lookup_start (by decide)]

/-- The files a stage expects of a site are its files. -/
def IsFileSet (site : Site) (expected : List String) : Prop :=
  ∀ path, path ∈ expected ↔ path ∈ site.map Prod.fst

theorem isFileSet_sortKeys {site : Site} {expected : List String} :
    ((∀ path ∈ expected, path ∈ (sortKeys site).map Prod.fst) ∧
      ∀ path ∈ (sortKeys site).map Prod.fst, path ∈ expected) ↔ IsFileSet site expected := by
  have hmem : ∀ path, path ∈ (sortKeys site).map Prod.fst ↔ path ∈ site.map Prod.fst :=
    fun path => ((perm_sortKeys site).map Prod.fst).mem_iff
  simp only [IsFileSet, hmem]
  exact ⟨fun h path => ⟨h.1 path, h.2 path⟩, fun h =>
    ⟨fun path => (h path).mp, fun path => (h path).mpr⟩⟩

theorem verifySite_unsigned {expectedFiles : Option Digests} {report : Digests} {site : Site} :
    verifySite tools .unsigned expectedFiles site = .ok report ↔
      tools.checkRepository = .ok () ∧ (∀ file ∈ site, plainPath file.1 = true) ∧ ∃ unsigned,
        unsignedFiles site = .ok unsigned ∧ IsFileSet site unsigned ∧
        tools.checkContent (site.filter fun file => file.1 ∈ unsigned) = .ok () ∧
        digestsOf tools site unsigned = .ok report := by
  simp only [verifySite, except_bind_ok, siteFiles_ok, require_ok]
  constructor
  · rintro ⟨_, hrepository, files, ⟨hplain, rfl⟩, unsigned, hunsigned, _, hset, _,
      hcontent, hreport⟩
    exact ⟨hrepository, hplain, unsigned, hunsigned, isFileSet_sortKeys.mp hset, hcontent, hreport⟩
  · rintro ⟨hrepository, hplain, unsigned, hunsigned, hset, hcontent, hreport⟩
    exact ⟨(), hrepository, _, ⟨hplain, rfl⟩, unsigned, hunsigned, (), isFileSet_sortKeys.mpr hset,
      (), hcontent, hreport⟩

theorem verifySite_signed {expectedFiles : Option Digests} {report : Digests} {site : Site} :
    verifySite tools .signed expectedFiles site = .ok report ↔
      tools.checkRepository = .ok () ∧ (∀ file ∈ site, plainPath file.1 = true) ∧ ∃ unsigned,
        unsignedFiles site = .ok unsigned ∧ IsFileSet site (unsigned ++ FINALIZE_FILES) ∧
        tools.checkContent (site.filter fun file => file.1 ∈ unsigned) = .ok () ∧
        checkFinalized tools expectedFiles unsigned site = .ok () ∧
        digestsOf tools site ((unsigned ++ FINALIZE_FILES).mergeSort (· ≤ ·)) = .ok report := by
  have hsorted : ∀ unsigned, IsFileSet site ((unsigned ++ FINALIZE_FILES).mergeSort (· ≤ ·)) ↔
      IsFileSet site (unsigned ++ FINALIZE_FILES) := fun unsigned => by
        simp only [IsFileSet, List.mem_mergeSort]
  simp only [verifySite, except_bind_ok, siteFiles_ok, require_ok]
  constructor
  · rintro ⟨_, hrepository, files, ⟨hplain, rfl⟩, unsigned, hunsigned, _, hset, _, hcontent,
      _, hfinal, hreport⟩
    exact ⟨hrepository, hplain, unsigned, hunsigned, (hsorted _).mp (isFileSet_sortKeys.mp hset),
      hcontent, hfinal, hreport⟩
  · rintro ⟨hrepository, hplain, unsigned, hunsigned, hset, hcontent, hfinal, hreport⟩
    exact ⟨(), hrepository, _, ⟨hplain, rfl⟩, unsigned, hunsigned, (), isFileSet_sortKeys.mpr
      ((hsorted _).mpr hset), (), hcontent, (), hfinal, hreport⟩

theorem digestsOf_congr {site site' : Site} : ∀ {files : List String},
    (∀ path ∈ files, site.lookup path = site'.lookup path) →
      digestsOf tools site files = digestsOf tools site' files
  | [], _ => rfl
  | path :: files, h => by
    obtain ⟨hpath, hfiles⟩ := List.forall_mem_cons.mp h
    have hrest := digestsOf_congr hfiles
    simp only [digestsOf] at hrest ⊢
    rw [List.mapM_cons, List.mapM_cons, hpath, hrest]

theorem exists_digestsOf {site : Site} :
    ∀ {files : List String}, (∀ path ∈ files, path ∈ site.map Prod.fst) →
    ∃ report, digestsOf tools site files = .ok report
  | [], _ => ⟨[], rfl⟩
  | path :: files, h => by
    obtain ⟨hpath, hfiles⟩ := List.forall_mem_cons.mp h
    obtain ⟨report, hreport⟩ := exists_digestsOf hfiles
    obtain ⟨content, hcontent⟩ : ∃ content, site.lookup path = some content :=
      Option.isSome_iff_exists.mp (by simpa using hpath)
    refine ⟨(path, tools.sha256 content) :: report, ?_⟩
    simp only [digestsOf] at hreport ⊢
    rw [List.mapM_cons, hcontent, hreport]
    rfl

theorem renderSha256sums_of_plain {site : Site} (hplain : ∀ file ∈ site, plainPath file.1 = true) :
    renderSha256sums tools.sha256 site = .ok
      (utf8 (renderSums (listedFiles tools.sha256 site))) := by
  rw [renderSha256sums, siteFiles_ok.mpr ⟨hplain, rfl⟩]
  rfl

theorem listedFiles_filter {sha256 : Bytes → String} {site : Site}
    (hnodup : (site.map Prod.fst).Nodup) : listedFiles sha256 site =
      (sortKeys (site.filter fun file => file.1 ∉ SUMS_FILES)).map fun file =>
        (file.1, sha256 file.2) := by
  rw [listedFiles, filter_sortKeys hnodup]

/-- The site without its sums. -/
theorem filter_sums {extra : Site} (hfresh : ∀ name ∈ FINALIZE_FILES, name ∉ start.map Prod.fst) :
    (start ++ extra).filter (fun file => file.1 ∉ SUMS_FILES) = start ++ extra.filter fun file =>
      file.1 ∉ SUMS_FILES := by
  rw [List.filter_append]
  congr 1
  refine List.filter_eq_self.mpr fun file hfile => decide_eq_true fun hsums => ?_
  exact hfresh file.1 ((show ∀ name ∈ SUMS_FILES, name ∈ FINALIZE_FILES by decide) _ hsums)
    (List.mem_map_of_mem hfile)

theorem nodup_finalized (hunique : (start.map Prod.fst).Nodup)
    (hfresh : ∀ name ∈ FINALIZE_FILES, name ∉ start.map Prod.fst) :
    ((start ++ f.files).map Prod.fst).Nodup := by
  rw [List.map_append, List.nodup_append]
  refine ⟨hunique, show [BINARY ++ ".asc", "install.sh.asc", "SHA256SUMS",
    "SHA256SUMS.asc"].Nodup by decide, ?_⟩
  rintro path hpath _ hfinal rfl
  exact hfresh path ((names_files f).mp hfinal) hpath

/-- SHA256SUMS does not list itself: what it lists is the site before it. -/
theorem Finalized.rendered (h : Finalized tools start f) (hplain : ∀ file ∈ start,
    plainPath file.1 = true) (hunique : (start.map Prod.fst).Nodup)
    (hfresh : ∀ name ∈ FINALIZE_FILES, name ∉ start.map Prod.fst) :
    renderSha256sums tools.sha256 (start ++ f.files) = .ok f.sums := by
  have hnodup := nodup_finalized (f := f) hunique hfresh
  have hsub : List.Sublist (start ++ [(BINARY ++ ".asc", f.binary), ("install.sh.asc", f.script)])
      (start ++ f.files) :=
    (List.prefix_append [(BINARY ++ ".asc", f.binary),
      ("install.sh.asc", f.script)] _).sublist.append_left start
  have hfinal : ∀ file ∈ start ++ f.files, plainPath file.1 = true := by
    refine List.forall_mem_append.mpr ⟨hplain, fun file hfile => ?_⟩
    exact FINALIZE_FILES_plain _
      ((names_files f).mp (List.mem_map_of_mem hfile))
  rw [← h.sums, renderSha256sums_of_plain hfinal,
    renderSha256sums_of_plain fun file hfile => hfinal file (hsub.subset hfile),
    listedFiles_filter hnodup, listedFiles_filter (hnodup.sublist (hsub.map _)), filter_sums hfresh,
      filter_sums hfresh]
  rfl

/-- What signing adds to a site of the unsigned stage is accepted at the signed stage, with the same
    digests of the unsigned files. -/
theorem finalized_accepted {report expectedFiles : Digests} {e : Option Digests}
    (hverified : verifySite tools .unsigned e start = .ok report)
    (hsame : sameEntries report expectedFiles = true) (hunique : (start.map Prod.fst).Nodup)
    (hfresh : ∀ name ∈ FINALIZE_FILES, name ∉ start.map Prod.fst)
    (hfinalized : Finalized tools start f) (htrusted : tools.Trusted) :
    ∃ files, verifySite tools .signed (some expectedFiles) (start ++ f.files) = .ok files := by
  obtain ⟨hrepository, hplain, unsigned, hunsigned, hset, hcontent, hreport⟩ :=
    verifySite_unsigned.mp hverified
  have hother : ∀ path ∈ unsigned, path ∉ FINALIZE_FILES := fun path hpath hfinal =>
    hfresh path hfinal ((hset path).mp hpath)
  have hsame' : ∀ path ∈ unsigned, (start ++ f.files).lookup path = start.lookup path :=
    fun path hpath => lookup_start (hother path hpath)
  have hset' : IsFileSet (start ++ f.files) (unsigned ++ FINALIZE_FILES) := by
    intro path
    rw [List.mem_append, List.map_append, List.mem_append, hset path, names_files]
  have hfilter : (start ++ f.files).filter (fun file => file.1 ∈ unsigned) =
      start.filter fun file => file.1 ∈ unsigned := by
    have hnone : f.files.filter (fun file => file.1 ∈ unsigned) = [] := by
      refine List.filter_eq_nil_iff.mpr fun file hfile hmem => ?_
      exact hother file.1 (by simpa using hmem) ((names_files f).mp (List.mem_map_of_mem hfile))
    rw [List.filter_append, hnone, List.append_nil]
  have hstart : ∀ {path content}, start.lookup path = some content →
      (start ++ f.files).lookup path = some content := by
    intro path content h
    rw [List.lookup_append, h, Option.some_or]
  have hfinal : checkFinalized tools (some expectedFiles) unsigned (start ++ f.files) = .ok () := by
    obtain ⟨binary, hbinary, hbinarySmall, hbinaryVerified⟩ := hfinalized.binary
    obtain ⟨script, hscript, hscriptSmall, hscriptVerified⟩ := hfinalized.script
    obtain ⟨sums, hsums, hsumsSmall, hsumsVerified⟩ := hfinalized.signature
    have hbinaryAsc : (start ++ f.files).lookup (BINARY ++ ".asc") = some f.binary := by
      rw [lookup_final hfresh (by decide)]; rfl
    have hscriptAsc : (start ++ f.files).lookup ("install.sh" ++ ".asc") = some f.script := by
      rw [lookup_final hfresh (by decide)]; rfl
    have hsumsAsc : (start ++ f.files).lookup ("SHA256SUMS" ++ ".asc") = some f.signature := by
      rw [lookup_final hfresh (by decide)]; rfl
    have hsumsFile : (start ++ f.files).lookup "SHA256SUMS" = some f.sums := by
      rw [lookup_final hfresh (by decide)]; rfl
    simp only [checkFinalized, except_bind_ok, need_ok, require_ok, except_forM_ok, SIGNED_FILES,
      List.forall_mem_cons, checkSignatureSize, checkSigned]
    refine ⟨_, rfl, report, ?_, (), hsame, (), ?_, f.sums, ?_, (), hsumsFile, ?_⟩
    · rw [digestsOf_congr hsame', hreport]
    · exact ⟨⟨_, hbinaryAsc, hbinarySmall⟩, ⟨_, hscriptAsc, hscriptSmall⟩,
        ⟨_, hsumsAsc, hsumsSmall⟩, by simp⟩
    · exact hfinalized.rendered hplain hunique hfresh
    · exact ⟨⟨_, hbinaryAsc, _, hstart hbinary, htrusted _ _ hbinaryVerified⟩,
        ⟨_, hscriptAsc, _, hstart hscript, htrusted _ _ hscriptVerified⟩,
        ⟨_, hsumsAsc, _, hsums, htrusted _ _ hsumsVerified⟩, by simp⟩
  obtain ⟨files, hfiles⟩ : ∃ files, digestsOf tools (start ++ f.files)
      ((unsigned ++ FINALIZE_FILES).mergeSort (· ≤ ·)) = .ok files :=
    exists_digestsOf fun path hpath => (hset' path).mp (List.mem_mergeSort.mp hpath)
  refine ⟨files, verifySite_signed.mpr ⟨hrepository, ?_, unsigned, ?_, hset', ?_, hfinal, hfiles⟩⟩
  · refine List.forall_mem_append.mpr ⟨hplain, fun file hfile => ?_⟩
    exact FINALIZE_FILES_plain _
      ((names_files f).mp (List.mem_map_of_mem hfile))
  · rw [unsignedFiles_finalized, hunsigned]
  · rw [hfilter, hcontent]

/-- The bytes of a line of SHA256SUMS. -/
def lineBytes (name : String) : ℕ := 64 + 2 + len name + 1

theorem len_digest {digest : String} (h : isDigest digest = true) : len digest = 64 := by
  simp only [isDigest, Bool.and_eq_true, decide_eq_true_eq] at h
  have hascii : ∀ c ∈ digest.toList, c.toNat < 128 := by
    intro c hc
    have hgraphic := isGraphic_of_isLowerHex (all_iff.mp h.2 c hc)
    simp only [isGraphic, Bool.and_eq_true, decide_eq_true_eq] at hgraphic
    omega
  rw [len_of_ascii hascii]
  exact h.1

theorem signingBytes_eq (files : List String) :
    signingBytes files = (files.map lineBytes).sum + lineBytes (BINARY ++ ".asc") + lineBytes
      "install.sh.asc" + 3 * MAX_SIGNATURE_BYTES := by
  have hline : ∀ name : String,
      (utf8 (String.ofList (List.replicate 64 '0') ++ "  " ++ name ++ "\n")).length =
        lineBytes name := by
    intro name
    have hzeros : len (String.ofList (List.replicate 64 '0')) = 64 := by decide
    rw [length_utf8, len_append, len_append, len_append, hzeros]
    rfl
  rw [signingBytes, funext hline, List.map_append, List.sum_append]
  simp only [List.map_cons, List.map_nil, List.sum_cons, List.sum_nil]
  omega

theorem length_renderSums {sha256 : Bytes → String}
    (hdigest : ∀ content, isDigest (sha256 content) = true)
    (files : Site) : (utf8 (renderSums (files.map fun file => (file.1, sha256 file.2)))).length =
      ((files.map Prod.fst).map lineBytes).sum := by
  rw [renderSums, length_utf8, len_unlines, List.map_map, List.map_map, List.map_map]
  congr 1
  refine List.map_congr_left fun file _ => ?_
  have hline : len (sha256 file.2 ++ "  " ++ file.1) + 1 = lineBytes file.1 := by
    rw [len_append, len_append, len_digest (hdigest file.2)]
    rfl
  exact hline

theorem Finalized.length_sums (h : Finalized tools start f)
    (hdigest : ∀ content, isDigest (tools.sha256 content) = true)
    (hunique : (start.map Prod.fst).Nodup)
    (hfresh : ∀ name ∈ FINALIZE_FILES, name ∉ start.map Prod.fst) : f.sums.length =
      ((start.map Prod.fst).map lineBytes).sum + lineBytes (BINARY ++ ".asc") + lineBytes
        "install.sh.asc" := by
  have htwo : [(BINARY ++ ".asc", f.binary), ("install.sh.asc", f.script)].filter
    (fun file => file.1 ∉ SUMS_FILES) =
      [(BINARY ++ ".asc", f.binary), ("install.sh.asc", f.script)] := rfl
  have hsub : List.Sublist (start ++ [(BINARY ++ ".asc", f.binary), ("install.sh.asc", f.script)])
      (start ++ f.files) :=
    (List.prefix_append [(BINARY ++ ".asc", f.binary),
      ("install.sh.asc", f.script)] _).sublist.append_left start
  have hlisted := (renderSha256sums_ok h.sums).2
  rw [listedFiles_filter ((nodup_finalized hunique hfresh).sublist (hsub.map _)),
    filter_sums hfresh, htwo] at hlisted
  rw [hlisted, length_renderSums hdigest, (((perm_sortKeys _).map Prod.fst).map lineBytes).sum_nat]
  simp only [List.map_append, List.sum_append, List.map_cons, List.map_nil,
    List.sum_cons, List.sum_nil]
  omega

/-- The budget counts SHA256SUMS exactly, and each signature at its bound. -/
theorem siteBytes_finalized {bound : Option ℕ} {budgeted : ℕ}
    (hbudget : checkBudget start bound = .ok budgeted)
    (hdigest : ∀ content, isDigest (tools.sha256 content) = true)
    (hunique : (start.map Prod.fst).Nodup) (hfresh : ∀ name ∈ FINALIZE_FILES,
    name ∉ start.map Prod.fst) (hfinalized : Finalized tools start f) :
    siteBytes (start ++ f.files) + 3 * MAX_SIGNATURE_BYTES =
      budgeted + (f.binary.length + f.script.length + f.signature.length) := by
  simp only [checkBudget, except_bind_ok, siteFiles_ok, require_ok] at hbudget
  obtain ⟨files, ⟨hplain, rfl⟩, _, -, hbudgeted⟩ := hbudget
  obtain rfl := Except.ok.inj hbudgeted
  have hnames : (((sortKeys start).map Prod.fst).map lineBytes).sum =
      ((start.map Prod.fst).map lineBytes).sum :=
    (((perm_sortKeys start).map Prod.fst).map lineBytes).sum_nat
  have hsite : siteBytes (start ++ f.files) =
      siteBytes start + (f.binary.length + f.script.length + f.sums.length +
        f.signature.length) := by
    simp only [siteBytes, Finalization.files, List.map_append, List.sum_append,
      List.map_cons, List.map_nil, List.sum_cons, List.sum_nil]
    omega
  rw [hsite, signingBytes_eq, hnames, hfinalized.length_sums hdigest hunique hfresh]
  omega

end

end NpuStack.Publish
