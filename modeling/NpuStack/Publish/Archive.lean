import NpuStack.Packaging.Assemble
import NpuStack.Schemes.Interaction
import NpuStack.Schemes.PyValue

/-! `release_publish.py`: versions, the registry, and the gates on one release archive.

        published-versions.json ──loadRegistry──▶ published, retired
        SHA256SUMS ──parseSums──▶ path, digest
        archive ──unpackRelease──▶ site: the listed files and the two sums files

    Hashing, JSON, tar, signatures, note rendering and canonical packing are parameters, collected in
    `Tools`. An unpacked archive is exactly what its sums list (`unpackRelease_ok`). -/

namespace NpuStack.Publish
open Interaction Text
open Py (Value)
open NpuStack.Packaging (releaseVersion isName)

/-- A member of a tar archive. -/
structure Member where
  name : String
  regular : Bool
  content : Bytes

/-- The files of a version directory. -/
abbrev Site := List (String × Bytes)

/-- What publication runs or imports. -/
structure Tools where
  sha256 : Bytes → String
  /-- `json.loads`. -/
  json : String → Option Value
  /-- `json.loads` of a text that repeats no key. -/
  uniqueJson : String → Option Value
  /-- The members of an archive within the header bounds. -/
  members : Bytes → Option (List Member)
  /-- `release_site.verify_signature` with the committed key. -/
  verifySignature : String → Bytes → Bytes → Bool
  /-- `release_site.render_notes` of a version's site and archive. -/
  renderNotes : String → Site → Bytes → Option Bytes
  /-- `canonical_sha`. -/
  canonicalSha : Site → Option String

/-- The committed trust seam. -/
structure Values where
  version : String
  baseUrl : String
  primaryFingerprint : String

def MAX_SITE : ℕ := 950 * 2 ^ 20

def MAX_MEMBERS : ℕ := 20000

def STANDALONE : List String := ["SHA256SUMS", "SHA256SUMS.asc", "publication-manifest.json"]

def releaseTitle (version : String) : String := "Intel NPU Stack " ++ version

def archiveName (version : String) : String := "intel-npu-stack-" ++ version ++ ".tar"

def releaseAssets (version : String) : List String := archiveName version :: STANDALONE

/-! ### Versions -/

/-- `TAG.fullmatch`: the version of a `vX.Y.Z` tag. -/
def tagVersion (tag : String) : Option String := (stripPrefix "v" tag).filter releaseVersion

/-- `version_key`: three numbers, compared in order. -/
def versionKey (version : String) : List ℕ :=
  (split '.' version).map fun part => Nat.ofDigitChars 10 part.toList 0

theorem tagVersion_eq_some {tag version : String} :
    tagVersion tag = some version ↔ tag = "v" ++ version ∧ releaseVersion version = true := by
  rw [tagVersion, Option.filter_eq_some_iff, stripPrefix_eq_some]

/-! ### The registry -/

/-- Versions with the digest of their SHA256SUMS. -/
structure Registry where
  published : List (String × String)
  retired : List (String × String)

namespace Registry

def versions (registry : Registry) : List String :=
  (registry.published ++ registry.retired).map Prod.fst

end Registry

def isDigest (value : String) : Bool := Py.len value = 64 && all isLowerHex value

def malformed : String := "malformed input"

/-- The keys of a dictionary are these. -/
def hasKeys (keys : List String) (fields : List (String × Value)) : Bool :=
  fields.all (fun field => keys.contains field.1) && keys.all fun key => (fields.lookup key).isSome

/-- One entry of the registry, after the versions seen so far. -/
def loadEntry (fields : List String) (seen : List String) (entry : Value) :
    Except String (String × String) := do
  let items ← need entry.asDict "invalid entry"
  require (hasKeys fields items = true) "invalid entry"
  let version ← need ((entry.index "version").bind Value.asStr) "invalid entry"
  let sums ← need ((entry.index "sha256sums_sha256").bind Value.asStr) "invalid entry"
  require (releaseVersion version = true ∧ isDigest sums = true ∧ version ∉ seen) "invalid entry"
  return (version, sums)

def loadPublished (loaded : List (String × String)) (entry : Value) :
    Except String (List (String × String)) := do
  let item ← loadEntry ["version", "sha256sums_sha256"] (loaded.map Prod.fst) entry
  return loaded ++ [item]

def loadRetired (published loaded : List (String × String)) (entry : Value) :
    Except String (List (String × String)) := do
  let item ← loadEntry ["version", "sha256sums_sha256", "reason"]
    ((published ++ loaded).map Prod.fst) entry
  let reason ← need ((entry.index "reason").bind Value.asStr) "a retired version needs a reason"
  require (Py.strip reason ≠ "") "a retired version needs a reason"
  return loaded ++ [item]

def loadRegistry (tools : Tools) (content : Bytes) : Except String Registry := do
  let text ← need (Py.readText content) malformed
  let registry ← need (tools.uniqueJson text) "published-versions.json repeats a key"
  let fields ← need registry.asDict "published-versions.json must be schema 1"
  require (hasKeys ["schema_version", "published", "retired"] fields = true)
    "published-versions.json must be schema 1"
  require (registry.index "schema_version" matches some (.int 1))
    "published-versions.json must be schema 1"
  let published ← need ((registry.index "published").bind Value.asList) "published must be a list"
  let published ← published.foldlM loadPublished []
  let retired ← need ((registry.index "retired").bind Value.asList) "retired must be a list"
  let retired ← retired.foldlM (loadRetired published) []
  return ⟨published, retired⟩

/-! ### Sums -/

/-- Every part is a `SEGMENT`. -/
def plainPath (path : String) : Bool := (split '/' path).all isName

/-- `([0-9a-f]{64})  (\S+)` in full: digest and path. -/
def sumsLine (line : String) : Option (String × String) :=
  let digest := String.ofList (line.toList.take 64)
  match stripPrefix "  " (String.ofList (line.toList.drop 64)) with
  | some path =>
    if isDigest digest && path ≠ "" && all (fun c => !Py.isSpace c) path then some (digest, path) else none
  | none => none

def parseLine (listed : List (String × String)) (line : String) :
    Except String (List (String × String)) := do
  let (digest, path) ← need (sumsLine line) "malformed SHA256SUMS"
  require (path ∉ listed.map Prod.fst) "malformed SHA256SUMS"
  require (plainPath path = true) "unsafe path in SHA256SUMS"
  return listed ++ [(path, digest)]

/-- `parse_sums`: paths with their digests. -/
def parseSums (data : Bytes) : Except String (List (String × String)) := do
  let text ← need (fromUtf8 data) malformed
  (Py.splitlines text).foldlM parseLine []

/-! ### An archive and its site -/

/-- Paths an archive must hold besides the listed ones. -/
def SUMS_FILES : List String := ["SHA256SUMS", "SHA256SUMS.asc"]

/-- Two files of which one would have to be a directory of the other. -/
def conflicting (paths : List String) : Bool :=
  paths.any fun path => paths.any fun other => startsWith (path ++ "/") other

section
variable (tools : Tools)

/-- `unpack_release`: the extracted files, by their paths below the version. -/
def unpackRelease (archive : Bytes) (version : String) (sums signature : Bytes) : Except String Site := do
  let listed ← parseSums sums
  let members ← need (tools.members archive) "the release archive exceeds the header bounds"
  let names := members.map Member.name
  let wanted := (listed.map Prod.fst ++ SUMS_FILES).map fun path => version ++ "/" ++ path
  require (names.Nodup ∧ (∀ name ∈ names, name ∈ wanted) ∧ (∀ name ∈ wanted, name ∈ names) ∧
    ∀ member ∈ members, member.regular = true) "the archive does not hold exactly the listed files"
  require (conflicting names = false) "the archive cannot be extracted"
  let site := members.map fun member => (Py.removePrefix (version ++ "/") member.name, member.content)
  require (site.lookup "SHA256SUMS" = some sums ∧ site.lookup "SHA256SUMS.asc" = some signature)
    "the archive carries other sums files than the release assets"
  forM listed fun (path, digest) => do
    let content ← need (site.lookup path) malformed
    require (tools.sha256 content = digest) "a file differs from SHA256SUMS"
  return site

/-- `check_standalone`: the separate assets are the archive's own copies. -/
def checkStandalone (archive : Bytes) (version : String) (files : String → Option Bytes) :
    Except String Unit := do
  let members ← need (tools.members archive) "the release archive exceeds the header bounds"
  forM STANDALONE fun name => do
    let member ← need (members.reverse.find? fun member => member.name = version ++ "/" ++ name)
      "the archive lacks a standalone asset"
    require (member.regular = true ∧ files name = some member.content)
      "the standalone asset differs from the copy in the signed archive"

/-- `check_identity`: the signed manifest names this release. -/
def checkIdentity (site : Site) (version baseUrl fingerprint commit : String) : Except String Unit := do
  let text ← need ((site.lookup "publication-manifest.json").bind Py.readText) malformed
  let manifest ← need (tools.json text) malformed
  let pinned := (manifest.index "installer").bind (Value.index "pinned")
  let names := fun (value : Option Value) (s : String) => value.any fun value => value.eq (.str s)
  require (names (pinned.bind (Value.index "version")) version = true ∧
    names (pinned.bind (Value.index "base_url")) baseUrl = true ∧
    names (pinned.bind (Value.index "primary_fingerprint")) fingerprint = true ∧
    names (manifest.index "source_commit") commit = true)
    "the signed publication manifest names another release"

/-- `check_installer_signature`. -/
def checkInstallerSignature (site : Site) (fingerprint : String) : Except String Unit := do
  let signature ← need (site.lookup "install.sh.asc") malformed
  let script ← need (site.lookup "install.sh") malformed
  require (tools.verifySignature fingerprint signature script = true) "bad installer signature"

/-- `site_bytes`. -/
def siteBytes (site : Site) : ℕ := (site.map fun file => file.2.length).sum

end

/-! ### What a loaded registry holds -/

theorem loadEntry_ok {fields seen : List String} {entry : Value} {item : String × String}
    (h : loadEntry fields seen entry = .ok item) :
    releaseVersion item.1 = true ∧ isDigest item.2 = true ∧ item.1 ∉ seen := by
  simp only [loadEntry, except_bind_ok, need_ok, require_ok] at h
  obtain ⟨_, -, _, -, version, -, sums, -, _, hitem, h⟩ := h
  cases h
  exact hitem

theorem loadPublished_ok : ∀ {entries : List Value} {loaded published : List (String × String)},
    entries.foldlM loadPublished loaded = .ok published → (loaded.map Prod.fst).Nodup →
    (∀ version ∈ loaded.map Prod.fst, releaseVersion version = true) →
    (published.map Prod.fst).Nodup ∧ ∀ version ∈ published.map Prod.fst, releaseVersion version = true
  | [], _, _, h, hnodup, hversions => by
    cases h
    exact ⟨hnodup, hversions⟩
  | entry :: entries, loaded, published, h, hnodup, hversions => by
    rw [List.foldlM_cons, except_bind_ok] at h
    obtain ⟨loaded', hentry, h⟩ := h
    rw [loadPublished, except_bind_ok] at hentry
    obtain ⟨item, hitem, hpure⟩ := hentry
    cases hpure
    obtain ⟨hversion, -, hfresh⟩ := loadEntry_ok hitem
    refine loadPublished_ok h ?_ ?_
    · rw [List.map_append, List.map_singleton, ← List.concat_eq_append]
      exact hnodup.concat hfresh
    · rw [List.map_append, List.forall_mem_append]
      exact ⟨hversions, by simpa using hversion⟩

theorem loadRetired_ok {published : List (String × String)} : ∀ {entries : List Value}
    {loaded retired : List (String × String)}, entries.foldlM (loadRetired published) loaded = .ok retired →
    ((published ++ loaded).map Prod.fst).Nodup →
    (∀ version ∈ (published ++ loaded).map Prod.fst, releaseVersion version = true) →
    ((published ++ retired).map Prod.fst).Nodup ∧
      ∀ version ∈ (published ++ retired).map Prod.fst, releaseVersion version = true
  | [], _, _, h, hnodup, hversions => by
    cases h
    exact ⟨hnodup, hversions⟩
  | entry :: entries, loaded, retired, h, hnodup, hversions => by
    rw [List.foldlM_cons, except_bind_ok] at h
    obtain ⟨loaded', hentry, h⟩ := h
    simp only [loadRetired, except_bind_ok] at hentry
    obtain ⟨item, hitem, _, -, _, -, hpure⟩ := hentry
    cases hpure
    obtain ⟨hversion, -, hfresh⟩ := loadEntry_ok hitem
    refine loadRetired_ok h ?_ ?_
    · rw [← List.append_assoc, List.map_append, List.map_singleton, ← List.concat_eq_append]
      exact hnodup.concat hfresh
    · rw [← List.append_assoc, List.map_append, List.forall_mem_append]
      exact ⟨hversions, by simpa using hversion⟩

/-- A registry lists `X.Y.Z` versions, each once. -/
theorem loadRegistry_ok {tools : Tools} {content : Bytes} {registry : Registry}
    (h : loadRegistry tools content = .ok registry) :
    registry.versions.Nodup ∧ ∀ version ∈ registry.versions, releaseVersion version = true := by
  simp only [loadRegistry, except_bind_ok, need_ok, require_ok] at h
  obtain ⟨_, -, _, -, _, -, _, -, _, -, _, -, published, hpublished, _, -, retired, hretired, h⟩ := h
  cases h
  obtain ⟨hnodup, hversions⟩ := loadPublished_ok hpublished (by simp) (by simp)
  exact loadRetired_ok hretired (by simpa using hnodup) (by simpa using hversions)

/-! ### What the sums and an unpacked archive hold -/

/-- Paths listed so far are plain and listed once. -/
structure Listed (listed : List (String × String)) : Prop where
  plain : ∀ path ∈ listed.map Prod.fst, plainPath path = true
  unique : (listed.map Prod.fst).Nodup

theorem parseLine_ok {listed listed' : List (String × String)} {line : String}
    (h : parseLine listed line = .ok listed') (hl : Listed listed) : Listed listed' := by
  simp only [parseLine, except_bind_ok, need_ok, require_ok, Prod.exists] at h
  obtain ⟨digest, path, -, _, hfresh, _, hplain, h⟩ := h
  cases h
  have hfst : (listed ++ [(path, digest)]).map Prod.fst = listed.map Prod.fst ++ [path] := by simp
  constructor
  · rw [hfst, List.forall_mem_append]
    exact ⟨hl.plain, by simpa using hplain⟩
  · rw [hfst, List.nodup_append]
    refine ⟨hl.unique, by simp, ?_⟩
    intro a ha b hb
    rw [List.mem_singleton.mp hb]
    rintro rfl
    exact hfresh ha

theorem parseLines_ok : ∀ {ls : List String} {listed listed' : List (String × String)},
    ls.foldlM parseLine listed = .ok listed' → Listed listed → Listed listed'
  | [], _, _, h, hl => by
    cases h
    exact hl
  | line :: ls, listed, listed', h, hl => by
    rw [List.foldlM_cons, except_bind_ok] at h
    obtain ⟨mid, hline, hrest⟩ := h
    exact parseLines_ok hrest (parseLine_ok hline hl)

theorem parseSums_ok {data : Bytes} {listed : List (String × String)} (h : parseSums data = .ok listed) :
    Listed listed := by
  simp only [parseSums, except_bind_ok] at h
  obtain ⟨text, -, h⟩ := h
  exact parseLines_ok h ⟨by simp, by simp⟩

/-- The text of SHA256SUMS. -/
def renderSums (listed : List (String × String)) : String :=
  unlines (listed.map fun (path, digest) => digest ++ "  " ++ path)

theorem segmentChar_graphic {c : Char} (h : Packaging.segmentChar c = true) : isGraphic c = true := by
  simp only [Packaging.segmentChar, Bool.or_eq_true, List.contains_iff_mem] at h
  have hpunctuation : ∀ x ∈ "._+-".toList, isGraphic x = true := forall_chars (by decide)
  exact h.elim isGraphic_of_isAlphanum (hpunctuation c)

/-- A plain path has no character a line or a field breaks at. -/
theorem plainPath_graphic {path : String} (h : plainPath path = true) :
    ∀ c ∈ path.toList, isGraphic c = true := by
  have hall : all isGraphic (join '/' (split '/' path)) = true := by
    refine all_join (by decide) fun part hpart => all_iff.mpr fun c hc => ?_
    have hname := List.all_eq_true.mp h part hpart
    rw [isName, Bool.and_eq_true] at hname
    exact segmentChar_graphic (all_iff.mp hname.2 c hc)
  rw [join_split] at hall
  exact all_iff.mp hall

theorem plainPath_ne_empty {path : String} (h : plainPath path = true) : path ≠ "" := by
  rintro rfl
  exact absurd h (by decide)

theorem sumsLine_render {path digest : String} (hpath : plainPath path = true)
    (hdigest : isDigest digest = true) : sumsLine (digest ++ "  " ++ path) = some (digest, path) := by
  have hlen : digest.toList.length = 64 := by
    simp only [isDigest, Bool.and_eq_true, decide_eq_true_eq] at hdigest
    exact hdigest.1
  have htake : (digest ++ "  " ++ path).toList.take 64 = digest.toList := by
    rw [String.append_assoc, String.toList_append, List.take_left' hlen]
  have hdrop : String.ofList ((digest ++ "  " ++ path).toList.drop 64) = "  " ++ path := by
    rw [String.append_assoc, String.toList_append, List.drop_left' hlen, String.ofList_toList]
  have hspace : all (fun c => !Py.isSpace c) path = true :=
    all_iff.mpr fun c hc => by simp [(Py.isSpace_of_isGraphic (plainPath_graphic hpath c hc)).1]
  rw [sumsLine, htake, hdrop, stripPrefix_append, String.ofList_toList]
  simp [hdigest, plainPath_ne_empty hpath, hspace]

theorem parseLine_render {listed : List (String × String)} {path digest : String}
    (hpath : plainPath path = true) (hdigest : isDigest digest = true)
    (hfresh : path ∉ listed.map Prod.fst) :
    parseLine listed (digest ++ "  " ++ path) = .ok (listed ++ [(path, digest)]) := by
  simp only [parseLine, sumsLine_render hpath hdigest, need, except_ok_bind, hfresh, hpath, require,
    not_false_eq_true, if_true]
  rfl

theorem parseLines_render : ∀ {entries listed : List (String × String)},
    (∀ entry ∈ entries, plainPath entry.1 = true ∧ isDigest entry.2 = true) →
    ((listed ++ entries).map Prod.fst).Nodup →
    (entries.map fun (path, digest) => digest ++ "  " ++ path).foldlM parseLine listed =
      .ok (listed ++ entries)
  | [], listed, _, _ => by simp [pure, Except.pure]
  | (path, digest) :: entries, listed, hentries, hnodup => by
    obtain ⟨⟨hpath, hdigest⟩, hrest⟩ := List.forall_mem_cons.mp hentries
    have hfresh : path ∉ listed.map Prod.fst := by
      rw [List.map_append, List.map_cons, List.nodup_append] at hnodup
      exact fun hmem => hnodup.2.2 path hmem path List.mem_cons_self rfl
    rw [List.map_cons, List.foldlM_cons, parseLine_render hpath hdigest hfresh, except_ok_bind,
      parseLines_render hrest (by simpa using hnodup), List.append_assoc, List.singleton_append]

/-- What is written as sums reads back. -/
theorem parseSums_render {listed : List (String × String)}
    (hlisted : ∀ entry ∈ listed, plainPath entry.1 = true ∧ isDigest entry.2 = true)
    (hnodup : (listed.map Prod.fst).Nodup) : parseSums (utf8 (renderSums listed)) = .ok listed := by
  have hlines : Py.splitlines (renderSums listed) =
      listed.map fun (path, digest) => digest ++ "  " ++ path := by
    refine Py.splitlines_unlines fun l hl => all_iff.mpr fun c hc => ?_
    obtain ⟨⟨path, digest⟩, hmem, rfl⟩ := List.mem_map.mp hl
    obtain ⟨hpath, hdigest⟩ := hlisted _ hmem
    simp only [isDigest, Bool.and_eq_true] at hdigest
    simp only [String.toList_append, List.mem_append] at hc
    rcases hc with (hc | hc) | hc
    · simp [(Py.isSpace_of_isGraphic (isGraphic_of_isLowerHex (all_iff.mp hdigest.2 c hc))).2]
    · have hspaces : ∀ x ∈ "  ".toList, Py.isLineBreak x = false := forall_chars (by decide)
      simp [hspaces c hc]
    · simp [(Py.isSpace_of_isGraphic (plainPath_graphic hpath c hc)).2]
  rw [parseSums, fromUtf8_utf8, need, except_ok_bind, hlines]
  exact parseLines_render hlisted (by simpa using hnodup)

/-- A site of the files its sums list, with their digests, and the two sums files. -/
structure ExactSite (tools : Tools) (sums signature : Bytes) (listed : List (String × String)) (site : Site) :
    Prop where
  parsed : parseSums sums = .ok listed
  paths : ∀ path, path ∈ site.map Prod.fst ↔ path ∈ listed.map Prod.fst ∨ path ∈ SUMS_FILES
  unique : (site.map Prod.fst).Nodup
  digests : ∀ path digest, (path, digest) ∈ listed →
    ∃ content, site.lookup path = some content ∧ tools.sha256 content = digest
  sums : site.lookup "SHA256SUMS" = some sums
  signature : site.lookup "SHA256SUMS.asc" = some signature

theorem unpackRelease_ok {tools : Tools} {archive : Bytes} {version : String} {sums signature : Bytes}
    {site : Site} (h : unpackRelease tools archive version sums signature = .ok site) :
    ∃ listed, ExactSite tools sums signature listed site := by
  simp only [unpackRelease, except_bind_ok, need_ok, require_ok, except_forM_ok] at h
  obtain ⟨listed, hlisted, members, -, _, ⟨hnodup, hsub, hsup, -⟩, _, -, _, ⟨hsums, hsig⟩, _, hfiles, h⟩ := h
  cases h
  have hpre : ∀ name ∈ members.map Member.name,
      name = version ++ "/" ++ Py.removePrefix (version ++ "/") name := by
    intro name hname
    obtain ⟨path, -, rfl⟩ := List.mem_map.mp (hsub name hname)
    rw [Py.removePrefix_append]
  have hfst : (members.map fun member =>
      (Py.removePrefix (version ++ "/") member.name, member.content)).map Prod.fst =
      (members.map Member.name).map (Py.removePrefix (version ++ "/")) := by
    simp [Function.comp_def]
  refine ⟨listed, hlisted, ?_, ?_, ?_, hsums, hsig⟩
  · intro path
    rw [hfst, List.mem_map, ← List.mem_append]
    constructor
    · rintro ⟨name, hname, rfl⟩
      obtain ⟨path, hpath, rfl⟩ := List.mem_map.mp (hsub name hname)
      rwa [Py.removePrefix_append]
    · intro hpath
      exact ⟨_, hsup _ (List.mem_map_of_mem hpath), Py.removePrefix_append _ _⟩
  · rw [hfst]
    refine List.Nodup.map_on (fun a ha b hb hab => ?_) hnodup
    rw [hpre a ha, hpre b hb, hab]
  · intro path digest hmem
    exact hfiles (path, digest) hmem

end NpuStack.Publish
