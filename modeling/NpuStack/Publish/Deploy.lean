import NpuStack.Publish.Exact
import NpuStack.Schemes.Gather
import NpuStack.Schemes.Server

/-! `check_deploy`: right before a deployment, the recorded composition is still the one to serve.

        compose-pages ──manifest.value──▶ record ─┐
        releases, tags, commits, live sums ───────┴──check_deploy──▶ deploy | out of date

    A job that is run again deploys what an earlier run composed. What passes here is what composing
    would give now: the same versions, each from the same release, commit and sums. -/

namespace NpuStack.Publish
open Interaction Text
open Py (Value)
open NpuStack.Packaging (releaseVersion)

/-! ### The manifest as it is written -/

/-- `sort_keys`. -/
def sortKeys {α : Type} (items : List (String × α)) : List (String × α) :=
  items.mergeSort fun a b => a.1 ≤ b.1

def Composed.value (composed : Composed) : Value :=
  .dict [("archive_sha256", .str composed.archive), ("commit", .str composed.commit),
    ("files", .int composed.files), ("release_id", .int composed.releaseId),
    ("sha256sums_sha256", .str composed.sums)]

/-- What `compose_pages` dumps. -/
def Manifest.value (manifest : Manifest) : Value :=
  .dict [("base_url", .str manifest.baseUrl), ("new_version", manifest.newVersion.elim .none .str),
    ("retired", .dict ((sortKeys manifest.retired).map fun item =>
      (item.1, .list (item.2.map .str)))),
    ("schema_version", .int 1), ("total_bytes", .int manifest.totalBytes),
    ("versions", .dict ((sortKeys manifest.versions).map fun item => (item.1, item.2.value)))]

/-! ### The check -/

/-- What is read of a Pages manifest: the composed versions with their entries, and the retired ones
    with the files they could have served. -/
structure PagesRecord where
  versions : List (String × Value)
  retired : List (String × List String)

/-- A retired version of the record. -/
def retiredPaths (item : String × Value) : Option (String × List String) := do
  let paths ← item.2.asList
  let paths ← paths.mapM Value.asStr
  if releaseVersion item.1 && paths.all plainPath then some (item.1, paths) else none

section
variable (tools : Tools) (json : String → Option Value) (str : Value → String)

/-- `pages_record`. `json` is `json.loads` of the manifest. -/
def pagesRecord (values : Values) (content : Bytes) : Except String PagesRecord := do
  let refused := "the Pages manifest is not the record of composing " ++ values.version
  let text ← need (Py.readText content) malformed
  let record ← need (json text) malformed
  let carries := fun (key : String) (value : Value) => (record.index key).any fun found =>
    found.eq value
  require (carries "schema_version" (.int 1) = true ∧ carries "base_url"
    (.str values.baseUrl) = true ∧ carries "new_version" (.str values.version) = true) refused
  let versions ← need ((record.index "versions").bind Value.asDict) refused
  let retired ← need ((record.index "retired").bind Value.asDict) refused
  let retired ← need (retired.mapM retiredPaths) refused
  return ⟨versions, retired⟩

/-- The release of a composed version is the one it was composed from, and its tag names the same
    commit. `str` is Python's, of a JSON value. -/
def checkComposed (stale : String) (record : PagesRecord) (candidate : String × Release) :
    Publishing Unit := do
  let (version, release) := candidate
  let changed := stale ++ "release " ++ release.tagName ++ " is not the release it composed"
  let moved := stale ++ "tag " ++ release.tagName ++ " no longer names the commit it composed"
  let entry ← liftM (need (record.versions.lookup version) malformed)
  let digests := (release.assets.filter fun asset => asset.name = "SHA256SUMS").map Asset.digest
  let sums ← liftM (need (entry.get "sha256sums_sha256") changed)
  let id ← liftM (need (entry.get "release_id") changed)
  liftM (require (digests = [some ("sha256:" ++ str sums)] ∧
    (Value.int release.id).eq id = true) changed)
  let commit ← liftM (need ((entry.get "commit").bind Value.asStr) moved)
  let named ← tagCommit release.tagName
  liftM (require (named = some commit) moved)

/-- `check_live_sums`, of the entries of a record. -/
def checkLiveRecord (rootUrl undeployed : String) (item : String × Value) : Publishing Unit := do
  let (version, entry) := item
  if version = undeployed then return ()
  else do
    let (status, body) ← fetch (rootUrl ++ version ++ "/SHA256SUMS")
    liftM (require (status = 200 ∧
        (entry.index "sha256sums_sha256").any
          (fun digest => (Value.str (tools.sha256 body)).eq digest) = true)
      ("the live " ++ version ++ "/SHA256SUMS differs from its release (HTTP " ++
        toString status ++ ")"))

structure Deployment where
  newVersion : String
  versions : List String

/-- `check_deploy`. -/
def checkDeploy (values : Values) (registry content : Bytes) : Publishing Deployment := do
  let version := values.version
  let record ← liftM (pagesRecord json values content)
  let registry ← liftM (loadRegistry tools registry)
  let releases ← listReleases
  let live := candidates none releases
  let stale := "the composition of " ++ version ++ " is out of date: "
  let newest := live.getLast?.map Prod.fst
  liftM (require (newest = some version) (stale ++ "the newest release is " ++ newest.getD "None"))
  let served := live.filter fun candidate => !isRetired registry candidate
  let composed := (record.versions.map Prod.fst).mergeSort fun a b => versionKey a ≤ versionKey b
  let names := served.map Prod.fst
  liftM (require (names = composed) (stale ++ "compose-pages would serve " ++
    ", ".intercalate names ++ ", not " ++ ", ".intercalate composed))
  forM served (checkComposed str stale record)
  checkRecorded registry (some version)
  let rootUrl ← liftM (siteRoot values.baseUrl)
  forM record.versions (checkLiveRecord tools rootUrl version)
  return ⟨version, names⟩

end

/-! ### What passes the check -/

section
variable {tools : Tools} {json : String → Option Value} {str : Value → String} {values : Values}
  {t : List (Event Answer)}

/-- The release is the one of this entry, and its tag names the commit of the entry. -/
structure SameRelease (str : Value → String) (release : Release) (entry : Value)
    (t : List (Event Answer)) : Prop where
  sums : ∃ sums, entry.get "sha256sums_sha256" = some sums ∧
    (release.assets.filter fun asset => asset.name = "SHA256SUMS").map Asset.digest =
      [some ("sha256:" ++ str sums)]
  id : ∃ id, entry.get "release_id" = some id ∧ (Value.int release.id).eq id = true
  commit : ∃ commit, entry.get "commit" = some (.str commit) ∧
    ⟨.tagCommit release.tagName, some (some commit)⟩ ∈ t

/-- Candidates stand in the order of their versions. -/
theorem pairwise_candidates (pending : Option String) (releases : List Release) :
    (candidates pending releases).Pairwise fun a b => versionKey a.1 ≤ versionKey b.1 := by
  refine (List.pairwise_mergeSort ?_ ?_ _).imp fun h => of_decide_eq_true h
  · intro a b c hab hbc
    simpa using (of_decide_eq_true hab).trans (of_decide_eq_true hbc)
  · intro a b
    simpa using le_total (versionKey a.1) (versionKey b.1)

/-- Two files of one digest that are not the same. -/
def Collide (tools : Tools) (site site' : Site) : Prop :=
  ∃ file ∈ site, ∃ file' ∈ site', file.2 ≠ file'.2 ∧ tools.sha256 file.2 = tools.sha256 file'.2

/-- GitHub answered both runs alike, where both asked for the releases or for the commit of a
    tag. -/
structure Unchanged (t t' : List (Event Answer)) : Prop where
  releases : ∀ releases releases', ⟨.releases, some releases⟩ ∈ t →
    ⟨.releases, some releases'⟩ ∈ t' → releases = releases'
  commits : ∀ tag commit commit', ⟨.tagCommit tag, some commit⟩ ∈ t →
    ⟨.tagCommit tag, some commit'⟩ ∈ t' → commit = commit'

/-- Sites of the same sums have the same files. -/
theorem ExactSite.same {sums sums' signature signature' : Bytes}
    {listed listed' : List (String × String)}
    {site site' : Site} (hs : ExactSite tools sums signature listed site)
    (hs' : ExactSite tools sums' signature' listed' site')
    (hdigest : tools.sha256 sums = tools.sha256 sums') : Collide tools site site' ∨ ∀ path,
    path ≠ "SHA256SUMS.asc" → site.lookup path = site'.lookup path := by
  by_cases hcollide : Collide tools site site'
  · exact .inl hcollide
  have hequal : ∀ {path path' : String} {content content' : Bytes},
    site.lookup path = some content →
      site'.lookup path' = some content' → tools.sha256 content = tools.sha256 content' →
        content = content' := by
    intro path path' content content' hfile hfile' hsame
    by_contra hne
    exact hcollide ⟨_, Keyed.mem_of_lookup hfile, _, Keyed.mem_of_lookup hfile', hne, hsame⟩
  obtain rfl := hequal hs.sums hs'.sums hdigest
  obtain rfl := Except.ok.inj (hs.parsed.symm.trans hs'.parsed)
  refine .inr fun path hpath => ?_
  by_cases hlisted : path ∈ listed.map Prod.fst
  · obtain ⟨⟨path, digest⟩, hmem, rfl⟩ := List.mem_map.mp hlisted
    obtain ⟨content, hfile, hcontent⟩ := hs.digests path digest hmem
    obtain ⟨content', hfile', hcontent'⟩ := hs'.digests path digest hmem
    rw [hfile, hfile', hequal hfile hfile' (hcontent.trans hcontent'.symm)]
  · by_cases hsums : path = "SHA256SUMS"
    · rw [hsums, hs.sums, hs'.sums]
    · have hout : path ∉ SUMS_FILES := by simp [SUMS_FILES, hsums, hpath]
      have hnone : ∀ {site : Site}, path ∉ site.map Prod.fst → site.lookup path = none :=
          fun hnot =>
        List.lookup_eq_none_iff.mpr fun file hfile => by
          simpa using fun heq : path = file.1 => hnot (heq ▸ List.mem_map_of_mem hfile)
      rw [hnone (mt (hs.paths path).mp (by simp [hlisted, hout])),
        hnone (mt (hs'.paths path).mp (by simp [hlisted, hout]))]

theorem perm_sortKeys {α : Type} (items : List (String × α)) : (sortKeys items).Perm items :=
  List.mergeSort_perm _ _

/-- A record names the versions of its manifest. -/
theorem keys_recorded (versions : List (String × Composed)) :
    (((sortKeys versions).map fun item => (item.1, item.2.value)).map Prod.fst).Perm
      (versions.map Prod.fst) := by
  rw [List.map_map]
  exact (perm_sortKeys versions).map Prod.fst

theorem index_manifest (manifest : Manifest) :
    manifest.value.index "schema_version" = some (.int 1) ∧
    manifest.value.index "base_url" = some (.str manifest.baseUrl) ∧
    manifest.value.index "new_version" = some (manifest.newVersion.elim .none .str) ∧
    manifest.value.index "versions" =
      some (.dict ((sortKeys manifest.versions).map fun item => (item.1, item.2.value))) ∧
    manifest.value.index "retired" =
      some (.dict ((sortKeys manifest.retired).map fun item =>
        (item.1, .list (item.2.map .str)))) :=
  ⟨rfl, rfl, rfl, rfl, rfl⟩

theorem retiredPaths_written {item : String × List String} (hversion : releaseVersion item.1 = true)
    (hplain : ∀ path ∈ item.2, plainPath path = true) :
    retiredPaths (item.1, .list (item.2.map .str)) = some item := by
  have hpaths : (item.2.map Value.str).mapM Value.asStr = some item.2 := by
    rw [Gather.mapM_some, List.forall₂_map_left_iff, List.forall₂_same]
    exact fun _ _ => rfl
  have hall : (releaseVersion item.1 && item.2.all plainPath) = true := by
    rw [Bool.and_eq_true, List.all_eq_true]
    exact ⟨hversion, hplain⟩
  rw [retiredPaths, Value.asList]
  show ((item.2.map Value.str).mapM Value.asStr).bind _ = _
  rw [hpaths, Option.bind_some, if_pos hall]

/-- A manifest that was written reads back. -/
theorem pagesRecord_written {content : Bytes} {manifest : Manifest}
    (hreads : (Py.readText content).bind json = some manifest.value)
    (hbase : manifest.baseUrl = values.baseUrl) (hnew : manifest.newVersion = some values.version)
    (hretired : ∀ item ∈ manifest.retired, releaseVersion item.1 = true ∧ ∀ path ∈ item.2,
    plainPath path = true) : pagesRecord json values content =
      .ok ⟨(sortKeys manifest.versions).map fun item => (item.1, item.2.value),
        sortKeys manifest.retired⟩ := by
  obtain ⟨hschema, hurl, hversion, hversions, hgone⟩ := index_manifest manifest
  obtain ⟨text, htext, hjson⟩ := Option.bind_eq_some_iff.mp hreads
  have hpaths : ((sortKeys manifest.retired).map fun item =>
    (item.1, Value.list (item.2.map .str))).mapM
      retiredPaths = some (sortKeys manifest.retired) := by
    rw [List.mapM_map, Gather.mapM_some, List.forall₂_same]
    intro item hitem
    obtain ⟨hreleased, hplain⟩ := hretired item ((perm_sortKeys _).mem_iff.mp hitem)
    exact retiredPaths_written hreleased hplain
  have hcarries : manifest.value.index "schema_version" |>.any
      (fun found => found.eq (.int 1)) := by
    rw [hschema]
    rfl
  have hcarries' : (manifest.value.index "base_url").any
      (fun found => found.eq (.str values.baseUrl)) = true := by
    rw [hurl, hbase]
    simp [Value.eq]
  have hcarries'' : (manifest.value.index "new_version").any
      (fun found => found.eq (.str values.version)) = true := by
    rw [hversion, hnew]
    simp [Value.eq]
  rw [pagesRecord, need_ok.mpr htext, except_ok_bind, need_ok.mpr hjson, except_ok_bind]
  dsimp only
  rw [require_pos ⟨hcarries, hcarries', hcarries''⟩, except_ok_bind, hversions, hgone]
  simp only [Option.bind_some, Value.asDict, need, except_ok_bind, hpaths]
  rfl

/-- The release an entry was written of, as composing it again finds it. -/
theorem SameRelease.composed {release : Release} {composed composed' : Composed} {site : Site}
    {fingerprint rootUrl version : String} {t' : List (Event Answer)} (hstr : ∀ s, str (.str s) = s)
    (h : SameRelease str release composed.value t)
    (hserved : Served tools fingerprint rootUrl version release composed' site t')
    (hsame : Unchanged t t') :
    composed'.sums = composed.sums ∧ composed'.releaseId = composed.releaseId ∧
      composed'.commit = composed.commit := by
  obtain ⟨archive, sums, signature, listed, data, -, ⟨asset, hasset, hname, hdigest, -⟩, -, -,
      -, hcomposed, -⟩ :=
    hserved.exact
  obtain ⟨value, hvalue, hdigests⟩ := h.sums
  obtain ⟨id, hid, hequal⟩ := h.id
  obtain ⟨commit, hcommit, hevent⟩ := h.commit
  have hgets : composed.value.get "sha256sums_sha256" = some (.str composed.sums) ∧
      composed.value.get "release_id" = some (.int composed.releaseId) ∧
      composed.value.get "commit" = some (.str composed.commit) := ⟨rfl, rfl, rfl⟩
  rw [hgets.1] at hvalue
  rw [hgets.2.1] at hid
  rw [hgets.2.2] at hcommit
  cases hvalue
  cases hid
  cases hcommit
  have hmem : asset.digest ∈ (release.assets.filter fun asset =>
      asset.name = "SHA256SUMS").map Asset.digest :=
    List.mem_map_of_mem (List.mem_filter.mpr ⟨hasset, by simp [hname]⟩)
  rw [hdigests, List.mem_singleton, hdigest, hstr, apiDigest] at hmem
  have hnumber : (release.id : ℤ) = composed.releaseId := by
    have := of_decide_eq_true hequal
    simpa [Value.number] using this.symm
  have hnamed := hsame.commits _ _ _ hevent hserved.tagged
  rw [hcomposed]
  exact ⟨(String.append_right_inj _).mp (Option.some.inj hmem), by exact_mod_cast hnumber,
    (Option.some.inj hnamed).symm⟩

section
variable {answers : ∀ q, Answer q} {stale rootUrl : String} {record : PagesRecord}

/-- An entry as it was written passes for its release. -/
theorem eval_checkComposed {version : String} {release : Release} {composed : Composed}
    (hstr : ∀ s, str (.str s) = s) (hentry : record.versions.lookup version = some composed.value)
    (hdigests : (release.assets.filter fun asset => asset.name = "SHA256SUMS").map Asset.digest =
      [some ("sha256:" ++ composed.sums)]) (hid : release.id = composed.releaseId)
    (htag : answers (.tagCommit release.tagName) = some (some composed.commit)) :
    (checkComposed str stale record (version, release)).eval answers = .ok () := by
  have hget : composed.value.get "sha256sums_sha256" = some (.str composed.sums) ∧
      composed.value.get "release_id" = some (.int composed.releaseId) ∧
      (composed.value.get "commit").bind Value.asStr = some composed.commit := ⟨rfl, rfl, rfl⟩
  have hnumber : (Value.int release.id).eq (.int composed.releaseId) = true := by
    simp [Value.eq, Value.number, hid]
  have hnamed : (tagCommit release.tagName).eval answers = .ok (some composed.commit) := by
    rw [tagCommit, Prog.eval_expect, htag, need]
  rw [checkComposed]
  dsimp only
  rw [Prog.eval_bind, Prog.eval_lift, need_ok.mpr hentry, except_ok_bind, Prog.eval_bind,
    Prog.eval_lift, need_ok.mpr hget.1, except_ok_bind, Prog.eval_bind, Prog.eval_lift,
    need_ok.mpr hget.2.1, except_ok_bind, Prog.eval_bind, Prog.eval_lift,
    require_pos ⟨by rw [hdigests, hstr], hnumber⟩, except_ok_bind, Prog.eval_bind, Prog.eval_lift,
    need_ok.mpr hget.2.2, except_ok_bind, Prog.eval_bind, hnamed, except_ok_bind, Prog.eval_lift,
    require_pos rfl]

/-- The live sums of another version are those of its entry. -/
theorem eval_checkLiveRecord {undeployed : String} {item : String × Composed}
    (h : item.1 ≠ undeployed → ∃ body, answers (.fetch (rootUrl ++ item.1 ++ "/SHA256SUMS")) = some
    (200, body) ∧
      tools.sha256 body = item.2.sums) :
    (checkLiveRecord tools rootUrl undeployed (item.1, item.2.value)).eval answers = .ok () := by
  rw [checkLiveRecord]
  dsimp only
  split
  next => rfl
  next hne =>
    obtain ⟨body, hbody, hdigest⟩ := h hne
    have hindex : item.2.value.index "sha256sums_sha256" = some (.str item.2.sums) := rfl
    have hequal : (item.2.value.index "sha256sums_sha256").any
        (fun digest => (Value.str (tools.sha256 body)).eq digest) = true := by
      rw [hindex, Option.any_some, hdigest]
      simp [Value.eq]
    have hfetch : (fetch (rootUrl ++ item.1 ++ "/SHA256SUMS")).eval answers = .ok (200, body) := by
      rw [fetch, Prog.eval_expect, hbody, need]
    rw [Prog.eval_bind, hfetch, except_ok_bind]
    dsimp only
    rw [Prog.eval_lift, require_pos ⟨rfl, hequal⟩]

theorem eval_checkDeploy {registry content : Bytes} {loaded : Registry} {releases : List Release}
    (hrecord : pagesRecord json values content = .ok record)
    (hloaded : loadRegistry tools registry = .ok loaded) (hlist : answers .releases = some releases)
    (hnewest : (candidates none releases).getLast?.map Prod.fst = some values.version)
    (hnames : ((candidates none releases).filter fun candidate =>
    !isRetired loaded candidate).map Prod.fst =
      (record.versions.map Prod.fst).mergeSort fun a b => versionKey a ≤ versionKey b)
    (hserved : ∀ stale, ∀ candidate ∈ (candidates none releases).filter fun candidate =>
    !isRetired loaded candidate,
      (checkComposed str stale record candidate).eval answers = .ok ())
    (hrecorded : (checkRecorded loaded (some values.version)).eval answers = .ok ())
    (hroot : siteRoot values.baseUrl = .ok rootUrl)
    (hlive : ∀ item ∈ record.versions,
    (checkLiveRecord tools rootUrl values.version item).eval answers = .ok ()) :
    (checkDeploy tools json str values registry content).eval answers = .ok ⟨values.version,
      ((candidates none releases).filter fun candidate =>
        !isRetired loaded candidate).map Prod.fst⟩ := by
  have hlisted : listReleases.eval answers = .ok releases := by
    rw [listReleases, Prog.eval_expect, hlist, need]
  have hchecked : ∀ stale,
    (forM ((candidates none releases).filter fun candidate => !isRetired loaded candidate)
      (checkComposed str stale record)).eval answers = .ok () := fun stale => by
    rw [Prog.eval_forM]
    exact except_forM_ok.mpr (hserved stale)
  have hfetched : (forM record.versions (checkLiveRecord tools rootUrl values.version)).eval
      answers = .ok () := by
    rw [Prog.eval_forM]
    exact except_forM_ok.mpr hlive
  rw [checkDeploy, Prog.eval_bind, Prog.eval_lift, hrecord, except_ok_bind, Prog.eval_bind,
    Prog.eval_lift, hloaded, except_ok_bind, Prog.eval_bind, hlisted, except_ok_bind]
  dsimp only
  rw [Prog.eval_bind, Prog.eval_lift, require_pos hnewest, except_ok_bind, Prog.eval_bind,
    Prog.eval_lift, require_pos hnames, except_ok_bind, Prog.eval_bind, hchecked, except_ok_bind,
    Prog.eval_bind, hrecorded, except_ok_bind, Prog.eval_bind, Prog.eval_lift, hroot,
    except_ok_bind, Prog.eval_bind, hfetched, except_ok_bind, Prog.eval_pure]

end

end

namespace Sample

/-- Python's `str` on the texts of a manifest. -/
def str (value : Value) : String := (value.asStr).getD ""

def json (_ : String) : Option Value := some manifest.value

end Sample

end NpuStack.Publish
