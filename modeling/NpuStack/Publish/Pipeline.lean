import NpuStack.Publish.Deploy
import NpuStack.Publish.Resume

/-! After a publication the site is composed and deployed.

        published ──compose_pages──▶ manifest, output ──check_deploy──▶ deployment
           room's versions ++ [this one]     (published_deploys)

    The room check ran composing without this version before anything irreversible. What it found is
    what composing with the published release finds too, so no gate is left that could refuse it. -/

namespace NpuStack.Publish
open Interaction Text
open Py (Value)
open NpuStack.Packaging (releaseVersion isCanonical)

/-! ### Versions in their order -/

theorem toDigits_canonical {part : String} (h : isCanonical part = true) :
    Nat.toDigits 10 (Nat.ofDigitChars 10 part.toList 0) = part.toList := by
  rw [isCanonical, Bool.or_eq_true, decide_eq_true_eq, Bool.and_eq_true] at h
  rcases h with rfl | ⟨hhead, hdigits⟩
  · decide
  · have hnonzero : ∃ c cs, part.toList = c :: cs ∧ c ≠ '0' := by
      cases hlist : part.toList with
      | nil =>
        rw [hlist] at hhead
        cases hhead
      | cons c cs =>
        rw [hlist, List.head?_cons, Option.any_some, Bool.and_eq_true, decide_eq_true_eq] at hhead
        exact ⟨c, cs, rfl, hhead.2⟩
    exact (toDigits_ofDigitChars (all_iff.mp hdigits) hnonzero).1

/-- A version is told from its key. -/
theorem versionKey_inj {version version' : String} (h : releaseVersion version = true)
    (h' : releaseVersion version' = true) (hkey : versionKey version = versionKey version') :
    version = version' := by
  have hparts : ∀ {version : String}, releaseVersion version = true →
      (split '.' version).map String.toList = (versionKey version).map (Nat.toDigits 10) := by
    intro version h
    rw [releaseVersion, Bool.and_eq_true, List.all_eq_true] at h
    rw [versionKey, List.map_map]
    refine List.map_congr_left fun part hpart => ?_
    have hcanonical := h.2 part hpart
    rw [Bool.and_eq_true] at hcanonical
    exact (toDigits_canonical hcanonical.1).symm
  have hsplit : split '.' version = split '.' version' := by
    refine List.map_injective_iff.mpr (fun _ _ => String.toList_inj.mp) ?_
    rw [hparts h, hparts h', hkey]
  rw [← join_split '.' version, hsplit, join_split]

/-- What stands in the order of the versions is sorted as it is. -/
theorem mergeSort_versions {versions versions' : List String} (hperm : versions.Perm versions')
    (hversions : ∀ version ∈ versions, releaseVersion version = true)
    (hsorted : versions.Pairwise fun a b => versionKey a ≤ versionKey b) :
    versions'.mergeSort (fun a b => versionKey a ≤ versionKey b) = versions := by
  have hpairwise : (versions'.mergeSort fun a b => versionKey a ≤ versionKey b).Pairwise fun a b =>
      versionKey a ≤ versionKey b := by
    refine (List.pairwise_mergeSort ?_ ?_ _).imp fun h => of_decide_eq_true h
    · intro a b c hab hbc
      simpa using (of_decide_eq_true hab).trans (of_decide_eq_true hbc)
    · intro a b
      simpa using le_total (versionKey a) (versionKey b)
  have hperm' := (List.mergeSort_perm versions' fun a b =>
    versionKey a ≤ versionKey b).trans hperm.symm
  refine hperm'.eq_of_pairwise (fun a b ha hb hab hba => ?_) hpairwise hsorted
  exact versionKey_inj (hversions a (hperm'.mem_iff.mp ha)) (hversions b hb) (le_antisymm hab hba)

/-! ### What there is to compose -/

namespace Job
variable {job : Job} {start hub : Hub} {release : Release} {room : Composition}

/-- What a publication needs besides for its site to be deployed: a version a tag can have, a base
    URL that is the version below the site's root, notes without a carriage return, and assets of
    one name each. -/
structure Deployable (job : Job) (start : Hub) : Prop where
  version : releaseVersion job.values.version = true
  base : ∀ rootUrl, siteRoot job.values.baseUrl = .ok rootUrl →
    job.values.baseUrl = rootUrl ++ job.values.version ++ "/"
  notes : fromUtf8 job.notes = some job.body
  names : ∀ other ∈ start.releases, (other.assets.map Asset.name).Nodup

/-- What the room check has found of the releases there were at the start. -/
structure Checked (job : Job) (start : Hub) (room : Composition) (registry : Registry)
    (rootUrl : String) (t : List (Event Answer)) : Prop where
  loaded : loadRegistry job.tools job.registry = .ok registry
  fresh : job.values.version ∉ registry.versions
  root : siteRoot job.values.baseUrl = .ok rootUrl
  composed : (composeReleases job.tools job.values.primaryFingerprint rootUrl registry
    (some job.values.version)).eval start.answers = .ok room
  recorded : (checkRecorded registry (some job.values.version)).eval start.answers = .ok ()
  live : (checkLiveSums job.tools rootUrl room.sums none).eval start.answers = .ok ()
  fits : room.bytes + job.size ≤ MAX_SITE
  whole : Whole job.tools job.values.primaryFingerprint rootUrl registry
    (some job.values.version) start.releases room t
  answered : ∀ e ∈ t, e.answer = start.answers e.question

theorem Ready.checked (hready : job.Ready start room) :
    ∃ registry rootUrl t, job.Checked start room registry rootUrl t := by
  obtain ⟨registry, rootUrl, hregistry, hfresh, hroot, hcompose, hrecorded, hlive, hfits⟩ :=
    eval_checkPagesRoom.mp hready.room
  obtain ⟨t, hrun, ht⟩ := Prog.runs_answered start.answers
    (composeReleases job.tools job.values.primaryFingerprint
    rootUrl registry (some job.values.version))
  rw [hcompose] at hrun
  obtain ⟨releases, hwhole⟩ := runs_composeReleases hrun
  obtain rfl := Option.some.inj (ht _ hwhole.listed)
  exact ⟨registry, rootUrl, t, hregistry, hfresh, hroot, hcompose, hrecorded, hlive,
    hfits, hwhole, ht⟩

theorem candidates_none {releases : List Release} (h : ∀ release ∈ releases,
    release.tagName ≠ job.tag) :
    candidates (some job.values.version) releases = candidates none releases := by
  rw [candidates, candidates]
  congr 1
  refine List.filterMap_congr fun release hrelease => ?_
  cases hversion : tagVersion release.tagName with
  | none => rfl
  | some version =>
    have hne : ¬ job.values.version = version := by
      rintro rfl
      exact h release hrelease (tagVersion_eq_some.mp hversion).1
    simp [hne]

/-- The published release is the last to compose. -/
theorem Final.candidates_eq {registry : Registry} {fingerprint rootUrl : String}
    {t : List (Event Answer)} (hfinal : job.Final start hub release)
    (hready : ∀ release ∈ start.releases, release.tagName ≠ job.tag)
    (hversion : releaseVersion job.values.version = true)
    (hwhole : Whole job.tools fingerprint rootUrl registry
    (some job.values.version) start.releases room t) : candidates none hub.releases =
      candidates (some job.values.version) start.releases ++ [(job.values.version, release)] := by
  obtain ⟨before, after, hstart, hhub⟩ := hfinal.beside.placed
  have htag : tagVersion release.tagName = some job.values.version :=
    tagVersion_eq_some.mpr ⟨hfinal.beside.tag, hversion⟩
  have holder := hwhole.older
  have hunique := hwhole.composes.unique
  rw [candidates_none hready] at holder hunique ⊢
  have hperm : (candidates none hub.releases).Perm
      (candidates none start.releases ++ [(job.values.version, release)]) := by
    rw [candidates, candidates, hstart, hhub]
    refine (List.mergeSort_perm _ _).trans
      (List.Perm.trans ?_ ((List.mergeSort_perm _ _).append_right _).symm)
    rw [List.filterMap_append, List.filterMap_append, List.filterMap_cons, htag]
    simp only [hfinal.draft, Bool.false_or, decide_eq_true_eq, reduceCtorEq, if_false]
    rw [List.append_assoc]
    exact (List.perm_append_singleton _ _).symm.append_left _
  have hreleased : ∀ candidate ∈ candidates none start.releases ++ [(job.values.version, release)],
      releaseVersion candidate.1 = true := by
    rw [List.forall_mem_append]
    refine ⟨fun candidate hcandidate => ?_, by simpa using hversion⟩
    exact (tagVersion_eq_some.mp (mem_candidates.mp hcandidate).2.1.2).2
  have hnodup : ((candidates none start.releases ++ [(job.values.version, release)]).map
      Prod.fst).Nodup := by
    rw [List.map_append, List.map_singleton, ← List.concat_eq_append]
    refine hunique.concat fun hmem => ?_
    obtain ⟨candidate, hcandidate, heq⟩ := List.mem_map.mp hmem
    exact absurd (holder candidate hcandidate _ rfl) (by rw [heq]; exact lt_irrefl _)
  refine hperm.eq_of_pairwise (fun a b ha hb hab hba => ?_) (pairwise_candidates none _) ?_
  · have ha' := hperm.mem_iff.mp ha
    exact List.inj_on_of_nodup_map hnodup ha' hb
      (versionKey_inj (hreleased a ha') (hreleased b hb) (le_antisymm hab hba))
  · refine List.pairwise_append.mpr ⟨pairwise_candidates none _, List.pairwise_singleton _ _,
      fun a ha b hb => ?_⟩
    rw [List.mem_singleton.mp hb]
    exact (holder a ha _ rfl).le

/-! ### Composing the published release -/

/-- The site of the publication, as it was proved. -/
structure Proved (job : Job) (archive sums signature : Bytes) (site : Site) : Prop where
  hasArchive : job.files (archiveName job.values.version) = some archive
  hasSums : job.files "SHA256SUMS" = some sums
  hasSignature : job.files "SHA256SUMS.asc" = some signature
  standalone : checkStandalone job.tools archive job.values.version job.files = .ok ()
  signed : job.tools.verifySignature job.values.primaryFingerprint signature sums = true
  unpacked : unpackRelease job.tools archive job.values.version sums signature = .ok site
  identity : checkIdentity job.tools site job.values.version job.values.baseUrl
    job.values.primaryFingerprint job.commit = .ok ()
  installer : checkInstallerSignature job.tools site job.values.primaryFingerprint = .ok ()
  canonical : job.tools.canonicalSha site = some (job.tools.sha256 archive)
  notes : job.tools.renderNotes job.values.version site archive = some job.notes
  size : job.size = siteBytes site

theorem exists_proved (job : Job) :
    ∃ archive sums signature site, job.Proved archive sums signature site := by
  have hproved := job.proved
  simp only [localAssets, except_bind_ok, need_ok, require_ok] at hproved
  obtain ⟨_, -, archive, harchive, _, hstandalone, sums, hsums, signature, hsignature, _,
    hsigned, site, hsite, _,
    hidentity, _, hinstaller, _, hcanonical, _, hnotes, _, -, hpure⟩ := hproved
  exact ⟨archive, sums, signature, site, harchive, hsums, hsignature, hstandalone, hsigned,
    hsite, hidentity, hinstaller, hcanonical, hnotes _ rfl,
    (congrArg Prod.snd (Except.ok.inj hpure)).symm⟩

end Job

/-- What a call answers while the site is composed: the manifest file can be written. -/
def Hub.serving (hub : Hub) : ∀ q, Answer q
  | .saveManifest => .saved
  | q => hub.answers q

namespace Job
variable {job : Job} {start hub : Hub} {release : Release} {room : Composition}

/-- The assets of the release are the files of the publication. -/
def data (job : Job) (release : Release) : List (String × Bytes) :=
  release.assetsByName.map fun item => (item.1, (job.files item.1).getD [])

theorem Final.names (h : job.Final start hub release) :
    (∀ item ∈ release.assetsByName, item.1 ∈ releaseAssets job.values.version) ∧
      ∀ name ∈ releaseAssets job.values.version, name ∈ release.assetsByName.map Prod.fst := by
  refine ⟨fun item hitem => ?_, fun name hname => mem_assetsByName_fst.mpr (h.whole name hname)⟩
  obtain ⟨hmem, hname⟩ := mem_assetsByName hitem
  exact hname ▸ (h.beside.own item.2 hmem).1

theorem Final.lookup_data (h : job.Final start hub release) {name : String} {content : Bytes}
    (hname : name ∈ releaseAssets job.values.version) (hfile : job.files name = some content) :
    (job.data release).lookup name = some content := by
  obtain ⟨item, hitem, rfl⟩ := List.mem_map.mp (h.names.2 name hname)
  have hmem : (item.1, (job.files item.1).getD []) ∈ job.data release := List.mem_map_of_mem hitem
  obtain ⟨content', hlookup⟩ := Option.isSome_iff_exists.mp (Keyed.lookup_isSome hmem)
  obtain ⟨item', -, heq⟩ := List.mem_map.mp (Keyed.mem_of_lookup hlookup)
  obtain ⟨hkey, rfl⟩ := Prod.mk.inj heq
  rw [hlookup, hkey, hfile, Option.getD_some]

theorem Final.eval_data (h : job.Final start hub release) :
    (release.assetsByName.mapM (downloadChecked job.tools)).eval hub.serving = .ok
      (job.data release) := by
  rw [Prog.eval_mapM, except_mapM_ok, data, List.forall₂_map_right_iff, List.forall₂_same]
  intro item hitem
  obtain ⟨hmem, hname⟩ := mem_assetsByName hitem
  obtain ⟨-, content, hcontent, hdigest, hread⟩ := h.beside.own item.2 hmem
  have hanswer : hub.serving (.download item.2.url) = some content := hread
  have hdownload : (downloadAsset item.2).eval hub.serving = .ok content := by
    rw [downloadAsset, Prog.eval_expect, hanswer, need]
  have hfile : (job.files item.1).getD [] = content := by rw [← hname, hcontent, Option.getD_some]
  rw [hfile, downloadChecked, Prog.eval_bind, hdownload, except_ok_bind, Prog.eval_bind,
    Prog.eval_lift, require_pos hdigest, except_ok_bind, Prog.eval_pure]

/-- What the manifest records of the published release. -/
def composed (job : Job) (archive sums : Bytes) (site : Site) (release : Release) : Composed :=
  ⟨job.tools.sha256 sums, job.tools.sha256 archive, site.length, release.id, job.commit⟩

section
variable {archive sums signature : Bytes} {site : Site} {rootUrl : String} {registry : Registry}
  {t : List (Event Answer)}

theorem standalone_mem {name : String} (h : name ∈ STANDALONE) :
    name ∈ releaseAssets job.values.version :=
  List.mem_cons_of_mem _ h

theorem Final.eval_composeServed (h : job.Final start hub release)
    (hproved : job.Proved archive sums signature site)
    (hbase : job.values.baseUrl = rootUrl ++ job.values.version ++ "/")
    (hnotes : fromUtf8 job.notes = some job.body) :
    (composeServed job.tools job.values.primaryFingerprint rootUrl job.values.version release).eval
      hub.serving = .ok (job.composed archive sums site release, site) := by
  have harchive := h.lookup_data (List.mem_cons_self) hproved.hasArchive
  have hsums := h.lookup_data (standalone_mem (by decide)) hproved.hasSums
  have hsignature := h.lookup_data (standalone_mem (by decide)) hproved.hasSignature
  have hunpack : unpackServed job.tools job.values.primaryFingerprint job.values.version
    (job.data release) =
      .ok (archive, sums, site) := by
    rw [unpackServed, need_ok.mpr harchive, except_ok_bind, need_ok.mpr hsums, except_ok_bind,
      need_ok.mpr hsignature, except_ok_bind, require_pos hproved.signed, except_ok_bind,
      hproved.unpacked]
    rfl
  have htag : (tagCommit release.tagName).eval hub.serving = .ok (some job.commit) := by
    have hcommit : hub.serving (.tagCommit release.tagName) = some (some job.commit) :=
      congrArg some (h.beside.tag ▸ h.tagged)
    rw [tagCommit, Prog.eval_expect, hcommit, need]
  have hstandalone : checkStandalone job.tools archive job.values.version
    (fun name => (job.data release).lookup name) =
      .ok () := by
    have hfiles := hproved.standalone
    simp only [checkStandalone, except_bind_ok, except_forM_ok, need_ok, require_ok] at hfiles ⊢
    obtain ⟨members, hmembers, hfiles⟩ := hfiles
    refine ⟨members, hmembers, fun name hname => ?_⟩
    obtain ⟨member, hmember, hregular, hcontent⟩ := hfiles name hname
    exact ⟨member, hmember, hregular, h.lookup_data (standalone_mem hname) hcontent⟩
  have hchecked : checkServed job.tools job.values.primaryFingerprint rootUrl
    job.values.version release
      (job.data release) archive site job.commit = .ok () := by
    have hidentity := hproved.identity
    rw [hbase] at hidentity
    rw [checkServed, hidentity, except_ok_bind, hproved.installer, except_ok_bind,
      require_pos hproved.canonical, except_ok_bind, need_ok.mpr hproved.notes, except_ok_bind,
      need_ok.mpr hnotes, except_ok_bind, require_pos ⟨h.name, h.body⟩, except_ok_bind, hstandalone]
  rw [composeServed]
  dsimp only
  rw [Prog.eval_bind, Prog.eval_lift, require_pos h.names, except_ok_bind, Prog.eval_bind,
    h.eval_data, except_ok_bind, Prog.eval_bind, Prog.eval_lift, hunpack, except_ok_bind]
  dsimp only
  rw [Prog.eval_bind, htag, except_ok_bind, Prog.eval_bind, Prog.eval_lift, need, except_ok_bind,
    Prog.eval_bind, Prog.eval_lift, hchecked, except_ok_bind]
  rfl

/-- The room's composition, with the published release. -/
def composition (job : Job) (room : Composition) (archive sums : Bytes) (site : Site)
    (release : Release) : Composition :=
  ⟨room.versions ++ [(job.values.version, job.composed archive sums site release)], room.gone,
    room.output ++ [(job.values.version, site)]⟩

theorem Beside.serving_eq (h : job.Beside start hub release) :
    ∀ q, job.Elsewhere start q → hub.serving q = start.answers q := by
  intro q hq
  have hanswers := h.answers_eq q hq
  cases q with
  | saveManifest => cases hq
  | _ => exact hanswers

/-- No version of the room is the published one. -/
theorem not_mem_room {fingerprint : String}
    (hwhole : Whole job.tools fingerprint rootUrl registry
    (some job.values.version) start.releases room t) :
    job.values.version ∉ room.versions.map Prod.fst ∧
      job.values.version ∉ room.gone.map Prod.fst := by
  have hnone : ∀ p : String × Release → Bool, job.values.version ∉
      ((candidates (some job.values.version) start.releases).filter p).map Prod.fst := by
    intro p hmem
    obtain ⟨candidate, hcandidate, heq⟩ := List.mem_map.mp hmem
    exact absurd (hwhole.older candidate (List.mem_filter.mp hcandidate).1 _ rfl)
      (by rw [heq]; exact lt_irrefl _)
  rw [hwhole.composes.versions_fst, hwhole.composes.gone_fst]
  exact ⟨hnone _, hnone _⟩

theorem checkEntries_composition (hentries : checkEntries registry room = .ok ()) :
    checkEntries registry (job.composition room archive sums site release) = .ok () := by
  simp only [checkEntries, except_bind_ok, except_forM_ok, need_ok, require_ok] at hentries ⊢
  obtain ⟨_, hpublished, hretired⟩ := hentries
  refine ⟨(), fun entry hentry => ?_, hretired⟩
  obtain ⟨composed, hlookup, hsums⟩ := hpublished entry hentry
  refine ⟨composed, ?_, hsums⟩
  rw [composition, List.lookup_append, hlookup, Option.some_or]

theorem Final.eval_composeReleases (h : job.Final start hub release)
    (hproved : job.Proved archive sums signature site) (hready : ∀ release ∈ start.releases,
    release.tagName ≠ job.tag) (hdeployable : job.Deployable start)
    (hchecked : job.Checked start room registry rootUrl t) :
    (composeReleases job.tools job.values.primaryFingerprint rootUrl registry none).eval
      hub.serving = .ok (job.composition room archive sums site release) := by
  have hroom := hchecked.composed
  have hwhole := hchecked.whole
  have hlist : listReleases.eval hub.serving = .ok hub.releases := rfl
  have hlist' : listReleases.eval start.answers = .ok start.releases := rfl
  rw [composeReleases, Prog.eval_bind, hlist', except_ok_bind, Prog.eval_bind, Prog.eval_lift,
    except_bind_ok] at hroom
  obtain ⟨_, -, hroom⟩ := hroom
  rw [Prog.eval_bind, except_bind_ok] at hroom
  obtain ⟨room', hfold, hroom⟩ := hroom
  rw [Prog.eval_bind, Prog.eval_lift, except_bind_ok] at hroom
  obtain ⟨_, hentries, hpure⟩ := hroom
  obtain rfl := Except.ok.inj hpure
  have hfold' : ((candidates (some job.values.version) start.releases).foldlM
      (composeRelease job.tools job.values.primaryFingerprint rootUrl registry)
        Composition.empty).eval hub.serving =
      .ok room' :=
    (Prog.eval_congr h.beside.serving_eq (Prog.asks_foldlM fun _ candidate hcandidate =>
      asks_composeRelease hcandidate)).trans hfold
  have hlast : (composeRelease job.tools job.values.primaryFingerprint rootUrl registry room'
      (job.values.version, release)).eval hub.serving = .ok
        (job.composition room' archive sums site release) := by
    have hkept : registry.retired.lookup job.values.version = none := by
      rw [List.lookup_eq_none_iff]
      intro entry hentry
      simpa using fun heq : job.values.version = entry.1 => hchecked.fresh
        (heq ▸ List.mem_map_of_mem (List.mem_append_right _ hentry))
    rw [composeRelease]
    dsimp only
    rw [Prog.eval_bind, Prog.eval_lift, require_pos (not_mem_room hwhole), except_ok_bind,
      Prog.eval_bind, Prog.eval_lift, require_pos h.immutable, except_ok_bind, Prog.eval_bind,
      Prog.eval_lift, require_pos h.beside.full, except_ok_bind, hkept]
    dsimp only
    rw [Prog.eval_bind, h.eval_composeServed hproved
      (hdeployable.base _ hchecked.root) hdeployable.notes, except_ok_bind]
    rfl
  have holder : ∀ candidate ∈ candidates none hub.releases, ∀ version ∈ (none : Option String),
      versionKey candidate.1 < versionKey version := fun _ _ _ habs => by cases habs
  rw [composeReleases, Prog.eval_bind, hlist, except_ok_bind, Prog.eval_bind, Prog.eval_lift,
    require_pos holder, except_ok_bind, h.candidates_eq hready hdeployable.version hwhole,
    List.foldlM_append, Prog.eval_bind, Prog.eval_bind, hfold', except_ok_bind, List.foldlM_cons,
    Prog.eval_bind, hlast, except_ok_bind]
  simp only [List.foldlM_nil, Prog.eval_pure, except_ok_bind, Prog.eval_bind, Prog.eval_lift,
    checkEntries_composition hentries]

/-! ### The gates behind the composition -/

/-- The live sums of the room's versions are theirs. -/
theorem live_room {answers : ∀ q, Answer q} {versions : List (String × String)}
    (h : (checkLiveSums job.tools rootUrl versions none).eval answers = .ok ()) :
    ∀ item ∈ versions, ∃ body, answers (.fetch (rootUrl ++ item.1 ++ "/SHA256SUMS")) = some
      (200, body) ∧ job.tools.sha256 body = item.2 := by
  rw [checkLiveSums, Prog.eval_forM, except_forM_ok] at h
  intro item hitem
  have hone := h item hitem
  dsimp only at hone
  rw [if_neg (Option.some_ne_none _).symm, Prog.eval_bind, fetch, Prog.eval_expect, except_bind_ok]
    at hone
  obtain ⟨⟨status, body⟩, hanswer, hone⟩ := hone
  rw [Prog.eval_lift, require_ok] at hone
  obtain ⟨rfl, hdigest⟩ := hone
  exact ⟨body, need_ok.mp hanswer, hdigest⟩

theorem Beside.live_room (h : job.Beside start hub release)
    (hlive : (checkLiveSums job.tools rootUrl room.sums none).eval start.answers = .ok ())
    {version : String} {composed : Composed} (hmem : (version, composed) ∈ room.versions) :
    ∃ body, hub.serving (.fetch (rootUrl ++ version ++ "/SHA256SUMS")) = some (200, body) ∧
      job.tools.sha256 body = composed.sums := by
  obtain ⟨body, hbody, hdigest⟩ := Job.live_room hlive (version, composed.sums)
    (List.mem_map.mpr ⟨_, hmem, rfl⟩)
  refine ⟨body, ?_, hdigest⟩
  exact (h.serving_eq (.fetch _) trivial).trans hbody

theorem Beside.eval_liveSums (h : job.Beside start hub release)
    (hlive : (checkLiveSums job.tools rootUrl room.sums none).eval start.answers = .ok ()) :
    (checkLiveSums job.tools rootUrl (job.composition room archive sums site release).sums
      (some job.values.version)).eval hub.serving = .ok () := by
  rw [checkLiveSums, Prog.eval_forM, except_forM_ok]
  rintro ⟨version, digest⟩ hitem
  obtain ⟨⟨version, composed⟩, hmem, heq⟩ := List.mem_map.mp hitem
  obtain ⟨rfl, rfl⟩ := Prod.mk.inj heq
  dsimp only
  split
  next => rfl
  next hne =>
    rcases List.mem_append.mp hmem with hmem | hmem
    · obtain ⟨body, hbody, hdigest⟩ := h.live_room hlive hmem
      rw [Prog.eval_bind, fetch, Prog.eval_expect, hbody, need, except_ok_bind]
      dsimp only
      rw [Prog.eval_lift, require_pos ⟨rfl, hdigest⟩]
    · exact absurd (congrArg (fun item => some item.1) (List.mem_singleton.mp hmem).symm) hne

/-- The manifest of the composition with the published release. -/
def manifest (job : Job) (composition : Composition) : Manifest :=
  ⟨job.values.baseUrl, composition.versions, composition.bytes, some job.values.version,
    composition.gone⟩

theorem Final.eval_composePages (h : job.Final start hub release)
    (hproved : job.Proved archive sums signature site) (hready : ∀ release ∈ start.releases,
    release.tagName ≠ job.tag) (hdeployable : job.Deployable start)
    (hchecked : job.Checked start room registry rootUrl t) :
    (composePages job.tools job.values job.values.primaryFingerprint job.registry
      (some job.values.version) MAX_SITE true ⟨none, none⟩).eval hub.serving =
      .ok (.ok (job.manifest (job.composition room archive sums site release)),
        ⟨some (room.output ++ [(job.values.version, site)]),
          some (job.manifest (job.composition room archive sums site release))⟩) := by
  have hinputs : composeInputs job.tools job.values job.registry (some job.values.version) true
    ⟨none, none⟩ =
      .ok (registry, rootUrl) := by
    rw [composeInputs, require_pos ⟨rfl, rfl⟩, except_ok_bind, require_pos rfl, except_ok_bind,
      require_pos (.inr rfl), except_ok_bind, hchecked.loaded, except_ok_bind,
      hchecked.root]
    rfl
  have hnewest : checkNewest
    ((job.composition room archive sums site release).versions.map Prod.fst)
      (some job.values.version) = .ok () := by
    rw [checkNewest, composition, List.map_append, List.map_singleton, require_pos (by simp),
      except_ok_bind, require_pos]
    intro other hother
    rcases List.mem_append.mp hother with hother | hother
    · rw [hchecked.whole.composes.versions_fst] at hother
      obtain ⟨candidate, hcandidate, rfl⟩ := List.mem_map.mp hother
      exact (hchecked.whole.older candidate (List.mem_filter.mp hcandidate).1 _ rfl).le
    · exact (List.mem_singleton.mp hother) ▸ le_rfl
  have hrecorded' : (checkRecorded registry (some job.values.version)).eval hub.serving = .ok () :=
    h.beside.eval_checkRecorded hchecked.recorded
  have hbytes : (job.composition room archive sums site release).bytes ≤ MAX_SITE := by
    have hfits := hchecked.fits
    rw [hproved.size] at hfits
    rw [Composition.bytes, composition, List.map_append, List.sum_append, List.map_singleton,
      List.sum_singleton]
    exact hfits
  have hbody : (composeBody job.tools job.values job.values.primaryFingerprint registry rootUrl
      (some job.values.version) MAX_SITE).eval hub.serving = .ok
        (job.composition room archive sums site release,
        job.manifest (job.composition room archive sums site release)) := by
    rw [composeBody, Prog.eval_bind, h.eval_composeReleases hproved hready hdeployable hchecked,
      except_ok_bind, Prog.eval_bind, Prog.eval_lift, hnewest, except_ok_bind, Prog.eval_bind,
      hrecorded', except_ok_bind, Prog.eval_bind, h.beside.eval_liveSums hchecked.live,
      except_ok_bind, Prog.eval_bind, Prog.eval_lift, require_pos hbytes]
    rfl
  rw [composePages, hinputs]
  dsimp only
  rw [Prog.eval_bind, Prog.eval_attempt, hbody]
  rfl

/-! ### The check before the deployment -/

/-- An asset is the only one of its name. -/
theorem filter_name {asset : Asset} : ∀ {assets : List Asset}, (assets.map Asset.name).Nodup →
    asset ∈ assets → assets.filter (fun other => other.name = asset.name) = [asset]
  | [], _, hmem => by cases hmem
  | first :: assets, hnodup, hmem => by
    rw [List.map_cons, List.nodup_cons] at hnodup
    rcases List.mem_cons.mp hmem with rfl | hmem
    · rw [List.filter_cons_of_pos (by simp), List.filter_eq_nil_iff.mpr]
      intro other hother
      simpa using fun heq : other.name = asset.name => hnodup.1 (heq ▸ List.mem_map_of_mem hother)
    · rw [List.filter_cons_of_neg, filter_name hnodup.2 hmem]
      simpa using fun heq : first.name = asset.name => hnodup.1 (heq ▸ List.mem_map_of_mem hmem)

variable {json : String → Option Value} {str : Value → String} {stale : String}
  {record : PagesRecord}

/-- The published release passes for what is recorded of it. -/
theorem Final.eval_checkComposed (h : job.Final start hub release)
    (hproved : job.Proved archive sums signature site) (hstr : ∀ s, str (.str s) = s)
    (hentry : record.versions.lookup job.values.version = some
    (job.composed archive sums site release).value) :
    (checkComposed str stale record (job.values.version, release)).eval hub.serving = .ok () := by
  refine NpuStack.Publish.eval_checkComposed hstr hentry ?_ rfl
    (congrArg some (h.beside.tag ▸ h.tagged))
  obtain ⟨asset, hasset, hname⟩ :=
    List.mem_map.mp (h.whole "SHA256SUMS" (standalone_mem (by decide)))
  obtain ⟨-, content, hcontent, hdigest, -⟩ := h.beside.own asset hasset
  rw [hname, hproved.hasSums] at hcontent
  rw [← hname, filter_name h.beside.names hasset, List.map_singleton, hdigest,
    ← Option.some.inj hcontent]
  rfl

/-- So does every other release for what the room check composed of it. -/
theorem Checked.eval_checkComposed (hchecked : job.Checked start room registry rootUrl t)
    (hbeside : job.Beside start hub release) (hdeployable : job.Deployable start)
    (hready : ∀ release ∈ start.releases, release.tagName ≠ job.tag) (hstr : ∀ s, str (.str s) = s)
    (hrecord : ∀ version composed, (version, composed) ∈ room.versions →
      record.versions.lookup version = some composed.value) {candidate : String × Release}
    (hmem : candidate ∈
    (candidates (some job.values.version) start.releases).filter fun candidate =>
      !isRetired registry candidate) :
    (checkComposed str stale record candidate).eval hub.serving = .ok () := by
  obtain ⟨items, hversions, -, hitems⟩ := hchecked.whole.composes.served
  obtain ⟨⟨version, composed, site⟩, hitem, hname, hserved⟩ :=
    Keyed.exists_of_mem_left hitems _ hmem
  obtain ⟨hother, -, -⟩ := mem_candidates.mp (List.mem_filter.mp hmem).1
  obtain ⟨_, sums, _, _, _, -, ⟨asset, hasset, hasset', hdigest, -⟩, -, -, -, hcomposed, -⟩ :=
    hserved.exact
  simp only at hname hcomposed hserved
  have hentry : (version, composed) ∈ room.versions := hversions ▸ List.mem_map.mpr ⟨_, hitem, rfl⟩
  have hcommit : start.answers (.tagCommit candidate.2.tagName) = some (some composed.commit) :=
    (hchecked.answered _ hserved.tagged).symm
  refine NpuStack.Publish.eval_checkComposed hstr (hname ▸ hrecord _ _ hentry) ?_ ?_
    ((hbeside.serving_eq (.tagCommit _) (hready _ hother)).trans hcommit)
  · rw [← hasset', filter_name (hdeployable.names _ hother) hasset, List.map_singleton,
      hdigest, hcomposed]
    rfl
  · rw [hcomposed]

/-- The versions the registry retires are written with plain paths. -/
theorem Checked.gone_plain (hchecked : job.Checked start room registry rootUrl t) :
    ∀ item ∈ room.gone, releaseVersion item.1 = true ∧ ∀ path ∈ item.2, plainPath path = true := by
  intro item hitem
  obtain ⟨candidate, hcandidate, hname, digest, -, sums, -, -, hfiles⟩ :=
    Keyed.exists_of_mem_right hchecked.whole.composes.retired _ hitem
  obtain ⟨-, ⟨-, htag⟩, -⟩ := mem_candidates.mp (List.mem_filter.mp hcandidate).1
  refine ⟨hname ▸ (tagVersion_eq_some.mp htag).2, fun path hpath => ?_⟩
  rcases (hfiles path).mp hpath with hpath | ⟨listed, hlisted, -, hpath⟩
  · have hplain : ∀ path ∈ SUMS_FILES, plainPath path = true := by decide
    exact hplain path hpath
  · exact (parseSums_ok hlisted).plain path hpath

theorem Final.eval_checkDeploy {content : Bytes} (h : job.Final start hub release)
    (hproved : job.Proved archive sums signature site)
    (hready : ∀ release ∈ start.releases, release.tagName ≠ job.tag)
    (hdeployable : job.Deployable start)
    (hchecked : job.Checked start room registry rootUrl t) (hstr : ∀ s, str (.str s) = s)
    (hreads : (Py.readText content).bind json =
      some (job.manifest (job.composition room archive sums site release)).value) :
    (checkDeploy job.tools json str job.values job.registry content).eval hub.serving =
      .ok ⟨job.values.version,
        (job.composition room archive sums site release).versions.map Prod.fst⟩ := by
  have hcandidates := h.candidates_eq hready hdeployable.version hchecked.whole
  have hkept : isRetired registry (job.values.version, release) = false := by
    rw [Bool.eq_false_iff]
    exact fun hretired => hchecked.fresh (by
      rw [Registry.versions, List.map_append]
      exact List.mem_append_right _ (isRetired_iff.mp hretired))
  have hserved : (candidates none hub.releases).filter
    (fun candidate => !isRetired registry candidate) =
      (candidates (some job.values.version) start.releases).filter
        (fun candidate => !isRetired registry candidate) ++ [(job.values.version, release)] := by
    rw [hcandidates, List.filter_append, List.filter_cons_of_pos (by simp [hkept]), List.filter_nil]
  have hnames : ((candidates none hub.releases).filter fun candidate =>
    !isRetired registry candidate).map Prod.fst =
      (job.composition room archive sums site release).versions.map Prod.fst := by
    rw [hserved, List.map_append, composition, List.map_append,
      hchecked.whole.composes.versions_fst]
    rfl
  have hrecord : pagesRecord json job.values content = .ok
      ⟨(sortKeys (job.composition room archive sums site release).versions).map fun item =>
        (item.1, item.2.value),
        sortKeys room.gone⟩ := pagesRecord_written hreads rfl rfl hchecked.gone_plain
  have hkeys := keys_recorded (job.composition room archive sums site release).versions
  have hnodup : ((job.composition room archive sums site release).versions.map Prod.fst).Nodup := by
    rw [composition, List.map_append, List.map_singleton, ← List.concat_eq_append]
    refine List.Nodup.concat (not_mem_room hchecked.whole).1 ?_
    rw [hchecked.whole.composes.versions_fst]
    exact hchecked.whole.composes.unique.sublist (List.filter_sublist.map _)
  have hlookup : ∀ item ∈ (job.composition room archive sums site release).versions,
    List.lookup item.1
      ((sortKeys (job.composition room archive sums site release).versions).map fun item =>
        (item.1, item.2.value)) = some item.2.value := fun item hitem =>
    Keyed.lookup_of_mem (hkeys.nodup_iff.mpr hnodup)
      (List.mem_map.mpr ⟨_, (perm_sortKeys _).mem_iff.mpr hitem, rfl⟩)
  have hlist : hub.serving .releases = some hub.releases := rfl
  refine (NpuStack.Publish.eval_checkDeploy hrecord hchecked.loaded hlist ?_ ?_ ?_
    (h.beside.eval_checkRecorded hchecked.recorded) hchecked.root ?_).trans (by rw [hnames])
  · rw [hcandidates, List.getLast?_append]
    rfl
  · have hsorted : (((candidates none hub.releases).filter fun candidate =>
      !isRetired registry candidate).map
        Prod.fst).Pairwise fun a b => versionKey a ≤ versionKey b :=
      List.pairwise_map.mpr ((pairwise_candidates none hub.releases).filter _)
    refine (mergeSort_versions (hnames ▸ hkeys.symm) (fun version hmem => ?_) hsorted).symm
    obtain ⟨candidate, hcandidate, rfl⟩ := List.mem_map.mp hmem
    exact (tagVersion_eq_some.mp (mem_candidates.mp (List.mem_filter.mp hcandidate).1).2.1.2).2
  · intro stale candidate hcandidate
    rw [hserved] at hcandidate
    rcases List.mem_append.mp hcandidate with hcandidate | hcandidate
    · exact hchecked.eval_checkComposed h.beside hdeployable hready hstr
        (fun version composed hmem => hlookup (version, composed)
          (List.mem_append_left _ hmem)) hcandidate
    · rw [List.mem_singleton.mp hcandidate]
      exact h.eval_checkComposed hproved hstr
        (hlookup (job.values.version, job.composed archive sums site release)
          (List.mem_append_right _ (by simp)))
  · intro item hitem
    obtain ⟨⟨version, composed⟩, hmem, rfl⟩ := List.mem_map.mp hitem
    refine @eval_checkLiveRecord job.tools hub.serving rootUrl job.values.version
      (version, composed) fun hne => ?_
    rcases List.mem_append.mp ((perm_sortKeys _).mem_iff.mp hmem) with hmem | hmem
    · exact h.beside.live_room hchecked.live hmem
    · exact absurd (congrArg Prod.fst (List.mem_singleton.mp hmem)) hne

end

end Job

/-- Once a publication has ended, composing with its version serves the room's versions and it, and
    the check before the deployment passes: no gate that is left refuses a release that was
    published. -/
theorem published_deploys {job : Job} {start hub : Hub} {release : Release} {room : Composition}
    {str : Value → String} (hready : job.Ready start room)
    (hfinal : job.Final start hub release) (hdeployable : job.Deployable start)
    (hstr : ∀ s, str (.str s) = s) :
    ∃ archive sums signature site manifest, job.Proved archive sums signature site ∧
      manifest.versions = room.versions ++
        [(job.values.version, job.composed archive sums site release)] ∧
      manifest.retired = room.gone ∧
      (composePages job.tools job.values job.values.primaryFingerprint job.registry
        (some job.values.version) MAX_SITE true ⟨none, none⟩).eval hub.serving =
        .ok (.ok manifest, ⟨some (room.output ++ [(job.values.version, site)]), some manifest⟩) ∧
      ∀ (json : String → Option Value) (content : Bytes),
        (Py.readText content).bind json = some manifest.value →
        (checkDeploy job.tools json str job.values job.registry content).eval hub.serving =
          .ok ⟨job.values.version, manifest.versions.map Prod.fst⟩ := by
  obtain ⟨archive, sums, signature, site, hproved⟩ := job.exists_proved
  obtain ⟨registry, rootUrl, t, hchecked⟩ := hready.checked
  refine ⟨archive, sums, signature, site,
    job.manifest (job.composition room archive sums site release), hproved, rfl,
    rfl, hfinal.eval_composePages hproved hready.releases hdeployable hchecked,
      fun json content hreads => ?_⟩
  exact hfinal.eval_checkDeploy hproved hready.releases hdeployable hchecked hstr hreads

namespace Sample

/-- The repository once the release is published. -/
def published : Hub where
  releases := [release]
  tags := [("v1.0.0", "c")]
  commits tag := if tag = "v1.0.0" then some "c" else none
  contents url := some (content url)
  live _ := none

theorem final : job.Final start published release where
  beside := {
    fresh := by simp [start]
    placed := ⟨[], [], rfl, rfl⟩
    tag := rfl
    target := rfl
    full := rfl
    names := by decide
    own := by
      intro asset hasset
      obtain ⟨name, hname, rfl⟩ := List.mem_map.mp hasset
      exact ⟨hname, content name, rfl, rfl, rfl⟩
    others := by simp [start]
    commits := fun tag hne => if_neg hne
    tags := by decide
    live := rfl }
  draft := rfl
  immutable := rfl
  name := rfl
  body := rfl
  whole := by decide
  tagged := rfl

theorem deployable : job.Deployable start where
  version := by decide
  base := by
    intro root hroot
    have hrootUrl : siteRoot values.baseUrl = .ok rootUrl := rfl
    obtain rfl := Except.ok.inj (hrootUrl.symm.trans hroot)
    rfl
  notes := fromUtf8_eq_some.mpr (by decide)
  names := by simp [start]

end Sample

theorem published_deploys_sample : ∃ site manifest,
    (composePages Sample.tools Sample.values "F" [] (some "1.0.0") MAX_SITE true ⟨none, none⟩).eval
        Sample.published.serving = .ok (.ok manifest, ⟨some [("1.0.0", site)], some manifest⟩) ∧
      ∃ versions, (checkDeploy Sample.tools (fun _ => some manifest.value) Sample.str Sample.values
        [] []).eval Sample.published.serving = .ok ⟨"1.0.0", versions⟩ := by
  obtain ⟨_, _, _, site, manifest, -, -, -, hpages, hdeploys⟩ :=
    @published_deploys _ _ _ _ _ Sample.str Sample.ready Sample.final Sample.deployable fun _ => rfl
  have hreads : (Py.readText []).bind (fun _ => some manifest.value) = some manifest.value := by
    rw [show Py.readText [] = some "" by decide]
    rfl
  exact ⟨site, manifest, hpages, _, hdeploys _ [] hreads⟩

end NpuStack.Publish
