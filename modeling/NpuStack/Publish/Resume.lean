import NpuStack.Publish.Hub

/-! A publication may be cut after any request, any number of times, and a later run finishes it.

        absent ──create──▶ draft ──describe, upload…──▶ draft ──undraft──▶ published
           └───────────── every state a cut run leaves is one of these ─────────┘

    What is served besides this version stays as it was, so each run's room check and snapshots
    agree (`Beside`). From every stage a run whose calls succeed ends with the same release
    (`publish_holds`); nothing is created, uploaded or published twice, because no stage has room
    for it. -/

namespace NpuStack.Publish
open Interaction Text

namespace Job
variable (job : Job)

/-! ### Stages -/

/-- What the publication starts from: nothing of it is there, and what is served passes the room
    check. -/
structure Ready (start : Hub) (room : Composition) : Prop where
  releases : ∀ release ∈ start.releases, release.tagName ≠ job.tag
  commit : start.commits job.tag = none
  room : (checkPagesRoom job.tools job.values job.registry job.size).eval start.answers = .ok room

/-- The hub as it was at the start, with one release of this publication besides: assets of its own,
    each with the bytes and the digest of the file of that name. -/
structure Beside (start hub : Hub) (release : Release) : Prop where
  fresh : ∀ other ∈ start.releases, other.id ≠ release.id ∧ uploadBase other ≠ uploadBase release
  placed : ∃ before after, start.releases = before ++ after ∧ hub.releases = before ++
    release :: after
  tag : release.tagName = job.tag
  target : release.targetCommitish = job.commit
  full : release.prerelease = false
  names : (release.assets.map Asset.name).Nodup
  own : ∀ asset ∈ release.assets, asset.name ∈ releaseAssets job.values.version ∧
    ∃ content, job.files asset.name = some content ∧ asset.digest = some
      (apiDigest job.tools content) ∧ hub.contents asset.url = some content
  others : ∀ other ∈ start.releases, ∀ asset ∈ other.assets,
    hub.contents asset.url = start.contents asset.url
  commits : ∀ tag, tag ≠ job.tag → hub.commits tag = start.commits tag
  tags : hub.tags.filter (fun tag => tag.1 ≠ job.tag) = start.tags.filter fun tag => tag.1 ≠ job.tag
  live : hub.live = start.live

/-- The draft of this publication, whatever it carries of it. -/
structure Drafted (start hub : Hub) (release : Release) : Prop where
  beside : job.Beside start hub release
  draft : release.draft = true
  untagged : hub.commits job.tag = none

/-- The release of this publication, whole and immutable, with its tag at the release commit. -/
structure Final (start hub : Hub) (release : Release) : Prop where
  beside : job.Beside start hub release
  draft : release.draft = false
  immutable : release.immutable = some true
  name : release.name = some (releaseTitle job.values.version)
  body : release.body = some job.body
  whole : ∀ name ∈ releaseAssets job.values.version, name ∈ release.assets.map Asset.name
  tagged : hub.commits job.tag = some job.commit

/-- How far a publication has come. -/
inductive Stage (start hub : Hub) : Prop
  | absent (same : hub = start)
  | draft (release : Release) (drafted : job.Drafted start hub release)
  | published (release : Release) (final : job.Final start hub release)

/-! ### The local digests -/

variable {job}

/-- Each publication asset has the digest of its file. -/
theorem locals_spec :
    List.Forall₂ (fun name item => name = item.1 ∧ ∃ content, job.files name = some content ∧
    item.2 = job.tools.sha256 content) (releaseAssets job.values.version) job.locals := by
  have hproved := job.proved
  simp only [localAssets, except_bind_ok] at hproved
  obtain ⟨digests, hdigests, hproved⟩ := hproved
  have hlocals : job.locals = digests := by
    obtain ⟨_, -, _, -, _, -, _, -, _, -, _, -, _, -, _, -, _, -, _, -, _, -, hpure⟩ := hproved
    exact congrArg Prod.fst (Except.ok.inj hpure).symm
  rw [hlocals]
  refine (except_mapM_ok.mp hdigests).imp fun name item hitem => ?_
  rw [except_bind_ok] at hitem
  obtain ⟨content, hcontent, hpure⟩ := hitem
  cases hpure
  exact ⟨rfl, content, need_ok.mp hcontent, rfl⟩

theorem locals_fst : job.locals.map Prod.fst = releaseAssets job.values.version :=
  (Keyed.map_eq_of_forall₂ (f := id) (locals_spec.imp fun _ _ h => h.1)).symm.trans (List.map_id _)

theorem locals_lookup {name : String} (h : name ∈ releaseAssets job.values.version) :
    ∃ content, job.files name = some content ∧ job.locals.lookup name = some
      (job.tools.sha256 content) := by
  obtain ⟨item, hitem, rfl, content, hcontent, hdigest⟩ := Keyed.exists_of_mem_left locals_spec _ h
  refine ⟨content, hcontent, Keyed.lookup_of_mem ?_ (hdigest ▸ hitem)⟩
  rw [locals_fst]
  exact releaseAssets_nodup _

/-! ### What does not change -/

section
variable {start hub : Hub} {release : Release}

theorem tagVersion_tag {version : String} (h : release.tagName = job.tag)
    (hversion : tagVersion release.tagName = some version) : version = job.values.version := by
  obtain ⟨htag, -⟩ := tagVersion_eq_some.mp hversion
  rw [h, tag] at htag
  exact ((String.append_right_inj _).mp htag).symm

namespace Beside

theorem mem (h : job.Beside start hub release) : release ∈ hub.releases := by
  obtain ⟨before, after, -, hhub⟩ := h.placed
  simp [hhub]

/-- The release is none of those composed besides it. -/
theorem candidates_eq (h : job.Beside start hub release) :
    candidates (some job.values.version) hub.releases = candidates
      (some job.values.version) start.releases := by
  obtain ⟨before, after, hstart, hhub⟩ := h.placed
  rw [candidates, candidates, hstart, hhub, List.filterMap_append, List.filterMap_append,
    List.filterMap_cons]
  cases hversion : tagVersion release.tagName with
  | none => rfl
  | some version =>
    obtain rfl := tagVersion_tag h.tag hversion
    simp

end Beside

/-- Questions about what is served besides this publication. -/
def Elsewhere (job : Job) (start : Hub) : Question → Prop
  | .download url => ∃ other ∈ start.releases, ∃ asset ∈ other.assets, asset.url = url
  | .tagCommit tag => tag ≠ job.tag
  | .fetch _ => True
  | _ => False

/-- They have the answers they had at the start. -/
theorem Beside.answers_eq (h : job.Beside start hub release) :
    ∀ q, job.Elsewhere start q → hub.answers q = start.answers q := by
  intro q hq
  cases q with
  | download url =>
    obtain ⟨other, hother, asset, hasset, rfl⟩ := hq
    exact h.others other hother asset hasset
  | tagCommit tag => exact congrArg some (h.commits tag hq)
  | fetch url => exact congrFun h.live url
  | _ => cases hq

theorem asks_checkLiveSums (rootUrl : String) (versions : List (String × String)) :
    (checkLiveSums job.tools rootUrl versions none).Asks (job.Elsewhere start) := by
  rw [checkLiveSums]
  refine Prog.asks_forM fun item _ => ?_
  dsimp only
  split
  · exact Prog.asks_pure _
  · exact Prog.asks_expect_bind trivial fun _ => Prog.asks_lift _

theorem asks_composeRelease {rootUrl : String} {registry : Registry} {composition : Composition}
    {candidate : String × Release}
    (hmem : candidate ∈ candidates (some job.values.version) start.releases) :
    (composeRelease job.tools job.values.primaryFingerprint rootUrl registry composition
      candidate).Asks (job.Elsewhere start) := by
  obtain ⟨version, other⟩ := candidate
  obtain ⟨hother, ⟨-, hversion⟩, hpending⟩ := mem_candidates.mp hmem
  have hasset : ∀ item ∈ other.assetsByName, job.Elsewhere start (.download item.2.url) :=
      fun item hitem =>
    ⟨other, hother, item.2, (mem_assetsByName hitem).1, rfl⟩
  have htag : job.Elsewhere start (.tagCommit other.tagName) := fun htag =>
    hpending (congrArg some (tagVersion_tag htag hversion).symm)
  rw [composeRelease]
  refine Prog.asks_lift_bind fun _ => Prog.asks_lift_bind fun _ => Prog.asks_lift_bind fun _ => ?_
  split
  · refine Prog.asks_bind ?_ fun _ => Prog.asks_pure _
    rw [composeRetired]
    cases hlookup : other.assetsByName.lookup "SHA256SUMS" with
    | none => trivial
    | some asset =>
      refine Prog.asks_expect_bind (hasset _ (Keyed.mem_of_lookup hlookup)) fun _ => ?_
      exact Prog.asks_lift_bind fun _ => Prog.asks_lift _
  · refine Prog.asks_bind ?_ fun _ => Prog.asks_pure _
    rw [composeServed]
    refine Prog.asks_lift_bind fun _ => Prog.asks_bind (Prog.asks_mapM fun item hitem =>
      ?_) fun data => ?_
    · exact Prog.asks_expect_bind (hasset item hitem) fun _ => Prog.asks_lift_bind fun _ =>
        Prog.asks_pure _
    · refine Prog.asks_lift_bind fun _ => Prog.asks_expect_bind htag fun _ => ?_
      exact Prog.asks_lift_bind fun _ => Prog.asks_lift_bind fun _ => Prog.asks_pure _

/-- Composing goes as it went at the start. -/
theorem Beside.eval_composeReleases (h : job.Beside start hub release) (rootUrl : String)
    (registry : Registry) :
    (composeReleases job.tools job.values.primaryFingerprint rootUrl registry
        (some job.values.version)).eval hub.answers =
      (composeReleases job.tools job.values.primaryFingerprint rootUrl registry
        (some job.values.version)).eval start.answers := by
  have hfold : ∀ {seen : List (String × Release)} {composition : Composition},
      (∀ candidate ∈ seen, candidate ∈ candidates (some job.values.version) start.releases) →
      (seen.foldlM (composeRelease job.tools job.values.primaryFingerprint rootUrl registry)
        composition).eval hub.answers =
      (seen.foldlM (composeRelease job.tools job.values.primaryFingerprint rootUrl registry)
        composition).eval start.answers := fun hseen =>
    Prog.eval_congr h.answers_eq (Prog.asks_foldlM fun _ candidate hcandidate =>
      asks_composeRelease (hseen candidate hcandidate))
  have hlist : ∀ hub : Hub, listReleases.eval hub.answers = .ok hub.releases := fun _ => rfl
  rw [composeReleases, Prog.eval_bind, Prog.eval_bind, hlist, hlist, except_ok_bind, except_ok_bind,
    h.candidates_eq, Prog.eval_bind, Prog.eval_bind, Prog.eval_bind, Prog.eval_bind,
    hfold fun candidate hcandidate => hcandidate]
  simp only [Prog.eval_lift, Prog.eval_bind, Prog.eval_pure]

/-- A release of this version leaves the tags recorded. -/
theorem Beside.eval_checkRecorded (h : job.Beside start hub release) {registry : Registry}
    (hrecorded : (checkRecorded registry (some job.values.version)).eval start.answers = .ok ()) :
    (checkRecorded registry (some job.values.version)).eval hub.answers = .ok () := by
  have hlist : ∀ hub : Hub, listTags.eval hub.answers = .ok hub.tags := fun _ => rfl
  rw [checkRecorded, Prog.eval_bind, hlist, except_ok_bind, Prog.eval_lift, require_ok]
    at hrecorded ⊢
  intro entry hentry tagged htagged
  by_cases hours : entry.1 = job.tag
  · obtain ⟨htag, -⟩ := tagVersion_eq_some.mp htagged
    rw [hours, Job.tag] at htag
    exact .inr (congrArg some ((String.append_right_inj _).mp htag))
  · have hmem : entry ∈ hub.tags.filter fun tag => tag.1 ≠ job.tag :=
      List.mem_filter.mpr ⟨hentry, by simpa using hours⟩
    rw [h.tags] at hmem
    exact hrecorded entry (List.mem_filter.mp hmem).1 tagged htagged

/-- What a room check has found, once more. -/
theorem eval_checkPagesRoom {answers : ∀ q, Answer q} {room : Composition} :
    (checkPagesRoom job.tools job.values job.registry job.size).eval answers = .ok room ↔
      ∃ registry rootUrl, loadRegistry job.tools job.registry = .ok registry ∧
        job.values.version ∉ registry.versions ∧ siteRoot job.values.baseUrl = .ok rootUrl ∧
        (composeReleases job.tools job.values.primaryFingerprint rootUrl registry
          (some job.values.version)).eval answers = .ok room ∧
        (checkRecorded registry (some job.values.version)).eval answers = .ok () ∧
        (checkLiveSums job.tools rootUrl room.sums none).eval answers = .ok () ∧
        room.bytes + job.size ≤ MAX_SITE := by
  rw [checkPagesRoom]
  simp only [Prog.eval_bind, Prog.eval_lift, Prog.eval_pure, except_bind_ok, require_ok,
    Except.ok.injEq]
  constructor
  · rintro ⟨registry, hregistry, _, hfresh, rootUrl, hroot, room', hcompose, _, hrecorded, _,
      hlive, _, hfits, rfl⟩
    exact ⟨registry, rootUrl, hregistry, hfresh, hroot, hcompose, hrecorded, hlive, hfits⟩
  · rintro ⟨registry, rootUrl, hregistry, hfresh, hroot, hcompose, hrecorded, hlive, hfits⟩
    exact ⟨registry, hregistry, ⟨⟩, hfresh, rootUrl, hroot, room, hcompose, ⟨⟩, hrecorded, ⟨⟩,
      hlive, ⟨⟩, hfits, rfl⟩

theorem Beside.eval_checkLiveSums (h : job.Beside start hub release) (rootUrl : String)
    (versions : List (String × String)) :
    (checkLiveSums job.tools rootUrl versions none).eval hub.answers =
      (checkLiveSums job.tools rootUrl versions none).eval start.answers :=
  Prog.eval_congr h.answers_eq (asks_checkLiveSums rootUrl versions)

/-- The room check passes at every stage, with what it composed at the start. -/
theorem Stage.eval_checkPagesRoom {room : Composition} (hready : job.Ready start room)
    (h : job.Stage start hub) :
    (checkPagesRoom job.tools job.values job.registry job.size).eval hub.answers = .ok room := by
  have hbeside : ∀ {release : Release}, job.Beside start hub release →
      (checkPagesRoom job.tools job.values job.registry job.size).eval hub.answers = .ok room := by
    intro release h
    obtain ⟨registry, rootUrl, hregistry, hfresh, hroot, hcompose, hrecorded, hlive, hfits⟩ :=
      Job.eval_checkPagesRoom.mp hready.room
    refine Job.eval_checkPagesRoom.mpr ⟨registry, rootUrl, hregistry, hfresh, hroot, ?_,
      h.eval_checkRecorded hrecorded, ?_, hfits⟩
    · rw [h.eval_composeReleases, hcompose]
    · rw [h.eval_checkLiveSums, hlive]
  cases h with
  | absent same => exact same ▸ hready.room
  | draft release drafted => exact hbeside drafted.beside
  | published release final => exact hbeside final.beside

/-- What a run finds of its publication is the stage it has come to. -/
theorem Beside.matched (hready : ∀ other ∈ start.releases, other.tagName ≠ job.tag)
    (h : job.Beside start hub release) :
    hub.releases.filter (fun other => other.tagName = "v" ++ job.values.version) = [release] := by
  obtain ⟨before, after, hstart, hhub⟩ := h.placed
  rw [hstart, List.forall_mem_append] at hready
  have hnone : ∀ {others : List Release}, (∀ other ∈ others, other.tagName ≠ job.tag) →
      others.filter (fun other => other.tagName = "v" ++ job.values.version) = [] := fun hothers =>
    List.filter_eq_nil_iff.mpr fun other hother => by simpa [Job.tag] using hothers other hother
  have htag : release.tagName = "v" ++ job.values.version := h.tag
  rw [hhub, List.filter_append, List.filter_cons, hnone hready.1, hnone hready.2]
  simp [htag]

/-- An update of the release rewrites it in its place. -/
theorem Beside.updated {hub' : Hub} {fields : Fields} (h : job.Beside start hub release)
    (hu : Updated release.id fields hub hub') (htag : fields.tagName = job.tag)
    (htarget : fields.targetCommitish = job.commit)
    (hfull : fields.prerelease.getD release.prerelease = false) :
    job.Beside start hub' (release.rewrite fields) ∧ Retagged release fields hub hub' := by
  obtain ⟨before, after, hstart, hhub⟩ := h.placed
  obtain ⟨before', release', after', hhub', hid, hplaced, hretagged⟩ := hu.placed
  have hfresh : ∀ other ∈ before ++ after, other.id ≠ release.id := fun other hother =>
    (h.fresh other (hstart ▸ hother)).1
  obtain ⟨rfl, rfl, rfl⟩ := place_unique Release.id (hhub.symm.trans hhub') hfresh hid
  refine ⟨⟨h.fresh, ⟨before, after, hstart, hplaced⟩, htag, htarget, hfull, h.names, ?_, ?_, ?_,
    ?_, ?_⟩, hretagged⟩
  · rw [hu.rest.1]
    exact h.own
  · rw [hu.rest.1]
    exact h.others
  · exact fun tag hne => (hretagged.others tag (htag ▸ hne)).trans (h.commits tag hne)
  · have hlisted := hretagged.listed
    rw [htag] at hlisted
    exact hlisted.trans h.tags
  · exact hu.rest.2.trans h.live

/-- The undraft of a whole draft makes it the final release. -/
theorem Drafted.published {hub' : Hub} (h : job.Drafted start hub release)
    (hwhole : ∀ name ∈ releaseAssets job.values.version, name ∈ release.assets.map Asset.name)
    (hu : Updated release.id (undraftFields job.values job.commit job.body) hub hub') :
    job.Final start hub' (release.rewrite (undraftFields job.values job.commit job.body)) := by
  obtain ⟨hbeside, hretagged⟩ := h.beside.updated hu rfl rfl rfl
  refine ⟨hbeside, rfl, ?_, rfl, rfl, hwhole, ?_⟩
  · simp [Release.rewrite, undraftFields, h.draft]
  · have hnamed := hretagged.named
    have huntagged := h.untagged
    rw [Job.tag] at huntagged ⊢
    simpa [undraftFields, h.draft, huntagged] using hnamed

/-- An upload adds one asset of its own to a draft. -/
theorem Drafted.uploaded {hub' : Hub} {name : String} {content : Bytes}
    (h : job.Drafted start hub release)
    (hname : name ∈ releaseAssets job.values.version) (hfile : job.files name = some content)
    (hu : Uploaded job.tools (uploadBase release) name content hub hub') :
    ∃ asset, asset.name = name ∧ job.Drafted start hub' { release with assets := release.assets ++
      [asset] } := by
  obtain ⟨before, after, hstart, hhub⟩ := h.beside.placed
  obtain ⟨before', release', after', asset, hhub', hbase, hmissing, hplaced, hasset,
    hdigest, hurl, hcontent, hcontents⟩ := hu.placed
  have hfresh : ∀ other ∈ before ++ after, uploadBase other ≠ uploadBase release :=
      fun other hother =>
    (h.beside.fresh other (hstart ▸ hother)).2
  obtain ⟨rfl, rfl, rfl⟩ := place_unique uploadBase (hhub.symm.trans hhub') hfresh hbase
  have hold : ∀ other ∈ hub.releases, ∀ old ∈ other.assets,
      hub'.contents old.url = hub.contents old.url :=
    fun other hother old hmem => hcontents _ (hurl other hother old hmem)
  have hown : release ∈ hub.releases := by simp [hhub]
  obtain ⟨htags, hcommits, hlive⟩ := hu.rest
  refine ⟨asset, hasset, ⟨h.beside.fresh, ⟨before, after, hstart, hplaced⟩, h.beside.tag,
    h.beside.target, h.beside.full, ?_, ?_, ?_, ?_, ?_, ?_⟩, h.draft, ?_⟩
  · rw [List.map_append, List.map_singleton, hasset, ← List.concat_eq_append]
    exact h.beside.names.concat hmissing
  · rw [List.forall_mem_append]
    constructor
    · intro old hmem
      obtain ⟨hold', content', hfile', hapi, hread⟩ := h.beside.own old hmem
      exact ⟨hold', content', hfile', hapi, (hold release hown old hmem).trans hread⟩
    · intro new hnew
      rw [List.mem_singleton.mp hnew, hasset]
      exact ⟨hname, content, hfile, hdigest, hcontent⟩
  · intro other hother old hmem
    have hother' : other ∈ hub.releases := by
      rw [hstart, List.mem_append] at hother
      rw [hhub, List.mem_append, List.mem_cons]
      tauto
    exact (hold other hother' old hmem).trans (h.beside.others other hother old hmem)
  · exact fun tag hne => (congrFun hcommits tag).trans (h.beside.commits tag hne)
  · rw [htags]
    exact h.beside.tags
  · exact hlive.trans h.beside.live
  · rw [hcommits]
    exact h.untagged

/-! ### A run of the program -/

section
variable {σ : Type} {Step : σ → Event Answer → σ → Prop} {view : σ → Hub} {s : σ}
  {room : Composition}

/-- The draft while what it lacks is uploaded: the names gone through are there, and those it
    had. -/
def Filling (job : Job) (start : Hub) (release : Release) (seen : List String) (hub : Hub) : Prop :=
  ∃ current, job.Drafted start hub current ∧ job.Described current ∧ current.id = release.id ∧
    uploadBase current = uploadBase release ∧
    ∀ name, name ∈ current.assets.map Asset.name ↔ name ∈ release.assets.map Asset.name ∨
      name ∈ seen

theorem Filling.step {seen rest : List String} {name : String} (hf : Faithful job.tools Step view)
    (hnames : releaseAssets job.values.version = seen ++ name :: rest)
    (h : job.Filling start release seen (view s)) :
    (uploadMissing job.files release name).Holds Step (fun s => (view s).Accepts) Answered
      (fun s => job.Stage start (view s)) s
      fun _ s' => job.Filling start release (seen ++ [name]) (view s') := by
  obtain ⟨current, hdrafted, hdescribed, hid, hbase, hassets⟩ := h
  have hname : name ∈ releaseAssets job.values.version := by simp [hnames]
  rw [uploadMissing]
  split
  next hpresent =>
    refine ⟨current, hdrafted, hdescribed, hid, hbase, fun other => ?_⟩
    rw [hassets, List.mem_append, List.mem_singleton]
    constructor
    · tauto
    · rintro (h | h | rfl)
      · exact .inl h
      · exact .inr h
      · exact .inl hpresent
  next hmissing =>
    obtain ⟨content, hfile, -⟩ := locals_lookup hname
    have hunseen : name ∉ seen := by
      have hnodup := releaseAssets_nodup job.values.version
      rw [hnames, List.nodup_append] at hnodup
      exact fun hmem => hnodup.2.2 name hmem name (by simp) rfl
    have hable : (view s).Accepts (.upload (uploadBase release) name content) :=
      ⟨current, hdrafted.beside.mem, hbase, hdrafted.draft, fun hmem =>
        ((hassets name).mp hmem).elim hmissing hunseen⟩
    refine Prog.holds_lift_bind (need_ok.mpr hfile) (Prog.holds_expect hable fun a s' hstep => ?_)
    rcases hf.uploads hstep with ⟨rfl, hview⟩ | hu
    · exact ⟨.draft current (hview ▸ hdrafted), fun ha => absurd ha Bool.false_ne_true,
        fun _ => ⟨_, rfl⟩⟩
    · have hbase' : (Py.partition '{' release.uploadUrl).1 = uploadBase current := hbase.symm
      rw [hbase'] at hu
      obtain ⟨asset, rfl, hdrafted'⟩ := hdrafted.uploaded hname hfile hu
      refine ⟨.draft _ hdrafted', fun ha => ?_, need_failed⟩
      obtain ⟨u, rfl⟩ := Option.isSome_iff_exists.mp ha
      refine ⟨u, rfl, _, hdrafted', ⟨hdescribed.draft, hdescribed.name, hdescribed.body⟩, hid,
        hbase, fun other => ?_⟩
      rw [List.map_append, List.mem_append, hassets, List.map_singleton, List.mem_append, or_assoc]

end

end

end Job

namespace Sample

/-- A repository with no release and no tag. -/
def start : Hub := ⟨[], [], fun _ => none, fun _ => none, fun _ => none⟩

theorem ready : job.Ready start Composition.empty where
  releases := by simp [start]
  commit := rfl
  room := eval_pagesRoom room_fits rfl rfl (by simp [candidates, start]) (by simp [start])

end Sample

end NpuStack.Publish
