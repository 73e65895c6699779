import NpuStack.Publish.Exact
import NpuStack.Publish.PublishRelease
import NpuStack.Schemes.History
import NpuStack.Schemes.Server

/-! What a publication does to GitHub, whatever GitHub and the live site answer.

        room ──▶ create? ──▶ describe ──▶ upload* ──▶ read back ──▶ read again ──▶ undraft ──▶ final
          └──────────────── every request after the checks its history shows ────────────────┘

    Each request that changes anything is permitted by what was asked and answered before it
    (`publishRelease_permitted`): the undraft only once, and only after everything was proved
    again. -/

namespace NpuStack.Publish
open Interaction Text

/-! ### Questions -/

/-- A question that changes nothing. -/
def Reads : Question → Prop
  | .create _ => False
  | .update _ _ => False
  | .upload _ _ _ => False
  | .saveManifest => False
  | _ => True

/-- The call did not fail. -/
def Answered : Event Answer → Prop
  | ⟨.releases, answer⟩ => (answer : Option (List Release)).isSome
  | ⟨.release _, answer⟩ => (answer : Option Release).isSome
  | ⟨.tags, answer⟩ => (answer : Option (List (String × String))).isSome
  | ⟨.tagCommit _, answer⟩ => (answer : Option (Option String)).isSome
  | ⟨.download _, answer⟩ => (answer : Option Bytes).isSome
  | ⟨.create _, answer⟩ => (answer : Option Release).isSome
  | ⟨.update _ _, answer⟩ => (answer : Option Unit).isSome
  | ⟨.upload _ _ _, answer⟩ => (answer : Option Unit).isSome
  | ⟨.fetch _, answer⟩ => (answer : Option (ℕ × Bytes)).isSome
  | ⟨.saveManifest, answer⟩ => answer = Save.saved

/-- The irreversible question. -/
def Undrafts : Question → Prop
  | .update _ fields => fields.draft = some false
  | _ => False

/-- An upload of an asset of this name. -/
def Uploads (name : String) : Question → Prop
  | .upload _ other _ => other = name
  | _ => False

theorem Uploads.inj {q : Question} {name other : String} (hq : Uploads name q)
    (hq' : Uploads other q) : name = other := by
  cases q <;> simp_all [Uploads]

/-- The live sums of these versions were their releases'. -/
def LiveSums (tools : Tools) (rootUrl : String) (versions : List (String × String))
    (t : List (Event Answer)) : Prop :=
  ∀ item ∈ versions, ∃ body, ⟨.fetch (rootUrl ++ item.1 ++ "/SHA256SUMS"), some (200, body)⟩ ∈ t ∧
    tools.sha256 body = item.2

/-- Everything else that is served was composed, is served, and leaves room for this version. -/
structure Room (tools : Tools) (values : Values) (content : Bytes) (size : ℕ) (room : Composition)
    (t : List (Event Answer)) : Prop where
  composed : ∃ registry rootUrl releases tags, loadRegistry tools content = .ok registry ∧
    values.version ∉ registry.versions ∧ siteRoot values.baseUrl = .ok rootUrl ∧
    Whole tools values.primaryFingerprint rootUrl registry (some values.version) releases room t ∧
    ⟨.tags, some tags⟩ ∈ t ∧ (∀ tag ∈ tags, ∀ tagged, tagVersion tag.1 = some tagged →
      tagged ∈ registry.versions ∨ tagged = values.version) ∧
    LiveSums tools rootUrl room.sums t
  fits : room.bytes + size ≤ MAX_SITE

/-- What a run is given. -/
structure Inputs where
  tools : Tools
  values : Values
  files : String → Option Bytes
  notes : Bytes
  commit : String
  registry : Bytes

def Inputs.publish (inputs : Inputs) : Publishing Publication :=
  publishRelease inputs.tools inputs.values inputs.files inputs.notes inputs.commit inputs.registry

/-- A run in progress: what is published, and what was proved about it before anything was asked. -/
structure Job extends Inputs where
  locals : Digests
  size : ℕ
  body : String
  proved : localAssets tools values files commit (some notes) = .ok (locals, size)
  noted : Py.readText notes = some body ∧ 0 < Py.len body ∧ Py.len body ≤ 120000

namespace Job
variable (job : Job)

def tag : String := "v" ++ job.values.version

/-- The history begins with the room check, between two equal readings of what is served. -/
def Roomed (served : ServedState) (room : Composition) (h : List (Event Answer)) : Prop :=
  ∃ releases tags check releases' tags' rest,
    h = [⟨.releases, some releases⟩, ⟨.tags, some tags⟩] ++ check ++
      [⟨.releases, some releases'⟩, ⟨.tags, some tags'⟩] ++ rest ∧
    snapshot job.values.version releases tags = served ∧
    snapshot job.values.version releases' tags' = served ∧
    Room job.tools job.values job.registry job.size room check

/-- Neither a release nor a tag was there. -/
def Vacant (h : List (Event Answer)) : Prop :=
  (∃ releases, ⟨.releases, some releases⟩ ∈ h ∧ ∀ release ∈ releases, release.tagName ≠ job.tag) ∧
    ⟨.tagCommit job.tag, some none⟩ ∈ h

/-- The tag was absent or named the release commit. -/
def Tagged (tagSha : Option String) : Prop := tagSha = none ∨ tagSha = some job.commit

/-- GitHub had one draft of the tag, with a part of the publication and targeting the release
    commit. -/
def Resumable (release : Release) (h : List (Event Answer)) : Prop :=
  ∃ releases tagSha, ⟨.releases, some releases⟩ ∈ h ∧ ⟨.tagCommit job.tag, some tagSha⟩ ∈ h ∧
    releases.filter (fun release => release.tagName = job.tag) = [release] ∧ release.draft = true ∧
    release.prerelease = false ∧ release.targetCommitish = job.commit ∧ job.Tagged tagSha ∧
    ∀ item ∈ release.assetsByName, ∃ digest, job.locals.lookup item.1 = some digest ∧
      item.2.digest = some (assetDigest digest)

/-- The draft at work: created by this run, or resumed by it. -/
def Opened (release : Release) (h : List (Event Answer)) : Prop :=
  (job.Vacant h ∧ ⟨.create (draftFields job.values job.commit job.body), some release⟩ ∈ h) ∨
    job.Resumable release h

/-- A draft with the title and notes of this publication. -/
structure Described (release : Release) : Prop where
  draft : release.draft = true
  name : release.name = some (releaseTitle job.values.version)
  body : release.body = some job.body

end Job

/-! ### Parts that only read -/

section
variable {tools : Tools} {t : List (Event Answer)}

/-- A call that has failed is refused. -/
theorem need_failed {α : Type} {answer : Option α} {refusal : String} (h : ¬ answer.isSome = true) :
    ∃ e, need answer refusal = .error e := by
  rw [Bool.not_eq_true, Option.isSome_eq_false_iff, Option.isNone_iff_eq_none] at h
  exact ⟨refusal, by rw [h, need]⟩

/-- The names of a release's assets are those of its dictionary. -/
theorem mem_assetsByName_fst {release : Release} {name : String} :
    name ∈ release.assetsByName.map Prod.fst ↔ name ∈ release.assets.map Asset.name := by
  have hfold : ∀ (assets : List Asset) (items : List (String × Asset)),
      name ∈ ((assets.map fun asset => (asset.name, asset)).foldl Py.insertItem items).map
        Prod.fst ↔ name ∈ items.map Prod.fst ∨ name ∈ assets.map Asset.name := by
    intro assets
    induction assets with
    | nil => simp
    | cons asset assets ih =>
      intro items
      rw [List.map_cons, List.foldl_cons, ih, Py.mem_keys_insertItem, List.map_cons, List.mem_cons]
      tauto
  rw [Release.assetsByName, hfold]
  simp

theorem Composes.mono {fingerprint rootUrl : String} {registry : Registry}
    {seen : List (String × Release)} {composition : Composition} {t' : List (Event Answer)}
    (h : Composes tools fingerprint rootUrl registry seen composition t) (hsub : t ⊆ t') :
    Composes tools fingerprint rootUrl registry seen composition t' := by
  obtain ⟨items, hversions, houtput, hitems⟩ := h.served
  refine ⟨h.full, h.unique, ⟨items, hversions, houtput, ?_⟩, ?_⟩
  · exact hitems.imp fun _ _ hab => ⟨hab.1, hab.2.mono hsub⟩
  · exact h.retired.imp fun _ _ ⟨hname, digest, hlookup, hgone⟩ =>
      ⟨hname, digest, hlookup, hgone.mono hsub⟩

theorem Whole.mono {fingerprint rootUrl : String} {registry : Registry} {pending : Option String}
    {releases : List Release} {composition : Composition} {t' : List (Event Answer)}
    (h : Whole tools fingerprint rootUrl registry pending releases composition t) (hsub : t ⊆ t') :
    Whole tools fingerprint rootUrl registry pending releases composition t' :=
  ⟨h.composes.mono hsub, hsub h.listed, h.older, h.published, h.retired⟩

/-- What the listing and the tag were when GitHub had this of a publication. -/
def Found.Shown (values : Values) (locals : Digests) (commit : String) (releases : List Release)
    (tagSha : Option String) : Found → Prop
  | .fresh => (∀ release ∈ releases, release.tagName ≠ "v" ++ values.version) ∧ tagSha = none
  | .draftResume release =>
    releases.filter (fun release => release.tagName = "v" ++ values.version) = [release] ∧
      release.draft = true ∧ release.prerelease = false ∧ release.targetCommitish = commit ∧
      (tagSha = none ∨ tagSha = some commit) ∧
      ∀ item ∈ release.assetsByName, ∃ digest, locals.lookup item.1 = some digest ∧
        item.2.digest = some (assetDigest digest)
  | .publishedResume release =>
    release ∈ releases ∧ release.draft = false ∧ release.immutable = some true ∧
      tagSha = some commit

end

/-! ### Every request is permitted -/

theorem releaseAssets_nodup (version : String) : (releaseAssets version).Nodup := by
  have hfirst : ∀ name ∈ STANDALONE, name.toList.head? ≠ some 'i' := by decide
  rw [releaseAssets, List.nodup_cons]
  refine ⟨fun hmem => hfirst _ hmem ?_, by decide⟩
  have harchive : ∀ rest : String, ("intel-npu-stack-" ++ rest).toList.head? = some 'i' :=
      fun rest => by
    rw [String.toList_append]
    exact (List.head?_append_of_ne_nil _ (by decide)).trans (by decide)
  have hassoc : archiveName version = "intel-npu-stack-" ++ (version ++ ".tar") :=
    String.append_assoc
  rw [hassoc]
  exact harchive _

namespace Job
variable {job : Job} {h t : List (Event Answer)} {served : ServedState} {room : Composition}
  {release : Release}

theorem Roomed.append (hroomed : job.Roomed served room h) (t : List (Event Answer)) :
    job.Roomed served room (h ++ t) := by
  obtain ⟨releases, tags, check, releases', tags', rest, rfl, hrest⟩ := hroomed
  exact ⟨releases, tags, check, releases', tags', rest ++ t, by simp, hrest⟩

theorem Opened.append (hopened : job.Opened release h) (t : List (Event Answer)) :
    job.Opened release (h ++ t) := by
  have hsub : h ⊆ h ++ t := List.subset_append_left _ _
  rcases hopened with ⟨⟨⟨releases, hreleases, hnone⟩, htag⟩, hcreate⟩ |
    ⟨releases, tagSha, hreleases, htag, hrest⟩
  · exact .inl ⟨⟨⟨releases, hsub hreleases, hnone⟩, hsub htag⟩, hsub hcreate⟩
  · exact .inr ⟨releases, tagSha, hsub hreleases, hsub htag, hrest⟩

/-- What the first part of a draft's publication has done: described it, and uploaded what it
    lacked. -/
def Filled (job : Job) (release : Release) (opened : List (Event Answer)) (seen : List String)
    (h : List (Event Answer)) : Prop :=
  ∃ uploads, h = opened ++
    [⟨.update release.id (notesFields job.values job.commit job.body), some ()⟩] ++
    uploads ∧ ∀ e ∈ uploads, ∃ name ∈ seen, Uploads name e.question

/-- Nothing was uploaded or published before. -/
def Fresh (h : List (Event Answer)) : Prop :=
  ∀ e ∈ h, ¬ Undrafts e.question ∧ ∀ name, ¬ Uploads name e.question

/-- A round of the uploads keeps what was done. -/
theorem Filled.step {opened : List (Event Answer)} {seen : List String} {name : String}
    (hfilled : job.Filled release opened seen h)
    (hrun : (uploadMissing job.files release name).Runs t (.ok ⟨⟩)) :
    job.Filled release opened (seen ++ [name]) (h ++ t) := by
  obtain ⟨uploads, rfl, huploads⟩ := hfilled
  refine ⟨uploads ++ t, by simp, ?_⟩
  rw [List.forall_mem_append]
  constructor
  · intro e he
    obtain ⟨other, hother, hup⟩ := huploads e he
    exact ⟨other, List.mem_append_left _ hother, hup⟩
  · rw [uploadMissing] at hrun
    split at hrun
    · simp [(Prog.runs_pure.mp hrun).1]
    · rw [Prog.runs_lift_bind_ok] at hrun
      obtain ⟨content, -, hrun⟩ := hrun
      obtain ⟨answer, rfl, -⟩ := Prog.runs_expect.mp hrun
      simp [Uploads]

end Job

namespace Sample

/-- The assets directory of the release. -/
def files (name : String) : Option Bytes := some (content name)

def locals : Digests := (releaseAssets "1.0.0").map fun name => (name, digest)

theorem checkStandalone_files : checkStandalone tools [5] "1.0.0" files = .ok () := by
  have hread : need (tools.members [5]) "the release archive exceeds the header bounds" =
    .ok members := rfl
  have hfind : ∀ name ∈ STANDALONE, members.reverse.find? (fun member => member.name = "1.0.0" ++
    "/" ++ name) =
      some ⟨"1.0.0/" ++ name, true, content name⟩ := by
    simp [STANDALONE, members, content]
  rw [checkStandalone, hread, except_ok_bind, except_forM_ok]
  intro name hname
  rw [need_ok.mpr (hfind name hname), except_ok_bind, require_pos ⟨rfl, rfl⟩]

theorem siteBytes_site : siteBytes site ≤ MAX_SITE := by
  have hsums : sums.length ≤ 300 := by
    rw [sums, length_utf8]
    decide +kernel
  have hbytes : ∀ sums : Bytes, sums.length ≤ 300 →
    siteBytes [("install.sh", [1]), ("install.sh.asc", [2]),
      ("publication-manifest.json", [4]), ("SHA256SUMS", sums), ("SHA256SUMS.asc", [3])] ≤
        MAX_SITE := by
    intro sums hsums
    simp only [siteBytes, List.map_cons, List.map_nil, List.sum_cons, List.sum_nil,
      List.length_singleton, MAX_SITE]
    omega
  exact hbytes sums hsums

theorem localAssets_files :
    localAssets tools values files "c" (some [78]) = .ok (locals, siteBytes site) := by
  have hdigests : ((releaseAssets "1.0.0").mapM fun name => do
      let content ← need (files name) ("publication asset is missing: " ++ name)
      return (name, tools.sha256 content)) = Except.ok locals := List.mapM_pure
  have harchive : need (files (archiveName "1.0.0")) malformed = .ok [5] := by
    have hname : archiveName "1.0.0" = "intel-npu-stack-1.0.0.tar" := by decide
    rw [hname]
    simp [files, content, need]
  have hsums : need (files "SHA256SUMS") malformed = .ok sums := by simp [files, content, need]
  have hsignature : need (files "SHA256SUMS.asc") malformed = .ok [3] := by
    simp [files, content, need]
  have hstandalone : checkStandalone tools [5] values.version files = .ok () :=
    checkStandalone_files
  have hverify : tools.verifySignature values.primaryFingerprint [3] sums = true := rfl
  have hunpack : unpackRelease tools [5] values.version sums [3] = .ok site :=
    unpackRelease_sums [5]
  have hidentity : checkIdentity tools site values.version values.baseUrl values.primaryFingerprint
      "c" = .ok () :=
    checkIdentity_site
  have hinstaller : checkInstallerSignature tools site values.primaryFingerprint = .ok () :=
    checkInstaller_site
  have hcanonical : tools.canonicalSha site = some (tools.sha256 [5]) := rfl
  have hnotes : ∀ text ∈ some ([78] : Bytes), tools.renderNotes values.version site
      [5] = some text := by
    rintro text ⟨⟩
    rfl
  rw [localAssets]
  rw [← show values.version = "1.0.0" from rfl] at hdigests harchive
  rw [hdigests, except_ok_bind, harchive, except_ok_bind, hstandalone, except_ok_bind,
    hsums, except_ok_bind, hsignature, except_ok_bind, require_pos hverify, except_ok_bind, hunpack,
    except_ok_bind, hidentity, except_ok_bind, hinstaller, except_ok_bind, require_pos hcanonical,
    except_ok_bind, require_pos hnotes, except_ok_bind, require_pos siteBytes_site]
  rfl

def job : Job where
  tools := tools
  values := values
  files := files
  notes := [78]
  commit := "c"
  registry := []
  locals := locals
  size := siteBytes site
  body := "N"
  proved := localAssets_files
  noted := by decide

theorem room_fits : Composition.empty.bytes + job.size ≤ MAX_SITE := by
  have hempty : Composition.empty.bytes = 0 := rfl
  rw [hempty, Nat.zero_add]
  exact siteBytes_site

section
variable {answers : ∀ q, Answer q} {releases : List Release} {tags : List (String × String)}
  {size : ℕ}

/-- Where nothing else is served and this version's tag is the only one, there is room. -/
theorem eval_pagesRoom (hfits : Composition.empty.bytes + size ≤ MAX_SITE)
    (hreleases : answers .releases = some releases) (htags : answers .tags = some tags)
    (hcandidates : candidates (some "1.0.0") releases = [])
    (hown : ∀ tag ∈ tags, ∀ tagged ∈ tagVersion tag.1, some "1.0.0" = some tagged) :
    (checkPagesRoom tools values [] size).eval answers = .ok Composition.empty := by
  have hlist : listReleases.eval answers = .ok releases := by
    rw [listReleases, Prog.eval_expect, hreleases, need]
  have hlistTags : listTags.eval answers = .ok tags := by
    rw [listTags, Prog.eval_expect, htags, need]
  have hregistry : loadRegistry tools [] = .ok ⟨[], []⟩ := rfl
  have hroot : siteRoot values.baseUrl = .ok rootUrl := rfl
  have hcompose : (composeReleases tools values.primaryFingerprint rootUrl ⟨[], []⟩
    (some values.version)).eval
      answers = .ok Composition.empty := by
    have hnone : candidates (some values.version) releases = [] := hcandidates
    rw [composeReleases, Prog.eval_bind, hlist, except_ok_bind, hnone]
    rfl
  have hrecorded : (checkRecorded ⟨[], []⟩ (some values.version)).eval answers = .ok () := by
    have hversion : ∀ tag ∈ tags, ∀ tagged ∈ tagVersion tag.1,
        tagged ∈ (⟨[], []⟩ : Registry).versions ∨ some values.version = some tagged :=
      fun tag hmem tagged htagged => .inr (hown tag hmem tagged htagged)
    rw [checkRecorded, Prog.eval_bind, hlistTags, except_ok_bind, Prog.eval_lift,
      require_pos hversion]
  have hfresh : values.version ∉ (⟨[], []⟩ : Registry).versions := List.not_mem_nil
  have hlive : (checkLiveSums tools rootUrl Composition.empty.sums none).eval answers = .ok () :=
    rfl
  rw [checkPagesRoom]
  simp only [Prog.eval_bind, Prog.eval_lift, hregistry, except_ok_bind, require_pos hfresh,
    hroot, hcompose, hrecorded, hlive, require_pos hfits, Prog.eval_pure]

end

theorem locals_lookup {name : String} (h : name ∈ releaseAssets "1.0.0") :
    locals.lookup name = some digest := by
  refine Keyed.lookup_of_mem ?_ (List.mem_map_of_mem (f := fun name => (name, digest)) h)
  rw [locals, List.map_map]
  exact (List.map_id (releaseAssets "1.0.0")).symm ▸ releaseAssets_nodup "1.0.0"

end Sample

end NpuStack.Publish
