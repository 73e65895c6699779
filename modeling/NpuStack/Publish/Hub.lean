import NpuStack.Publish.PublishSafety

/-! GitHub as its documentation describes it, for one publisher.

        hub ──read──▶ hub            create: one more release, elsewhere nothing
        hub ──write─▶ hub'           update: one release rewritten, its tag with it once it leaves draft
                                     upload: one release has one more asset

    The service itself is a parameter: any states and steps whose view is a hub and that keep to
    these laws (`Faithful`). A call may fail, with or without its effect. -/

namespace NpuStack.Publish
open Interaction Text

/-- What can be read of GitHub and the live site. -/
structure Hub where
  releases : List Release
  tags : List (String × String)
  commits : String → Option String
  contents : String → Option Bytes
  live : String → Option (ℕ × Bytes)

namespace Hub

/-- What a call that reads answers. -/
def answers (hub : Hub) : ∀ q, Answer q
  | .releases => some hub.releases
  | .release id => hub.releases.find? fun release => release.id = id
  | .tags => some hub.tags
  | .tagCommit tag => some (hub.commits tag)
  | .download url => hub.contents url
  | .fetch url => hub.live url
  | .create _ => none
  | .update _ _ => none
  | .upload _ _ _ => none
  | .saveManifest => .torn

end Hub

/-- The upload URL of a release without its template. -/
def uploadBase (release : Release) : String := (Py.partition '{' release.uploadUrl).1

/-- A release is listed besides the others, with an id and an upload URL of its own. -/
structure Joined (release : Release) (hub hub' : Hub) : Prop where
  fresh : ∀ other ∈ hub.releases, other.id ≠ release.id ∧ uploadBase other ≠ uploadBase release
  placed : ∃ before after, hub.releases = before ++ after ∧ hub'.releases = before ++
    release :: after

/-- `POST /releases`. -/
structure Created (fields : Fields) (release : Release) (hub hub' : Hub) : Prop where
  joined : Joined release hub hub'
  filled : release.tagName = fields.tagName ∧ release.targetCommitish = fields.targetCommitish ∧
    release.name = some fields.name ∧ release.body = some fields.body ∧
    release.draft = fields.draft.getD false ∧ release.prerelease = fields.prerelease.getD false ∧
    release.assets = []
  rest : hub'.tags = hub.tags ∧ hub'.commits = hub.commits ∧ hub'.contents = hub.contents ∧
    hub'.live = hub.live

/-- The release an update makes of one. A release is immutable once it is published. -/
def Release.rewrite (release : Release) (fields : Fields) : Release :=
  { release with
    tagName := fields.tagName
    targetCommitish := fields.targetCommitish
    name := some fields.name
    body := some fields.body
    draft := fields.draft.getD release.draft
    prerelease := fields.prerelease.getD release.prerelease
    immutable := if release.draft && !fields.draft.getD release.draft then some true else
      release.immutable }

/-- What becomes of the tags: a release that leaves draft has its tag, at its target unless it
    exists. -/
structure Retagged (release : Release) (fields : Fields) (hub hub' : Hub) : Prop where
  named : hub'.commits fields.tagName =
    if release.draft && !fields.draft.getD release.draft then
      some ((hub.commits fields.tagName).getD fields.targetCommitish)
    else hub.commits fields.tagName
  others : ∀ tag, tag ≠ fields.tagName → hub'.commits tag = hub.commits tag
  listed : hub'.tags.filter (fun tag => tag.1 ≠ fields.tagName) =
    hub.tags.filter fun tag => tag.1 ≠ fields.tagName

/-- `PATCH /releases/{id}`. -/
structure Updated (id : ℕ) (fields : Fields) (hub hub' : Hub) : Prop where
  placed : ∃ before release after, hub.releases = before ++ release :: after ∧ release.id = id ∧
    hub'.releases = before ++ release.rewrite fields :: after ∧ Retagged release fields hub hub'
  rest : hub'.contents = hub.contents ∧ hub'.live = hub.live

/-- The upload of an asset the release does not have yet. -/
structure Uploaded (tools : Tools) (url name : String) (content : Bytes) (hub hub' : Hub) :
    Prop where
  placed : ∃ before release after asset, hub.releases = before ++ release :: after ∧
    uploadBase release = url ∧ name ∉ release.assets.map Asset.name ∧
    hub'.releases = before ++ { release with assets := release.assets ++ [asset] } :: after ∧
    asset.name = name ∧ asset.digest = some (apiDigest tools content) ∧
    (∀ other ∈ hub.releases, ∀ old ∈ other.assets, old.url ≠ asset.url) ∧
    hub'.contents asset.url = some content ∧ ∀ other, other ≠ asset.url →
      hub'.contents other = hub.contents other
  rest : hub'.tags = hub.tags ∧ hub'.commits = hub.commits ∧ hub'.live = hub.live

/-- What the service is able to do: read what there is, create a release for a tag that has none,
    change a draft, and take an asset a draft does not have. -/
def Hub.Accepts (hub : Hub) : Question → Prop
  | .create fields => ∀ release ∈ hub.releases, release.tagName ≠ fields.tagName
  | .update id _ => ∃ release ∈ hub.releases, release.id = id ∧ release.draft = true
  | .upload url name _ =>
    ∃ release ∈ hub.releases, uploadBase release = url ∧ release.draft = true ∧
      name ∉ release.assets.map Asset.name
  | .saveManifest => False
  | q => Answered ⟨q, hub.answers q⟩

/-- A service that keeps to what is documented: a call that reads changes nothing and answers what
    there is; a call that writes has its effect whole or not at all, and succeeds only with it; and
    a call the service accepts may succeed. -/
structure Faithful {σ : Type} (tools : Tools) (Step : σ → Event Answer → σ → Prop)
    (view : σ → Hub) : Prop where
  reads : ∀ {s s' : σ} {q : Question} {a : Answer q}, Reads q → Step s ⟨q, a⟩ s' →
    view s' = view s ∧ (Answered ⟨q, a⟩ → a = (view s).answers q)
  creates : ∀ {s s' : σ} {fields : Fields} {a : Option Release}, Step s ⟨.create fields, a⟩ s' →
    (a = none ∧ view s' = view s) ∨
      ∃ release, Created fields release (view s) (view s') ∧ (a = none ∨ a = some release)
  updates : ∀ {s s' : σ} {id : ℕ} {fields : Fields} {a : Option Unit},
    Step s ⟨.update id fields, a⟩ s' →
    (a = none ∧ view s' = view s) ∨ Updated id fields (view s) (view s')
  uploads : ∀ {s s' : σ} {url name : String} {content : Bytes} {a : Option Unit},
    Step s ⟨.upload url name content, a⟩ s' →
    (a = none ∧ view s' = view s) ∨ Uploaded tools url name content (view s) (view s')
  accepts : ∀ (s : σ) (q : Question), (view s).Accepts q → ∃ a s', Step s ⟨q, a⟩ s' ∧
    Answered ⟨q, a⟩

/-- A release found by a key of its own stands at one place. -/
theorem place_unique {κ : Type} (key : Release → κ) : ∀ {before before' after after' : List Release}
    {release release' : Release}, before ++ release :: after = before' ++ release' :: after' →
    (∀ other ∈ before ++ after, key other ≠ key release) → key release' = key release →
    before = before' ∧ release = release' ∧ after = after'
  | [], [], after, after', _, _, heq, _, _ => by
    obtain ⟨rfl, rfl⟩ := List.cons.inj heq
    exact ⟨rfl, rfl, rfl⟩
  | [], other :: before', after, after', release, release', heq, hkey, hsame => by
    rw [List.nil_append, List.cons_append] at heq
    obtain ⟨rfl, rfl⟩ := List.cons.inj heq
    exact absurd hsame (hkey release' (by simp))
  | other :: before, [], after, after', release, release', heq, hkey, hsame => by
    rw [List.nil_append, List.cons_append] at heq
    obtain ⟨rfl, -⟩ := List.cons.inj heq
    exact absurd hsame (hkey other (by simp))
  | other :: before, other' :: before', after, after', release, release', heq, hkey, hsame => by
    rw [List.cons_append, List.cons_append] at heq
    obtain ⟨rfl, hrest⟩ := List.cons.inj heq
    obtain ⟨rfl, rfl, rfl⟩ :=
      place_unique key hrest (fun other hother => hkey other (by simp_all)) hsame
    exact ⟨rfl, rfl, rfl⟩

/-- A number above each of these. -/
def above (numbers : List ℕ) : ℕ := numbers.foldr max 0 + 1

end NpuStack.Publish
