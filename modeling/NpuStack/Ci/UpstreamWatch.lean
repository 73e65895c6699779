import NpuStack.Ci.KernelWatch
import NpuStack.Schemes.OrderedMap
import NpuStack.Schemes.Raises

/-! `check_upstream.py`: the newest upstream tag of each pinned component.

        releases/latest ──tag──▶ git/ref/tags ──annotated?──▶ git/tags ──┐
             │ not found                                              ├─▶ tag, commit ──▶ finding
             └──────▶ tags ──newest, annotated?──▶ git/tags ───────────┘

    The loop over the components goes on after `ValueError`, `KeyError` and `OSError`. What else an
    answer can raise ends the scan of all components (`scan_advisory_iff`). -/

namespace NpuStack.Ci.UpstreamWatch
open Interaction Text
open Py (Value)
open KernelWatch (decimal int MAX_STR_DIGITS)

/-- What is raised, by the class that `except` clauses tell apart. -/
inductive Exn where
  /-- `ValueError`, with its subclasses for JSON and Unicode. -/
  | valueError
  | keyError
  | osError
  /-- `_NotFound`. -/
  | notFound
  | typeError
  | attributeError
  | indexError
  | other (name : String)
  deriving DecidableEq, Repr

/-- The exceptions that the loop of `scan` catches. -/
def Caught (e : Exn) : Prop := e ∈ [Exn.valueError, .keyError, .osError]

instance (e : Exn) : Decidable (Caught e) := inferInstanceAs (Decidable (e ∈ _))

def API_ROOT : String := "https://api.github.com"
def MAX_BODY : ℕ := 1048576

/-! ### Values -/

/-- `value[key]`. -/
def index (value : Value) (key : String) : Except Exn Value :=
  match value with
  | .dict items => need (items.lookup key) .keyError
  | _ => .error .typeError

/-- `value.get(key)`. -/
def get (value : Value) (key : String) : Except Exn Value :=
  match value with
  | .dict items => .ok ((items.lookup key).getD .none)
  | _ => .error .attributeError

/-- `value[0]`. -/
def first : Value → Except Exn Value
  | .list (item :: _) => .ok item
  | .list [] => .error .indexError
  | .str s =>
    match s.toList with
    | c :: _ => .ok (.str (String.ofList [c]))
    | [] => .error .indexError
  | .dict _ => .error .keyError
  | _ => .error .typeError

/-! ### Tags -/

/-- `SEMVER` in full: the texts of the three numbers. -/
def semverParts (tag : String) : Option (List String) :=
  let parts := split '.' (Py.removePrefix "v" tag)
  if parts.length = 3 ∧ ∀ part ∈ parts, part ≠ "" ∧ all (fun c => (decimal c).isSome) part = true then some parts
  else none

/-- `_semver`. -/
def semver (tag : Value) : Except Exn (Option (List ℕ)) :=
  if tag.truthy = false then .ok none
  else match tag with
    | .str text =>
      match semverParts text with
      | some parts => do
        refuse (∃ part ∈ parts, Py.len part > MAX_STR_DIGITS) .valueError
        return some (parts.map int)
      | none => .ok none
    | _ => .error .typeError

inductive Relation where
  | newer | same | older | different
  deriving DecidableEq, Repr

def compareTags (pinned : String) (latest : Value) : Except Exn Relation := do
  let pinnedVersion ← semver (.str pinned)
  let latestVersion ← semver latest
  match pinnedVersion, latestVersion with
  | some p, some l => return if p < l then .newer else if l = p then .same else .older
  | _, _ => return if (Value.str pinned).eq latest then .same else .different

/-! ### Requests -/

/-- What the session answers to the requests for a component: `session.get(url)`, then `read_bytes`. -/
abbrev Responses := String → Except Exn Bytes

structure Latest where
  tag : Value
  commit : Value
  url : Value
  source : String

/-- A pinned component. -/
structure Component where
  repository : String
  tag : String
  commit : String
  deriving DecidableEq, Repr

section
variable (loads : Bytes → Except Exn Value) (str : Value → String) (responses : Responses)

/-- `document.get('message') == 'Not Found'` of a dictionary. -/
def saysNotFound : Value → Bool
  | .dict items => ((items.lookup "message").getD .none).eq (.str "Not Found")
  | _ => false

def getJson (url : String) : Except Exn Value := do
  let body ← responses url
  refuse (body.length > MAX_BODY) .valueError
  let document ← loads body
  refuse (saysNotFound document = true) .notFound
  return document

def latestUrl (repository : String) : String := API_ROOT ++ "/repos/" ++ repository ++ "/releases/latest"

def tagsUrl (repository : String) : String := API_ROOT ++ "/repos/" ++ repository ++ "/tags?per_page=10"

def referenceUrl (repository : String) (tag : Value) : String :=
  API_ROOT ++ "/repos/" ++ repository ++ "/git/ref/tags/" ++ str tag

def annotatedUrl (repository : String) (commit : Value) : String :=
  API_ROOT ++ "/repos/" ++ repository ++ "/git/tags/" ++ str commit

/-- The commit of a reference or of a listed tag, behind an annotated tag object. -/
def commitOf (repository : String) (holder : Value) : Except Exn Value := do
  let target ← index holder "object"
  let commit ← index target "sha"
  let type ← get target "type"
  if type.eq (.str "tag") then do
    let annotated ← getJson loads responses (annotatedUrl str repository commit)
    let object ← index annotated "object"
    index object "sha"
  else return commit

def resolveCommit (repository : String) (tag : Value) : Except Exn Value := do
  let reference ← getJson loads responses (referenceUrl str repository tag)
  commitOf loads str responses repository reference

/-- `except _NotFound`. -/
def orElseNotFound {α : Type} (x : Except Exn α) (default : α) : Except Exn α :=
  match x with
  | .error .notFound => .ok default
  | x => x

/-- The latest release. -/
def fromRelease (repository : String) (release : Value) : Except Exn Latest := do
  let draft ← get release "draft"
  let prerelease ← get release "prerelease"
  refuse (draft.truthy = true ∨ prerelease.truthy = true) .valueError
  let tag ← index release "tag_name"
  let commit ← orElseNotFound (resolveCommit loads str responses repository tag) (.str "")
  let url ← get release "html_url"
  return ⟨tag, commit, if url.truthy then url else .str "", "release"⟩

/-- The first of the tags. -/
def fromTags (repository : String) : Except Exn Latest := do
  let tags ← getJson loads responses (tagsUrl repository)
  refuse (tags.truthy = false) .valueError
  let newest ← first tags
  let commit ← commitOf loads str responses repository newest
  let name ← index newest "name"
  return ⟨name, commit, .str ("https://github.com/" ++ repository ++ "/releases/tag/" ++ str name), "tags"⟩

def fetchLatest (repository : String) : Except Exn Latest := do
  let release ← orElseNotFound (getJson loads responses (latestUrl repository)) .none
  match release with
  | .none => fromTags loads str responses repository
  | release => fromRelease loads str responses repository release

/-! ### Findings -/

inductive Observation where
  | checkFailed
  | updateAvailable (dedupKey pinnedTag pinnedCommit : String) (latest : Latest) (note : Option String)

structure Finding where
  component : String
  repository : String
  observation : Observation

def MANUAL_NOTE : String := "non-semver tags: manual review required before any candidate work"

def dedupKey (repository tag : String) : String := "upstream:" ++ repository ++ ":" ++ tag

/-- What `scan` does with one component. -/
def scanComponent (openKeys : List String) (name : String) (component : Component) :
    Except Exn (Option Finding) :=
  match fetchLatest loads str responses component.repository with
  | .error e => if Caught e then .ok (some ⟨name, component.repository, .checkFailed⟩) else .error e
  | .ok latest => do
    let relation ← compareTags component.tag latest.tag
    if relation = .same ∨ relation = .older then return none
    let key := dedupKey component.repository (str latest.tag)
    if key ∈ openKeys then return none
    return some ⟨name, component.repository, .updateAvailable key component.tag component.commit latest
      (if relation = .different then some MANUAL_NOTE else none)⟩

end

/-- `scan`: the components by name, each with the answers its requests get. -/
def scan (loads : Bytes → Except Exn Value) (str : Value → String) (sessions : String → Responses)
    (pinned : OrderedMap Component) (openKeys : List String) : Except Exn (List Finding) := do
  let outcomes ← pinned.entries.mapM fun entry =>
    scanComponent loads str (sessions entry.1) openKeys entry.1 entry.2
  return outcomes.filterMap id

/-! ### What may be raised -/

/-- A caught exception, or a resource that is not found. -/
def CaughtOrMissing (e : Exn) : Prop := Caught e ∨ e = .notFound

instance (e : Exn) : Decidable (CaughtOrMissing e) := inferInstanceAs (Decidable (_ ∨ _))

/-- The value is a JSON object. -/
def IsObject (value : Value) : Prop := ∃ items, value = .dict items

section
variable {P : Exn → Prop} {value : Value} {key : String}

theorem raises_index (hkey : P .keyError) (htype : ¬P .typeError) :
    Raises P (index value key) ↔ IsObject value := by
  cases value <;> simp [index, IsObject, hkey, htype]

theorem raises_get (hattribute : ¬P .attributeError) : Raises P (get value key) ↔ IsObject value := by
  cases value <;> simp [get, IsObject, hattribute]

theorem IsObject.get_ok (h : IsObject value) (key : String) : ∃ item, get value key = .ok item := by
  obtain ⟨items, rfl⟩ := h
  exact ⟨_, rfl⟩

theorem raises_orElseNotFound {α : Type} {x : Except Exn α} {default : α} :
    Raises P (orElseNotFound x default) ↔ Raises (fun e => P e ∨ e = .notFound) x := by
  rcases x with e | a
  · cases e <;> simp [orElseNotFound]
  · simp [orElseNotFound]

end

section
variable (loads : Bytes → Except Exn Value) (str : Value → String) (responses : Responses)

/-- The commit of the object can be read, or what is raised instead is among the exceptions. -/
structure CommitReadable (P : Exn → Prop) (repository : String) (holder : Value) : Prop where
  object : IsObject holder
  target : ∀ target, index holder "object" = .ok target → IsObject target
  annotated : ∀ target commit type, index holder "object" = .ok target → index target "sha" = .ok commit →
    get target "type" = .ok type → type.eq (.str "tag") = true →
      Raises P (getJson loads responses (annotatedUrl str repository commit)) ∧
        ∀ annotated, getJson loads responses (annotatedUrl str repository commit) = .ok annotated →
          IsObject annotated ∧ ∀ object, index annotated "object" = .ok object → IsObject object

/-- The release is final and names its tag. -/
def Announces (release tag : Value) : Prop :=
  (∀ draft, get release "draft" = .ok draft → draft.truthy = false) ∧
    (∀ prerelease, get release "prerelease" = .ok prerelease → prerelease.truthy = false) ∧
      index release "tag_name" = .ok tag

/-- Every number of a semantic version has at most 4300 digits. -/
def ShortNumbers (text : String) : Prop :=
  ∀ parts, semverParts text = some parts → ∀ part ∈ parts, Py.len part ≤ MAX_STR_DIGITS

/-- The upstream tag is a text or is empty, and versions have numbers that Python reads. -/
structure Comparable (pinned : String) (tag : Value) : Prop where
  text : tag.truthy = true → ∃ text, tag = .str text
  pinned : ShortNumbers pinned
  latest : ∀ text, tag = .str text → ShortNumbers text

structure ReleaseReadable (component : Component) (release : Value) : Prop where
  object : IsObject release
  reference : ∀ tag, Announces release tag →
    Raises CaughtOrMissing (getJson loads responses (referenceUrl str component.repository tag)) ∧
      ∀ reference, getJson loads responses (referenceUrl str component.repository tag) = .ok reference →
        CommitReadable loads str responses CaughtOrMissing component.repository reference
  comparable : ∀ tag, Announces release tag →
    (∀ e, resolveCommit loads str responses component.repository tag = .error e → e = .notFound) →
      Comparable component.tag tag

structure TagsReadable (component : Component) : Prop where
  answered : Raises Caught (getJson loads responses (tagsUrl component.repository))
  newest : ∀ tags, getJson loads responses (tagsUrl component.repository) = .ok tags → tags.truthy = true →
    IsObject tags ∨ ∃ newest rest, tags = .list (newest :: rest) ∧
      CommitReadable loads str responses Caught component.repository newest ∧
        ∀ commit name, commitOf loads str responses component.repository newest = .ok commit →
          index newest "name" = .ok name → Comparable component.tag name

/-- What is asked for a component is answered as the loop expects, also where it fails. -/
structure Presentable (component : Component) : Prop where
  latest : Raises CaughtOrMissing (getJson loads responses (latestUrl component.repository))
  release : ∀ release, getJson loads responses (latestUrl component.repository) = .ok release → release ≠ .none →
    ReleaseReadable loads str responses component release
  tags : getJson loads responses (latestUrl component.repository) = .error .notFound ∨
      getJson loads responses (latestUrl component.repository) = .ok .none →
    TagsReadable loads str responses component

end

section
variable {loads : Bytes → Except Exn Value} {str : Value → String} {responses : Responses}
  {P : Exn → Prop} {repository : String}

theorem raises_commitOf (hkey : P .keyError) (htype : ¬P .typeError) (hattribute : ¬P .attributeError)
    {holder : Value} : Raises P (commitOf loads str responses repository holder) ↔
      CommitReadable loads str responses P repository holder := by
  simp only [commitOf, raises_bind_iff, raises_index hkey htype, raises_get hattribute]
  constructor
  · rintro ⟨hholder, h⟩
    refine ⟨hholder, fun target htarget => (h target htarget).1, ?_⟩
    intro target commit type htarget hcommit htyped hannotated
    have hrest := (h target htarget).2 commit hcommit |>.2 type htyped
    rw [if_pos hannotated, raises_bind_iff] at hrest
    refine ⟨hrest.1, fun annotated hanswer => ?_⟩
    have hobject := hrest.2 annotated hanswer
    rw [raises_bind_iff, raises_index hkey htype] at hobject
    exact ⟨hobject.1, fun object hin => (raises_index hkey htype).mp (hobject.2 object hin)⟩
  · intro h
    refine ⟨h.object, fun target htarget => ⟨h.target target htarget, fun commit hcommit =>
      ⟨h.target target htarget, fun type htyped => ?_⟩⟩⟩
    split
    · next hannotated =>
      obtain ⟨hraises, hobject⟩ := h.annotated target commit type htarget hcommit htyped hannotated
      refine raises_bind hraises fun annotated hanswer => ?_
      refine raises_bind ((raises_index hkey htype).mpr (hobject annotated hanswer).1) fun object hin => ?_
      exact (raises_index hkey htype).mpr ((hobject annotated hanswer).2 object hin)
    · exact raises_pure

/-! ### Tags that are compared -/

theorem semver_str {text : String} : (∃ version, semver (.str text) = .ok version) ↔ ShortNumbers text := by
  rw [semver]
  split
  · next hempty =>
    have htext : text = "" := by simpa [Value.truthy] using hempty
    subst htext
    exact iff_of_true ⟨none, rfl⟩ nofun
  · split
    · next parts hparts =>
      simp only [except_bind_ok, refuse_ok, exists_const, pure, Except.pure, not_exists, not_and, not_lt,
        ShortNumbers, hparts, Option.some.injEq]
      constructor
      · rintro ⟨_, hshort, -⟩ _ rfl
        exact hshort
      · intro hshort
        exact ⟨_, hshort parts rfl, rfl⟩
    · next hparts =>
      refine iff_of_true ⟨none, rfl⟩ fun parts h => ?_
      rw [hparts] at h
      cases h

theorem semver_returns {tag : Value} : (∃ version, semver tag = .ok version) ↔
    (tag.truthy = true → ∃ text, tag = .str text) ∧ ∀ text, tag = .str text → ShortNumbers text := by
  by_cases hstr : ∃ text, tag = .str text
  · obtain ⟨text, rfl⟩ := hstr
    simp [semver_str]
  · have hnot : ∀ text, tag ≠ .str text := not_exists.mp hstr
    by_cases htruthy : tag.truthy = true
    · refine iff_of_false ?_ fun h => hstr (h.1 htruthy)
      cases tag <;> simp_all [semver]
    · refine iff_of_true ⟨none, ?_⟩ ⟨fun h => absurd h htruthy, fun text h => absurd h (hnot text)⟩
      rw [semver.eq_def, if_pos (Bool.not_eq_true _ ▸ htruthy)]

theorem compareTags_returns {pinned : String} {tag : Value} :
    (∃ relation, compareTags pinned tag = .ok relation) ↔ Comparable pinned tag := by
  have hsplit : (∃ relation, compareTags pinned tag = .ok relation) ↔
      (∃ version, semver (.str pinned) = .ok version) ∧ ∃ version, semver tag = .ok version := by
    simp only [compareTags, except_bind_ok]
    constructor
    · rintro ⟨relation, version, hversion, latest, hlatest, -⟩
      exact ⟨⟨version, hversion⟩, latest, hlatest⟩
    · rintro ⟨⟨version, hversion⟩, latest, hlatest⟩
      cases version <;> cases latest <;> exact ⟨_, _, hversion, _, hlatest, rfl⟩
  rw [hsplit, semver_str, semver_returns]
  exact ⟨fun h => ⟨h.2.1, h.1, h.2.2⟩, fun h => ⟨h.pinned, h.text, h.latest⟩⟩

/-! ### The two ways to a tag -/

theorem get_unique {release item item' : Value} {key : String} (h : get release key = .ok item)
    (h' : get release key = .ok item') : item = item' := Except.ok.inj (h.symm.trans h')

/-- Apart from its commit a release is read or refused without surprises. -/
theorem raises_fromRelease {release : Value} :
    Raises Caught (fromRelease loads str responses repository release) ↔
    IsObject release ∧ ∀ tag, Announces release tag →
      Raises CaughtOrMissing (resolveCommit loads str responses repository tag) := by
  have hget : ∀ key, Raises Caught (get release key) ↔ IsObject release := fun key => raises_get (by decide)
  have hindex : ∀ key, Raises Caught (index release key) ↔ IsObject release := fun key =>
    raises_index (by decide) (by decide)
  simp only [fromRelease, raises_bind_iff, hget, hindex, raises_refuse, refuse_ok, raises_orElseNotFound]
  constructor
  · rintro ⟨hobject, h⟩
    refine ⟨hobject, fun tag hannounces => ?_⟩
    obtain ⟨hdraft, hprerelease, htag⟩ := hannounces
    obtain ⟨draft, hdraftIn⟩ := hobject.get_ok "draft"
    obtain ⟨prerelease, hprereleaseIn⟩ := hobject.get_ok "prerelease"
    have hfinal : ¬(draft.truthy = true ∨ prerelease.truthy = true) := by
      simp [hdraft draft hdraftIn, hprerelease prerelease hprereleaseIn]
    exact (((((h draft hdraftIn).2 prerelease hprereleaseIn).2) () hfinal).2 tag htag).1
  · rintro ⟨hobject, h⟩
    refine ⟨hobject, fun draft hdraft => ⟨hobject, fun prerelease hprerelease => ⟨fun _ => by decide, fun _ hfinal =>
      ⟨hobject, fun tag htag => ⟨h tag ⟨fun other hother => ?_, fun other hother => ?_, htag⟩, fun commit _ =>
        ⟨hobject, fun url _ => raises_pure⟩⟩⟩⟩⟩⟩
    · rw [get_unique hother hdraft]
      simpa using fun hd => hfinal (.inl hd)
    · rw [get_unique hother hprerelease]
      simpa using fun hp => hfinal (.inr hp)

theorem raises_resolveCommit {tag : Value} :
    Raises CaughtOrMissing (resolveCommit loads str responses repository tag) ↔
      Raises CaughtOrMissing (getJson loads responses (referenceUrl str repository tag)) ∧
        ∀ reference, getJson loads responses (referenceUrl str repository tag) = .ok reference →
          CommitReadable loads str responses CaughtOrMissing repository reference := by
  rw [resolveCommit, raises_bind_iff]
  refine and_congr_right fun _ => forall₂_congr fun reference _ => ?_
  exact raises_commitOf (.inl (by decide)) (by decide) (by decide)

theorem raises_fromTags : Raises Caught (fromTags loads str responses repository) ↔
    Raises Caught (getJson loads responses (tagsUrl repository)) ∧
      ∀ tags, getJson loads responses (tagsUrl repository) = .ok tags → tags.truthy = true →
        IsObject tags ∨ ∃ newest rest, tags = .list (newest :: rest) ∧
          CommitReadable loads str responses Caught repository newest := by
  have hcommit : ∀ holder, Raises Caught (commitOf loads str responses repository holder) ↔
      CommitReadable loads str responses Caught repository holder := fun holder =>
    raises_commitOf (by decide) (by decide) (by decide)
  rw [fromTags, raises_bind_iff]
  refine and_congr_right fun _ => forall₂_congr fun tags _ => ?_
  simp only [raises_bind_iff, raises_refuse, refuse_ok, hcommit]
  constructor
  · rintro ⟨-, h⟩ htruthy
    obtain ⟨hfirst, h⟩ := h () (by simp [htruthy])
    cases tags with
    | dict items => exact .inl ⟨items, rfl⟩
    | list items =>
      cases items with
      | nil => simp [Value.truthy] at htruthy
      | cons newest rest => exact .inr ⟨newest, rest, rfl, (h newest rfl).1⟩
    | str s =>
      -- a character of a text is no object
      cases hs : s.toList with
      | nil => simp [first, hs, Caught] at hfirst
      | cons c cs =>
        obtain ⟨_, hobject⟩ := (h (.str (String.ofList [c])) (by simp [first, hs])).1.object
        cases hobject
    | none => simp [Value.truthy] at htruthy
    | bool b => simp [first, Caught] at hfirst
    | int n => simp [first, Caught] at hfirst
    | float q => simp [first, Caught] at hfirst
    | time text => simp [first, Caught] at hfirst
  · intro h
    refine ⟨fun _ => by decide, fun _ hpassed => ?_⟩
    rcases h (by simpa using hpassed) with ⟨items, rfl⟩ | ⟨newest, rest, rfl, hreadable⟩
    · exact ⟨raises_error.mpr (by decide), fun _ hpassed => by cases hpassed⟩
    · refine ⟨raises_ok, fun item hitem => ?_⟩
      cases hitem
      exact ⟨hreadable, fun commit _ => ⟨(raises_index (by decide) (by decide)).mpr hreadable.object,
        fun name _ => raises_pure⟩⟩

/-! ### One component -/

theorem fetchLatest_raises {component : Component} :
    Raises Caught (fetchLatest loads str responses component.repository) ↔
      Raises CaughtOrMissing (getJson loads responses (latestUrl component.repository)) ∧
      (∀ release, getJson loads responses (latestUrl component.repository) = .ok release → release ≠ .none →
        Raises Caught (fromRelease loads str responses component.repository release)) ∧
      (getJson loads responses (latestUrl component.repository) = .error .notFound ∨
          getJson loads responses (latestUrl component.repository) = .ok .none →
        Raises Caught (fromTags loads str responses component.repository)) := by
  rw [fetchLatest]
  rcases getJson loads responses (latestUrl component.repository) with e | release
  · cases e <;> simp [orElseNotFound, raises_bind_iff, CaughtOrMissing]
  · cases release <;> simp [orElseNotFound, raises_bind_iff]

theorem fetchLatest_ok {component : Component} {latest : Latest} :
    fetchLatest loads str responses component.repository = .ok latest ↔
      (∃ release, getJson loads responses (latestUrl component.repository) = .ok release ∧ release ≠ .none ∧
        fromRelease loads str responses component.repository release = .ok latest) ∨
      ((getJson loads responses (latestUrl component.repository) = .error .notFound ∨
          getJson loads responses (latestUrl component.repository) = .ok .none) ∧
        fromTags loads str responses component.repository = .ok latest) := by
  rw [fetchLatest]
  rcases getJson loads responses (latestUrl component.repository) with e | release
  · cases e <;> simp [orElseNotFound, except_bind_ok]
  · cases release <;> simp [orElseNotFound, except_bind_ok]

theorem fromRelease_ok {release : Value} {latest : Latest}
    (h : fromRelease loads str responses repository release = .ok latest) : Announces release latest.tag ∧
      ∀ e, resolveCommit loads str responses repository latest.tag = .error e → e = .notFound := by
  simp only [fromRelease, except_bind_ok, refuse_ok, not_or, Bool.not_eq_true, pure, Except.pure,
    Except.ok.injEq] at h
  obtain ⟨draft, hdraft, prerelease, hprerelease, _, ⟨hfinal, hfinal'⟩, tag, htag, commit, hcommit, url, -,
    rfl⟩ := h
  refine ⟨⟨fun other hother => ?_, fun other hother => ?_, htag⟩, fun e he => ?_⟩
  · rw [get_unique hother hdraft]
    exact hfinal
  · rw [get_unique hother hprerelease]
    exact hfinal'
  · rw [he] at hcommit
    cases e <;> first | rfl | cases hcommit

theorem fromRelease_of_announces {release tag : Value} (hobject : IsObject release) (h : Announces release tag)
    (hresolve : ∀ e, resolveCommit loads str responses repository tag = .error e → e = .notFound) :
    ∃ latest, fromRelease loads str responses repository release = .ok latest ∧ latest.tag = tag := by
  obtain ⟨draft, hdraft⟩ := hobject.get_ok "draft"
  obtain ⟨prerelease, hprerelease⟩ := hobject.get_ok "prerelease"
  obtain ⟨url, hurl⟩ := hobject.get_ok "html_url"
  have hcommit : ∃ commit, orElseNotFound (resolveCommit loads str responses repository tag) (.str "") =
      .ok commit := by
    cases hx : resolveCommit loads str responses repository tag with
    | ok commit => exact ⟨commit, rfl⟩
    | error e =>
      rw [hresolve e hx]
      exact ⟨_, rfl⟩
  obtain ⟨commit, hcommit⟩ := hcommit
  refine ⟨⟨tag, commit, if url.truthy then url else .str "", "release"⟩, ?_, rfl⟩
  simp only [fromRelease, except_bind_ok, refuse_ok, not_or, Bool.not_eq_true]
  exact ⟨draft, hdraft, prerelease, hprerelease, (), ⟨h.1 draft hdraft, h.2.1 prerelease hprerelease⟩, tag, h.2.2,
    commit, hcommit, url, hurl, rfl⟩

theorem fromTags_ok {tag : Value} : (∃ latest, fromTags loads str responses repository = .ok latest ∧
    latest.tag = tag) ↔ ∃ tags newest commit, getJson loads responses (tagsUrl repository) = .ok tags ∧
      tags.truthy = true ∧ first tags = .ok newest ∧ commitOf loads str responses repository newest = .ok commit ∧
        index newest "name" = .ok tag := by
  simp only [fromTags, except_bind_ok, refuse_ok, Bool.not_eq_false, pure, Except.pure, Except.ok.injEq]
  constructor
  · rintro ⟨_, ⟨tags, htags, _, htruthy, newest, hnewest, commit, hcommit, name, hname, rfl⟩, rfl⟩
    exact ⟨tags, newest, commit, htags, htruthy, hnewest, hcommit, hname⟩
  · rintro ⟨tags, newest, commit, htags, htruthy, hnewest, hcommit, hname⟩
    exact ⟨_, ⟨tags, htags, (), htruthy, newest, hnewest, commit, hcommit, tag, hname, rfl⟩, rfl⟩

/-- The loop gets over a component exactly when it is presentable. -/
theorem presentable_iff {component : Component} : Presentable loads str responses component ↔
    Raises Caught (fetchLatest loads str responses component.repository) ∧
      ∀ latest, fetchLatest loads str responses component.repository = .ok latest →
        Comparable component.tag latest.tag := by
  rw [fetchLatest_raises]
  constructor
  · intro h
    refine ⟨⟨h.latest, fun release hrelease hne => ?_, fun hnone => ?_⟩, fun latest hlatest => ?_⟩
    · have hreadable := h.release release hrelease hne
      exact raises_fromRelease.mpr ⟨hreadable.object, fun tag htag =>
        raises_resolveCommit.mpr (hreadable.reference tag htag)⟩
    · have hreadable := h.tags hnone
      refine raises_fromTags.mpr ⟨hreadable.answered, fun tags htags htruthy => ?_⟩
      rcases hreadable.newest tags htags htruthy with hobject | ⟨newest, rest, heq, hcommit, -⟩
      · exact .inl hobject
      · exact .inr ⟨newest, rest, heq, hcommit⟩
    · rcases fetchLatest_ok.mp hlatest with ⟨release, hrelease, hne, hfrom⟩ | ⟨hnone, hfrom⟩
      · obtain ⟨hannounces, hresolve⟩ := fromRelease_ok hfrom
        exact (h.release release hrelease hne).comparable latest.tag hannounces hresolve
      · obtain ⟨tags, newest, commit, htags, htruthy, hfirst, hcommit, hname⟩ :=
          fromTags_ok.mp ⟨latest, hfrom, rfl⟩
        rcases (h.tags hnone).newest tags htags htruthy with ⟨items, rfl⟩ | ⟨newest', rest, rfl, -, hcomparable⟩
        · cases hfirst
        · cases hfirst
          exact hcomparable commit latest.tag hcommit hname
  · rintro ⟨⟨hlatest, hrelease, htags⟩, hcomparable⟩
    refine ⟨hlatest, fun release hin hne => ?_, fun hnone => ?_⟩
    · obtain ⟨hobject, hreference⟩ := raises_fromRelease.mp (hrelease release hin hne)
      refine ⟨hobject, fun tag htag => raises_resolveCommit.mp (hreference tag htag), fun tag htag hresolve => ?_⟩
      obtain ⟨latest, hfrom, rfl⟩ := fromRelease_of_announces hobject htag hresolve
      exact hcomparable latest (fetchLatest_ok.mpr (.inl ⟨release, hin, hne, hfrom⟩))
    · obtain ⟨hanswered, hnewest⟩ := raises_fromTags.mp (htags hnone)
      refine ⟨hanswered, fun tags hin htruthy => ?_⟩
      rcases hnewest tags hin htruthy with hobject | ⟨newest, rest, rfl, hcommit⟩
      · exact .inl hobject
      · refine .inr ⟨newest, rest, rfl, hcommit, fun commit name hread hname => ?_⟩
        obtain ⟨latest, hfrom, rfl⟩ := fromTags_ok.mpr ⟨_, newest, commit, hin, htruthy, rfl, hread, hname⟩
        exact hcomparable latest (fetchLatest_ok.mpr (.inr ⟨hnone, hfrom⟩))

/-- What a component can come to. -/
inductive Outcome (loads : Bytes → Except Exn Value) (str : Value → String) (responses : Responses)
    (openKeys : List String) (name : String) (component : Component) : Option Finding → Prop
  | failed {e : Exn} : fetchLatest loads str responses component.repository = .error e → Caught e →
      Outcome loads str responses openKeys name component (some ⟨name, component.repository, .checkFailed⟩)
  | current {latest : Latest} {relation : Relation} :
      fetchLatest loads str responses component.repository = .ok latest →
      compareTags component.tag latest.tag = .ok relation → relation = .same ∨ relation = .older →
      Outcome loads str responses openKeys name component none
  | known {latest : Latest} {relation : Relation} :
      fetchLatest loads str responses component.repository = .ok latest →
      compareTags component.tag latest.tag = .ok relation → ¬(relation = .same ∨ relation = .older) →
      dedupKey component.repository (str latest.tag) ∈ openKeys →
      Outcome loads str responses openKeys name component none
  | update {latest : Latest} {relation : Relation} :
      fetchLatest loads str responses component.repository = .ok latest →
      compareTags component.tag latest.tag = .ok relation → ¬(relation = .same ∨ relation = .older) →
      dedupKey component.repository (str latest.tag) ∉ openKeys →
      Outcome loads str responses openKeys name component (some ⟨name, component.repository,
        .updateAvailable (dedupKey component.repository (str latest.tag)) component.tag component.commit latest
          (if relation = .different then some MANUAL_NOTE else none)⟩)

theorem scanComponent_ok {openKeys : List String} {name : String} {component : Component}
    {outcome : Option Finding} : scanComponent loads str responses openKeys name component = .ok outcome ↔
      Outcome loads str responses openKeys name component outcome := by
  rw [scanComponent]
  constructor
  · intro h
    split at h
    · next e he =>
      split at h
      · next hcaught =>
        cases h
        exact .failed he hcaught
      · cases h
    · next latest hlatest =>
      rw [except_bind_ok] at h
      obtain ⟨relation, hrelation, h⟩ := h
      split at h
      · next hcurrent =>
        cases h
        exact .current hlatest hrelation hcurrent
      · next hnew =>
        dsimp only at h
        split at h
        · next hopen =>
          cases h
          exact .known hlatest hrelation hnew hopen
        · next hopen =>
          cases h
          exact .update hlatest hrelation hnew hopen
  · intro h
    cases h with
    | failed he hcaught => simp only [he, if_pos hcaught]
    | current hlatest hrelation hcurrent =>
      simp only [hlatest, hrelation, except_ok_bind, if_pos hcurrent]
      rfl
    | known hlatest hrelation hnew hopen =>
      simp only [hlatest, hrelation, except_ok_bind, if_neg hnew, if_pos hopen]
      rfl
    | update hlatest hrelation hnew hopen =>
      simp only [hlatest, hrelation, except_ok_bind, if_neg hnew, if_neg hopen]
      rfl

theorem scanComponent_returns {openKeys : List String} {name : String} {component : Component} :
    (∃ outcome, scanComponent loads str responses openKeys name component = .ok outcome) ↔
      Presentable loads str responses component := by
  simp only [presentable_iff, scanComponent_ok]
  have hread : ∀ {latest : Latest} {relation : Relation},
      fetchLatest loads str responses component.repository = .ok latest →
      compareTags component.tag latest.tag = .ok relation →
      Raises Caught (fetchLatest loads str responses component.repository) ∧
        ∀ other, fetchLatest loads str responses component.repository = .ok other →
          Comparable component.tag other.tag := by
    intro latest relation hlatest hrelation
    rw [hlatest]
    refine ⟨raises_ok, fun other hother => ?_⟩
    cases hother
    exact compareTags_returns.mp ⟨relation, hrelation⟩
  constructor
  · rintro ⟨outcome, h⟩
    cases h with
    | failed he hcaught =>
      rw [he]
      exact ⟨raises_error.mpr hcaught, nofun⟩
    | current hlatest hrelation _ => exact hread hlatest hrelation
    | known hlatest hrelation _ _ => exact hread hlatest hrelation
    | update hlatest hrelation _ _ => exact hread hlatest hrelation
  · rintro ⟨hraises, hcomparable⟩
    cases hfetch : fetchLatest loads str responses component.repository with
    | error e => exact ⟨_, .failed hfetch (hraises e hfetch)⟩
    | ok latest =>
      obtain ⟨relation, hrelation⟩ := compareTags_returns.mpr (hcomparable latest hfetch)
      by_cases hcurrent : relation = .same ∨ relation = .older
      · exact ⟨_, .current hfetch hrelation hcurrent⟩
      · by_cases hopen : dedupKey component.repository (str latest.tag) ∈ openKeys
        · exact ⟨_, .known hfetch hrelation hcurrent hopen⟩
        · exact ⟨_, .update hfetch hrelation hcurrent hopen⟩

theorem scan_ok {sessions : String → Responses} {pinned : OrderedMap Component} {openKeys : List String}
    {findings : List Finding} : scan loads str sessions pinned openKeys = .ok findings ↔
      ∃ outcomes, List.Forall₂ (fun entry outcome => Outcome loads str (sessions entry.1) openKeys entry.1 entry.2
        outcome) pinned.entries outcomes ∧ findings = outcomes.filterMap id := by
  simp only [scan, except_bind_ok, except_mapM_ok, scanComponent_ok, pure, Except.pure, Except.ok.injEq,
    @eq_comm _ findings]

theorem Outcome.component {openKeys : List String} {name : String} {component : Component} {finding : Finding}
    (h : Outcome loads str responses openKeys name component (some finding)) : finding.component = name := by
  cases h <;> rfl

/-- The findings of a component are those of its own outcome. -/
theorem filter_outcomes {sessions : String → Responses} {openKeys : List String}
    {entries : List (String × Component)} {outcomes : List (Option Finding)}
    (h : List.Forall₂ (fun entry outcome => Outcome loads str (sessions entry.1) openKeys entry.1 entry.2 outcome)
      entries outcomes) (hnd : (entries.map Prod.fst).Nodup) : ∀ entry ∈ entries, ∃ outcome,
        Outcome loads str (sessions entry.1) openKeys entry.1 entry.2 outcome ∧
          (outcomes.filterMap id).filter (fun finding => finding.component = entry.1) = outcome.toList := by
  have hcons : ∀ (outcome : Option Finding) (outcomes : List (Option Finding)),
      (outcome :: outcomes).filterMap id = outcome.toList ++ outcomes.filterMap id := by
    rintro (_ | finding) outcomes <;> rfl
  induction h with
  | nil =>
    intro entry hentry
    cases hentry
  | @cons head outcome entries outcomes houtcome hrest ih =>
    obtain ⟨hfresh, hnd⟩ := List.nodup_cons.mp hnd
    have hhead : ∀ finding ∈ outcome.toList, finding.component = head.1 := by
      intro finding hfinding
      rw [Option.mem_toList] at hfinding
      subst hfinding
      exact houtcome.component
    have hothers : ∀ finding ∈ outcomes.filterMap id, finding.component ∈ entries.map Prod.fst := by
      intro finding hfinding
      obtain ⟨other, hother, heq⟩ := List.mem_filterMap.mp hfinding
      obtain ⟨entry, hentry, hown⟩ := Keyed.exists_of_mem_right hrest other hother
      rw [id] at heq
      subst heq
      rw [hown.component]
      exact List.mem_map_of_mem hentry
    intro entry hentry
    rw [hcons, List.filter_append]
    rcases List.mem_cons.mp hentry with rfl | hentry
    · refine ⟨outcome, houtcome, ?_⟩
      rw [List.filter_eq_self.mpr fun finding hfinding => by simpa using hhead finding hfinding,
        List.filter_eq_nil_iff.mpr fun finding hfinding => ?_, List.append_nil]
      simp only [decide_eq_true_eq]
      exact fun heq => hfresh (heq ▸ hothers finding hfinding)
    · obtain ⟨own, hown, hfilter⟩ := ih hnd entry hentry
      refine ⟨own, hown, ?_⟩
      rw [hfilter, List.filter_eq_nil_iff.mpr fun finding hfinding => ?_, List.nil_append]
      simp only [decide_eq_true_eq]
      exact fun heq => hfresh ((hhead finding hfinding).symm.trans heq ▸ List.mem_map_of_mem hentry)

/-- What the scan is for: it returns, every component comes to one of its outcomes, and the answers for
    other components do not change it. -/
structure Advisory (loads : Bytes → Except Exn Value) (str : Value → String) (sessions : String → Responses)
    (pinned : OrderedMap Component) (openKeys : List String) : Prop where
  returns : ∃ outcomes, List.Forall₂ (fun entry outcome =>
      Outcome loads str (sessions entry.1) openKeys entry.1 entry.2 outcome) pinned.entries outcomes ∧
    scan loads str sessions pinned openKeys = .ok (outcomes.filterMap id)
  independent : ∀ entry ∈ pinned.entries, ∀ sessions' findings findings', sessions' entry.1 = sessions entry.1 →
    scan loads str sessions pinned openKeys = .ok findings →
    scan loads str sessions' pinned openKeys = .ok findings' →
      findings'.filter (fun finding => finding.component = entry.1) =
        findings.filter (fun finding => finding.component = entry.1)

theorem findings_of_component {sessions : String → Responses} {pinned : OrderedMap Component}
    {openKeys : List String} {findings : List Finding}
    (h : scan loads str sessions pinned openKeys = .ok findings)
    {entry : String × Component} (hentry : entry ∈ pinned.entries) : ∃ outcome,
      scanComponent loads str (sessions entry.1) openKeys entry.1 entry.2 = .ok outcome ∧
        findings.filter (fun finding => finding.component = entry.1) = outcome.toList := by
  obtain ⟨outcomes, houtcomes, rfl⟩ := scan_ok.mp h
  have hnd : (pinned.entries.map Prod.fst).Nodup := pinned.keys_increasing.imp fun hlt => hlt.ne
  obtain ⟨outcome, hown, hfilter⟩ := filter_outcomes houtcomes hnd entry hentry
  exact ⟨outcome, scanComponent_ok.mpr hown, hfilter⟩

/-- The scan is advisory exactly when every component is presentable. -/
theorem scan_advisory_iff (loads : Bytes → Except Exn Value) (str : Value → String)
    (sessions : String → Responses) (pinned : OrderedMap Component) (openKeys : List String) :
    Advisory loads str sessions pinned openKeys ↔
      ∀ entry ∈ pinned.entries, Presentable loads str (sessions entry.1) entry.2 := by
  constructor
  · intro h entry hentry
    obtain ⟨outcomes, houtcomes, -⟩ := h.returns
    obtain ⟨outcome, -, hown⟩ := Keyed.exists_of_mem_left houtcomes entry hentry
    exact scanComponent_returns.mp ⟨outcome, scanComponent_ok.mpr hown⟩
  · intro h
    refine ⟨?_, fun entry hentry sessions' findings findings' hsame hscan hscan' => ?_⟩
    · have hevery : ∀ entry ∈ pinned.entries, ∃ outcome,
          Outcome loads str (sessions entry.1) openKeys entry.1 entry.2 outcome := by
        intro entry hentry
        obtain ⟨outcome, hown⟩ := scanComponent_returns.mpr (h entry hentry)
        exact ⟨outcome, scanComponent_ok.mp hown⟩
      obtain ⟨outcomes, houtcomes⟩ := Keyed.exists_forall₂ hevery
      exact ⟨outcomes, houtcomes, scan_ok.mpr ⟨outcomes, houtcomes, rfl⟩⟩
    · obtain ⟨outcome, hown, hfilter⟩ := findings_of_component hscan hentry
      obtain ⟨outcome', hown', hfilter'⟩ := findings_of_component hscan' hentry
      rw [hsame, hown] at hown'
      cases hown'
      rw [hfilter, hfilter']

end

/-- Two components, the first of them without releases and tags. -/
def watched : OrderedMap Component where
  entries := [("level-zero", ⟨"oneapi-src/level-zero", "v1.28.6", ""⟩),
    ("openvino", ⟨"openvinotoolkit/openvino", "2026.2.1", ""⟩)]
  increasing := by decide

/-- What is not found for one component ends the scan of the other. -/
theorem missing_tags_end_scan : ¬ ∀ (loads : Bytes → Except Exn Value) (str : Value → String)
    (sessions : String → Responses) (pinned : OrderedMap Component) (openKeys : List String),
    Advisory loads str sessions pinned openKeys := by
  intro h
  obtain ⟨outcomes, -, hscan⟩ := (h (fun _ => .error .valueError) (fun _ => "")
    (fun name _ => .error (if name = "level-zero" then .notFound else .osError)) watched []).returns
  have hend : scan (fun _ => .error .valueError) (fun _ => "")
      (fun name _ => .error (if name = "level-zero" then .notFound else .osError)) watched [] =
        .error .notFound := rfl
  rw [hend] at hscan
  cases hscan

end NpuStack.Ci.UpstreamWatch
