import Mathlib.Data.List.Dedup
import NpuStack.Publish.Compose
import NpuStack.Schemes.Keyed

/-! The composed site is exactly the live releases.

        release ──composeServed──▶ Served: signed sums, exactly their files, the tag's commit
        seen ──composeRelease──▶ seen + 1        (Composes.step)
        listing ──▶ output                       (composePages_exact)

    An accepted run has composed every release its listing named and the registry does not retire; a
    refused one leaves the disk as it found it. -/

namespace NpuStack.Publish
open Interaction Text

/-! ### What a composed release is -/

/-- What a release has under a name is one of its assets. -/
theorem mem_assetsByName {release : Release} {name : String} {asset : Asset}
    (h : (name, asset) ∈ release.assetsByName) : asset ∈ release.assets ∧ asset.name = name := by
  rcases Py.mem_foldl_insertItem h with h | h
  · cases h
  · obtain ⟨asset', hmem, heq⟩ := List.mem_map.mp h
    cases heq
    exact ⟨hmem, rfl⟩

section
variable {tools : Tools} {fingerprint rootUrl version : String} {t : List (Event Answer)}

/-- These bytes were downloaded as the release's asset of that name, and have its digest. -/
def Downloaded (tools : Tools) (release : Release) (name : String) (content : Bytes)
    (t : List (Event Answer)) : Prop :=
  ∃ asset ∈ release.assets, asset.name = name ∧ asset.digest = some (apiDigest tools content) ∧
    ⟨.download asset.url, some content⟩ ∈ t

/-- A version directory, and the signed release it comes from. -/
structure Served (tools : Tools) (fingerprint rootUrl version : String) (release : Release)
    (composed : Composed) (site : Site) (t : List (Event Answer)) : Prop where
  exact : ∃ archive sums signature listed data,
    Downloaded tools release (archiveName version) archive t ∧
    Downloaded tools release "SHA256SUMS" sums t ∧ Downloaded tools release "SHA256SUMS.asc" signature t ∧
    tools.verifySignature fingerprint signature sums = true ∧ ExactSite tools sums signature listed site ∧
    composed = ⟨tools.sha256 sums, tools.sha256 archive, site.length, release.id, composed.commit⟩ ∧
    checkServed tools fingerprint rootUrl version release data archive site composed.commit = .ok ()
  tagged : ⟨.tagCommit release.tagName, some (some composed.commit)⟩ ∈ t

/-- A version with these sums could have served this file: they list it and are within the bounds, or it
    is one of the two. -/
def CouldServe (sums : Bytes) (path : String) : Prop :=
  path ∈ SUMS_FILES ∨ ∃ listed, parseSums sums = .ok listed ∧
    (listed.map Prod.fst ++ SUMS_FILES).dedup.length ≤ MAX_MEMBERS ∧ path ∈ listed.map Prod.fst

/-- A version left out, and the release its entry retires. -/
def Gone (tools : Tools) (release : Release) (digest : String) (files : List String)
    (t : List (Event Answer)) : Prop :=
  ∃ sums, Downloaded tools release "SHA256SUMS" sums t ∧ tools.sha256 sums = digest ∧
    ∀ path, path ∈ files ↔ CouldServe sums path

theorem goneFiles_ok {sums : Bytes} {files : List String} (h : goneFiles sums = .ok files) (path : String) :
    path ∈ files ↔ CouldServe sums path := by
  rw [goneFiles, except_bind_ok] at h
  obtain ⟨text, htext, h⟩ := h
  have hparse : parseSums sums = (Py.splitlines text).foldlM parseLine [] := by
    rw [parseSums, htext, except_ok_bind]
  rw [← hparse] at h
  split at h
  next refusal herror =>
    cases h
    simp [CouldServe, herror]
  next listed hlisted =>
    simp only at h
    split at h
    next hbound =>
      cases h
      rw [List.mem_mergeSort, List.mem_dedup, List.mem_append, or_comm]
      rw [List.length_mergeSort] at hbound
      simp [CouldServe, hlisted, hbound]
    next hbound =>
      cases h
      rw [List.length_mergeSort] at hbound
      simp [CouldServe, hlisted, hbound]

theorem Downloaded.mono {release : Release} {name : String} {content : Bytes} {t t' : List (Event Answer)}
    (h : Downloaded tools release name content t) (hsub : t ⊆ t') :
    Downloaded tools release name content t' := by
  obtain ⟨asset, hmem, hname, hdigest, hevent⟩ := h
  exact ⟨asset, hmem, hname, hdigest, hsub hevent⟩

theorem Served.mono {release : Release} {composed : Composed} {site : Site} {t t' : List (Event Answer)}
    (h : Served tools fingerprint rootUrl version release composed site t) (hsub : t ⊆ t') :
    Served tools fingerprint rootUrl version release composed site t' := by
  obtain ⟨archive, sums, signature, listed, data, harchive, hsums, hsig, hrest⟩ := h.exact
  exact ⟨⟨archive, sums, signature, listed, data, harchive.mono hsub, hsums.mono hsub, hsig.mono hsub,
    hrest⟩, hsub h.tagged⟩

theorem Gone.mono {release : Release} {digest : String} {files : List String} {t t' : List (Event Answer)}
    (h : Gone tools release digest files t) (hsub : t ⊆ t') : Gone tools release digest files t' := by
  obtain ⟨sums, hsums, hrest⟩ := h
  exact ⟨sums, hsums.mono hsub, hrest⟩

theorem runs_downloadAsset {asset : Asset} {content : Bytes}
    (h : (downloadAsset asset).Runs t (.ok content)) : t = [⟨.download asset.url, some content⟩] := by
  obtain ⟨answer, rfl, hanswer⟩ := Prog.runs_expect.mp h
  rw [need_ok.mp hanswer]

theorem runs_composeRetired {release : Release} {digest : String} {files : List String}
    (h : (composeRetired tools release digest).Runs t (.ok files)) : Gone tools release digest files t := by
  rw [composeRetired, Prog.runs_lift_bind_ok] at h
  obtain ⟨asset, hasset, h⟩ := h
  rw [Prog.runs_bind_ok] at h
  obtain ⟨sums, t₁, t₂, rfl, hsums, h⟩ := h
  rw [Prog.runs_lift_bind_ok] at h
  obtain ⟨_, hdigest, h⟩ := h
  obtain ⟨rfl, hfiles⟩ := Prog.runs_lift.mp h
  rw [require_ok] at hdigest
  obtain ⟨hmem, hname⟩ := mem_assetsByName (Keyed.mem_of_lookup (need_ok.mp hasset))
  refine ⟨sums, ⟨asset, hmem, hname, hdigest.1, ?_⟩, hdigest.2, goneFiles_ok hfiles⟩
  rw [runs_downloadAsset hsums]
  simp

theorem runs_downloadChecked {item : String × Asset} {data : String × Bytes}
    (h : (downloadChecked tools item).Runs t (.ok data)) :
    data.1 = item.1 ∧ item.2.digest = some (apiDigest tools data.2) ∧
      ⟨.download item.2.url, some data.2⟩ ∈ t := by
  rw [downloadChecked, Prog.runs_bind_ok] at h
  obtain ⟨content, t₁, t₂, rfl, hcontent, h⟩ := h
  rw [Prog.runs_lift_bind_ok] at h
  obtain ⟨_, hdigest, h⟩ := h
  cases (Prog.runs_pure.mp h).2
  rw [require_ok] at hdigest
  refine ⟨rfl, hdigest, ?_⟩
  rw [runs_downloadAsset hcontent]
  simp

theorem downloaded_of_lookup {release : Release} {data : List (String × Bytes)} {name : String}
    {content : Bytes}
    (hdata : List.Forall₂ (fun item data => ∃ t', t' ⊆ t ∧ (downloadChecked tools item).Runs t' (.ok data))
      release.assetsByName data)
    (h : data.lookup name = some content) : Downloaded tools release name content t := by
  obtain ⟨item, hitem, t', ht', hrun⟩ := Keyed.exists_of_mem_right hdata _ (Keyed.mem_of_lookup h)
  obtain ⟨hname, hdigest, hevent⟩ := runs_downloadChecked hrun
  obtain ⟨hmem, hasset⟩ := mem_assetsByName hitem
  exact ⟨item.2, hmem, hasset.trans hname.symm, hdigest, ht' hevent⟩

theorem runs_composeServed {release : Release} {composed : Composed} {site : Site}
    (h : (composeServed tools fingerprint rootUrl version release).Runs t (.ok (composed, site))) :
    Served tools fingerprint rootUrl version release composed site t := by
  rw [composeServed, Prog.runs_lift_bind_ok] at h
  obtain ⟨_, -, h⟩ := h
  rw [Prog.runs_bind_ok] at h
  obtain ⟨data, t₁, t₂, rfl, hmap, h⟩ := h
  rw [Prog.runs_lift_bind_ok] at h
  obtain ⟨⟨archive, sums, site'⟩, hunpack, h⟩ := h
  rw [Prog.runs_bind_ok] at h
  obtain ⟨found, t₃, t₄, rfl, htag, h⟩ := h
  rw [Prog.runs_lift_bind_ok] at h
  obtain ⟨commit, hcommit, h⟩ := h
  rw [Prog.runs_lift_bind_ok] at h
  obtain ⟨_, hchecks, h⟩ := h
  obtain ⟨rfl, hpure⟩ := Prog.runs_pure.mp h
  obtain ⟨rfl, rfl⟩ := Prod.mk.inj (Except.ok.inj hpure)
  have hdata := Prog.runs_mapM_ok hmap
  simp only [unpackServed, except_bind_ok, need_ok, require_ok] at hunpack
  obtain ⟨archive', harchive, sums', hsums, signature, hsig, _, hverify, site'', hsite, heq⟩ := hunpack
  cases heq
  obtain ⟨listed, hexact⟩ := unpackRelease_ok hsite
  have hsub : t₁ ⊆ t₁ ++ (t₃ ++ []) := List.subset_append_left _ _
  refine ⟨⟨archive, sums, signature, listed, data, (downloaded_of_lookup hdata harchive).mono hsub,
    (downloaded_of_lookup hdata hsums).mono hsub, (downloaded_of_lookup hdata hsig).mono hsub, hverify,
    hexact, rfl, hchecks⟩, ?_⟩
  obtain ⟨answer, rfl, hanswer⟩ := Prog.runs_expect.mp htag
  rw [need_ok.mp hanswer, need_ok.mp hcommit]
  simp

/-! ### A whole composition -/

/-- A release that is composed or retired: not a draft, with a `vX.Y.Z` tag. -/
def Live (release : Release) (version : String) : Prop :=
  release.draft = false ∧ tagVersion release.tagName = some version

theorem mem_candidates {releases : List Release} {pending : Option String} {candidate : String × Release} :
    candidate ∈ candidates pending releases ↔
      candidate.2 ∈ releases ∧ Live candidate.2 candidate.1 ∧ pending ≠ some candidate.1 := by
  obtain ⟨version, release⟩ := candidate
  rw [candidates, List.mem_mergeSort, List.mem_filterMap]
  constructor
  · rintro ⟨release', hmem, h⟩
    split at h
    next version' htag =>
      split at h
      next => cases h
      next hkeep =>
        cases h
        simp only [Bool.or_eq_true, decide_eq_true_eq, not_or, Bool.not_eq_true] at hkeep
        exact ⟨hmem, ⟨hkeep.1, htag⟩, hkeep.2⟩
    next => cases h
  · rintro ⟨hmem, ⟨hdraft, htag⟩, hpending⟩
    refine ⟨release, hmem, ?_⟩
    simp only at hdraft htag hpending
    simp [htag, hdraft, hpending]

/-- Whether the registry retires a candidate. -/
def isRetired (registry : Registry) (candidate : String × Release) : Bool :=
  (registry.retired.lookup candidate.1).isSome

/-- A composed version comes from this candidate. -/
def ServedItem (tools : Tools) (fingerprint rootUrl : String) (t : List (Event Answer))
    (candidate : String × Release) (item : String × Composed × Site) : Prop :=
  item.1 = candidate.1 ∧ Served tools fingerprint rootUrl candidate.1 candidate.2 item.2.1 item.2.2 t

/-- A version left out comes from this candidate. -/
def GoneItem (tools : Tools) (registry : Registry) (t : List (Event Answer)) (candidate : String × Release)
    (item : String × List String) : Prop :=
  item.1 = candidate.1 ∧
    ∃ digest, registry.retired.lookup candidate.1 = some digest ∧ Gone tools candidate.2 digest item.2 t

/-- The composition of the candidates seen so far. -/
structure Composes (tools : Tools) (fingerprint rootUrl : String) (registry : Registry)
    (seen : List (String × Release)) (composition : Composition) (t : List (Event Answer)) : Prop where
  full : ∀ candidate ∈ seen, candidate.2.immutable = some true ∧ candidate.2.prerelease = false
  unique : (seen.map Prod.fst).Nodup
  served : ∃ items : List (String × Composed × Site),
    composition.versions = items.map (fun item => (item.1, item.2.1)) ∧
    composition.output = items.map (fun item => (item.1, item.2.2)) ∧
    List.Forall₂ (ServedItem tools fingerprint rootUrl t)
      (seen.filter fun candidate => !isRetired registry candidate) items
  retired : List.Forall₂ (GoneItem tools registry t) (seen.filter (isRetired registry)) composition.gone

theorem Composes.empty {registry : Registry} :
    Composes tools fingerprint rootUrl registry [] Composition.empty t :=
  ⟨by simp, by simp, ⟨[], rfl, rfl, .nil⟩, .nil⟩

/-- The names of related lists are the same. -/
theorem map_fst_of_forall₂ {α β : Type} {R : String × α → String × β → Prop}
    (hR : ∀ a b, R a b → b.1 = a.1) : ∀ {as : List (String × α)} {bs : List (String × β)},
    List.Forall₂ R as bs → bs.map Prod.fst = as.map Prod.fst
  | _, _, .nil => rfl
  | _, _, .cons hab h => by
    rw [List.map_cons, List.map_cons, hR _ _ hab, map_fst_of_forall₂ hR h]

theorem Composes.versions_fst {registry : Registry} {seen : List (String × Release)}
    {composition : Composition} (h : Composes tools fingerprint rootUrl registry seen composition t) :
    composition.versions.map Prod.fst =
      (seen.filter fun candidate => !isRetired registry candidate).map Prod.fst := by
  obtain ⟨items, hversions, -, hitems⟩ := h.served
  rw [hversions, ← map_fst_of_forall₂ (fun _ _ hab => hab.1) hitems, List.map_map]
  rfl

theorem Composes.output_fst {registry : Registry} {seen : List (String × Release)}
    {composition : Composition} (h : Composes tools fingerprint rootUrl registry seen composition t) :
    composition.output.map Prod.fst = composition.versions.map Prod.fst := by
  obtain ⟨items, hversions, houtput, -⟩ := h.served
  rw [hversions, houtput, List.map_map, List.map_map]
  rfl

theorem Composes.gone_fst {registry : Registry} {seen : List (String × Release)}
    {composition : Composition} (h : Composes tools fingerprint rootUrl registry seen composition t) :
    composition.gone.map Prod.fst = (seen.filter (isRetired registry)).map Prod.fst :=
  map_fst_of_forall₂ (fun _ _ hab => hab.1) h.retired

/-- A version that is neither composed nor left out was not seen. -/
theorem Composes.fresh {registry : Registry} {seen : List (String × Release)} {composition : Composition}
    (h : Composes tools fingerprint rootUrl registry seen composition t)
    (hversions : version ∉ composition.versions.map Prod.fst)
    (hgone : version ∉ composition.gone.map Prod.fst) : version ∉ seen.map Prod.fst := by
  rw [h.versions_fst] at hversions
  rw [h.gone_fst] at hgone
  intro hmem
  obtain ⟨candidate, hcandidate, rfl⟩ := List.mem_map.mp hmem
  cases hretired : isRetired registry candidate with
  | true => exact hgone (List.mem_map_of_mem (List.mem_filter.mpr ⟨hcandidate, hretired⟩))
  | false => exact hversions (List.mem_map_of_mem (List.mem_filter.mpr ⟨hcandidate, by simp [hretired]⟩))

/-- One more round keeps the composition exact. -/
theorem Composes.step {registry : Registry} {seen : List (String × Release)}
    {composition composition' : Composition} {candidate : String × Release} {t' : List (Event Answer)}
    (h : Composes tools fingerprint rootUrl registry seen composition t)
    (hrun : (composeRelease tools fingerprint rootUrl registry composition candidate).Runs t'
      (.ok composition')) :
    Composes tools fingerprint rootUrl registry (seen ++ [candidate]) composition' (t ++ t') := by
  obtain ⟨version, release⟩ := candidate
  have hleft : t ⊆ t ++ t' := List.subset_append_left _ _
  have hright : t' ⊆ t ++ t' := List.subset_append_right _ _
  rw [composeRelease, Prog.runs_lift_bind_ok] at hrun
  obtain ⟨_, hfresh, hrun⟩ := hrun
  rw [Prog.runs_lift_bind_ok] at hrun
  obtain ⟨_, himmutable, hrun⟩ := hrun
  rw [Prog.runs_lift_bind_ok] at hrun
  obtain ⟨_, hprerelease, hrun⟩ := hrun
  rw [require_ok] at hfresh himmutable hprerelease
  have hfull : ∀ candidate ∈ seen ++ [(version, release)],
      candidate.2.immutable = some true ∧ candidate.2.prerelease = false := by
    rw [List.forall_mem_append]
    exact ⟨h.full, by simpa using ⟨himmutable, hprerelease⟩⟩
  have hunique : ((seen ++ [(version, release)]).map Prod.fst).Nodup := by
    rw [List.map_append, List.nodup_append]
    refine ⟨h.unique, by simp, ?_⟩
    rintro a ha b hb rfl
    rw [List.map_singleton, List.mem_singleton] at hb
    subst hb
    exact h.fresh hfresh.1 hfresh.2 ha
  obtain ⟨items, hversions, houtput, hitems⟩ := h.served
  have hitems' : List.Forall₂ (ServedItem tools fingerprint rootUrl (t ++ t')) _ items :=
    hitems.imp fun _ _ hab => ⟨hab.1, hab.2.mono hleft⟩
  have hretired' : List.Forall₂ (GoneItem tools registry (t ++ t')) _ composition.gone :=
    h.retired.imp fun _ _ ⟨hname, digest, hlookup, hgone⟩ => ⟨hname, digest, hlookup, hgone.mono hleft⟩
  split at hrun
  next digest hlookup =>
    rw [Prog.runs_bind_ok] at hrun
    obtain ⟨files, t₁, t₂, rfl, hgone, hpure⟩ := hrun
    obtain ⟨rfl, hpure⟩ := Prog.runs_pure.mp hpure
    cases hpure
    have hretired : isRetired registry (version, release) = true := by simp [isRetired, hlookup]
    refine ⟨hfull, hunique, ⟨items, hversions, houtput, ?_⟩, ?_⟩
    · rw [List.filter_append, List.filter_singleton]
      simpa [hretired] using hitems'
    · rw [List.filter_append, List.filter_singleton, hretired]
      exact List.rel_append hretired' (.cons ⟨rfl, digest, hlookup,
        (runs_composeRetired hgone).mono (by simp)⟩ .nil)
  next hlookup =>
    rw [Prog.runs_bind_ok] at hrun
    obtain ⟨⟨composed, site⟩, t₁, t₂, rfl, hserved, hpure⟩ := hrun
    obtain ⟨rfl, hpure⟩ := Prog.runs_pure.mp hpure
    cases hpure
    have hretired : isRetired registry (version, release) = false := by simp [isRetired, hlookup]
    refine ⟨hfull, hunique, ⟨items ++ [(version, composed, site)], ?_, ?_, ?_⟩, ?_⟩
    · simp [hversions]
    · simp [houtput]
    · rw [List.filter_append, List.filter_singleton]
      simp only [hretired, Bool.not_false]
      exact List.rel_append hitems' (.cons ⟨rfl, (runs_composeServed hserved).mono (by simp)⟩ .nil)
    · rw [List.filter_append, List.filter_singleton, hretired]
      simpa using hretired'

theorem isRetired_iff {registry : Registry} {candidate : String × Release} :
    isRetired registry candidate = true ↔ candidate.1 ∈ registry.retired.map Prod.fst := by
  rw [isRetired]
  cases h : registry.retired.lookup candidate.1 with
  | none =>
    rw [List.lookup_eq_none_iff] at h
    simpa using fun digest hmem => absurd (h _ hmem) (by simp)
  | some digest =>
    simpa using ⟨digest, Keyed.mem_of_lookup h⟩

/-- A composition of everything a listing named, with the registry's entries. -/
structure Whole (tools : Tools) (fingerprint rootUrl : String) (registry : Registry)
    (pending : Option String) (releases : List Release) (composition : Composition)
    (t : List (Event Answer)) : Prop where
  composes : Composes tools fingerprint rootUrl registry (candidates pending releases) composition t
  listed : ⟨.releases, some releases⟩ ∈ t
  older : ∀ candidate ∈ candidates pending releases, ∀ version, pending = some version →
    versionKey candidate.1 < versionKey version
  published : ∀ entry ∈ registry.published, ∃ composed,
    composition.versions.lookup entry.1 = some composed ∧ composed.sums = entry.2
  retired : ∀ version ∈ registry.retired.map Prod.fst, version ∈ composition.gone.map Prod.fst

theorem runs_composeReleases {registry : Registry} {pending : Option String} {composition : Composition}
    (h : (composeReleases tools fingerprint rootUrl registry pending).Runs t (.ok composition)) :
    ∃ releases, Whole tools fingerprint rootUrl registry pending releases composition t := by
  rw [composeReleases, Prog.runs_bind_ok] at h
  obtain ⟨releases, t₁, t₂, rfl, hlist, h⟩ := h
  obtain ⟨answer, rfl, hanswer⟩ := Prog.runs_expect.mp hlist
  rw [Prog.runs_lift_bind_ok] at h
  obtain ⟨_, holder, h⟩ := h
  rw [Prog.runs_bind_ok] at h
  obtain ⟨composition', t₃, t₄, rfl, hfold, h⟩ := h
  rw [Prog.runs_lift_bind_ok] at h
  obtain ⟨_, hentries, h⟩ := h
  obtain ⟨rfl, hpure⟩ := Prog.runs_pure.mp h
  cases hpure
  simp only [checkEntries, except_bind_ok, except_forM_ok, require_ok] at hentries
  obtain ⟨_, hpublished, hretired⟩ := hentries
  rw [require_ok] at holder
  rw [need_ok.mp hanswer]
  refine ⟨releases, ?_, by simp, ?_, ?_, hretired⟩
  · have := Prog.runs_foldlM_ok (Composes tools fingerprint rootUrl registry)
      (fun _ _ _ _ _ _ _ _ hI hstep => hI.step hstep) (List.nil_append _).symm
      (Composes.empty (t := [⟨.releases, some releases⟩])) hfold
    simpa using this
  · rintro candidate hmem version rfl
    exact holder candidate hmem version rfl
  · rintro ⟨version, digest⟩ hmem
    obtain ⟨composed, hcomposed, hsums⟩ := hpublished _ hmem
    exact ⟨composed, need_ok.mp hcomposed, hsums⟩

theorem runs_checkRecorded {registry : Registry} {newVersion : Option String}
    (h : (checkRecorded registry newVersion).Runs t (.ok ())) :
    ∃ tags, t = [⟨.tags, some tags⟩] ∧ ∀ tag ∈ tags, ∀ tagged, tagVersion tag.1 = some tagged →
      tagged ∈ registry.versions ∨ newVersion = some tagged := by
  rw [checkRecorded, Prog.runs_bind_ok] at h
  obtain ⟨tags, t₁, t₂, rfl, hlist, h⟩ := h
  obtain ⟨answer, rfl, hanswer⟩ := Prog.runs_expect.mp hlist
  obtain ⟨rfl, hrecorded⟩ := Prog.runs_lift.mp h
  rw [require_ok] at hrecorded
  rw [need_ok.mp hanswer]
  exact ⟨tags, rfl, fun tag hmem tagged htag => hrecorded tag hmem tagged htag⟩

theorem checkNewest_ok {versions : List String} {newVersion : Option String}
    (h : checkNewest versions newVersion = .ok ()) (hnew : newVersion = some version) :
    version ∈ versions ∧ ∀ other ∈ versions, versionKey other ≤ versionKey version := by
  subst hnew
  simpa only [checkNewest, except_bind_ok, require_ok, exists_and_left, exists_const] using h

/-- What an accepted run has composed, told these releases and tags. -/
structure ExactPages (tools : Tools) (values : Values) (fingerprint rootUrl : String) (registry : Registry)
    (newVersion : Option String) (limit : ℕ) (releases : List Release) (tags : List (String × String))
    (output : List (String × Site)) (manifest : Manifest) (t : List (Event Answer)) : Prop where
  /-- One directory for each live release the registry does not retire, and no other. -/
  complete : ∀ version, version ∈ output.map Prod.fst ↔
    version ∉ registry.retired.map Prod.fst ∧ ∃ release ∈ releases, Live release version
  unique : (output.map Prod.fst).Nodup
  served : ∀ version site, (version, site) ∈ output → ∃ release ∈ releases, Live release version ∧
    ∃ composed, (version, composed) ∈ manifest.versions ∧
      Served tools fingerprint rootUrl version release composed site t
  full : ∀ release ∈ releases, ∀ version, Live release version →
    release.immutable = some true ∧ release.prerelease = false
  published : ∀ version digest, (version, digest) ∈ registry.published → ∃ composed,
    (version, composed) ∈ manifest.versions ∧ composed.sums = digest
  retired : ∀ version digest, (version, digest) ∈ registry.retired →
    ∃ release ∈ releases, Live release version ∧ release.immutable = some true ∧
      ∃ files, (version, files) ∈ manifest.retired ∧ Gone tools release digest files t
  tagged : ∀ tag ∈ tags, ∀ version, tagVersion tag.1 = some version →
    version ∈ registry.versions ∨ newVersion = some version
  newest : ∀ version, newVersion = some version → version = values.version ∧
    version ∈ output.map Prod.fst ∧ ∀ other ∈ output.map Prod.fst, versionKey other ≤ versionKey version
  bounded : (output.map fun directory => siteBytes directory.2).sum ≤ limit
  /-- The manifest records these directories, and the versions left out, with nothing else. -/
  versions : manifest.versions.map Prod.fst = output.map Prod.fst
  gone : (manifest.retired.map Prod.fst).Nodup ∧
    ∀ version, version ∈ manifest.retired.map Prod.fst ↔ version ∈ registry.retired.map Prod.fst
  totals : manifest.baseUrl = values.baseUrl ∧ manifest.newVersion = newVersion ∧
    manifest.totalBytes = (output.map fun directory => siteBytes directory.2).sum

section
variable {registry : Registry} {seen releases : List (String × Release)} {composition : Composition}

/-- The directories of a composition are its candidates that are not retired. -/
theorem Composes.mem_output (h : Composes tools fingerprint rootUrl registry seen composition t) :
    version ∈ composition.output.map Prod.fst ↔
      ∃ candidate ∈ seen, candidate.1 = version ∧ version ∉ registry.retired.map Prod.fst := by
  rw [h.output_fst, h.versions_fst, List.mem_map]
  constructor
  · rintro ⟨candidate, hmem, rfl⟩
    rw [List.mem_filter, Bool.not_eq_true', Bool.eq_false_iff, Ne, isRetired_iff] at hmem
    exact ⟨candidate, hmem.1, rfl, hmem.2⟩
  · rintro ⟨candidate, hmem, rfl, hretired⟩
    refine ⟨candidate, List.mem_filter.mpr ⟨hmem, ?_⟩, rfl⟩
    rwa [Bool.not_eq_true', Bool.eq_false_iff, Ne, isRetired_iff]

theorem Composes.unique_output (h : Composes tools fingerprint rootUrl registry seen composition t) :
    (composition.output.map Prod.fst).Nodup := by
  rw [h.output_fst, h.versions_fst]
  exact h.unique.sublist (List.filter_sublist.map _)

theorem Composes.unique_gone (h : Composes tools fingerprint rootUrl registry seen composition t) :
    (composition.gone.map Prod.fst).Nodup := by
  rw [h.gone_fst]
  exact h.unique.sublist (List.filter_sublist.map _)

/-- Every directory is the site of its candidate. -/
theorem Composes.served_output {site : Site}
    (h : Composes tools fingerprint rootUrl registry seen composition t)
    (hmem : (version, site) ∈ composition.output) :
    ∃ release, (version, release) ∈ seen ∧ ∃ composed, (version, composed) ∈ composition.versions ∧
      Served tools fingerprint rootUrl version release composed site t := by
  obtain ⟨items, hversions, houtput, hitems⟩ := h.served
  rw [houtput] at hmem
  obtain ⟨⟨name, composed, site'⟩, hitem, heq⟩ := List.mem_map.mp hmem
  obtain ⟨rfl, rfl⟩ := Prod.mk.inj heq
  obtain ⟨⟨version, release⟩, hcandidate, rfl, hserved⟩ := Keyed.exists_of_mem_right hitems _ hitem
  refine ⟨release, (List.mem_filter.mp hcandidate).1, composed, ?_, hserved⟩
  rw [hversions]
  exact List.mem_map.mpr ⟨_, hitem, rfl⟩

/-- Every version left out is a candidate the registry retires. -/
theorem Composes.gone_retired {files : List String}
    (h : Composes tools fingerprint rootUrl registry seen composition t)
    (hmem : (version, files) ∈ composition.gone) :
    ∃ release, (version, release) ∈ seen ∧ ∃ digest, (version, digest) ∈ registry.retired ∧
      Gone tools release digest files t := by
  obtain ⟨⟨version, release⟩, hcandidate, rfl, digest, hlookup, hgone⟩ :=
    Keyed.exists_of_mem_right h.retired _ hmem
  exact ⟨release, (List.mem_filter.mp hcandidate).1, digest, Keyed.mem_of_lookup hlookup, hgone⟩

end

/-- A whole composition that is the newest, recorded and within its limit makes exact pages. -/
theorem Whole.exactPages {values : Values} {registry : Registry} {newVersion : Option String} {limit : ℕ}
    {releases : List Release} {tags : List (String × String)} {composition : Composition}
    {t' : List (Event Answer)}
    (hwhole : Whole tools fingerprint rootUrl registry none releases composition t) (hsub : t ⊆ t')
    (hregistry : registry.versions.Nodup) (hnew : newVersion = none ∨ newVersion = some values.version)
    (hnewest : checkNewest (composition.versions.map Prod.fst) newVersion = .ok ())
    (htags : ∀ tag ∈ tags, ∀ tagged, tagVersion tag.1 = some tagged →
      tagged ∈ registry.versions ∨ newVersion = some tagged)
    (hbytes : composition.bytes ≤ limit) :
    ExactPages tools values fingerprint rootUrl registry newVersion limit releases tags composition.output
      ⟨values.baseUrl, composition.versions, composition.bytes, newVersion, composition.gone⟩ t' := by
  have hcomposes := hwhole.composes
  constructor
  case complete =>
    intro version
    rw [hcomposes.mem_output]
    constructor
    · rintro ⟨candidate, hmem, rfl, hretired⟩
      obtain ⟨hrelease, hlive, -⟩ := mem_candidates.mp hmem
      exact ⟨hretired, candidate.2, hrelease, hlive⟩
    · rintro ⟨hretired, release, hrelease, hlive⟩
      exact ⟨(version, release), mem_candidates.mpr ⟨hrelease, hlive, nofun⟩, rfl, hretired⟩
  case unique => exact hcomposes.unique_output
  case served =>
    intro version site hmem
    obtain ⟨release, hrelease, composed, hcomposed, hserved⟩ := hcomposes.served_output hmem
    obtain ⟨hrelease, hlive, -⟩ := mem_candidates.mp hrelease
    exact ⟨release, hrelease, hlive, composed, hcomposed, hserved.mono hsub⟩
  case full =>
    intro release hrelease version hlive
    exact hcomposes.full (version, release) (mem_candidates.mpr ⟨hrelease, hlive, nofun⟩)
  case published =>
    intro version digest hmem
    obtain ⟨composed, hcomposed, hsums⟩ := hwhole.published _ hmem
    exact ⟨composed, Keyed.mem_of_lookup hcomposed, hsums⟩
  case retired =>
    intro version digest hmem
    obtain ⟨⟨_, files⟩, hgone, rfl⟩ := List.mem_map.mp (hwhole.retired version (List.mem_map_of_mem hmem))
    obtain ⟨release, hrelease, digest', hdigest, hfiles⟩ := hcomposes.gone_retired hgone
    have hnodup : (registry.retired.map Prod.fst).Nodup := by
      rw [Registry.versions, List.map_append] at hregistry
      exact hregistry.of_append_right
    obtain rfl : digest = digest' := congrArg Prod.snd (List.inj_on_of_nodup_map hnodup hmem hdigest rfl)
    obtain ⟨hmem', hlive, -⟩ := mem_candidates.mp hrelease
    exact ⟨release, hmem', hlive, (hcomposes.full _ hrelease).1, files, hgone, hfiles.mono hsub⟩
  case tagged => exact htags
  case newest =>
    rintro version rfl
    obtain rfl : version = values.version := by simpa using hnew
    obtain ⟨hmem, hmax⟩ := checkNewest_ok hnewest rfl
    rw [hcomposes.output_fst]
    exact ⟨rfl, hmem, hmax⟩
  case bounded => exact hbytes
  case versions => exact hcomposes.output_fst.symm
  case gone =>
    refine ⟨hcomposes.unique_gone, fun version => ⟨?_, hwhole.retired version⟩⟩
    intro hmem
    obtain ⟨⟨_, files⟩, hgone, rfl⟩ := List.mem_map.mp hmem
    obtain ⟨_, -, digest, hdigest, -⟩ := hcomposes.gone_retired hgone
    exact List.mem_map_of_mem hdigest
  case totals => exact ⟨rfl, rfl, rfl⟩

theorem runs_composeBody {values : Values} {registry : Registry} {newVersion : Option String} {limit : ℕ}
    {composition : Composition} {manifest : Manifest}
    (h : (composeBody tools values fingerprint registry rootUrl newVersion limit).Runs t
      (.ok (composition, manifest)))
    (hregistry : registry.versions.Nodup) (hnew : newVersion = none ∨ newVersion = some values.version) :
    ∃ releases tags, ⟨.releases, some releases⟩ ∈ t ∧ ⟨.tags, some tags⟩ ∈ t ∧
      ExactPages tools values fingerprint rootUrl registry newVersion limit releases tags
        composition.output manifest t := by
  rw [composeBody, Prog.runs_bind_ok] at h
  obtain ⟨composition', t₁, t₂, rfl, hcompose, h⟩ := h
  rw [Prog.runs_lift_bind_ok] at h
  obtain ⟨_, hnewest, h⟩ := h
  rw [Prog.runs_bind_ok] at h
  obtain ⟨_, t₃, t₄, rfl, hrecorded, h⟩ := h
  rw [Prog.runs_bind_ok] at h
  obtain ⟨_, t₅, t₆, rfl, -, h⟩ := h
  rw [Prog.runs_lift_bind_ok] at h
  obtain ⟨_, hbytes, h⟩ := h
  obtain ⟨save, rfl, hsave⟩ := Prog.runs_expect.mp h
  rw [require_ok] at hbytes
  obtain ⟨releases, hwhole⟩ := runs_composeReleases hcompose
  obtain ⟨tags, rfl, htags⟩ := runs_checkRecorded hrecorded
  cases save with
  | «exists» => cases hsave
  | torn => cases hsave
  | saved =>
    cases hsave
    have hsub : t₁ ⊆ t₁ ++ ([⟨.tags, some tags⟩] ++ (t₅ ++ [⟨.saveManifest, Save.saved⟩])) :=
      List.subset_append_left _ _
    exact ⟨releases, tags, hsub hwhole.listed, by simp,
      hwhole.exactPages hsub hregistry hnew hnewest htags hbytes⟩

theorem composeInputs_ok {values : Values} {content : Bytes} {newVersion : Option String} {placed : Bool}
    {disk : Disk} {registry : Registry}
    (h : composeInputs tools values content newVersion placed disk = .ok (registry, rootUrl)) :
    disk = ⟨none, none⟩ ∧ (newVersion = none ∨ newVersion = some values.version) ∧
      loadRegistry tools content = .ok registry ∧ siteRoot values.baseUrl = .ok rootUrl := by
  simp only [composeInputs, except_bind_ok, require_ok] at h
  obtain ⟨_, hdisk, _, -, _, hnew, registry', hregistry, rootUrl', hroot, hpure⟩ := h
  cases hpure
  obtain ⟨output, manifest⟩ := disk
  simp only [Option.isNone_iff_eq_none] at hdisk
  obtain ⟨rfl, rfl⟩ := hdisk
  exact ⟨rfl, hnew, hregistry, hroot⟩

/-- A run of `compose_pages` either refuses and leaves the disk as it found it, or leaves exactly the live
    releases the registry does not retire, and their record. -/
theorem composePages_exact {values : Values} {content : Bytes} {newVersion : Option String} {limit : ℕ}
    {placed : Bool} {disk : Disk} {r : Except String (Except String Manifest × Disk)}
    (h : (composePages tools values fingerprint content newVersion limit placed disk).Runs t r) :
    (∃ refusal, r = .ok (.error refusal, disk)) ∨
      ∃ manifest output registry rootUrl releases tags, r = .ok (.ok manifest, ⟨some output, some manifest⟩) ∧
        disk = ⟨none, none⟩ ∧ loadRegistry tools content = .ok registry ∧
        siteRoot values.baseUrl = .ok rootUrl ∧
        ⟨.releases, some releases⟩ ∈ t ∧ ⟨.tags, some tags⟩ ∈ t ∧
        ExactPages tools values fingerprint rootUrl registry newVersion limit releases tags output manifest t := by
  rw [composePages] at h
  split at h
  next refusal hinputs =>
    obtain ⟨rfl, rfl⟩ := Prog.runs_pure.mp h
    exact .inl ⟨refusal, rfl⟩
  next registry rootUrl hinputs =>
    obtain ⟨rfl, hnew, hregistry, hroot⟩ := composeInputs_ok hinputs
    rcases Prog.runs_bind.mp h with ⟨_, -, hfail⟩ | ⟨result, t₁, t₂, rfl, hbody, h⟩
    · obtain ⟨r₀, -, habs⟩ := Prog.runs_attempt.mp hfail
      cases habs
    · obtain ⟨r₀, hbody, heq⟩ := Prog.runs_attempt.mp hbody
      cases heq
      cases result with
      | error refusal =>
        obtain ⟨rfl, rfl⟩ := Prog.runs_pure.mp h
        exact .inl ⟨refusal, rfl⟩
      | ok made =>
        obtain ⟨composition, manifest⟩ := made
        obtain ⟨rfl, rfl⟩ := Prog.runs_pure.mp h
        obtain ⟨releases, tags, hreleases, htags, hpages⟩ :=
          runs_composeBody hbody (loadRegistry_ok hregistry).1 hnew
        rw [List.append_nil]
        exact .inr ⟨manifest, composition.output, registry, rootUrl, releases, tags, rfl, rfl, hregistry,
          hroot, hreleases, htags, hpages⟩

end

/-! ### A release to run on -/

namespace Sample

def digest : String := String.ofList (List.replicate 64 '0')

def listed : List (String × String) :=
  [("install.sh", digest), ("install.sh.asc", digest), ("publication-manifest.json", digest)]

def sums : Bytes := utf8 (renderSums listed)

def identity : Py.Value :=
  .dict [("installer", .dict [("pinned", .dict [("version", .str "1.0.0"),
    ("base_url", .str "https://pages.example/stack/1.0.0/"), ("primary_fingerprint", .str "F")])]),
    ("source_commit", .str "c")]

def emptyRegistry : Py.Value :=
  .dict [("schema_version", .int 1), ("published", .list []), ("retired", .list [])]

def members : List Member :=
  [⟨"1.0.0/install.sh", true, [1]⟩, ⟨"1.0.0/install.sh.asc", true, [2]⟩,
    ⟨"1.0.0/publication-manifest.json", true, [4]⟩, ⟨"1.0.0/SHA256SUMS", true, sums⟩,
    ⟨"1.0.0/SHA256SUMS.asc", true, [3]⟩]

def tools : Tools where
  sha256 _ := digest
  json _ := some identity
  uniqueJson _ := some emptyRegistry
  members _ := some members
  verifySignature _ _ _ := true
  renderNotes _ _ _ := some [78]
  canonicalSha _ := some digest

def values : Values := ⟨"1.0.0", "https://pages.example/stack/1.0.0/", "F"⟩

def asset (name : String) : Asset := ⟨name, some ("sha256:" ++ digest), name⟩

def release : Release where
  id := 7
  tagName := "v1.0.0"
  draft := false
  prerelease := false
  immutable := some true
  name := some (releaseTitle "1.0.0")
  body := some "N"
  targetCommitish := "c"
  uploadUrl := "upload"
  assets := (releaseAssets "1.0.0").map asset

/-- What an asset holds. -/
def content (name : String) : Bytes :=
  if name = "SHA256SUMS" then sums
  else if name = "SHA256SUMS.asc" then [3]
  else if name = "publication-manifest.json" then [4]
  else [5]

/-- GitHub with this release published, at its commit. -/
def answers : ∀ q, Answer q
  | .releases => some [release]
  | .release _ => some release
  | .tags => some [("v1.0.0", "c")]
  | .tagCommit _ => some (some "c")
  | .download url => some (content url)
  | .create _ => none
  | .update _ _ => none
  | .upload _ _ _ => none
  | .fetch _ => some (200, sums)
  | .saveManifest => .saved

theorem parseSums_sums : parseSums sums = .ok listed :=
  parseSums_render (by decide) (by decide)

def site : Site :=
  [("install.sh", [1]), ("install.sh.asc", [2]), ("publication-manifest.json", [4]), ("SHA256SUMS", sums),
    ("SHA256SUMS.asc", [3])]

theorem site_eq :
    (members.map fun member => (Py.removePrefix ("1.0.0" ++ "/") member.name, member.content)) = site := by
  have hpaths : (members.map fun member => Py.removePrefix ("1.0.0" ++ "/") member.name) =
      site.map Prod.fst := by decide
  simpa [members, site] using hpaths

theorem unpackRelease_sums (archive : Bytes) : unpackRelease tools archive "1.0.0" sums [3] = .ok site := by
  have hmembers : (members.map Member.name).Nodup ∧
      (∀ name ∈ members.map Member.name, name ∈ (listed.map Prod.fst ++ SUMS_FILES).map fun path =>
        "1.0.0" ++ "/" ++ path) ∧
      (∀ name ∈ (listed.map Prod.fst ++ SUMS_FILES).map fun path => "1.0.0" ++ "/" ++ path,
        name ∈ members.map Member.name) ∧ ∀ member ∈ members, member.regular = true := by decide
  have hfree : conflicting (members.map Member.name) = false := by decide
  have hsums : site.lookup "SHA256SUMS" = some sums ∧ site.lookup "SHA256SUMS.asc" = some [3] := by
    simp [site, List.lookup_cons]
  have hfiles : (forM listed fun entry : String × String => do
      let content ← need (site.lookup entry.1) malformed
      require (tools.sha256 content = entry.2) "a file differs from SHA256SUMS") = .ok () := by
    rw [except_forM_ok]
    simp [listed, site, List.lookup_cons, need, except_ok_bind, tools]
  have hread : need (tools.members archive) "the release archive exceeds the header bounds" = .ok members := rfl
  rw [unpackRelease, parseSums_sums, except_ok_bind, hread, except_ok_bind, site_eq]
  dsimp only
  rw [require_pos hmembers, except_ok_bind, require_pos hfree, except_ok_bind, require_pos hsums,
    except_ok_bind, hfiles]
  rfl

def data : List (String × Bytes) := (releaseAssets "1.0.0").map fun name => (name, content name)

theorem data_eq : data = [("intel-npu-stack-1.0.0.tar", [5]), ("SHA256SUMS", sums), ("SHA256SUMS.asc", [3]),
    ("publication-manifest.json", [4])] := by
  have h : archiveName "1.0.0" = "intel-npu-stack-1.0.0.tar" := by decide
  rw [data, releaseAssets, h]
  simp [STANDALONE, content]

theorem unpackServed_data : unpackServed tools "F" "1.0.0" data = .ok ([5], sums, site) := by
  have harchive : archiveName "1.0.0" = "intel-npu-stack-1.0.0.tar" := by decide
  have h₁ : data.lookup (archiveName "1.0.0") = some [5] := by simp [data_eq, harchive]
  have h₂ : data.lookup "SHA256SUMS" = some sums := by simp [data_eq, List.lookup_cons]
  have h₃ : data.lookup "SHA256SUMS.asc" = some [3] := by simp [data_eq, List.lookup_cons]
  have hverify : tools.verifySignature "F" [3] sums = true := rfl
  rw [unpackServed, need_ok.mpr h₁, except_ok_bind, need_ok.mpr h₂, except_ok_bind, need_ok.mpr h₃,
    except_ok_bind, require_pos hverify, except_ok_bind, unpackRelease_sums, except_ok_bind]
  rfl

theorem checkIdentity_site :
    checkIdentity tools site "1.0.0" ("https://pages.example/stack/" ++ "1.0.0" ++ "/") "F" "c" = .ok () := by
  have hmanifest : site.lookup "publication-manifest.json" = some [4] := by simp [site, List.lookup_cons]
  have htext : Py.readText [4] = some "\x04" := by decide
  have hread : need ((site.lookup "publication-manifest.json").bind Py.readText) malformed = .ok "\x04" := by
    rw [hmanifest, Option.bind_some, htext]
    rfl
  have hjson : need (tools.json "\x04") malformed = .ok identity := rfl
  rw [checkIdentity, hread, except_ok_bind, hjson, except_ok_bind]
  simp [identity, Py.Value.index, List.lookup_cons, require, Py.Value.eq]

theorem checkInstaller_site : checkInstallerSignature tools site "F" = .ok () := by
  have hsignature : site.lookup "install.sh.asc" = some [2] := by simp [site, List.lookup_cons]
  have hscript : site.lookup "install.sh" = some [1] := by simp [site]
  rw [checkInstallerSignature, need_ok.mpr hsignature, except_ok_bind, need_ok.mpr hscript]
  rfl

theorem checkStandalone_data :
    checkStandalone tools [5] "1.0.0" (fun name => data.lookup name) = .ok () := by
  have hread : need (tools.members [5]) "the release archive exceeds the header bounds" = .ok members := rfl
  have hfind : ∀ name ∈ STANDALONE, members.reverse.find? (fun member => member.name = "1.0.0" ++ "/" ++ name) =
      some ⟨"1.0.0/" ++ name, true, content name⟩ := by
    simp [STANDALONE, members, content]
  have hdata : ∀ name ∈ STANDALONE, data.lookup name = some (content name) := by
    simp [STANDALONE, data_eq, List.lookup_cons, content]
  rw [checkStandalone, hread, except_ok_bind, except_forM_ok]
  intro name hname
  rw [need_ok.mpr (hfind name hname), except_ok_bind, require_pos ⟨rfl, hdata name hname⟩]

theorem checkServed_site :
    checkServed tools "F" "https://pages.example/stack/" "1.0.0" release data [5] site "c" = .ok () := by
  have hnotes : fromUtf8 [78] = some "N" := fromUtf8_eq_some.mpr (by decide)
  have hcanonical : tools.canonicalSha site = some (tools.sha256 [5]) := rfl
  have hnote : need (tools.renderNotes "1.0.0" site [5]) "the notes cannot be rendered" = .ok [78] := rfl
  have hbody : release.name = some (releaseTitle "1.0.0") ∧ release.body = some "N" := ⟨rfl, rfl⟩
  rw [checkServed, checkIdentity_site, except_ok_bind, checkInstaller_site, except_ok_bind,
    require_pos hcanonical, except_ok_bind, hnote, except_ok_bind, need_ok.mpr hnotes, except_ok_bind,
    require_pos hbody, except_ok_bind, checkStandalone_data]

theorem eval_composeServed :
    (composeServed tools "F" "https://pages.example/stack/" "1.0.0" release).eval answers =
      .ok (⟨digest, digest, 5, 7, "c"⟩, site) := by
  have hassets : release.assetsByName = (releaseAssets "1.0.0").map fun name => (name, asset name) := by
    decide
  have hnames : (∀ item ∈ release.assetsByName, item.1 ∈ releaseAssets "1.0.0") ∧
      ∀ name ∈ releaseAssets "1.0.0", name ∈ release.assetsByName.map Prod.fst := by
    rw [hassets]
    simp
  have hdata : (release.assetsByName.mapM fun item => (downloadChecked tools item).eval answers) = .ok data := by
    have hone : ∀ name, (downloadChecked tools (name, asset name)).eval answers = .ok (name, content name) :=
      fun name => by
        rw [downloadChecked, Prog.eval_bind,
          show (downloadAsset (asset name)).eval answers = .ok (content name) from rfl,
          except_ok_bind]
        rfl
    rw [hassets, List.mapM_map]
    simp only [Function.comp_def, hone]
    exact List.mapM_pure
  have htag : (tagCommit release.tagName).eval answers = .ok (some "c") := rfl
  rw [composeServed]
  dsimp only
  rw [Prog.eval_bind, Prog.eval_lift, require_pos hnames, except_ok_bind, Prog.eval_bind, Prog.eval_mapM, hdata,
    except_ok_bind, Prog.eval_bind, Prog.eval_lift, unpackServed_data, except_ok_bind]
  dsimp only
  rw [Prog.eval_bind, htag, except_ok_bind, Prog.eval_bind, Prog.eval_lift, need, except_ok_bind,
    Prog.eval_bind, Prog.eval_lift, checkServed_site]
  rfl

def rootUrl : String := "https://pages.example/stack/"

def composed : Composed := ⟨digest, digest, 5, 7, "c"⟩

def composition : Composition := ⟨[("1.0.0", composed)], [], [("1.0.0", site)]⟩

theorem eval_composeReleases : (composeReleases tools "F" rootUrl ⟨[], []⟩ none).eval answers =
    .ok composition := by
  have hcandidates : candidates none [release] = [("1.0.0", release)] := by
    have htag : tagVersion release.tagName = some "1.0.0" := by decide
    have hdraft : release.draft = false := rfl
    rw [candidates, List.filterMap_cons]
    simp [htag, hdraft]
  have hround : (composeRelease tools "F" rootUrl ⟨[], []⟩ Composition.empty ("1.0.0", release)).eval answers =
      .ok composition := by
    have hserved := eval_composeServed
    rw [← rootUrl, ← composed] at hserved
    simp only [composeRelease, List.lookup_nil, Composition.empty, Prog.eval_bind, Prog.eval_lift, hserved,
      except_ok_bind, Prog.eval_pure]
    rfl
  have hlist : listReleases.eval answers = .ok [release] := rfl
  rw [composeReleases, Prog.eval_bind, hlist, except_ok_bind, hcandidates]
  simp only [Prog.eval_bind, Prog.eval_lift, List.foldlM_cons, hround, List.foldlM_nil]
  rfl

def manifest : Manifest :=
  ⟨"https://pages.example/stack/1.0.0/", [("1.0.0", composed)], composition.bytes, some "1.0.0", []⟩

theorem eval_pages :
    (composePages tools values "F" [] (some "1.0.0") composition.bytes true ⟨none, none⟩).eval answers =
      .ok (.ok manifest, ⟨some [("1.0.0", site)], some manifest⟩) := by
  have hinputs : composeInputs tools values [] (some "1.0.0") true ⟨none, none⟩ = .ok (⟨[], []⟩, rootUrl) := by
    rfl
  have hnewest : checkNewest (composition.versions.map Prod.fst) (some "1.0.0") = .ok () := rfl
  have hrecorded : (checkRecorded ⟨[], []⟩ (some "1.0.0")).eval answers = .ok () := rfl
  have hlive : (checkLiveSums tools rootUrl composition.sums (some "1.0.0")).eval answers = .ok () := rfl
  have hbody : (composeBody tools values "F" ⟨[], []⟩ rootUrl (some "1.0.0") composition.bytes).eval answers =
      .ok (composition, manifest) := by
    rw [composeBody, Prog.eval_bind, eval_composeReleases, except_ok_bind, Prog.eval_bind, Prog.eval_lift,
      hnewest, except_ok_bind, Prog.eval_bind, hrecorded, except_ok_bind, Prog.eval_bind, hlive, except_ok_bind,
      Prog.eval_bind, Prog.eval_lift, require_pos le_rfl]
    rfl
  rw [composePages, hinputs]
  dsimp only
  rw [Prog.eval_bind, Prog.eval_attempt, hbody]
  rfl
end Sample

theorem composePages_exact_sample :
    ∃ t registry releases tags,
      (composePages Sample.tools Sample.values "F" [] (some "1.0.0") Sample.composition.bytes true
        ⟨none, none⟩).Runs t
        (.ok (.ok Sample.manifest, ⟨some [("1.0.0", Sample.site)], some Sample.manifest⟩)) ∧
      ExactPages Sample.tools Sample.values "F" Sample.rootUrl registry (some "1.0.0") Sample.composition.bytes releases tags
        [("1.0.0", Sample.site)] Sample.manifest t := by
  obtain ⟨t, hrun⟩ := Prog.runs_eval Sample.answers (composePages Sample.tools Sample.values "F" []
    (some "1.0.0") Sample.composition.bytes true ⟨none, none⟩)
  rw [Sample.eval_pages] at hrun
  rcases composePages_exact hrun with ⟨_, habs⟩ |
    ⟨manifest, output, registry, rootUrl, releases, tags, hok, -, -, hroot, -, -, hpages⟩
  · cases habs
  · cases hok
    have hrootUrl : siteRoot Sample.values.baseUrl = .ok Sample.rootUrl := rfl
    obtain rfl := Except.ok.inj (hroot.symm.trans hrootUrl)
    exact ⟨t, registry, releases, tags, hrun, hpages⟩
end NpuStack.Publish
