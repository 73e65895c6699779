import NpuStack.Publish.VerifyLive

/-! What a verified site serves, and that a converged deployment is verified.

        verifyLive = ok  ──▶ every member answered with its bytes, the retired tags with 404
        Converged site   ──▶ verifyLive = ok, in one round of the wait

    The first direction reads the run, the second answers it: `Converged` fixes what the live site
    says, so that the wait of each check ends at its first look. -/

namespace NpuStack.Publish
open Interaction Text
open Py (Value)
open NpuStack.Packaging (releaseVersion)

section
variable {tools : Tools} {json : String → Option Value} {values : Values}

/-! ### A deployment that has converged -/

/-- The site of a release as its archive holds it, with everything `verify_live` checks of it. -/
structure ReleaseSite (tools : Tools) (values : Values) (fingerprint : String) (archive : Bytes)
    (commit : String) (sums : Bytes) (site : Site) : Prop where
  members : tools.members archive =
    some (site.map fun file => ⟨values.version ++ "/" ++ file.1, true, file.2⟩)
  exact : ∃ signature listed, ExactSite tools sums signature listed site ∧
    tools.verifySignature fingerprint signature sums = true
  free : conflicting (site.map Prod.fst) = false
  installer : checkInstallerSignature tools site fingerprint = .ok ()
  identity : checkIdentity tools site values.version values.baseUrl fingerprint commit = .ok ()
  canonical : ∀ site', site'.Perm site → tools.canonicalSha site' = some (tools.sha256 archive)
  usual : ∀ path ∈ PLAIN, path ∈ site.map Prod.fst

/-- What the live site answers once a deployment of this site and record has converged. -/
structure Converged (tools : Tools) (values : Values) (rootUrl : String) (site : Site)
    (record : PagesRecord) (answers : ∀ q, LiveAnswer q) : Prop where
  files : ∀ file ∈ site, ∀ busted, answers (.fetch busted (values.baseUrl ++ file.1)) =
    .answered 200 file.2
  gone : ∀ item ∈ record.retired, ∀ path busted, ∃ body,
    answers (.fetch busted (rootUrl ++ item.1 ++ "/" ++ path)) = .answered 404 body
  others : ∀ item ∈ record.versions, item.1 ≠ values.version → ∃ body,
    answers (.fetch true (rootUrl ++ item.1 ++ "/SHA256SUMS")) = .answered 200 body ∧
      item.2.index "sha256sums_sha256" = some (.str (tools.sha256 body))

variable {answers : ∀ q, LiveAnswer q} {site : Site} {record : PagesRecord}

theorem eval_gate {α : Type} {x : Except String α} {a : α} (h : x = .ok a) :
    (gate x).eval answers = .ok a := by
  rw [h]
  rfl

/-- A plain path of the site is a file of the archive. -/
theorem ExactSite.plain {sums signature : Bytes} {listed : List (String × String)}
    (h : ExactSite tools sums signature listed site) : ∀ file ∈ site, plainPath file.1 = true := by
  intro file hfile
  rcases (h.paths file.1).mp (List.mem_map_of_mem hfile) with hlisted | hsums
  · exact (parseSums_ok h.parsed).plain _ hlisted
  · have hplain : ∀ path ∈ SUMS_FILES, plainPath path = true := by decide
    exact hplain _ hsums

/-- The digests of a site by its paths. -/
def digests (tools : Tools) (site : Site) : Digests :=
  site.map fun file => (file.1, tools.sha256 file.2)

theorem digests_fst (tools : Tools) (site : Site) : (digests tools site).map Prod.fst =
    site.map Prod.fst := by
  rw [digests, List.map_map]
  rfl

theorem expectMembers_site {version : String} :
    ∀ {files seen : Site}, (∀ file ∈ files, plainPath file.1 = true) →
    ((seen ++ files).map Prod.fst).Nodup →
    (files.map fun file => (⟨version ++ "/" ++ file.1, true, file.2⟩ : Member)).foldlM
      (expectMember tools version) (digests tools seen) = .ok (digests tools (seen ++ files))
  | [], seen, _, _ => by
    rw [List.append_nil]
    rfl
  | file :: files, seen, hplain, hnodup => by
    obtain ⟨hfile, hrest⟩ := List.forall_mem_cons.mp hplain
    have hstrip : (stripPrefix (version ++ "/") (version ++ "/" ++ file.1)).getD "" = file.1 := by
      rw [stripPrefix_append, Option.getD_some]
    have hfresh : file.1 ∉ (digests tools seen).map Prod.fst := by
      rw [digests_fst]
      rw [List.map_append, List.map_cons, List.nodup_append] at hnodup
      exact fun hmem => hnodup.2.2 _ hmem _ List.mem_cons_self rfl
    have hone : expectMember tools version (digests tools seen)
      ⟨version ++ "/" ++ file.1, true, file.2⟩ =
        .ok (digests tools (seen ++ [file])) := by
      rw [expectMember]
      dsimp only
      rw [hstrip, require_pos ⟨rfl, hfile, hfresh⟩, except_ok_bind]
      simp [digests, pure, Except.pure]
    rw [List.map_cons, List.foldlM_cons, hone, except_ok_bind, expectMembers_site hrest
      (by simpa using hnodup), List.append_assoc, List.singleton_append]

/-- A wait for what is already there takes one round. -/
theorem eval_waitFor {deadline : ℤ} {check : LiveCheck} {rounds status : ℕ} {body : Bytes}
    (h : answers (.fetch check.busted check.url) = .answered status body)
    (hwanted : liveSha tools status body = check.wanted) :
    (waitFor tools deadline check (rounds + 1)).eval answers = .ok () := by
  have hfetch : (tryFetch check.busted check.url).eval answers = .ok (.answered status body) :=
    congrArg Except.ok h
  rw [waitFor, Prog.eval_bind, hfetch, except_ok_bind]
  dsimp only
  rw [if_pos hwanted, Prog.eval_pure]

theorem conflicting_mono {paths paths' : List String} (h : conflicting paths' = false)
    (hsub : paths ⊆ paths') : conflicting paths = false := by
  rw [Bool.eq_false_iff] at h ⊢
  refine fun hconflict => h ?_
  rw [conflicting, List.any_eq_true] at hconflict ⊢
  obtain ⟨path, hpath, hany⟩ := hconflict
  obtain ⟨other, hother, hstarts⟩ := List.any_eq_true.mp hany
  exact ⟨path, hsub hpath, List.any_eq_true.mpr ⟨other, hsub hother, hstarts⟩⟩

theorem eval_fetchFiles {base : String} : ∀ {files seen : Site},
    (∀ file ∈ files, answers (.fetch true (base ++ file.1)) = .answered 200 file.2) →
    conflicting ((seen ++ files).map Prod.fst) = false →
    ((digests tools files).foldlM (fetchFile tools base) seen).eval answers = .ok (seen ++ files)
  | [], seen, _, _ => by
    rw [List.append_nil]
    rfl
  | file :: files, seen, hfiles, hfree => by
    obtain ⟨hfile, hrest⟩ := List.forall_mem_cons.mp hfiles
    have hone : (fetchFile tools base seen (file.1, tools.sha256 file.2)).eval answers = .ok
        (seen ++ [file]) := by
      have hconflict : conflicting (file.1 :: seen.map Prod.fst) = false :=
        conflicting_mono hfree (List.cons_subset.mpr ⟨by simp, fun _ hmem => by simp [hmem]⟩)
      have hfetch : (fetchLive (base ++ file.1)).eval answers = .ok (200, file.2) := by
        rw [fetchLive, Prog.eval_expect, hfile]
      rw [fetchFile]
      dsimp only
      rw [Prog.eval_bind, eval_gate (require_pos hconflict _), except_ok_bind, Prog.eval_bind,
        hfetch, except_ok_bind]
      dsimp only
      rw [Prog.eval_bind, eval_gate (require_pos ⟨rfl, rfl⟩ _), except_ok_bind]
      rfl
    have hall : ((digests tools files).foldlM (fetchFile tools base)
      (seen ++ [file])).eval answers =
        .ok (seen ++ [file] ++ files) := eval_fetchFiles hrest (by simpa using hfree)
    rw [digests, List.map_cons, List.foldlM_cons, Prog.eval_bind, hone, except_ok_bind]
    rw [digests] at hall
    rw [hall, List.append_assoc, List.singleton_append]

theorem lookup_perm {site' : Site} (hperm : site'.Perm site) (hnodup : (site.map Prod.fst).Nodup)
    (path : String) : site'.lookup path = site.lookup path := by
  cases hlookup : site.lookup path with
  | none =>
    rw [List.lookup_eq_none_iff] at hlookup ⊢
    exact fun file hfile => hlookup file (hperm.mem_iff.mp hfile)
  | some content =>
    exact Keyed.lookup_of_mem ((hperm.map Prod.fst).nodup_iff.mpr hnodup)
      (hperm.mem_iff.mpr (Keyed.mem_of_lookup hlookup))

/-- A check of the files of this version waits for one of its site. -/
theorem exists_fileCheck {base : String} {check : LiveCheck} (husual : ∀ path ∈ PLAIN,
    path ∈ site.map Prod.fst)
    (hnodup : (site.map Prod.fst).Nodup) (h : check ∈ fileChecks base (digests tools site)) :
    ∃ file ∈ site, check.url = base ++ file.1 ∧ check.busted = false ∧
      check.wanted = liveSha tools 200 file.2 := by
  obtain ⟨path, hpath, rfl⟩ := List.mem_map.mp h
  have hmem : path ∈ site.map Prod.fst := by
    rcases List.mem_append.mp hpath with hpath | hpath
    · exact husual path hpath
    · rw [← digests_fst tools]
      exact (List.mem_filter.mp (List.mem_mergeSort.mp hpath)).1
  obtain ⟨file, hfile, rfl⟩ := List.mem_map.mp hmem
  have hlookup : (digests tools site).lookup file.1 = some (tools.sha256 file.2) :=
    Keyed.lookup_of_mem (digests_fst tools site ▸ hnodup) (List.mem_map.mpr ⟨_, hfile, rfl⟩)
  refine ⟨file, hfile, rfl, rfl, ?_⟩
  rw [hlookup]
  rfl

/-- A check of the retired versions waits for one of their files to be gone. -/
theorem exists_goneCheck {rootUrl : String} {retired : List (String × List String)}
    {check : LiveCheck} (h : check ∈ goneChecks rootUrl retired) :
    ∃ item ∈ retired, ∃ path, check.url = rootUrl ++ item.1 ++ "/" ++ path ∧
      check.wanted = (404, none) := by
  obtain ⟨item, hitem, hcheck⟩ := List.mem_flatMap.mp h
  obtain ⟨⟨path, busted⟩, -, rfl⟩ := List.mem_map.mp hcheck
  exact ⟨item, List.mem_mergeSort.mp hitem, path, rfl, rfl⟩

/-- The fetched files are checked as the site they are the files of. -/
theorem eval_checkSite {fingerprint commit : String} {archive sums : Bytes} {site' : Site}
    (h : ReleaseSite tools values fingerprint archive commit sums site) (hperm : site'.Perm site) :
    checkSite tools values fingerprint (tools.sha256 archive) commit
      (digests tools site) site' = .ok () := by
  obtain ⟨signature, listed, hexact, hsigned⟩ := h.exact
  have hlookup := lookup_perm hperm hexact.unique
  have hinstaller : checkInstallerSignature tools site' fingerprint = .ok () := by
    rw [checkInstallerSignature, hlookup, hlookup]
    exact h.installer
  have hidentity : checkIdentity tools site' values.version values.baseUrl fingerprint commit = .ok
      () := by
    rw [checkIdentity, hlookup]
    exact h.identity
  have hpaths : (∀ path ∈ listed.map Prod.fst ++ SUMS_FILES,
    path ∈ (digests tools site).map Prod.fst) ∧
      ∀ path ∈ (digests tools site).map Prod.fst, path ∈ listed.map Prod.fst ++ SUMS_FILES := by
    rw [digests_fst]
    exact ⟨fun path hpath => (hexact.paths path).mpr (List.mem_append.mp hpath),
      fun path hpath => List.mem_append.mpr ((hexact.paths path).mp hpath)⟩
  have hlisted : (forM (listed.mergeSort fun a b => a.1 ≤ b.1) fun item : String × String => do
      let content ← need (site'.lookup item.1) malformed
      require (tools.sha256 content = item.2) ("the live " ++ item.1 ++
        " differs from the signed SHA256SUMS")) =
      .ok () := by
    rw [except_forM_ok]
    intro item hitem
    obtain ⟨content, hfile, hdigest⟩ := hexact.digests item.1 item.2 (List.mem_mergeSort.mp hitem)
    rw [need_ok.mpr ((hlookup _).trans hfile), except_ok_bind, require_pos hdigest]
  rw [checkSite, require_pos (h.canonical site' hperm), except_ok_bind,
    need_ok.mpr ((hlookup _).trans hexact.sums), except_ok_bind,
    need_ok.mpr ((hlookup _).trans hexact.signature), except_ok_bind, require_pos hsigned,
    except_ok_bind, hinstaller, except_ok_bind, hexact.parsed, except_ok_bind, require_pos hpaths,
      except_ok_bind]
  dsimp only at hlisted ⊢
  rw [hlisted, except_ok_bind, hidentity]

/-- Once a deployment has converged it verifies, in the first round of each check. -/
theorem eval_verifyLive {rounds : ℕ} {timeout : ℤ} {fingerprint commit rootUrl : String}
    {archive content sums : Bytes} {entry : Value} (hcommit : isCommit commit = true)
    (hrecord : pagesRecord json values content = .ok record)
    (hroot : siteRoot values.baseUrl = .ok rootUrl)
    (hsite : ReleaseSite tools values fingerprint archive commit sums site)
    (hentry : record.versions.lookup values.version = some entry)
    (harchive : entry.get "archive_sha256" = some (.str (tools.sha256 archive)))
    (hsums : entry.get "sha256sums_sha256" = some (.str (tools.sha256 sums)))
    (hconverged : Converged tools values rootUrl site record answers) :
    ∃ report, (verifyLive tools json (rounds + 1) timeout values fingerprint archive content commit
      true).eval answers =
      .ok report ∧ report.version = values.version ∧ report.files = site.length := by
  obtain ⟨signature, listed, hexact, hsigned⟩ := hsite.exact
  have hexpected : (site.map fun file =>
    (⟨values.version ++ "/" ++ file.1, true, file.2⟩ : Member)).foldlM
      (expectMember tools values.version) [] = .ok (digests tools site) :=
    @expectMembers_site tools values.version site [] hexact.plain hexact.unique
  have hinputs : liveInputs tools json values archive content commit =
      .ok ⟨record, digests tools site, rootUrl⟩ := by
    have hlookup : (digests tools site).lookup "SHA256SUMS" = some (tools.sha256 sums) :=
      Keyed.lookup_of_mem (digests_fst tools site ▸ hexact.unique)
        (List.mem_map.mpr ⟨_, Keyed.mem_of_lookup hexact.sums, rfl⟩)
    have hequal : (Value.str (tools.sha256 archive)).eq (.str (tools.sha256 archive)) = true ∧
        (Value.str (tools.sha256 sums)).eq
          (((digests tools site).lookup "SHA256SUMS").elim .none .str) = true := by
      rw [hlookup]
      simp [Value.eq]
    rw [liveInputs, require_pos hcommit, except_ok_bind, hrecord, except_ok_bind,
      need_ok.mpr hsite.members, except_ok_bind]
    rw [hexpected, except_ok_bind, hroot, except_ok_bind]
    dsimp only
    rw [need_ok.mpr hentry, except_ok_bind, need_ok.mpr harchive, except_ok_bind, need_ok.mpr hsums,
      except_ok_bind, require_pos hequal]
    rfl
  have hwait : ∀ deadline,
    (forM (fileChecks values.baseUrl (digests tools site) ++ goneChecks rootUrl record.retired)
      fun check => waitFor tools deadline check (rounds + 1)).eval answers = .ok () := by
    intro deadline
    rw [Prog.eval_forM, except_forM_ok]
    intro check hcheck
    rcases List.mem_append.mp hcheck with hcheck | hcheck
    · obtain ⟨file, hfile, hurl, hplain, hwanted⟩ :=
        exists_fileCheck hsite.usual hexact.unique hcheck
      have hanswer : answers (.fetch check.busted check.url) = .answered 200 file.2 := by
        rw [hurl, hplain]
        exact hconverged.files file hfile false
      exact eval_waitFor hanswer hwanted.symm
    · obtain ⟨item, hitem, path, hurl, hwanted⟩ := exists_goneCheck hcheck
      obtain ⟨body, hbody⟩ := hconverged.gone item hitem path check.busted
      rw [← hurl] at hbody
      exact eval_waitFor hbody hwanted.symm
  have hsorted : ((digests tools site).mergeSort fun a b => a.1 ≤ b.1) =
      digests tools (site.mergeSort fun a b => a.1 ≤ b.1) := by
    refine (List.map_mergeSort (f := fun file : String × Bytes =>
      (file.1, tools.sha256 file.2)) ?_).symm
    exact fun _ _ _ _ => rfl
  have hperm := List.mergeSort_perm site fun a b => a.1 ≤ b.1
  have hfetch : (((digests tools site).mergeSort fun a b => a.1 ≤ b.1).foldlM
    (fetchFile tools values.baseUrl) []).eval
      answers = .ok (site.mergeSort fun a b => a.1 ≤ b.1) := by
    rw [hsorted]
    refine eval_fetchFiles (fun file hfile => hconverged.files file
      (List.mem_mergeSort.mp hfile) true) ?_
    exact conflicting_mono hsite.free (hperm.map Prod.fst).subset
  obtain ⟨others, hothers⟩ : ∃ others, List.Forall₂ (fun item other =>
      (fetchOther tools rootUrl values.version item).eval answers = .ok other)
        record.versions others := by
    refine Keyed.exists_forall₂ fun item hitem => ?_
    rw [fetchOther]
    dsimp only
    split
    next => exact ⟨none, rfl⟩
    next hne =>
      obtain ⟨body, hbody, hindex⟩ := hconverged.others item hitem hne
      have hfetch : (fetchLive (rootUrl ++ item.1 ++ "/SHA256SUMS")).eval answers = .ok
          (200, body) := by
        rw [fetchLive, Prog.eval_expect, hbody]
      have hsame : (item.2.index "sha256sums_sha256").any
          (fun digest => (Value.str (tools.sha256 body)).eq digest) = true := by
        rw [hindex, Option.any_some]
        simp [Value.eq]
      refine ⟨some (item.1, tools.sha256 body), ?_⟩
      rw [Prog.eval_bind, hfetch, except_ok_bind]
      dsimp only
      rw [Prog.eval_bind, eval_gate (require_pos ⟨rfl, hsame⟩ _), except_ok_bind]
      rfl
  refine ⟨⟨values.version, (digests tools site).length, tools.sha256 archive, others.filterMap id,
    (record.retired.map Prod.fst).mergeSort fun a b => versionKey a ≤ versionKey b⟩, ?_, rfl, by
      simp [digests]⟩
  have hclock : readClock.eval answers = .ok (answers .clock) := rfl
  rw [verifyLive, Prog.eval_bind, eval_gate hinputs, except_ok_bind]
  dsimp only
  rw [Prog.eval_bind, hclock, except_ok_bind, Prog.eval_bind, hwait, except_ok_bind, Prog.eval_bind,
    eval_gate (require_pos rfl _), except_ok_bind, Prog.eval_bind, hfetch, except_ok_bind,
      Prog.eval_bind,
    eval_gate (eval_checkSite hsite hperm), except_ok_bind, Prog.eval_bind, Prog.eval_mapM,
      except_mapM_ok.mpr hothers,
    except_ok_bind]
  rfl

end

section
variable {tools : Tools} {json : String → Option Value} {values : Values} {site : Site}

theorem startsWith_append_left (p a b : String) :
    startsWith (p ++ a) (p ++ b) = startsWith a b := by
  rw [Bool.eq_iff_iff, startsWith, startsWith, List.isPrefixOf_iff_prefix,
    List.isPrefixOf_iff_prefix, String.toList_append, String.toList_append,
    List.prefix_append_right_inj]

/-- The members of an archive that unpacks are the files of its site, and can stand side by side. -/
theorem unpackRelease_members {archive sums signature : Bytes} {version : String}
    (h : unpackRelease tools archive version sums signature = .ok site) :
    tools.members archive = some (site.map fun file => ⟨version ++ "/" ++ file.1, true, file.2⟩) ∧
      conflicting (site.map Prod.fst) = false := by
  simp only [unpackRelease, except_bind_ok, need_ok, require_ok, except_forM_ok] at h
  obtain ⟨listed, -, members, hmembers, _, ⟨-, hsub, -, hregular⟩, _, hfree, _, -, _, -, hpure⟩ := h
  cases hpure
  have hnames : ∀ member ∈ members,
      member = ⟨version ++ "/" ++ Py.removePrefix (version ++ "/") member.name, true,
        member.content⟩ := by
    intro member hmember
    obtain ⟨path, -, hname⟩ := List.mem_map.mp (hsub _ (List.mem_map_of_mem hmember))
    obtain ⟨name, regular, content⟩ := member
    simp only at hname
    obtain rfl := hregular _ hmember
    rw [← hname, Py.removePrefix_append]
  constructor
  · rw [hmembers, List.map_map]
    exact congrArg some ((List.map_congr_left hnames).symm.trans (List.map_id _)).symm
  · rw [Bool.eq_false_iff] at hfree ⊢
    refine fun hconflict => hfree ?_
    obtain ⟨path, hpath, hany⟩ := List.any_eq_true.mp hconflict
    obtain ⟨other, hother, hstarts⟩ := List.any_eq_true.mp hany
    have hname : ∀ path ∈ (members.map fun member => (Py.removePrefix (version ++ "/") member.name,
      member.content)).map
        Prod.fst, version ++ "/" ++ path ∈ members.map Member.name := by
      intro path hpath
      rw [List.map_map] at hpath
      obtain ⟨member, hmember, rfl⟩ := List.mem_map.mp hpath
      exact List.mem_map.mpr ⟨member, hmember, congrArg Member.name (hnames member hmember)⟩
    refine List.any_eq_true.mpr ⟨_, hname path hpath, List.any_eq_true.mpr
      ⟨_, hname other hother, ?_⟩⟩
    rw [String.append_assoc, startsWith_append_left]
    exact hstarts

/-- An archive of exactly the listed files unpacks to them. -/
theorem unpackRelease_site {archive sums signature : Bytes} {version : String}
    {listed : List (String × String)} (hmembers : tools.members archive = some
    (site.map fun file => ⟨version ++ "/" ++ file.1, true, file.2⟩))
    (hexact : ExactSite tools sums signature listed site)
    (hfree : conflicting (site.map Prod.fst) = false) :
    unpackRelease tools archive version sums signature = .ok site := by
  have hnames : (site.map fun file => (⟨version ++ "/" ++ file.1, true, file.2⟩ : Member)).map
    Member.name =
      (site.map Prod.fst).map fun path => version ++ "/" ++ path := by
    rw [List.map_map, List.map_map]
    rfl
  have hwanted : (((site.map Prod.fst).map fun path => version ++ "/" ++ path).Nodup) ∧
      (∀ name ∈ (site.map Prod.fst).map fun path => version ++ "/" ++ path,
        name ∈ (listed.map Prod.fst ++ SUMS_FILES).map fun path => version ++ "/" ++ path) ∧
      (∀ name ∈ (listed.map Prod.fst ++ SUMS_FILES).map fun path => version ++ "/" ++ path,
        name ∈ (site.map Prod.fst).map fun path => version ++ "/" ++ path) ∧
      ∀ member ∈ site.map fun file => (⟨version ++ "/" ++ file.1, true, file.2⟩ : Member),
        member.regular = true := by
    have hpaths : ∀ path, path ∈ site.map Prod.fst ↔ path ∈ listed.map Prod.fst ++ SUMS_FILES :=
        fun path =>
      (hexact.paths path).trans List.mem_append.symm
    refine ⟨hexact.unique.map fun a b hab => (String.append_right_inj _).mp hab, ?_, ?_, ?_⟩
    · refine List.forall_mem_map.mpr fun path hpath => ?_
      exact List.mem_map_of_mem (f := fun path => version ++ "/" ++ path) ((hpaths path).mp hpath)
    · refine List.forall_mem_map.mpr fun path hpath => ?_
      exact List.mem_map_of_mem (f := fun path => version ++ "/" ++ path) ((hpaths path).mpr hpath)
    · exact List.forall_mem_map.mpr fun _ _ => rfl
  have hconflict : conflicting ((site.map Prod.fst).map fun path => version ++ "/" ++
      path) = false := by
    rw [Bool.eq_false_iff] at hfree ⊢
    refine fun hconflict => hfree ?_
    obtain ⟨name, hname, hany⟩ := List.any_eq_true.mp hconflict
    obtain ⟨name', hname', hstarts⟩ := List.any_eq_true.mp hany
    obtain ⟨path, hpath, rfl⟩ := List.mem_map.mp hname
    obtain ⟨other, hother, rfl⟩ := List.mem_map.mp hname'
    rw [String.append_assoc, startsWith_append_left] at hstarts
    exact List.any_eq_true.mpr ⟨path, hpath, List.any_eq_true.mpr ⟨other, hother, hstarts⟩⟩
  have hsite : (site.map fun file => (⟨version ++ "/" ++ file.1, true, file.2⟩ : Member)).map
      (fun member =>
      (Py.removePrefix (version ++ "/") member.name, member.content)) = site := by
    rw [List.map_map]
    refine (List.map_congr_left fun file _ => ?_).trans (List.map_id _)
    exact Prod.ext (Py.removePrefix_append _ _) rfl
  have hfiles : (forM listed fun item : String × String => do
      let content ← need (site.lookup item.1) malformed
      require (tools.sha256 content = item.2) "a file differs from SHA256SUMS") = .ok () := by
    rw [except_forM_ok]
    intro item hitem
    obtain ⟨content, hfile, hdigest⟩ := hexact.digests item.1 item.2 hitem
    rw [need_ok.mpr hfile, except_ok_bind, require_pos hdigest]
  rw [unpackRelease, hexact.parsed, except_ok_bind, need_ok.mpr hmembers, except_ok_bind]
  dsimp only
  rw [hnames, hsite, require_pos hwanted, except_ok_bind, require_pos hconflict, except_ok_bind,
    require_pos ⟨hexact.sums, hexact.signature⟩, except_ok_bind]
  rw [hfiles]
  rfl

end

/-! ### A live site to run on -/

namespace Sample

def livePaths : List String := PLAIN ++ ["install.sh.asc", "publication-manifest.json"]

def liveSums : Bytes := utf8 (renderSums (livePaths.map fun path => (path, digest)))

def liveSite : Site :=
  livePaths.map (fun path => (path, [4])) ++ [("SHA256SUMS", liveSums), ("SHA256SUMS.asc", [3])]

def liveCommit : String := String.ofList (List.replicate 40 '0')

def liveIdentity : Value :=
  .dict [("installer", .dict [("pinned", .dict [("version", .str "1.0.0"),
    ("base_url", .str "https://pages.example/stack/1.0.0/"), ("primary_fingerprint", .str "F")])]),
    ("source_commit", .str liveCommit)]

def liveTools : Tools where
  sha256 _ := digest
  json _ := some liveIdentity
  uniqueJson _ := some emptyRegistry
  members _ := some (liveSite.map fun file => ⟨"1.0.0/" ++ file.1, true, file.2⟩)
  verifySignature _ _ _ := true
  renderNotes _ _ _ := some [78]
  canonicalSha _ := some digest

/-- A site that serves the release. -/
def liveAnswers : ∀ q, LiveAnswer q
  | .clock => (0 : ℤ)
  | .sleep => ()
  | .fetch _ url =>
    ((stripPrefix values.baseUrl url).bind fun path => liveSite.lookup path).elim (.answered 404 [])
      (.answered 200)

theorem livePaths_plain : ∀ path ∈ livePaths, plainPath path = true := by decide

theorem liveSite_fst : liveSite.map Prod.fst = livePaths ++ SUMS_FILES := by
  rw [liveSite, List.map_append, List.map_map]
  simp [Function.comp_def, SUMS_FILES]

theorem liveSite_nodup : (liveSite.map Prod.fst).Nodup := by
  rw [liveSite_fst]
  decide

theorem liveSite_exact :
    ExactSite liveTools liveSums [3] (livePaths.map fun path => (path, digest)) liveSite where
  parsed := by
    have hdigest : isDigest digest = true := by decide
    refine parseSums_render (List.forall_mem_map.mpr fun path hpath =>
      ⟨livePaths_plain path hpath, hdigest⟩) ?_
    rw [List.map_map]
    decide
  paths := fun path => by
    rw [liveSite_fst, List.mem_append, List.map_map]
    simp [Function.comp_def]
  unique := liveSite_nodup
  digests := by
    intro path sha hmem
    obtain ⟨path', hpath, heq⟩ := List.mem_map.mp hmem
    obtain ⟨rfl, rfl⟩ := Prod.mk.inj heq
    have hfile : path' ∈ liveSite.map Prod.fst := liveSite_fst ▸ List.mem_append_left _ hpath
    obtain ⟨file, hin, rfl⟩ := List.mem_map.mp hfile
    obtain ⟨content, hlookup⟩ := Option.isSome_iff_exists.mp (Keyed.lookup_isSome hin)
    exact ⟨content, hlookup, rfl⟩
  sums := Keyed.lookup_of_mem liveSite_nodup (by simp [liveSite])
  signature := Keyed.lookup_of_mem liveSite_nodup (by simp [liveSite])

theorem liveSite_released : ReleaseSite liveTools values "F" [] liveCommit liveSums liveSite where
  members := rfl
  exact := ⟨[3], _, liveSite_exact, rfl⟩
  free := by
    rw [liveSite_fst]
    decide
  installer := by
    have hfile : ∀ path ∈ livePaths, liveSite.lookup path = some [4] := fun path hpath =>
      Keyed.lookup_of_mem liveSite_nodup
        (List.mem_append_left _ (List.mem_map.mpr ⟨path, hpath, rfl⟩))
    rw [checkInstallerSignature, need_ok.mpr (hfile _ (by decide)), except_ok_bind,
      need_ok.mpr (hfile _ (by decide))]
    rfl
  identity := by
    have hfile : liveSite.lookup "publication-manifest.json" = some [4] :=
      Keyed.lookup_of_mem liveSite_nodup
        (List.mem_append_left _ (List.mem_map.mpr ⟨_, by decide, rfl⟩))
    have htext : Py.readText [4] = some "\x04" := by decide
    have hjson : need (liveTools.json "\x04") malformed = .ok liveIdentity := rfl
    rw [checkIdentity, hfile, Option.bind_some, htext, need, except_ok_bind, hjson, except_ok_bind]
    simp [liveIdentity, Py.Value.index, List.lookup_cons, require, Py.Value.eq, values]
  canonical := fun _ _ => rfl
  usual := fun path hpath => by
    rw [liveSite_fst, livePaths]
    simp [hpath]

theorem live_converged :
    Converged liveTools values rootUrl liveSite ⟨[("1.0.0", composed.value)], []⟩ liveAnswers where
  files := by
    intro file hfile busted
    have hlookup : liveSite.lookup file.1 = some file.2 := Keyed.lookup_of_mem liveSite_nodup hfile
    rw [liveAnswers, stripPrefix_append, Option.bind_some, hlookup]
    rfl
  gone := by simp
  others := by
    intro item hitem hne
    obtain rfl := List.mem_singleton.mp hitem
    exact absurd rfl hne

end Sample

section
variable {tools : Tools} {json : String → Option Value} {values : Values}
  {t : List (Event LiveAnswer)}

end

section
variable {tools : Tools} {json : String → Option Value} {values : Values}
  {answers : ∀ q, LiveAnswer q}

/-- A release archive that unpacks to this site, with the seven files users start from. -/
structure Packed (tools : Tools) (values : Values) (fingerprint : String) (archive : Bytes)
    (commit : String) (sums : Bytes) (site : Site) : Prop where
  unpacked : ∃ signature, unpackRelease tools archive values.version sums signature = .ok site ∧
    tools.verifySignature fingerprint signature sums = true
  installer : checkInstallerSignature tools site fingerprint = .ok ()
  identity : checkIdentity tools site values.version values.baseUrl fingerprint commit = .ok ()
  /-- Packing goes by the files, not by the order they were read in. -/
  canonical : ∀ site', site'.Perm site → tools.canonicalSha site' = some (tools.sha256 archive)
  usual : ∀ path ∈ PLAIN, path ∈ site.map Prod.fst

/-- A manifest that records composing the committed version from this archive. -/
structure Records (tools : Tools) (values : Values) (archive sums : Bytes) (manifest : Manifest) :
    Prop where
  base : manifest.baseUrl = values.baseUrl
  new : manifest.newVersion = some values.version
  unique : (manifest.versions.map Prod.fst).Nodup
  retired : ∀ item ∈ manifest.retired, releaseVersion item.1 = true ∧ ∀ path ∈ item.2,
    plainPath path = true
  composed : ∃ composed, (values.version, composed) ∈ manifest.versions ∧
    composed.archive = tools.sha256 archive ∧ composed.sums = tools.sha256 sums

/-- A deployment that has converged verifies, in the first round of each check: what the release
    archive unpacks to, served at every URL, with the retired versions gone and the others as the
    manifest records them. -/
theorem verifyLive_converged {timeout : ℤ} {rounds : ℕ} {fingerprint commit rootUrl : String}
    {archive content sums : Bytes} {site : Site} {manifest : Manifest}
    (hcommit : isCommit commit = true) (hroot : siteRoot values.baseUrl = .ok rootUrl)
    (hreads : (Py.readText content).bind json = some manifest.value)
    (hrecords : Records tools values archive sums manifest)
    (hpacked : Packed tools values fingerprint archive commit sums site)
    (hfiles : ∀ file ∈ site, ∀ busted, answers (.fetch busted (values.baseUrl ++ file.1)) =
    .answered 200 file.2) (hgone : ∀ item ∈ manifest.retired, ∀ path busted, ∃ body,
      answers (.fetch busted (rootUrl ++ item.1 ++ "/" ++ path)) = .answered 404 body)
    (hothers : ∀ item ∈ manifest.versions, item.1 ≠ values.version → ∃ body,
      answers (.fetch true (rootUrl ++ item.1 ++ "/SHA256SUMS")) = .answered 200 body ∧
        item.2.sums = tools.sha256 body) :
    ∃ report, (verifyLive tools json (rounds + 1) timeout values fingerprint archive content commit
      true).eval answers =
      .ok report ∧ report.version = values.version ∧ report.files = site.length := by
  obtain ⟨signature, hunpacked, hsigned⟩ := hpacked.unpacked
  obtain ⟨hmembers, hfree⟩ := unpackRelease_members hunpacked
  obtain ⟨listed, hexact⟩ := unpackRelease_ok hunpacked
  obtain ⟨composed, hcomposed, harchive, hsums⟩ := hrecords.composed
  have hentry : ((sortKeys manifest.versions).map fun item =>
    (item.1, item.2.value)).lookup values.version =
      some composed.value :=
    Keyed.lookup_of_mem ((keys_recorded manifest.versions).nodup_iff.mpr hrecords.unique)
      (List.mem_map.mpr ⟨_, (perm_sortKeys _).mem_iff.mpr hcomposed, rfl⟩)
  refine eval_verifyLive hcommit
    (pagesRecord_written hreads hrecords.base hrecords.new hrecords.retired) hroot
    ⟨hmembers, ⟨signature, listed, hexact, hsigned⟩, hfree, hpacked.installer, hpacked.identity,
      hpacked.canonical, hpacked.usual⟩ hentry (congrArg (fun sha => some (Value.str sha)) harchive)
    (congrArg (fun sha => some (Value.str sha)) hsums)
    ⟨hfiles, fun item hitem => hgone item ((perm_sortKeys _).mem_iff.mp hitem),
      fun item hitem hne => ?_⟩
  obtain ⟨⟨version, other⟩, hmem, rfl⟩ := List.mem_map.mp hitem
  obtain ⟨body, hbody, hsame⟩ := hothers _ ((perm_sortKeys _).mem_iff.mp hmem) hne
  exact ⟨body, hbody, congrArg (fun sha => some (Value.str sha)) hsame⟩

end

namespace Sample

theorem records : Records liveTools values [] liveSums manifest where
  base := rfl
  new := rfl
  unique := by simp [manifest]
  retired := by simp [manifest]
  composed := ⟨composed, by simp [manifest, values], rfl, rfl⟩

theorem unpackRelease_live : unpackRelease liveTools [] "1.0.0" liveSums [3] = .ok liveSite :=
  unpackRelease_site rfl liveSite_exact liveSite_released.free

theorem packed : Packed liveTools values "F" [] liveCommit liveSums liveSite where
  unpacked := ⟨[3], unpackRelease_live, rfl⟩
  installer := liveSite_released.installer
  identity := liveSite_released.identity
  canonical := fun _ _ => rfl
  usual := liveSite_released.usual

end Sample

theorem verifyLive_converged_sample : ∃ report,
    (verifyLive Sample.liveTools Sample.json 1 0 Sample.values "F" []
      [] Sample.liveCommit true).eval
      Sample.liveAnswers = .ok report ∧ report.version = "1.0.0" := by
  have hcommit : isCommit Sample.liveCommit = true := by decide
  have hroot : siteRoot Sample.values.baseUrl = .ok Sample.rootUrl := rfl
  have hreads : (Py.readText []).bind Sample.json = some Sample.manifest.value := by
    rw [show Py.readText [] = some "" by decide]
    rfl
  obtain ⟨report, heval, hversion, -⟩ :=
    @verifyLive_converged _ _ _ Sample.liveAnswers 0 0 _ _ _ _ _ _ _ _ hcommit hroot
    hreads Sample.records Sample.packed Sample.live_converged.files (by simp [Sample.manifest])
    (by simp [Sample.manifest, Sample.values])
  exact ⟨report, heval, hversion⟩

end NpuStack.Publish
