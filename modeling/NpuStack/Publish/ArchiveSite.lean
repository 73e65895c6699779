import NpuStack.Publish.Sign

/-! `release_site.py archive`: the canonical archive of a signed site.

        sign ──▶ site ──signed stage──▶ create ──▶ write ──▶ digest          unpack_release
                                          │          └─ failure ─▶ unlink     └─▶ the same site
                                          └─ exists: refused, untouched

    The output is never overwritten, and holds the whole archive or what it held before
    (`archive_atomic`). What `sign` and `archive` made, publishing unpacks to the signed site
    (`signed_archive_unpacks`). -/

namespace NpuStack.Publish
open Interaction Text
open NpuStack.Packaging (releaseVersion)

/-! ### Archiving -/

section
variable (tools : SiteTools)

/-- `release.json` names this version. -/
def checkStackRelease (site : Site) (version : String) : Except String Unit := do
  let text ← need ((site.lookup "release.json").bind Py.readText)
    "release.json is not readable JSON"
  let document ← need (tools.json text) "release.json is not readable JSON"
  let items ← need document.asDict "release.json must hold a JSON object"
  require ((items.lookup "stack_release").any (fun value => value.eq (.str version)) = true)
    "release.json names another version"

/-- The body of the `try`, once the file is made. -/
def writeOutput (version : String) : Signing String Unit := do
  let site ← readSite
  let content ← liftM (writeArchive version site)
  Prog.expect (.writeOutput content) fun ok => require (ok = true) "the archive was not written"

def removeOutput (failure : String) : Signing String Unit := do
  Prog.expect .unlinkOutput fun ok => require (ok = true) "the archive was not removed"
  Prog.fail failure

/-- The `try` statement: makes the file, writes it, and removes what a failure leaves. -/
def createOutput (version : String) : Signing String Unit := do
  let answer ← Prog.expect .create Except.ok
  match answer with
  | .exists => Prog.fail "output already exists; outputs are never overwritten"
  | .failed => removeOutput "the archive was not created"
  | .created => do
    let result ← (writeOutput version).attempt
    match result with
    | .error failure => removeOutput failure
    | .ok () => return ()

/-- `archive` of the site in a directory of this name, into a file of this name: the digest of the
    archive. `inside` says that the file would stand in the site. -/
def archive (version outputName : String) (inside : Bool) (expectedFiles : Digests) :
    Signing String String := do
  liftM (require (releaseVersion version = true)
    "the site directory must be named after the release version" : Except String Unit)
  liftM (require (outputName = "intel-npu-stack-" ++ version ++ ".tar")
    "the archive has another name" : Except String Unit)
  Prog.expect .outputExists fun present =>
    require (present = false) "output already exists; outputs are never overwritten"
  liftM (require (inside = false) "the archive must be written outside the site" :
    Except String Unit)
  let site ← readSite
  let _ ← liftM (verifySite tools .signed (some expectedFiles) site)
  let site ← readSite
  liftM (checkStackRelease tools site version)
  createOutput version
  Prog.expect .readOutput fun content =>
    (need content "the archive cannot be read").map tools.sha256

end

section
variable {tools : SiteTools} {Step : Workspace → Event FileAnswer → Workspace → Prop}
  {start : Workspace} {version : String} {Granted : Prop}

/-- The site is as it was, and so is what stood at the output. -/
def Kept (start w : Workspace) : Prop :=
  w.site = start.site ∧ (start.output ≠ none → w.output = start.output)

theorem Kept.of_none {w : Workspace} (hnone : start.output = none) (hsite : w.site = start.site) :
    Kept start w :=
  ⟨hsite, fun habs => absurd hnone habs⟩

theorem ensures_writeOutput (hstep : ∀ w e w', Step w e w' → FileStep tools w e w')
    (hnone : start.output = none) :
    (writeOutput version).Ensures Step (Kept start) { start with output := some [] } fun r w =>
      w.site = start.site ∧ (r = .ok () → ∃ content, writeArchive version start.site = .ok content ∧
        w = { start with output := some content }) := by
  have hkept : ∀ out, Kept start { start with output := out } := fun _ => Kept.of_none hnone rfl
  rw [writeOutput]
  refine ensures_readSite_bind hstep (hkept _) ?_ fun _ =>
    ⟨rfl, fun habs => absurd habs Prog.error_ne_ok⟩
  refine Prog.ensures_lift_bind (fun content hcontent => ?_) fun _ _ =>
    ⟨rfl, fun habs => absurd habs Prog.error_ne_ok⟩
  refine Prog.ensures_expect fun ok w h => ?_
  cases hstep _ _ _ h with
  | wroteOutput => exact ⟨hkept _, rfl, fun _ => ⟨content, hcontent, rfl⟩⟩
  | wroteOutputPartly => exact ⟨hkept _, rfl, fun habs => absurd habs Prog.refused_ne_ok⟩

theorem ensures_removeOutput (hstep : ∀ w e w', Step w e w' → FileStep tools w e w')
    (hgranted : Granted → ∀ w w', ¬Step w ⟨.unlinkOutput, false⟩ w') (hnone : start.output = none)
    {w : Workspace} (hsite : w.site = start.site) (failure : String) :
    (removeOutput failure).Ensures Step (Kept start) w fun r w' => (∀ u, r ≠ .ok u) ∧
      (Granted → w' = start) := by
  rw [removeOutput]
  refine Prog.ensures_bind (Prog.ensures_expect fun ok w' h => ?_)
  cases ok with
  | false =>
    cases hstep _ _ _ h with
    | unlinkOutputFailed =>
      refine ⟨Kept.of_none hnone hsite, fun _ habs => absurd habs Prog.refused_ne_ok,
        fun _ _ => ?_⟩
      exact ⟨fun _ => Prog.error_ne_ok, fun hg => absurd h (hgranted hg _ _)⟩
  | true =>
    cases hstep _ _ _ h with
    | unlinkedOutput =>
      refine ⟨Kept.of_none hnone hsite, fun _ _ => ?_, fun _ habs =>
        absurd habs Prog.admitted_ne_error⟩
      refine ⟨fun _ => Prog.error_ne_ok, fun _ => ?_⟩
      rw [hsite, ← hnone]

/-- Making the output: the whole archive of the site stands there at the end, or what stood there
    before. -/
theorem ensures_createOutput (hstep : ∀ w e w', Step w e w' → FileStep tools w e w')
    (hgranted : Granted → ∀ w w', ¬Step w ⟨.unlinkOutput, false⟩ w' ∧ ¬Step w ⟨.create, .exists⟩ w')
    (hnone : start.output = none) :
    (createOutput version).Ensures Step (Kept start) start fun r w =>
      (r = .ok () → ∃ content, writeArchive version start.site = .ok content ∧
        w = { start with output := some content }) ∧ (Granted → ∀ e, r = .error e → w = start) := by
  have hunlink : Granted → ∀ w w', ¬Step w ⟨.unlinkOutput, false⟩ w' := fun hg w w' =>
    (hgranted hg w w').1
  have hremoved := fun (w : Workspace) (hsite : w.site = start.site) (failure : String) =>
    (ensures_removeOutput hstep hunlink hnone hsite failure).mono fun r w' h =>
      show (r = .ok () → ∃ content, writeArchive version start.site = .ok content ∧
        w' = { start with output := some content }) ∧
          (Granted → ∀ e, r = .error e → w' = start) from
      ⟨fun hr => absurd hr (h.1 ()), fun hg _ _ => h.2 hg⟩
  rw [createOutput]
  refine Prog.ensures_bind (Prog.ensures_expect fun answer w h => ?_)
  cases answer with
  | «exists» =>
    have hkept : Kept start w := by
      cases hstep _ _ _ h with
      | taken => exact ⟨rfl, fun _ => rfl⟩
      | raced => exact Kept.of_none hnone rfl
    refine ⟨hkept, fun _ heq => ?_, fun _ habs => absurd habs.symm Prog.error_ne_ok⟩
    cases heq
    exact ⟨fun habs => absurd habs Prog.error_ne_ok, fun hg => absurd h (hgranted hg _ _).2⟩
  | failed =>
    cases hstep _ _ _ h with
    | createFailed =>
      refine ⟨⟨rfl, fun _ => rfl⟩, fun _ heq => ?_, fun _ habs => absurd habs.symm Prog.error_ne_ok⟩
      cases heq
      exact hremoved _ rfl _
  | created =>
    cases hstep _ _ _ h with
    | created =>
      refine ⟨Kept.of_none hnone rfl, fun _ heq => ?_, fun _ habs =>
        absurd habs.symm Prog.error_ne_ok⟩
      cases heq
      refine Prog.ensures_bind
        (Prog.ensures_attempt ((ensures_writeOutput hstep hnone).mono fun r w h => ?_))
      refine ⟨fun result hresult => ?_, fun _ habs => absurd habs.symm Prog.error_ne_ok⟩
      obtain rfl := Except.ok.inj hresult
      rcases r with failure | u
      · exact hremoved w h.1 failure
      · exact ⟨fun _ => h.2 rfl, fun _ _ habs => absurd habs.symm Prog.error_ne_ok⟩

/-- What a successful `archive` did: it wrote the whole archive of the site it verified, where
    nothing was. -/
structure Archived (tools : SiteTools) (start : Workspace) (version : String)
    (expectedFiles : Digests) (content : Bytes) : Prop where
  absent : start.output = none
  named : releaseVersion version = true
  verified : ∃ files, verifySite tools .signed (some expectedFiles) start.site = .ok files
  written : writeArchive version start.site = .ok content

variable (Step Granted) in
theorem ensures_archive (hstep : ∀ w e w', Step w e w' → FileStep tools w e w')
    (hgranted : Granted → ∀ w w', ¬Step w ⟨.unlinkOutput, false⟩ w' ∧ ¬Step w ⟨.create, .exists⟩ w')
    {outputName : String} {inside : Bool} {expectedFiles : Digests} :
    (archive tools version outputName inside expectedFiles).Ensures Step
      (Kept start) start fun r w =>
      (∀ digest, r = .ok digest → ∃ content, Archived tools start version expectedFiles content ∧
        w = { start with output := some content } ∧ digest = tools.sha256 content) ∧
      (Granted → ∀ e, r = .error e → w = start ∨
        ∃ content, Archived tools start version expectedFiles content ∧
          w = { start with output := some content }) := by
  have hstart : Kept start start := ⟨rfl, fun _ => rfl⟩
  have hbefore : ∀ e : String, (∀ digest, (Except.error e : Except String String) = .ok digest →
        ∃ content, Archived tools start version expectedFiles content ∧
          start = { start with output := some content } ∧ digest = tools.sha256 content) ∧
      (Granted → ∀ e', (Except.error e : Except String String) = .error e' → start = start ∨
        ∃ content, Archived tools start version expectedFiles content ∧
          start = { start with output := some content }) :=
    fun e => ⟨fun _ habs => absurd habs Prog.error_ne_ok, fun _ _ _ => .inl rfl⟩
  rw [archive]
  refine Prog.ensures_lift_bind (fun _ hversion => ?_) fun e _ => hbefore e
  rw [require_ok] at hversion
  refine Prog.ensures_lift_bind (fun _ _ => ?_) fun e _ => hbefore e
  refine Prog.ensures_bind (Prog.ensures_expect fun present w h => ?_)
  cases hstep _ _ _ h with
  | outputExists =>
    refine ⟨hstart, fun _ habsent => ?_, fun e _ => hbefore e⟩
    have hnone : start.output = none := by simpa using habsent
    refine Prog.ensures_lift_bind (fun _ _ => ?_) fun e _ => hbefore e
    refine ensures_readSite_bind hstep hstart ?_ hbefore
    refine Prog.ensures_lift_bind (fun files hfiles => ?_) fun e _ => hbefore e
    refine ensures_readSite_bind hstep hstart ?_ hbefore
    refine Prog.ensures_lift_bind (fun _ _ => ?_) fun e _ => hbefore e
    refine Prog.ensures_bind ((ensures_createOutput hstep hgranted hnone).mono fun r w h =>
      ⟨fun _ hr => ?_, fun e hr => ?_⟩)
    · obtain ⟨content, hcontent, rfl⟩ := h.1 hr
      have harchived : Archived tools start version expectedFiles content :=
        ⟨hnone, hversion, ⟨files, hfiles⟩, hcontent⟩
      refine Prog.ensures_expect fun answer w' h => ?_
      cases hstep _ _ _ h with
      | readOutput hsome =>
        obtain rfl := Option.some.inj hsome
        refine ⟨Kept.of_none hnone rfl, fun digest hdigest => ?_, fun _ _ habs =>
          absurd habs.symm Prog.error_ne_ok⟩
        exact ⟨content, harchived, rfl, (Except.ok.inj hdigest).symm⟩
      | outputUnreadable =>
        exact ⟨Kept.of_none hnone rfl, fun _ habs => absurd habs Prog.error_ne_ok, fun _ _ _ =>
          .inr ⟨content, harchived, rfl⟩⟩
    · refine ⟨fun _ habs => absurd habs Prog.error_ne_ok, fun hg _ _ => .inl (h.2 hg e hr)⟩

end

section
variable {tools : SiteTools} {version outputName : String} {inside : Bool} {expectedFiles : Digests}

theorem raced_createOutput {next : Unit → Signing String String}
    (hnext : ∀ u, (next u).Asks (· ≠ .create))
    {before after : List (Event FileAnswer)} {r : Except String String}
    (hrun : Prog.Runs (createOutput version >>= next) (before ++ ⟨.create, .exists⟩ :: after) r) :
    after = [] := by
  rw [createOutput, bind_assoc] at hrun
  rcases Prog.runs_bind.mp hrun with ⟨e, -, hfail⟩ | ⟨answer, t₁, t₂, heq, hcreate, hrest⟩
  · obtain ⟨_, -, habs⟩ := Prog.runs_expect.mp hfail
    exact absurd habs.symm Prog.error_ne_ok
  · obtain ⟨a, rfl, ha⟩ := Prog.runs_expect.mp hcreate
    obtain rfl := Except.ok.inj ha
    rcases before with _ | ⟨first, before⟩
    · -- the file was found to be there
      obtain ⟨he, rfl⟩ := List.cons.inj heq
      cases he
      rcases Prog.runs_bind.mp hrest with ⟨_, -, hfail⟩ | ⟨_, _, _, -, hok, -⟩
      · exact (Prog.runs_fail.mp hfail).1
      · exact absurd (Prog.runs_fail.mp hok).2 Prog.error_ne_ok
    · -- the answer was another one, and the file is asked for only once
      obtain ⟨-, rfl⟩ := List.cons.inj heq
      have hremove : ∀ failure, (removeOutput failure).Asks (· ≠ .create) := by
        simp [removeOutput, Prog.asks_bind]
      have hwrite : (writeOutput version).Asks (· ≠ .create) := by
        refine Prog.asks_bind (by simp [readSite]) fun site => Prog.asks_lift_bind fun content => ?_
        simp
      refine absurd rfl (Prog.runs_asks (P := (· ≠ .create)) ?_ hrest ⟨.create, .exists⟩ (by simp))
      refine Prog.asks_bind ?_ hnext
      cases a with
      | created =>
        refine Prog.asks_bind (Prog.asks_attempt hwrite) fun result => ?_
        rcases result with failure | u
        · exact hremove failure
        · exact trivial
      | «exists» => exact trivial
      | failed => exact hremove _

/-- Once the file is found to be there, nothing more is asked. -/
theorem raced_last {t : List (Event FileAnswer)} {r : Except String String}
    (hrun : Prog.Runs (archive tools version outputName inside expectedFiles) t r)
    (hraced : ⟨.create, .exists⟩ ∈ t) : ∃ before, t = before ++ [⟨.create, .exists⟩] := by
  obtain ⟨before, after, rfl⟩ := List.append_of_mem hraced
  have hread : readSite.Asks (· ≠ .create) := by simp [readSite]
  have hlift : ∀ x : Except String Unit, (liftM x : Signing String Unit).Asks (· ≠ .create) :=
    fun _ => trivial
  have hcreate : ¬ ((⟨.create, .exists⟩ : Event FileAnswer).question ≠ .create) := by simp
  rw [archive] at hrun
  -- what comes before the creation does not ask for it
  obtain ⟨_, s₁, t₁, rfl, -, hrun⟩ := Prog.runs_bind_guard (hlift _) hcreate hrun
  obtain ⟨_, s₂, t₂, rfl, -, hrun⟩ := Prog.runs_bind_guard (hlift _) hcreate hrun
  obtain ⟨_, s₃, t₃, rfl, -, hrun⟩ := Prog.runs_bind_guard (by simp) hcreate hrun
  obtain ⟨_, s₄, t₄, rfl, -, hrun⟩ := Prog.runs_bind_guard (hlift _) hcreate hrun
  obtain ⟨site, s₅, t₅, rfl, -, hrun⟩ := Prog.runs_bind_guard hread hcreate hrun
  obtain ⟨_, s₆, t₆, rfl, -, hrun⟩ := Prog.runs_bind_guard (Prog.asks_lift _) hcreate hrun
  obtain ⟨site', s₇, t₇, rfl, -, hrun⟩ := Prog.runs_bind_guard hread hcreate hrun
  obtain ⟨_, s₈, t₈, rfl, -, hrun⟩ := Prog.runs_bind_guard (hlift _) hcreate hrun
  obtain rfl := raced_createOutput (fun _ => by simp) hrun
  exact ⟨_, rfl⟩

section
variable {t : List (Event FileAnswer)} {w w' : Workspace}

theorem archived_of_run {digest : String} (hsteps : Prog.Steps (FileStep tools) w t w')
    (hrun : Prog.Runs (archive tools version outputName inside expectedFiles) t (.ok digest)) :
    ∃ content, Archived tools w version expectedFiles content ∧
      w' = { w with output := some content } ∧ digest = tools.sha256 content :=
  ((ensures_archive (FileStep tools) False (fun _ _ _ h => h) fun habs =>
    habs.elim).run hrun hsteps).1 digest rfl

/-- Archiving never touches an output that is there, and leaves the site alone; what a success
    leaves at the output is the whole archive of a site that passed the signed stage, and a failure
    whose clean-up went through leaves that or what was there before, unless another process made
    the file at that moment: then nothing more is asked of it. -/
theorem archive_atomic (hsteps : Prog.Steps (FileStep tools) w t w') :
    (Prog.Cut (archive tools version outputName inside expectedFiles) t → Kept w w') ∧
      (∀ digest, Prog.Runs (archive tools version outputName inside expectedFiles) t (.ok digest) →
        ∃ content, Archived tools w version expectedFiles content ∧
          w' = { w with output := some content } ∧ digest = tools.sha256 content) ∧
      ∀ e, Prog.Runs (archive tools version outputName inside expectedFiles) t (.error e) →
        ⟨.unlinkOutput, false⟩ ∉ t →
        w' = w ∨ (∃ content, Archived tools w version expectedFiles content ∧
          w' = { w with output := some content }) ∨
          ∃ before, t = before ++ [⟨.create, .exists⟩] := by
  refine ⟨fun hcut => ?_, fun _ hrun => archived_of_run hsteps hrun, fun e hrun hunlinked => ?_⟩
  · exact (ensures_archive (FileStep tools) False (fun _ _ _ h => h) fun habs => habs.elim).cut
      ⟨rfl, fun _ => rfl⟩ hcut hsteps
  · by_cases hraced : ⟨.create, .exists⟩ ∈ t
    · exact .inr (.inr (raced_last hrun hraced))
    · have hrestricted := Prog.steps_restrict (fun e => e ≠ ⟨.unlinkOutput, false⟩ ∧
        e ≠ ⟨.create, .exists⟩) hsteps
        fun e he => ⟨fun heq => hunlinked (heq ▸ he), fun heq => hraced (heq ▸ he)⟩
      have hends := (ensures_archive _ True (fun _ _ _ h => h.1)
        fun _ _ _ => ⟨fun h => h.2.1 rfl, fun h => h.2.2 rfl⟩).run hrun hrestricted
      exact (hends.2 trivial e rfl).imp_right .inl

end

/-- Archiving can succeed where the signed stage does and the headers can count the files. -/
theorem reaches_archive {w : Workspace} {content : Bytes}
    (h : Archived tools w version expectedFiles content)
    (hrelease : checkStackRelease tools w.site version = .ok ()) :
    (archive tools version ("intel-npu-stack-" ++ version ++ ".tar") false expectedFiles).Reaches
      (FileStep tools) w (.ok (tools.sha256 content)) { w with output := some content } := by
  obtain ⟨files, hfiles⟩ := h.verified
  have hwrite : (writeOutput version).Reaches (FileStep tools) { w with output := some [] } (.ok ())
      { w with output := some content } :=
    reaches_readSite_bind
      (Prog.reaches_lift_bind h.written (Prog.reaches_expect (.wroteOutput _ content) rfl))
  have hcreate : (createOutput version).Reaches (FileStep tools) w (.ok ())
      { w with output := some content } :=
    Prog.reaches_expect_bind (.created w h.absent) rfl
      (Prog.reaches_bind hwrite.attempt (Prog.reaches_done _))
  have habsent : w.output.isSome = false := by rw [h.absent]; rfl
  rw [archive]
  refine Prog.reaches_lift_bind (a := ()) (require_ok.mpr h.named) ?_
  refine Prog.reaches_lift_bind (a := ()) (require_ok.mpr rfl) ?_
  refine Prog.reaches_expect_bind (a := w.output.isSome) (b := ()) (.outputExists w)
    (require_ok.mpr habsent) ?_
  refine Prog.reaches_lift_bind (a := ()) (require_ok.mpr rfl) (reaches_readSite_bind ?_)
  refine Prog.reaches_lift_bind hfiles (reaches_readSite_bind (Prog.reaches_lift_bind hrelease ?_))
  exact Prog.reaches_bind hcreate (Prog.reaches_expect (.readOutput _ rfl) rfl)

/-! ### From signing to publishing -/

section
variable {publishing : Tools} {committed : Except String String} {fingerprint : String}
  {signEvents archiveEvents : List (Event FileAnswer)} {w w₁ w₂ : Workspace}

/-- A signed site is one its SHA256SUMS describes. -/
theorem SignedAs.signed {start : Site} {reported : Digests} {f : Finalization}
    (h : SignedAs tools committed fingerprint start expectedFiles f reported)
    (hunique : (start.map Prod.fst).Nodup)
    (hfree : conflicting ((start ++ f.files).map Prod.fst) = false)
    (hsha : publishing.sha256 = tools.sha256) :
    Signed publishing (start ++ f.files) f.sums f.signature := by
  obtain ⟨report, hreport, -⟩ := h.verified
  obtain ⟨-, hplain, -⟩ := verifySite_unsigned.mp hreport
  have hrendered := h.finalized.rendered hplain hunique h.fresh
  refine ⟨(renderSha256sums_ok hrendered).1, nodup_finalized hunique h.fresh, hfree,
    hsha ▸ hrendered, ?_, ?_⟩
  · rw [lookup_final h.fresh (by decide)]
    rfl
  · rw [lookup_final h.fresh (by decide)]
    rfl

/-- What `sign` and then `archive` made is what publishing unpacks: the archive opens to exactly the
    signed site, whose canonical digest is the one `archive` reported. -/
theorem signed_archive_unpacks {reported : Digests} {digest : String}
    (hpublishing : Archives publishing version) (hsha : publishing.sha256 = tools.sha256)
    (hdigest : ∀ content, isDigest (tools.sha256 content) = true)
    (hunique : (w.site.map Prod.fst).Nodup) (hfree : conflicting (w₁.site.map Prod.fst) = false)
    (hsign : Prog.Steps (FileStep tools) w signEvents w₁)
    (hsigned : Prog.Runs (sign tools committed fingerprint expectedFiles) signEvents (.ok reported))
    (harchive : Prog.Steps (FileStep tools) w₁ archiveEvents w₂)
    (harchived : Prog.Runs (archive tools version outputName inside expectedFiles) archiveEvents
    (.ok digest)) (hfits : Ci.Tar.Fits MAX_MEMBERS (memberNames version w₁.site)) :
    ∃ (f : Finalization) (content : Bytes), w₂ = ⟨w.site ++ f.files, some content⟩ ∧
      unpackRelease publishing content version f.sums f.signature = .ok
        (sortKeys (w.site ++ f.files)) ∧
      publishing.canonicalSha (sortKeys (w.site ++ f.files)) = some digest := by
  obtain ⟨f, rfl, hf⟩ := signed_of_run hsign hsigned
  obtain ⟨content, hcontent, rfl, rfl⟩ := archived_of_run harchive harchived
  have hsite := hf.signed hunique hfree hsha
  have hunpacked := hsite.unpacks hpublishing
    (fun content => hsha ▸ hdigest content) hcontent.named hcontent.written hfits
  exact ⟨f, content, rfl, hunpacked.1, hsha ▸ hunpacked.2⟩

end

end

namespace Sample

def signedFiles : Finalization := ⟨[1], [2], signSums, [3]⟩

def signedSite : Site := signSite ++ signedFiles.files

theorem signedSite_names : signedSite.map Prod.fst =
    unsignedNames ++ [BINARY ++ ".asc", "install.sh.asc", "SHA256SUMS", "SHA256SUMS.asc"] := by
  rw [signedSite, List.map_append, signSite_names]
  rfl

theorem signedSite_plain : ∀ file ∈ signedSite, plainPath file.1 = true := by
  refine List.forall_mem_append.mpr ⟨signSite_plain, fun file hfile => ?_⟩
  exact FINALIZE_FILES_plain _ ((names_files signedFiles).mp (List.mem_map_of_mem hfile))

theorem signedSite_short :
    ∀ name ∈ memberNames "1.0.0" signedSite, name.length ≤ Ci.Tar.LENGTH_NAME := by
  have hnames : ∀ path ∈ unsignedNames ++ [BINARY ++ ".asc", "install.sh.asc", "SHA256SUMS",
    "SHA256SUMS.asc"],
      len path ≤ 64 := by decide
  have hversion : len ("1.0.0" ++ "/") + 64 ≤ Ci.Tar.LENGTH_NAME := by decide
  intro name hname
  obtain ⟨file, hfile, rfl⟩ := List.mem_map.mp hname
  have hfile' : len file.1 ≤ 64 := hnames _ (signedSite_names ▸ List.mem_map_of_mem hfile)
  rw [length_utf8, len_append]
  omega

theorem conflicting_chars {paths : List String} (h : ((paths.map String.toList).any fun path =>
    (paths.map String.toList).any fun other => (path ++ ['/']).isPrefixOf other) = false) :
      conflicting paths = false := by
  rw [conflicting, ← h, List.any_map]
  congr 1
  funext path
  rw [Function.comp_apply, List.any_map]
  congr 1
  funext other
  rw [startsWith, String.toList_append]
  rfl

theorem signedSite_free : conflicting (signedSite.map Prod.fst) = false := by
  rw [signedSite_names]
  refine conflicting_chars ?_
  simp only [unsignedNames, Ci.UNLISTED, INSTALLER_SET, SIGN_RECORDS, DERIVED, BINARY,
    List.map_cons, List.map_nil, List.cons_append, List.nil_append, String.reduceAppend,
    String.reduceToList]
  decide

theorem signSums_small : signSums.length < 8 ^ 11 := by
  have hdigest : isDigest digest = true := by decide
  have hlength := signSite_finalized.length_sums (fun _ => hdigest) signSite_unique signSite_fresh
  rw [signSite_names] at hlength
  rw [show signSums.length = _ from hlength]
  decide

theorem signedSite_small : ∀ file ∈ signedSite, file.2.length < 8 ^ 11 := by
  have hone : 1 < 8 ^ 11 := by decide
  refine List.forall_mem_append.mpr ⟨?_, ?_⟩
  · have hchecksums : treeChecksums.length < 8 ^ 11 := by decide
    refine List.forall_mem_map.mpr fun name _ => ?_
    split
    · exact hchecksums
    · exact Nat.zero_lt_of_lt hone
  · simp only [Finalization.files, List.forall_mem_cons]
    exact ⟨hone, hone, signSums_small, hone, by simp⟩

theorem exists_archived :
    ∃ expectedFiles content, SignedAs signTools (.ok "K") "K" signSite expectedFiles signedFiles
      (signedFiles.digests signTools.sha256) ∧
    Archived signTools ⟨signedSite, none⟩ "1.0.0" expectedFiles content := by
  obtain ⟨expectedFiles, hsigned⟩ := signSite_signed
  obtain ⟨report, hreport, hsame⟩ := hsigned.verified
  obtain ⟨content, hcontent⟩ :=
    exists_writeArchive (by decide) signedSite_plain signedSite_short signedSite_small
  have hverified := finalized_accepted hreport hsame signSite_unique signSite_fresh
    signSite_finalized signTools_trusted
  have hnamed : releaseVersion "1.0.0" = true := by decide
  exact ⟨expectedFiles, content, hsigned, ⟨rfl, hnamed, hverified, hcontent⟩⟩

end Sample

open Sample in
theorem archive_atomic_sample : ∃ expectedFiles t w' digest,
    Prog.Runs (archive signTools "1.0.0" "intel-npu-stack-1.0.0.tar" false expectedFiles) t
      (.ok digest) ∧
    ∃ content, Archived signTools ⟨signedSite, none⟩ "1.0.0" expectedFiles content ∧
      w' = (⟨signedSite, some content⟩ : Workspace) ∧ digest = signTools.sha256 content := by
  obtain ⟨expectedFiles, content, -, harchived⟩ := exists_archived
  obtain ⟨t, hrun, hsteps⟩ := reaches_archive harchived rfl
  exact ⟨expectedFiles, t, _, _, hrun, (archive_atomic hsteps).2.1 _ hrun⟩

open Sample in
theorem signed_archive_unpacks_sample : ∃ content,
    unpackRelease packTools content "1.0.0" signSums [3] = .ok (sortKeys signedSite) := by
  have hdigest : isDigest digest = true := by decide
  obtain ⟨expectedFiles, content, hsigned, harchived⟩ := exists_archived
  obtain ⟨t, hrun, hsteps⟩ := @reaches_sign _ _ none _ _ _ _ _ hsigned
  obtain ⟨t', hrun', hsteps'⟩ := reaches_archive harchived rfl
  have hfits : Ci.Tar.Fits MAX_MEMBERS (memberNames "1.0.0" signedSite) :=
    Ci.Tar.fits_of_short signedSite_short
      (by rw [memberNames, List.length_map, ← @List.length_map _ _ _ Prod.fst,
        signedSite_names]; decide)
  obtain ⟨f, content', hw, hunpacked, -⟩ := signed_archive_unpacks packTools_archives rfl
    (fun _ => hdigest) signSite_unique signedSite_free hsteps hrun hsteps' hrun' hfits
  have hfiles : signedFiles.files = f.files := List.append_cancel_left (congrArg Workspace.site hw)
  obtain ⟨-, -, hsums, hsignature⟩ : [1] = f.binary ∧ [2] = f.script ∧ signSums = f.sums ∧
      [3] = f.signature := by
    simpa [Finalization.files, signedFiles] using hfiles
  refine ⟨content', ?_⟩
  rw [signedSite, hfiles, hsums, hsignature, hunpacked]

end NpuStack.Publish
