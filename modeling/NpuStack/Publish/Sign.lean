import NpuStack.Publish.VerifySite
import NpuStack.Schemes.Ensures

/-! `release_site.py sign`: adds the signatures and SHA256SUMS to a verified site.

        unsigned stage ──▶ installer.asc ──▶ install.sh.asc ──▶ SHA256SUMS ──▶ SHA256SUMS.asc ──▶ chmod
                                └──── any failure: what was written is removed ────┘

    It runs against a directory that changes with every step (`FileStep`), and adds exactly four
    files or none (`sign_transaction`). The signed stage then accepts the site
    (`signed_site_verified`). -/

namespace NpuStack.Publish
open Interaction Text
open NpuStack.Packaging (releaseVersion)

/-! ### The directory and the output -/

/-- The site directory, and what stands at the archive's path. -/
structure Workspace where
  site : Site
  output : Option Bytes

/-- How `open(output, 'xb')` ends. -/
inductive Creation where
  | created
  | exists
  | failed
  deriving DecidableEq

inductive FileQuestion where
  | readSite
  /-- `gpg --detach-sign --output`. -/
  | detachSign (data signature : String)
  /-- `verify_detached`. -/
  | verifyDetached (signature data : String)
  /-- `write_new` below the site. -/
  | write (name : String) (content : Bytes)
  | unlink (name : String)
  | chmod (name : String)
  | outputExists
  | create
  | writeOutput (content : Bytes)
  | unlinkOutput
  | readOutput

abbrev FileAnswer : FileQuestion → Type
  | .readSite => Option Site
  | .outputExists => Bool
  | .create => Creation
  | .readOutput => Option Bytes
  | .detachSign _ _ => Bool
  | .verifyDetached _ _ => Bool
  | .write _ _ => Bool
  | .unlink _ => Bool
  | .chmod _ => Bool
  | .writeOutput _ => Bool
  | .unlinkOutput => Bool

/-- A new file in the site directory. -/
def Workspace.add (w : Workspace) (name : String) (content : Bytes) : Workspace :=
  { w with site := w.site ++ [(name, content)] }

def Workspace.remove (w : Workspace) (name : String) : Workspace :=
  { w with site := w.site.filter fun file => file.1 ≠ name }

/-- What a step may do to the workspace: a tool that fails may have left part of its output, and
    never touches a file that is there; nothing else writes in the directory. -/
inductive FileStep (tools : SiteTools) : Workspace → Event FileAnswer → Workspace → Prop
  | readSite (w : Workspace) : FileStep tools w ⟨.readSite, some w.site⟩ w
  | unreadable (w : Workspace) : FileStep tools w ⟨.readSite, none⟩ w
  | signed (w : Workspace) {data signature : String} {content : Bytes}
      (hfresh : signature ∉ w.site.map Prod.fst) :
      FileStep tools w ⟨.detachSign data signature, true⟩ (w.add signature content)
  | signFailed (w : Workspace) (data signature : String) : FileStep tools w
      ⟨.detachSign data signature, false⟩ w
  | signPartly (w : Workspace) {data signature : String} {content : Bytes}
      (hfresh : signature ∉ w.site.map Prod.fst) :
      FileStep tools w ⟨.detachSign data signature, false⟩ (w.add signature content)
  | verified (w : Workspace) {signature data : String} {s d : Bytes}
      (hsignature : w.site.lookup signature = some s)
      (hdata : w.site.lookup data = some d) (hverified : tools.verifyDetached s d = true) :
      FileStep tools w ⟨.verifyDetached signature data, true⟩ w
  | unverified (w : Workspace) (signature data : String) : FileStep tools w
      ⟨.verifyDetached signature data, false⟩ w
  | wrote (w : Workspace) {name : String} (content : Bytes) (hfresh : name ∉ w.site.map Prod.fst) :
      FileStep tools w ⟨.write name content, true⟩ (w.add name content)
  | writeFailed (w : Workspace) (name : String) (content : Bytes) : FileStep tools w
      ⟨.write name content, false⟩ w
  | wrotePartly (w : Workspace) {name : String} (content written : Bytes)
      (hfresh : name ∉ w.site.map Prod.fst) :
      FileStep tools w ⟨.write name content, false⟩ (w.add name written)
  | unlinked (w : Workspace) (name : String) : FileStep tools w ⟨.unlink name, true⟩ (w.remove name)
  | unlinkFailed (w : Workspace) (name : String) : FileStep tools w ⟨.unlink name, false⟩ w
  | chmod (w : Workspace) (name : String) (ok : Bool) : FileStep tools w ⟨.chmod name, ok⟩ w
  | outputExists (w : Workspace) : FileStep tools w ⟨.outputExists, w.output.isSome⟩ w
  | created (w : Workspace) (hnone : w.output = none) : FileStep tools w ⟨.create, .created⟩
      { w with output := some [] }
  | taken (w : Workspace) (hsome : w.output ≠ none) : FileStep tools w ⟨.create, .exists⟩ w
  /-- Another process has made the file since it was looked for. -/
  | raced (w : Workspace) (other : Bytes) (hnone : w.output = none) :
      FileStep tools w ⟨.create, .exists⟩ { w with output := some other }
  | createFailed (w : Workspace) : FileStep tools w ⟨.create, .failed⟩ w
  | wroteOutput (w : Workspace) (content : Bytes) :
      FileStep tools w ⟨.writeOutput content, true⟩ { w with output := some content }
  | wroteOutputPartly (w : Workspace) (content written : Bytes) :
      FileStep tools w ⟨.writeOutput content, false⟩ { w with output := some written }
  | unlinkedOutput (w : Workspace) : FileStep tools w ⟨.unlinkOutput, true⟩
      { w with output := none }
  | unlinkOutputFailed (w : Workspace) : FileStep tools w ⟨.unlinkOutput, false⟩ w
  | readOutput (w : Workspace) {content : Bytes} (hsome : w.output = some content) :
      FileStep tools w ⟨.readOutput, some content⟩ w
  | outputUnreadable (w : Workspace) : FileStep tools w ⟨.readOutput, none⟩ w

/-! ### Signing -/

abbrev Signing (ε α : Type) : Type := Prog FileAnswer ε α

def readSite : Signing String Site :=
  Prog.expect .readSite fun site => need site "the site cannot be read"

/-- `detach_sign`, the size of what it made, and `verify_detached`. -/
def signOne (data : String) : Signing String Unit := do
  Prog.expect (.detachSign data (data ++ ".asc")) fun ok => require (ok = true) "gpg failed"
  let site ← readSite
  liftM (checkSignatureSize site (data ++ ".asc"))
  Prog.expect (.verifyDetached (data ++ ".asc") data) fun ok => require (ok = true)
    "the signature was not verified"

def writeSums (sha256 : Bytes → String) : Signing String Unit := do
  let site ← readSite
  let sums ← liftM (renderSha256sums sha256 site)
  Prog.expect (.write "SHA256SUMS" sums) fun ok => require (ok = true) "SHA256SUMS was not written"

/-- The body of the `try`: a failure comes with the files that are on the list of written ones. -/
def signFiles (sha256 : Bytes → String) : Signing (List String × String) Unit := do
  (signOne BINARY).mapError (Prod.mk [BINARY ++ ".asc"])
  (signOne "install.sh").mapError (Prod.mk [BINARY ++ ".asc", "install.sh.asc"])
  (writeSums sha256).mapError (Prod.mk [BINARY ++ ".asc", "install.sh.asc", "SHA256SUMS"])
  (signOne "SHA256SUMS").mapError
    (Prod.mk [BINARY ++ ".asc", "install.sh.asc", "SHA256SUMS", "SHA256SUMS.asc"])

def removeAll (written : List String) : Signing String Unit :=
  forM written fun name => Prog.expect (.unlink name) fun ok => require (ok = true)
    "a file was not removed"

section
variable (tools : SiteTools)

/-- `sign`: the digests of the four files. `committed` is `check_committed`'s fingerprint. -/
def sign (committed : Except String String) (fingerprint : String) (expectedFiles : Digests) :
    Signing String Digests := do
  let site ← readSite
  liftM (require (∀ name ∈ FINALIZE_FILES, name ∉ site.map Prod.fst) "the site is already signed" :
    Except String Unit)
  let primary ← liftM committed
  liftM (require (fingerprint = primary)
    "the signing fingerprint is not the committed PRIMARY_FINGERPRINT" : Except String Unit)
  let site ← readSite
  let report ← liftM (verifySite tools .unsigned none site)
  liftM (require (sameEntries report expectedFiles = true)
    "the site is not the verified unsigned site" : Except String Unit)
  let result ← (signFiles tools.sha256).attempt
  match result with
  | .error (written, failure) => do
    removeAll written
    Prog.fail failure
  | .ok () => do
    forM FINALIZE_FILES fun name => Prog.expect (.chmod name) fun ok => require (ok = true)
      "a mode was not set"
    let site ← readSite
    liftM (digestsOf tools site FINALIZE_FILES)

end

/-! ### What signing does to the site -/

section
variable {tools : SiteTools} {Step : Workspace → Event FileAnswer → Workspace → Prop}
  {J : Workspace → Prop} {base : Site} {out : Option Bytes}

theorem ensures_readSite_bind (hstep : ∀ w e w', Step w e w' → FileStep tools w e w') {α : Type}
    {f : Site → Signing String α} {P : Except String α → Workspace → Prop}
    {w : Workspace} (hJ : J w) (hok : (f w.site).Ensures Step J w P)
    (herror : ∀ e, P (.error e) w) : (readSite >>= f).Ensures Step J w P := by
  refine Prog.ensures_bind (Prog.ensures_expect fun a w' h => ?_)
  cases hstep _ _ _ h with
  | readSite =>
    refine ⟨hJ, fun site hsite => ?_, fun _ _ => herror _⟩
    cases hsite
    exact hok
  | unreadable =>
    refine ⟨hJ, fun site hsite => ?_, fun _ _ => herror _⟩
    cases hsite

/-- Signing a file adds its signature, which is small and verifies it; a failure may have left a
    file in its place. -/
theorem ensures_signOne (hstep : ∀ w e w', Step w e w' → FileStep tools w e w') {data : String}
    (hfresh : data ++ ".asc" ∉ base.map Prod.fst) (hJ : J ⟨base, out⟩)
    (hadded : ∀ content, J ⟨base ++ [(data ++ ".asc", content)], out⟩) :
    (signOne data).Ensures Step J ⟨base, out⟩ fun r w =>
      (r = .ok () → ∃ signature, w = ⟨base ++ [(data ++ ".asc", signature)], out⟩ ∧
        Verifies tools base data signature) ∧
      ∀ e, r = .error e → w = ⟨base, out⟩ ∨ ∃ partly,
        w = ⟨base ++ [(data ++ ".asc", partly)], out⟩ := by
  have hother : data ≠ data ++ ".asc" := by
    intro heq
    have hlen := congrArg String.length heq
    rw [String.length_append] at hlen
    exact absurd hlen (by simp)
  rw [signOne]
  refine Prog.ensures_bind (Prog.ensures_expect fun ok w h => ?_)
  cases hstep _ _ _ h with
  | signFailed =>
    exact ⟨hJ, fun _ habs => absurd habs Prog.refused_ne_ok, fun _ _ => Prog.of_error (.inl rfl)⟩
  | signPartly =>
    exact ⟨hadded _, fun _ habs => absurd habs Prog.refused_ne_ok, fun _ _ =>
      Prog.of_error (.inr ⟨_, rfl⟩)⟩
  | @signed _ _ content _ =>
    refine ⟨hadded content, fun _ _ => ?_, fun _ habs => absurd habs Prog.admitted_ne_error⟩
    refine ensures_readSite_bind hstep (hadded content) ?_ fun _ => Prog.of_error (.inr ⟨_, rfl⟩)
    · refine Prog.ensures_lift_bind (fun _ hsmall => ?_) fun _ _ => Prog.of_error (.inr ⟨_, rfl⟩)
      simp only [checkSignatureSize, except_bind_ok, need_ok, require_ok] at hsmall
      obtain ⟨found, hfound, hsmall⟩ := hsmall
      have hsame :
          (base ++ [(data ++ ".asc", content)]).lookup (data ++ ".asc") = some content := by
        rw [lookup_added hfresh, if_pos rfl]
      obtain rfl := Option.some.inj (hfound.symm.trans hsame)
      refine Prog.ensures_expect fun ok w h => ?_
      cases hstep _ _ _ h with
      | unverified =>
        exact ⟨hadded _, fun habs => absurd habs Prog.refused_ne_ok, fun _ _ => .inr ⟨_, rfl⟩⟩
      | verified hsignature hdata hverified =>
        obtain rfl := Option.some.inj (hsignature.symm.trans hsame)
        have hbase := hdata
        rw [show (Workspace.add ⟨base, out⟩ (data ++ ".asc") _).site = base ++
          [(data ++ ".asc", _)] from rfl, lookup_added hfresh, if_neg hother] at hbase
        exact ⟨hadded _, fun _ => ⟨_, rfl, _, hbase, hsmall, hverified⟩, fun _ _ => .inr ⟨_, rfl⟩⟩

theorem ensures_writeSums (hstep : ∀ w e w', Step w e w' → FileStep tools w e w')
    (hJ : J ⟨base, out⟩)
    (hadded : ∀ content, J ⟨base ++ [("SHA256SUMS", content)], out⟩) (sha256 : Bytes → String) :
    (writeSums sha256).Ensures Step J ⟨base, out⟩ fun r w =>
      (r = .ok () → ∃ sums, w = ⟨base ++ [("SHA256SUMS", sums)], out⟩ ∧
        renderSha256sums sha256 base = .ok sums) ∧
      ∀ e, r = .error e → w = ⟨base, out⟩ ∨ ∃ partly,
        w = ⟨base ++ [("SHA256SUMS", partly)], out⟩ := by
  rw [writeSums]
  refine ensures_readSite_bind hstep hJ ?_ fun _ => Prog.of_error (.inl rfl)
  refine Prog.ensures_lift_bind (fun sums hsums => ?_) fun _ _ => Prog.of_error (.inl rfl)
  refine Prog.ensures_expect fun ok w h => ?_
  cases hstep _ _ _ h with
  | writeFailed => exact ⟨hJ, fun habs => absurd habs Prog.refused_ne_ok, fun _ _ => .inl rfl⟩
  | wrotePartly =>
    exact ⟨hadded _, fun habs => absurd habs Prog.refused_ne_ok, fun _ _ => .inr ⟨_, rfl⟩⟩
  | wrote => exact ⟨hadded _, fun _ => ⟨sums, rfl, hsums⟩, fun _ _ => .inr ⟨_, rfl⟩⟩

end

section
variable {tools : SiteTools} {Step : Workspace → Event FileAnswer → Workspace → Prop} {start : Site}
  {out : Option Bytes}

/-- Files of the four stand behind those of the start, and nothing else has changed. -/
def Behind (start : Site) (out : Option Bytes) (w : Workspace) : Prop :=
  ∃ extra : Site, w = ⟨start ++ extra, out⟩ ∧ ∀ file ∈ extra, file.1 ∈ FINALIZE_FILES

/-- The files that signing added are on the list it fails with. -/
def OnList (start : Site) (out : Option Bytes) (written : List String) (w : Workspace) : Prop :=
  ∃ extra : Site, w = ⟨start ++ extra, out⟩ ∧ ∀ file ∈ extra, file.1 ∈ written

/-- A stage that adds one file: where it fails, its own file or none stands behind those of the
    stages before. -/
def Adds (Step : Workspace → Event FileAnswer → Workspace → Prop) (start : Site)
    (out : Option Bytes) (done : Site) (name : String) (Fits : Bytes → Prop)
    (p : Signing String Unit) : Prop :=
  p.Ensures Step (Behind start out) ⟨start ++ done, out⟩ fun r w =>
    (r = .ok () → ∃ content, w = ⟨start ++ (done ++ [(name, content)]), out⟩ ∧ Fits content) ∧
    ∀ e, r = .error e → w = ⟨start ++ done, out⟩ ∨ ∃ partly,
      w = ⟨start ++ (done ++ [(name, partly)]), out⟩

theorem ensures_stage {done : Site} {name : String} {written : List String} {Fits : Bytes → Prop}
    {p : Signing String Unit} {P : Except (List String × String) Unit → Workspace → Prop}
    (h : Adds Step start out done name Fits p)
    (hok : ∀ content, Fits content → P (.ok ()) ⟨start ++ (done ++ [(name, content)]), out⟩)
    (herror : ∀ e w, OnList start out written w → P (.error (written, e)) w)
    (hdone : ∀ file ∈ done, file.1 ∈ written) (hname : name ∈ written) :
    (p.mapError (Prod.mk written)).Ensures Step (Behind start out) ⟨start ++ done, out⟩ P := by
  refine Prog.ensures_mapError (h.mono fun r w hr => ?_)
  cases r with
  | ok u =>
    obtain ⟨content, rfl, hfits⟩ := hr.1 rfl
    exact hok content hfits
  | error e =>
    refine herror e w ?_
    rcases hr.2 e rfl with rfl | ⟨partly, rfl⟩
    · exact ⟨done, rfl, hdone⟩
    · refine ⟨done ++ [(name, partly)], rfl, fun file hfile => ?_⟩
      rcases List.mem_append.mp hfile with hfile | hfile
      · exact hdone file hfile
      · rwa [List.mem_singleton.mp hfile]

theorem ensures_stage_bind {done : Site} {name : String} {written : List String}
    {Fits : Bytes → Prop}
    {p : Signing String Unit} {rest : Unit → Signing (List String × String) Unit}
    {P : Except (List String × String) Unit → Workspace → Prop}
    (h : Adds Step start out done name Fits p) (hok : ∀ content, Fits content →
      (rest ()).Ensures Step (Behind start out) ⟨start ++ (done ++ [(name, content)]), out⟩ P)
    (herror : ∀ e w, OnList start out written w → P (.error (written, e)) w)
    (hdone : ∀ file ∈ done, file.1 ∈ written) (hname : name ∈ written) :
    (p.mapError (Prod.mk written) >>= rest).Ensures Step (Behind start out)
      ⟨start ++ done, out⟩ P := by
  refine Prog.ensures_bind
    (ensures_stage h (fun content hfits => ⟨fun _ _ => hok content hfits, fun _ habs => ?_⟩)
    (fun e w hw => ⟨fun _ habs => ?_, fun _ heq => ?_⟩) hdone hname)
  · cases habs
  · cases habs
  · cases heq
    exact herror e w hw

theorem adds_signOne (hstep : ∀ w e w', Step w e w' → FileStep tools w e w') {done : Site}
    {data name : String} (hasc : data ++ ".asc" = name)
    (hdone : ∀ file ∈ done, file.1 ∈ FINALIZE_FILES) (hname : name ∈ FINALIZE_FILES)
    (hfresh : name ∉ (start ++ done).map Prod.fst) :
    Adds Step start out done name (Verifies tools (start ++ done) data) (signOne data) := by
  subst hasc
  have hbehind : ∀ content, Behind start out
      ⟨start ++ done ++ [(data ++ ".asc", content)], out⟩ := by
    refine fun content => ⟨done ++ [(data ++ ".asc", content)], by rw [List.append_assoc],
      fun file hfile => ?_⟩
    rcases List.mem_append.mp hfile with hfile | hfile
    · exact hdone file hfile
    · rwa [List.mem_singleton.mp hfile]
  refine (ensures_signOne hstep hfresh ⟨done, rfl, hdone⟩ hbehind).mono fun r w h => ?_
  simp only [List.append_assoc] at h
  exact h

theorem adds_writeSums (hstep : ∀ w e w', Step w e w' → FileStep tools w e w') {done : Site}
    (hdone : ∀ file ∈ done, file.1 ∈ FINALIZE_FILES) :
    Adds Step start out done "SHA256SUMS" (fun sums => renderSha256sums tools.sha256
      (start ++ done) = .ok sums) (writeSums tools.sha256) := by
  have hbehind : ∀ content, Behind start out ⟨start ++ done ++ [("SHA256SUMS", content)], out⟩ := by
    refine fun content => ⟨done ++ [("SHA256SUMS", content)], by rw [List.append_assoc],
      fun file hfile => ?_⟩
    rcases List.mem_append.mp hfile with hfile | hfile
    · exact hdone file hfile
    · rw [List.mem_singleton.mp hfile]
      exact List.mem_cons_self
  refine (ensures_writeSums hstep ⟨done, rfl, hdone⟩ hbehind tools.sha256).mono fun r w h => ?_
  simp only [List.append_assoc] at h
  exact h

theorem ensures_signFiles (hstep : ∀ w e w', Step w e w' → FileStep tools w e w')
    (hfresh : ∀ name ∈ FINALIZE_FILES, name ∉ start.map Prod.fst) :
    (signFiles tools.sha256).Ensures Step (Behind start out) ⟨start, out⟩ fun r w =>
      (r = .ok () → ∃ f : Finalization, w = ⟨start ++ f.files, out⟩ ∧ Finalized tools start f) ∧
      ∀ written e, r = .error (written, e) → written ⊆ FINALIZE_FILES ∧
        OnList start out written w := by
  have hfailed : ∀ {written : List String} {e : String} {w : Workspace}, written ⊆ FINALIZE_FILES →
      OnList start out written w →
      ((Except.error (written, e) : Except (List String × String) Unit) = .ok () →
        ∃ f : Finalization, w = ⟨start ++ f.files, out⟩ ∧ Finalized tools start f) ∧
      ∀ written' e', (Except.error (written, e) : Except (List String × String) Unit) = .error
        (written', e') → written' ⊆ FINALIZE_FILES ∧ OnList start out written' w := by
    intro written e w hsub hlist
    refine ⟨fun habs => absurd habs Prog.error_ne_ok, fun written' e' heq => ?_⟩
    cases heq
    exact ⟨hsub, hlist⟩
  have hfinal : ∀ name ∈ [BINARY ++ ".asc", "install.sh.asc", "SHA256SUMS", "SHA256SUMS.asc"],
      name ∈ FINALIZE_FILES := by
    decide
  have hlast : "SHA256SUMS.asc" ∉ [BINARY ++ ".asc", "install.sh.asc", "SHA256SUMS"] := by decide
  have hfirst : Adds Step start out [] (BINARY ++ ".asc") _ (signOne BINARY) :=
    adds_signOne hstep rfl (by simp) (by decide) (fresh_behind hfresh (by decide) (by simp))
  have hsecond : ∀ binary, Adds Step start out [(BINARY ++ ".asc", binary)] "install.sh.asc" _
      (signOne "install.sh") :=
    fun binary => adds_signOne hstep (by decide)
      (List.forall_mem_singleton.mpr (hfinal _ (by simp))) (by decide)
      (fresh_behind hfresh (by decide) (show "install.sh.asc" ∉ [BINARY ++ ".asc"] by decide))
  have hthird : ∀ binary script, Adds Step start out [(BINARY ++ ".asc", binary),
    ("install.sh.asc", script)] "SHA256SUMS"
      (fun sums => renderSha256sums tools.sha256
        (start ++ [(BINARY ++ ".asc", binary), ("install.sh.asc", script)]) =
        .ok sums) (writeSums tools.sha256) := by
    intro binary script
    refine adds_writeSums hstep fun file hfile => hfinal file.1 ?_
    exact List.mem_append_left ["SHA256SUMS", "SHA256SUMS.asc"]
      (List.mem_map_of_mem (f := Prod.fst) hfile)
  have hfourth : ∀ binary script sums, Adds Step start out
      [(BINARY ++ ".asc", binary), ("install.sh.asc", script), ("SHA256SUMS", sums)]
        "SHA256SUMS.asc"
      (Verifies tools (start ++ [(BINARY ++ ".asc", binary), ("install.sh.asc", script),
        ("SHA256SUMS", sums)]) "SHA256SUMS")
      (signOne "SHA256SUMS") := by
    intro binary script sums
    refine adds_signOne hstep (by decide) (fun file hfile => hfinal file.1 ?_) (by decide)
      (fresh_behind hfresh (by decide) hlast)
    exact List.mem_append_left ["SHA256SUMS.asc"] (List.mem_map_of_mem (f := Prod.fst) hfile)
  have hrun : (signFiles tools.sha256).Ensures Step (Behind start out) ⟨start ++ [], out⟩ fun r w =>
      (r = .ok () → ∃ f : Finalization, w = ⟨start ++ f.files, out⟩ ∧ Finalized tools start f) ∧
      ∀ written e, r = .error (written, e) → written ⊆ FINALIZE_FILES ∧
        OnList start out written w := by
    rw [signFiles]
    refine ensures_stage_bind hfirst ?_ (fun e w hw => hfailed (by decide) hw) (by simp) (by simp)
    intro binary hbinary
    refine ensures_stage_bind (hsecond binary) ?_ (fun e w hw => hfailed (by decide) hw)
      (by simp) (by simp)
    intro script hscript
    refine ensures_stage_bind (hthird binary script) ?_ (fun e w hw => hfailed (by decide) hw)
      (by simp) (by simp)
    intro sums hsums
    refine ensures_stage (hfourth binary script sums) ?_ (fun e w hw => hfailed (by decide) hw)
      (by simp) (by simp)
    intro signature hsignature
    refine ⟨fun _ => ⟨⟨binary, script, sums, signature⟩, rfl, ?_⟩, fun _ _ habs =>
      absurd habs.symm Prog.error_ne_ok⟩
    refine ⟨hbinary.of_lookup (lookup_behind ?_), hscript.of_lookup (lookup_behind ?_), hsums,
      hsignature.of_lookup ?_⟩
    · exact List.not_mem_nil
    · exact show "install.sh" ∉ [BINARY ++ ".asc"] by decide
    · exact lookup_sums hfresh ⟨binary, script, sums, signature⟩
  rwa [List.append_nil] at hrun

end

/-- The digests of the four files, in the order of their names. -/
def Finalization.digests (sha256 : Bytes → String) (f : Finalization) : Digests :=
  [("SHA256SUMS", sha256 f.sums), ("SHA256SUMS.asc", sha256 f.signature),
    (BINARY ++ ".asc", sha256 f.binary), ("install.sh.asc", sha256 f.script)]

/-- What a successful `sign` did: it signed the site that the unsigned stage accepts with the
    digests it was given, and reports the digests of the four files. -/
structure SignedAs (tools : SiteTools) (committed : Except String String) (fingerprint : String)
    (start : Site) (expectedFiles : Digests) (f : Finalization) (reported : Digests) : Prop where
  committed : committed = .ok fingerprint
  verified : ∃ report, verifySite tools .unsigned none start = .ok report ∧
    sameEntries report expectedFiles = true
  fresh : ∀ name ∈ FINALIZE_FILES, name ∉ start.map Prod.fst
  finalized : Finalized tools start f
  reported : reported = f.digests tools.sha256

section
variable {tools : SiteTools} {Step : Workspace → Event FileAnswer → Workspace → Prop} {start : Site}
  {out : Option Bytes} {Granted : Prop}

/-- The clean-up leaves what is not on the list; it stops at the first file that cannot be
    removed. -/
theorem ensures_removeAll (hstep : ∀ w e w', Step w e w' → FileStep tools w e w')
    (hgranted : Granted → ∀ w name w', ¬Step w ⟨.unlink name, false⟩ w') {written : List String}
    {extra : Site} (hfresh : ∀ name ∈ written, name ∉ start.map Prod.fst) (hextra : ∀ file ∈ extra,
    file.1 ∈ FINALIZE_FILES) :
    (removeAll written).Ensures Step (Behind start out) ⟨start ++ extra, out⟩ fun r w =>
      (r = .ok () → w = ⟨start ++ extra.filter (·.1 ∉ written), out⟩) ∧
        (Granted → ∀ e, r ≠ .error e) := by
  have hbehind : ∀ keep : String × Bytes → Bool, Behind start out
      ⟨start ++ extra.filter keep, out⟩ :=
    fun keep => ⟨_, rfl, fun file hfile => hextra file (List.mem_of_mem_filter hfile)⟩
  refine Prog.ensures_forM (fun seen w => w = ⟨start ++ extra.filter (·.1 ∉ seen), out⟩)
    (by simp) ?_ fun w hw => ?_
  · rintro seen name rest w hwritten rfl
    have hname : name ∈ written := by simp [hwritten]
    refine Prog.ensures_expect fun ok w' h => ?_
    cases ok with
    | false =>
      cases hstep _ _ _ h with
      | unlinkFailed =>
        refine ⟨hbehind _, fun habs => absurd habs Prog.refused_ne_ok, fun e _ =>
          ⟨fun habs => absurd habs Prog.error_ne_ok, ?_⟩⟩
        exact fun hg => absurd h (hgranted hg _ _ _)
    | true =>
      cases hstep _ _ _ h with
      | unlinked =>
        have hremoved : Workspace.remove ⟨start ++ extra.filter (·.1 ∉ seen), out⟩ name =
            ⟨start ++ extra.filter (·.1 ∉ seen ++ [name]), out⟩ := by
          have hstart : start.filter (·.1 ≠ name) = start := by
            refine List.filter_eq_self.mpr fun file hfile => decide_eq_true ?_
            rintro rfl
            exact hfresh _ hname (List.mem_map_of_mem hfile)
          rw [Workspace.remove, List.filter_append, hstart, List.filter_filter]
          congr 2
          refine List.filter_congr fun file _ => ?_
          simp [and_comm]
        rw [hremoved]
        exact ⟨hbehind _, fun _ => rfl, fun _ habs => absurd habs Prog.admitted_ne_error⟩
  · exact ⟨fun _ => hw, fun _ _ => Prog.error_ne_ok.symm⟩

theorem digestsOf_finalized (hfresh : ∀ name ∈ FINALIZE_FILES, name ∉ start.map Prod.fst)
    (f : Finalization) :
    digestsOf tools (start ++ f.files) FINALIZE_FILES = .ok (f.digests tools.sha256) := by
  have hdigest : ∀ (name : String) (content : Bytes), name ∈ FINALIZE_FILES →
    f.files.lookup name = some content →
      (do let content ← need ((start ++ f.files).lookup name) malformed
          return (name, tools.sha256 content) : Except String (String × String)) = .ok
            (name, tools.sha256 content) := by
    intro name content hname hcontent
    rw [lookup_final hfresh hname, hcontent]
    rfl
  simp only [digestsOf, FINALIZE_FILES, List.mapM_cons, List.mapM_nil]
  rw [hdigest "SHA256SUMS" f.sums (by decide) rfl, hdigest "SHA256SUMS.asc" f.signature
    (by decide) rfl, hdigest (BINARY ++ ".asc") f.binary (by decide) rfl,
    hdigest "install.sh.asc" f.script (by decide) rfl]
  rfl

variable (Step Granted) in
theorem ensures_sign (hstep : ∀ w e w', Step w e w' → FileStep tools w e w')
    (hgranted : Granted → ∀ w name w', ¬Step w ⟨.unlink name, false⟩ w')
    {committed : Except String String} {fingerprint : String} {expectedFiles : Digests} :
    (sign tools committed fingerprint expectedFiles).Ensures Step (Behind start out)
      ⟨start, out⟩ fun r w =>
      (∀ reported, r = .ok reported → ∃ f : Finalization,
        w = ⟨start ++ f.files, out⟩ ∧
          SignedAs tools committed fingerprint start expectedFiles f reported) ∧
      (Granted → ∀ e, r = .error e → w = ⟨start, out⟩ ∨
        ∃ f : Finalization, w = ⟨start ++ f.files, out⟩ ∧ Finalized tools start f) := by
  have hstart : Behind start out ⟨start, out⟩ := ⟨[], by simp, by simp⟩
  have hfinal : ∀ f : Finalization, Behind start out ⟨start ++ f.files, out⟩ := by
    refine fun f => ⟨f.files, rfl, fun file hfile => ?_⟩
    exact (show ∀ name ∈ [BINARY ++ ".asc", "install.sh.asc", "SHA256SUMS", "SHA256SUMS.asc"],
        name ∈ FINALIZE_FILES by
      decide) file.1 (List.mem_map_of_mem (f := Prod.fst) hfile)
  -- every failure before the `try` leaves the workspace as it was
  have hbefore : ∀ e : String,
    (∀ reported, (Except.error e : Except String Digests) = .ok reported →
        ∃ f : Finalization, (⟨start, out⟩ : Workspace) = ⟨start ++ f.files, out⟩ ∧
          SignedAs tools committed fingerprint start expectedFiles f reported) ∧
      (Granted → ∀ e', (Except.error e : Except String Digests) = .error e' →
        (⟨start, out⟩ : Workspace) = ⟨start, out⟩ ∨ ∃ f : Finalization, (⟨start, out⟩ : Workspace) =
        ⟨start ++ f.files, out⟩ ∧ Finalized tools start f) :=
    fun e => ⟨fun _ habs => absurd habs Prog.error_ne_ok, fun _ _ _ => .inl rfl⟩
  rw [sign]
  refine ensures_readSite_bind hstep hstart ?_ hbefore
  refine Prog.ensures_lift_bind (fun _ hfresh => ?_) fun e _ => hbefore e
  rw [require_ok] at hfresh
  refine Prog.ensures_lift_bind (fun primary hprimary => ?_) fun e _ => hbefore e
  refine Prog.ensures_lift_bind (fun _ hfingerprint => ?_) fun e _ => hbefore e
  rw [require_ok] at hfingerprint
  subst hfingerprint
  refine ensures_readSite_bind hstep hstart ?_ hbefore
  refine Prog.ensures_lift_bind (fun report hreport => ?_) fun e _ => hbefore e
  refine Prog.ensures_lift_bind (fun _ hsame => ?_) fun e _ => hbefore e
  rw [require_ok] at hsame
  refine Prog.ensures_bind
    (Prog.ensures_attempt ((ensures_signFiles hstep hfresh).mono fun r w h => ?_))
  refine ⟨fun result hresult => ?_, fun _ habs => absurd habs.symm Prog.error_ne_ok⟩
  obtain rfl := Except.ok.inj hresult
  rcases r with ⟨written, failure⟩ | u
  · -- the clean-up removes what the list names, which holds all that was written
    obtain ⟨hsub, extra, rfl, hlist⟩ := h.2 written failure rfl
    have hnone : extra.filter (·.1 ∉ written) = [] :=
      List.filter_eq_nil_iff.mpr fun file hfile => by simpa using hlist file hfile
    refine Prog.ensures_bind
      ((ensures_removeAll hstep hgranted (fun name hname => hfresh name (hsub hname))
      fun file hfile => hsub (hlist file hfile)).mono fun r w hr =>
        ⟨fun _ hr' => ?_, fun e he => ?_⟩)
    · obtain rfl := hr.1 hr'
      rw [hnone, List.append_nil]
      exact hbefore failure
    · exact ⟨fun _ habs => absurd habs Prog.error_ne_ok, fun hg => absurd he (hr.2 hg e)⟩
  · obtain ⟨f, rfl, hfinalized⟩ := h.1 rfl
    have hafter : ∀ e : String,
      (∀ reported, (Except.error e : Except String Digests) = .ok reported →
          ∃ f' : Finalization, (⟨start ++ f.files, out⟩ : Workspace) = ⟨start ++ f'.files, out⟩ ∧
            SignedAs tools committed fingerprint start expectedFiles f' reported) ∧
        (Granted → ∀ e', (Except.error e : Except String Digests) = .error e' →
          (⟨start ++ f.files, out⟩ : Workspace) = ⟨start, out⟩ ∨
          ∃ f' : Finalization, (⟨start ++ f.files, out⟩ : Workspace) = ⟨start ++ f'.files, out⟩ ∧
            Finalized tools start f') :=
      fun e => ⟨fun _ habs => absurd habs Prog.error_ne_ok, fun _ _ _ => .inr ⟨f, rfl, hfinalized⟩⟩
    refine Prog.ensures_bind
      (Prog.ensures_forM (fun _ w => w = ⟨start ++ f.files, out⟩) rfl ?_ fun w hw => ?_)
    · rintro _ name _ w _ rfl
      refine Prog.ensures_expect fun ok w' h => ?_
      cases hstep _ _ _ h with
      | chmod =>
        exact ⟨hfinal f, fun _ => rfl, fun e _ => ⟨fun _ habs => absurd habs Prog.error_ne_ok,
          fun e' heq => by cases heq; exact hafter e⟩⟩
    · subst hw
      refine ⟨fun _ _ => ?_, fun _ habs => absurd habs.symm Prog.error_ne_ok⟩
      refine ensures_readSite_bind hstep (hfinal f)
        (Prog.ensures_lift ⟨fun reported hreported => ?_, fun _ _ _ => ?_⟩) hafter
      · exact ⟨f, rfl, hprimary, ⟨report, hreport, hsame⟩, hfresh, hfinalized,
          Except.ok.inj (hreported.symm.trans (digestsOf_finalized hfresh f))⟩
      · exact .inr ⟨f, rfl, hfinalized⟩

end

/-! ### When signing succeeds -/

section
variable {tools : SiteTools} {base start : Site} {out : Option Bytes}

theorem reaches_readSite_bind {α : Type} {f : Site → Signing String α} {w w' : Workspace}
    {r : Except String α} (hf : (f w.site).Reaches (FileStep tools) w r w') :
    (readSite >>= f).Reaches (FileStep tools) w r w' :=
  Prog.reaches_expect_bind (.readSite w) rfl hf

theorem reaches_signOne {data : String} {signature : Bytes}
    (hfresh : data ++ ".asc" ∉ base.map Prod.fst) (h : Verifies tools base data signature) :
    (signOne data).Reaches (FileStep tools) ⟨base, out⟩ (.ok ())
      ⟨base ++ [(data ++ ".asc", signature)], out⟩ := by
  obtain ⟨content, hcontent, hsmall, hverified⟩ := h
  have hsame : (base ++ [(data ++ ".asc", signature)]).lookup
      (data ++ ".asc") = some signature := by
    rw [lookup_added hfresh, if_pos rfl]
  have hdata : (base ++ [(data ++ ".asc", signature)]).lookup data = some content := by
    rw [List.lookup_append, hcontent, Option.some_or]
  rw [signOne]
  refine Prog.reaches_expect_bind (@FileStep.signed _ _ data _ signature hfresh) rfl
    (reaches_readSite_bind ?_)
  refine Prog.reaches_lift_bind (a := ()) ?_
    (Prog.reaches_expect (.verified _ hsame hdata hverified) rfl)
  have hlookup : (Workspace.add ⟨base, out⟩ (data ++ ".asc") signature).site.lookup
    (data ++ ".asc") = some signature := hsame
  simp only [checkSignatureSize, except_bind_ok, need_ok, require_ok]
  exact ⟨signature, hlookup, hsmall⟩

theorem reaches_writeSums {sums : Bytes} (hfresh : "SHA256SUMS" ∉ base.map Prod.fst)
    (h : renderSha256sums tools.sha256 base = .ok sums) :
    (writeSums tools.sha256).Reaches (FileStep tools) ⟨base, out⟩ (.ok ())
      ⟨base ++ [("SHA256SUMS", sums)], out⟩ := by
  rw [writeSums]
  exact reaches_readSite_bind
    (Prog.reaches_lift_bind h (Prog.reaches_expect (.wrote _ sums hfresh) rfl))

theorem reaches_signFiles {f : Finalization} (hfresh : ∀ name ∈ FINALIZE_FILES,
    name ∉ start.map Prod.fst) (h : Finalized tools start f) : (signFiles tools.sha256).Reaches
    (FileStep tools) ⟨start, out⟩ (.ok ()) ⟨start ++ f.files, out⟩ := by
  have hlast : "SHA256SUMS.asc" ∉ [BINARY ++ ".asc", "install.sh.asc", "SHA256SUMS"] := by decide
  have hbinary : (signOne BINARY).Reaches (FileStep tools) ⟨start, out⟩ (.ok ())
      ⟨start ++ [(BINARY ++ ".asc", f.binary)], out⟩ :=
        reaches_signOne (hfresh _ (by decide)) h.binary
  have hscript : (signOne "install.sh").Reaches (FileStep tools)
    ⟨start ++ [(BINARY ++ ".asc", f.binary)], out⟩ (.ok ())
      ⟨start ++ [(BINARY ++ ".asc", f.binary)] ++ [("install.sh.asc", f.script)], out⟩ :=
    reaches_signOne (fresh_behind hfresh (by decide) (show "install.sh.asc" ∉ [BINARY ++ ".asc"] by
        decide))
      (h.script.of_lookup (lookup_behind (show "install.sh" ∉ [BINARY ++ ".asc"] by decide)).symm)
  have hsums : (writeSums tools.sha256).Reaches (FileStep tools)
      ⟨start ++ [(BINARY ++ ".asc", f.binary), ("install.sh.asc", f.script)], out⟩ (.ok ())
      ⟨start ++ [(BINARY ++ ".asc", f.binary), ("install.sh.asc", f.script)] ++
        [("SHA256SUMS", f.sums)], out⟩ :=
    reaches_writeSums (fresh_behind hfresh (by decide)
      (show "SHA256SUMS" ∉ [BINARY ++ ".asc", "install.sh.asc"] by decide)) h.sums
  have hsignature : (signOne "SHA256SUMS").Reaches (FileStep tools)
      ⟨start ++ [(BINARY ++ ".asc", f.binary), ("install.sh.asc", f.script),
        ("SHA256SUMS", f.sums)], out⟩ (.ok ())
      ⟨start ++ [(BINARY ++ ".asc", f.binary), ("install.sh.asc", f.script),
        ("SHA256SUMS", f.sums)] ++ [("SHA256SUMS.asc", f.signature)], out⟩ :=
    reaches_signOne (fresh_behind hfresh (by decide) hlast)
      (h.signature.of_lookup (lookup_sums hfresh f).symm)
  simp only [List.append_assoc] at hscript hsums hsignature
  rw [signFiles]
  refine Prog.reaches_bind (hbinary.mapError _) (Prog.reaches_bind (hscript.mapError _) ?_)
  exact Prog.reaches_bind (hsums.mapError _) (hsignature.mapError _)

theorem reaches_sign {committed : Except String String} {fingerprint : String}
    {expectedFiles reported : Digests}
    {f : Finalization} (h : SignedAs tools committed fingerprint start expectedFiles f reported) :
    (sign tools committed fingerprint expectedFiles).Reaches (FileStep tools) ⟨start, out⟩
      (.ok reported) ⟨start ++ f.files, out⟩ := by
  obtain ⟨report, hreport, hsame⟩ := h.verified
  rw [sign, h.committed]
  refine reaches_readSite_bind (Prog.reaches_lift_bind (a := ()) (require_ok.mpr h.fresh) ?_)
  refine Prog.reaches_lift_bind rfl (Prog.reaches_lift_bind (a := ()) (require_ok.mpr rfl) ?_)
  refine reaches_readSite_bind (Prog.reaches_lift_bind hreport ?_)
  refine Prog.reaches_lift_bind (a := ()) (require_ok.mpr hsame) ?_
  refine Prog.reaches_bind (reaches_signFiles h.fresh h.finalized).attempt ?_
  refine Prog.reaches_bind (Prog.reaches_forM fun name _ => Prog.reaches_expect
    (.chmod _ name true) rfl) ?_
  exact reaches_readSite_bind (Prog.reaches_lift (h.reported ▸ digestsOf_finalized h.fresh f))

end

section
variable {tools : SiteTools} {committed : Except String String} {fingerprint : String}
  {expectedFiles : Digests} {t : List (Event FileAnswer)} {w w' : Workspace}

/-- Whatever a run of `sign` is told, a success has added the four files. -/
theorem signed_of_run {reported : Digests} (hsteps : Prog.Steps (FileStep tools) w t w')
    (hrun : Prog.Runs (sign tools committed fingerprint expectedFiles) t (.ok reported)) :
    ∃ f : Finalization, w' = ⟨w.site ++ f.files, w.output⟩ ∧
      SignedAs tools committed fingerprint w.site expectedFiles f reported :=
  ((ensures_sign (FileStep tools) False (fun _ _ _ h => h) fun habs => habs.elim).run hrun hsteps).1
    reported rfl

/-- Signing is a transaction: wherever a run of `sign` is cut, only files of the four stand behind
    those of the site; a success adds exactly the four, each signature small and verified over its
    file; and a failure whose clean-up went through adds exactly the four or none. -/
theorem sign_transaction (hsteps : Prog.Steps (FileStep tools) w t w') :
    (Prog.Cut (sign tools committed fingerprint expectedFiles) t → Behind w.site w.output w') ∧
      (∀ reported, Prog.Runs (sign tools committed fingerprint expectedFiles) t (.ok reported) →
        ∃ f : Finalization, w' = ⟨w.site ++ f.files, w.output⟩ ∧
          SignedAs tools committed fingerprint w.site expectedFiles f reported) ∧
      ∀ e, Prog.Runs (sign tools committed fingerprint expectedFiles) t (.error e) →
        (∀ name, ⟨.unlink name, false⟩ ∉ t) →
        w' = w ∨ ∃ f : Finalization, w' = ⟨w.site ++ f.files, w.output⟩ ∧
          Finalized tools w.site f := by
  refine ⟨fun hcut => ?_, fun _ hrun => signed_of_run hsteps hrun, fun e hrun hunlinked => ?_⟩
  · exact (ensures_sign (FileStep tools) False (fun _ _ _ h => h) fun habs => habs.elim).cut
      ⟨[], by simp, by simp⟩ hcut hsteps
  · have hrestricted := Prog.steps_restrict (fun e => ∀ name, e ≠ ⟨.unlink name, false⟩) hsteps
      fun e he name heq => hunlinked name (heq ▸ he)
    exact ((ensures_sign _ True (fun _ _ _ h => h.1) fun _ _ _ _ h =>
      h.2 _ rfl).run hrun hrestricted).2 trivial e rfl

/-- Signing can succeed on the sites the unsigned stage accepts with the expected digests, by the
    committed fingerprint, where the key has small signatures to give, and on no others. -/
theorem sign_succeeds_iff : (∃ reported w', (sign tools committed fingerprint expectedFiles).Reaches
    (FileStep tools) w
      (.ok reported) w') ↔
    committed = .ok fingerprint ∧ (∀ name ∈ FINALIZE_FILES, name ∉ w.site.map Prod.fst) ∧
      (∃ report, verifySite tools .unsigned none w.site = .ok report ∧
        sameEntries report expectedFiles = true) ∧
      ∃ f, Finalized tools w.site f := by
  constructor
  · rintro ⟨reported, w', t, hrun, hsteps⟩
    obtain ⟨f, -, h⟩ := signed_of_run hsteps hrun
    exact ⟨h.committed, h.fresh, h.verified, f, h.finalized⟩
  · rintro ⟨hcommitted, hfresh, hverified, f, hfinalized⟩
    exact ⟨f.digests tools.sha256, _, reaches_sign ⟨hcommitted, hverified, hfresh, hfinalized, rfl⟩⟩

/-- What `sign` leaves passes the signed stage with the digests it was given, and stays within what
    the unsigned stage has counted. -/
theorem signed_site_verified {reported : Digests} (htrusted : tools.Trusted)
    (hdigest : ∀ content, isDigest (tools.sha256 content) = true)
    (hunique : (w.site.map Prod.fst).Nodup) (hsteps : Prog.Steps (FileStep tools) w t w')
    (hrun : Prog.Runs (sign tools committed fingerprint expectedFiles) t (.ok reported)) :
    (∃ files, verifySite tools .signed (some expectedFiles) w'.site = .ok files) ∧
      ∀ bound budgeted, checkBudget w.site bound = .ok budgeted → siteBytes w'.site ≤ budgeted ∧
        ∀ limit ∈ bound, siteBytes w'.site ≤ limit := by
  obtain ⟨f, rfl, h⟩ := signed_of_run hsteps hrun
  obtain ⟨report, hreport, hsame⟩ := h.verified
  refine ⟨finalized_accepted hreport hsame hunique h.fresh h.finalized htrusted,
    fun bound budgeted hbudget => ?_⟩
  have hbytes := siteBytes_finalized hbudget hdigest hunique h.fresh h.finalized
  obtain ⟨_, -, hbinary, -⟩ := h.finalized.binary
  obtain ⟨_, -, hscript, -⟩ := h.finalized.script
  obtain ⟨_, -, hsignature, -⟩ := h.finalized.signature
  have hwithin : siteBytes (w.site ++ f.files) ≤ budgeted := by omega
  refine ⟨hwithin, fun limit hlimit => hwithin.trans ?_⟩
  simp only [checkBudget, except_bind_ok, require_ok] at hbudget
  obtain ⟨files, -, _, hbound, hbudgeted⟩ := hbudget
  exact Except.ok.inj hbudgeted ▸ hbound limit hlimit

end

namespace Sample

/-- Every content has one digest, and everything verifies. -/
def signTools : SiteTools where
  checkRepository := .ok ()
  sha256 _ := digest
  verifySignature _ _ := true
  verifyDetached _ _ := true
  checkContent _ := .ok ()
  json _ := some (.dict [("stack_release", .str "1.0.0")])

def unsignedNames : List String :=
  "release.json" :: Ci.UNLISTED ++ INSTALLER_SET ++ SIGN_RECORDS.map ("records/" ++ ·) ++ DERIVED

def treeChecksums : Bytes := utf8 (unlines [digest ++ "  " ++ "release.json"])

theorem signTools_trusted : signTools.Trusted := fun _ _ _ => rfl

/-- A site whose files are empty but for the checksums. -/
def signSite : Site :=
  unsignedNames.map fun name => (name, if name = "checksums.sha256" then treeChecksums else [])

def signStart : Workspace := ⟨signSite, none⟩

theorem signSite_names : signSite.map Prod.fst = unsignedNames := by
  rw [signSite, List.map_map]
  exact List.map_id _

theorem signSite_unique : (signSite.map Prod.fst).Nodup := by
  rw [signSite_names]
  decide

theorem signSite_fresh : ∀ name ∈ FINALIZE_FILES, name ∉ signSite.map Prod.fst := by
  rw [signSite_names]
  decide

theorem unsignedNames_plain : ∀ name ∈ unsignedNames, plainPath name = true := by
  simp only [unsignedNames, Ci.UNLISTED, INSTALLER_SET, SIGN_RECORDS, DERIVED, BINARY,
    List.map_cons, List.map_nil, List.cons_append, List.nil_append, String.reduceAppend,
    List.forall_mem_cons]
  and_intros <;> first | exact plainPath_chars (by decide) | simp

theorem signSite_plain : ∀ file ∈ signSite, plainPath file.1 = true :=
  fun _ hfile => unsignedNames_plain _ (signSite_names ▸ List.mem_map_of_mem hfile)

/-- The tree is the one file its checksums list, and the files they cannot list. -/
theorem signSite_unsigned : unsignedFiles signSite = .ok
    (("release.json" :: Ci.UNLISTED ++ INSTALLER_SET ++ SIGN_RECORDS.map ("records/" ++ ·) ++
      DERIVED).dedup.mergeSort (· ≤ ·)) := by
  have hdigest : isDigest digest = true := by decide
  have hhex : all (fun c => !Py.isLineBreak c) digest = true := by
    refine all_iff.mpr fun c hc => ?_
    simp only [isDigest, Bool.and_eq_true] at hdigest
    simp [(Py.isSpace_of_isGraphic (isGraphic_of_isLowerHex (all_iff.mp hdigest.2 c hc))).2]
  have hgraphic : all (fun c => !Py.isLineBreak c) (digest ++ "  " ++ "release.json") = true := by
    rw [all_append, all_append, hhex]
    rfl
  have hlines : ∀ l ∈ [digest ++ "  " ++ "release.json"],
      all (fun c => !Py.isLineBreak c) l = true :=
    List.forall_mem_singleton.mpr hgraphic
  have hread : (signSite.lookup "checksums.sha256").bind Py.readText = some
      (unlines [digest ++ "  " ++ "release.json"]) :=
    Ci.Minimal.readText_text hlines
  have hline : Ci.checksumLine (digest ++ "  " ++ "release.json") = some (digest, "release.json") :=
    Ci.Minimal.checksumLine_of hdigest ⟨by decide, by decide⟩
  rw [unsignedFiles, treeSubset, hread, need, except_ok_bind, Py.splitlines_unlines hlines,
    List.mapM_cons, hline]
  rfl

theorem signSite_verified : ∃ report, verifySite signTools .unsigned none signSite = .ok report ∧
    sameEntries report report = true := by
  have hunsigned : unsignedFiles signSite = .ok (unsignedNames.dedup.mergeSort (· ≤ ·)) :=
    signSite_unsigned
  have hset : IsFileSet signSite (unsignedNames.dedup.mergeSort (· ≤ ·)) := by
    intro path
    rw [List.mem_mergeSort, List.mem_dedup, signSite_names]
  obtain ⟨report, hreport⟩ : ∃ report, digestsOf signTools signSite
      (unsignedNames.dedup.mergeSort (· ≤ ·)) = .ok report :=
    exists_digestsOf fun path hpath => (hset path).mp hpath
  refine ⟨report, verifySite_unsigned.mpr ⟨rfl, signSite_plain, _, hunsigned, hset, rfl, hreport⟩,
    ?_⟩
  rw [sameEntries, Bool.and_eq_true]
  simp

def signSums : Bytes := utf8 (renderSums (listedFiles signTools.sha256
  (signSite ++ [(BINARY ++ ".asc", [1]), ("install.sh.asc", [2])])))

theorem signSite_finalized : Finalized signTools signSite ⟨[1], [2], signSums, [3]⟩ where
  binary := ⟨[], rfl, by decide, rfl⟩
  script := ⟨[], rfl, by decide, rfl⟩
  sums := renderSha256sums_of_plain (by
    refine List.forall_mem_append.mpr ⟨signSite_plain, fun file hfile => ?_⟩
    have hfinal : ∀ name ∈ [BINARY ++ ".asc", "install.sh.asc"], name ∈ FINALIZE_FILES := by decide
    exact FINALIZE_FILES_plain file.1 (hfinal file.1 (List.mem_map_of_mem hfile)))
  signature := ⟨signSums, by rw [lookup_final signSite_fresh (by decide)]; rfl, by decide, rfl⟩

theorem signSite_signed : ∃ expectedFiles, SignedAs signTools (.ok "K") "K" signSite expectedFiles
    ⟨[1], [2], signSums, [3]⟩
      (Finalization.digests signTools.sha256 ⟨[1], [2], signSums, [3]⟩) := by
  obtain ⟨report, hreport, hsame⟩ := signSite_verified
  exact ⟨report, rfl, ⟨report, hreport, hsame⟩, signSite_fresh, signSite_finalized, rfl⟩

end Sample

open Sample in
theorem sign_transaction_sample : ∃ expectedFiles reported t w',
    Prog.Runs (sign signTools (.ok "K") "K" expectedFiles) t (.ok reported) ∧
    Prog.Steps (FileStep signTools) signStart t w' ∧
    ∃ f : Finalization, w' = ⟨signSite ++ f.files, none⟩ ∧
      SignedAs signTools (.ok "K") "K" signSite expectedFiles f reported := by
  obtain ⟨expectedFiles, hsigned⟩ := signSite_signed
  obtain ⟨t, hrun, hsteps⟩ := reaches_sign hsigned
  exact ⟨expectedFiles, _, t, _, hrun, hsteps, (sign_transaction hsteps).2.1 _ hrun⟩

open Sample in
theorem signed_site_verified_sample : ∃ expectedFiles w' files,
    verifySite signTools .signed (some expectedFiles) w' = .ok files := by
  have hdigest : isDigest digest = true := by decide
  obtain ⟨expectedFiles, hsigned⟩ := signSite_signed
  obtain ⟨t, hrun, hsteps⟩ := @reaches_sign _ _ none _ _ _ _ _ hsigned
  have hverified := signed_site_verified signTools_trusted
    (fun _ => hdigest) signSite_unique hsteps hrun
  exact ⟨expectedFiles, _, hverified.1⟩

end NpuStack.Publish
