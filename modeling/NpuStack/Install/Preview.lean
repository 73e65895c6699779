import NpuStack.Install.PlanVerify

/-! The preview as an encoding of the plan. What the user reads and approves is one line per bound
    package, and the lines can be read back.

        Install|Upgrade  [replaced ->]  nevra  sha256:digest          one line per package
        No package changes.                                           an exact no-op

    Whichever constructor made the plan, its identities and digests are graphic text
    (`Produced.plain`), so the spaces, arrows and line feeds of the preview are only those that were
    put there, and `readPreview` recovers every action with what it replaces and binds. -/

namespace NpuStack.Install
open Interaction Text Serde NpuStack.Runtime
open Schema hiding isPackageName isPackageVersion

section
variable (crates : Crates)

/-! ### The other constructors -/

def MAX_INSTALL_BYTES : ℕ := 1048576

/-- Identities and paths used, and the rows bound so far. -/
structure InstallBinding where
  identities : List String
  paths : List (Option String)
  packages : List BoundRpm

/-- One native Install action against the supplied inputs. -/
def bindInstall (expected : List ReleasePackage) (binding : InstallBinding) (native : StoredRpm) :
    Except InstallError InstallBinding := do
  refuse (native.action ≠ "Install" ∨ native.reason ≠ "User" ∨
    native.repoId ≠ "@stored_transaction(@commandline)" ∨
    native.packagePath.any safePackagePath = false ∨ native.nevra ∈ binding.identities ∨
    native.packagePath ∈ binding.paths) transactionError
  let package ← need (expected.find? fun package => native.nevra = identityOf package)
    transactionError
  return {
    identities := native.nevra :: binding.identities
    paths := native.packagePath :: binding.paths
    packages := binding.packages ++ [{
      native
      sha256 := package.sha256
      replaces := none
      expected := package
      authority := .project }] }

/-- Valid packages of different names. -/
def checkExpected (names : List String) (package : ReleasePackage) :
    Except InstallError (List String) := do
  validatePackage package
  refuse (package.name ∈ names) transactionError
  return package.name :: names

namespace NativePlan

/-- Requires one native Install action for every supplied authenticated input. -/
def parseInstall (bytes : Bytes) (expected : List ReleasePackage) :
    Except InstallError NativePlan := do
  refuse (bytes.length > MAX_INSTALL_BYTES ∨ expected = [] ∨ expected.length > MAX_PROJECT_INPUTS)
    transactionError
  let document ← need ((crates.json bytes).bind readTransaction) transactionError
  refuse (document.version ≠ "1.0" ∨ document.rpms.length ≠ expected.length) transactionError
  let _ ← expected.foldlM checkExpected []
  let binding ← document.rpms.foldlM (bindInstall expected) ⟨[], [], []⟩
  return ⟨binding.packages.insertionSort byNevra, some (crates.sha256 bytes), none⟩

/-- Binds every native action to exact requested inputs and observed state. -/
def parseUpdate (bytes : Option Bytes) (expected : List ReleasePackage) (inventory : NativeInventory)
    (repositoryId : String) : Sys NativePlan := do
  refuse (expected = []) transactionError
  parseWithDependencies crates bytes expected [] inventory repositoryId

end NativePlan

/-- Every input is installed at its exact version and architecture. -/
def ExactNoOp (inventory : NativeInventory) (inputs : List ReleasePackage) : Prop :=
  ∀ p ∈ inputs, ∃ r ∈ inventory.packages, IsRecordOf r p

/-- A plan made by one of the three constructors; `noop` says that nothing had to change. -/
inductive Produced : NativePlan → Prop → Prop
  | install {bytes expected plan} (h : NativePlan.parseInstall crates bytes expected = .ok plan) :
    Produced plan False
  | update {bytes expected inventory repositoryId t plan}
      (h : (NativePlan.parseUpdate crates bytes expected inventory repositoryId).Runs t (.ok plan)) :
    Produced plan (ExactNoOp inventory expected)
  | withDependencies {bytes expected dependencies inventory repositoryId t plan}
      (h : (NativePlan.parseWithDependencies crates bytes expected dependencies inventory
        repositoryId).Runs t (.ok plan)) :
    Produced plan (ExactNoOp inventory (planInputs expected dependencies))

end

/-! ### What a preview shows -/

/-- What a line of the preview binds. -/
structure Bound where
  action : String
  replaces : Option String
  nevra : String
  sha256 : String
  deriving DecidableEq, Repr

def BoundRpm.shown (b : BoundRpm) : Bound := ⟨b.native.action, b.replaces, b.native.nevra, b.sha256⟩

/-- The words of a line. -/
def Bound.words (b : Bound) : List String :=
  match b.replaces with
  | none => [b.action, b.nevra, "sha256:" ++ b.sha256]
  | some old => [b.action, old, "->", b.nevra, "sha256:" ++ b.sha256]

def Bound.line (b : Bound) : String := join ' ' b.words

/-- Reads one line back. -/
def readLine (line : String) : Option Bound :=
  match split ' ' line with
  | [action, nevra, sha] => (stripPrefix "sha256:" sha).map (⟨action, none, nevra, ·⟩)
  | [action, old, arrow, nevra, sha] =>
    if arrow = "->" then (stripPrefix "sha256:" sha).map (⟨action, some old, nevra, ·⟩) else none
  | _ => none

def readPreview (text : String) : List Bound := (lines text).filterMap readLine

/-! ### Plain plans -/

/-- Nonempty text without spaces, line ends and control characters. -/
def graphic (text : String) : Bool := all isGraphic text

/-- All four values are graphic. -/
structure Bound.Plain (b : Bound) : Prop where
  action : b.action = "Install" ∨ b.action = "Upgrade"
  replaces : ∀ old ∈ b.replaces, graphic old = true
  nevra : graphic b.nevra = true
  sha256 : graphic b.sha256 = true

theorem graphic_append {a b : String} (ha : graphic a = true) (hb : graphic b = true) :
    graphic (a ++ b) = true := by
  rw [graphic] at ha hb ⊢
  rw [all_append, ha, hb]
  rfl

theorem graphic_of_rpmScalar {value : String} (h : rpmScalar value = true) : graphic value = true := by
  simp only [rpmScalar, Bool.and_eq_true] at h
  exact all_iff.mpr (isGraphic_of_all (forall_chars (by decide)) h.2)

theorem graphic_of_canonicalEpoch {epoch : String} (h : canonicalEpoch epoch = true) :
    graphic epoch = true := by
  simp only [canonicalEpoch, Bool.and_eq_true] at h
  refine all_iff.mpr fun c hc => isGraphic_of_isAlphanum ?_
  simp [Char.isAlphanum, all_iff.mp h.1.1.2 c hc]

theorem graphic_of_rpmName {name : String} (h : rpmName name = true) : graphic name = true := by
  simp only [rpmName, Bool.and_eq_true] at h
  exact all_iff.mpr (isGraphic_of_all (forall_chars (by decide)) h.2)

theorem graphic_of_rpmArch {name arch : String} (h : rpmArch name arch = true) :
    graphic arch = true := by
  simp only [rpmArch, Bool.and_eq_true, Bool.or_eq_true, decide_eq_true_eq] at h
  rcases h.2 with hall | ⟨-, rfl⟩
  · refine all_iff.mpr fun c hc => ?_
    have hchar := all_iff.mp hall c hc
    simp only [Bool.or_eq_true, decide_eq_true_eq] at hchar
    rcases hchar with halnum | rfl
    · exact isGraphic_of_isAlphanum halnum
    · decide
  · decide

theorem graphic_shownEvr {evr : String} (h : validEvr evr = true) : graphic (shownEvr evr) = true := by
  obtain ⟨epoch, version, release, hepoch, hversion, hrelease, rfl, hshown⟩ := shownEvr_cases h
  have hvr : graphic (version ++ "-" ++ release) = true :=
    graphic_append (graphic_append (graphic_of_rpmScalar hversion) (by decide))
      (graphic_of_rpmScalar hrelease)
  rcases hshown with ⟨-, hshown⟩ | hshown
  · rw [hshown]
    exact hvr
  · rw [hshown]
    exact graphic_append (graphic_append (graphic_of_canonicalEpoch hepoch) (by decide)) hvr

theorem graphic_nativeIdentity {name evr arch : String} (hname : graphic name = true)
    (hevr : validEvr evr = true) (harch : graphic arch = true) :
    graphic (nativeIdentity name evr arch) = true :=
  graphic_append (graphic_append (graphic_append (graphic_append hname (by decide))
    (graphic_shownEvr hevr)) (by decide)) harch

theorem NativeShape.graphic_identity {p : ReleasePackage} (h : NativeShape p) :
    graphic (identityOf p) = true := by
  have harch : graphic p.arch = true := by
    rcases h.arch with ha | ha <;> rw [ha] <;> decide
  exact graphic_nativeIdentity (graphic_of_rpmName h.name) h.evr harch

theorem graphic_recordIdentity {r : InstalledRpm} (h : validRecord r = true) :
    graphic (recordIdentity r) = true := by
  simp only [validRecord, Bool.and_eq_true] at h
  exact graphic_nativeIdentity (graphic_of_rpmName h.1.1.1) h.1.1.2 (graphic_of_rpmArch h.1.2)

theorem graphic_of_digest {sha : String} (h : digest sha = true) : graphic sha = true := by
  simp only [digest, Bool.and_eq_true] at h
  exact all_iff.mpr fun c hc => isGraphic_of_isLowerHex (all_iff.mp h.2 c hc)

/-! ### Reading a preview back -/

theorem notMem_of_graphic {text : String} (h : graphic text = true) {c : Char}
    (hc : isGraphic c = false) : c ∉ text.toList := by
  intro hmem
  rw [all_iff.mp h c hmem] at hc
  cases hc

theorem Bound.Plain.graphic_words {b : Bound} (h : b.Plain) : ∀ w ∈ b.words, graphic w = true := by
  have haction : graphic b.action = true := by
    rcases h.action with ha | ha <;> rw [ha] <;> decide
  have hsha : graphic ("sha256:" ++ b.sha256) = true := graphic_append (by decide) h.sha256
  have harrow : graphic "->" = true := by decide
  intro w hw
  rw [Bound.words] at hw
  cases hreplaces : b.replaces with
  | none =>
    rw [hreplaces] at hw
    simp only [List.mem_cons, List.not_mem_nil, or_false] at hw
    rcases hw with rfl | rfl | rfl
    · exact haction
    · exact h.nevra
    · exact hsha
  | some old =>
    rw [hreplaces] at hw
    simp only [List.mem_cons, List.not_mem_nil, or_false] at hw
    rcases hw with rfl | rfl | rfl | rfl | rfl
    · exact haction
    · exact h.replaces _ hreplaces
    · exact harrow
    · exact h.nevra
    · exact hsha

theorem readLine_line {b : Bound} (h : b.Plain) : readLine b.line = some b := by
  have hwords : split ' ' b.line = b.words := by
    refine split_join (fun w hw => notMem_of_graphic (h.graphic_words w hw) (by decide)) ?_
    rw [Bound.words]
    split <;> simp
  rw [readLine, hwords]
  obtain ⟨action, replaces, nevra, sha⟩ := b
  cases replaces with
  | none => simp only [Bound.words, stripPrefix_append, Option.map_some]
  | some old => simp only [Bound.words, stripPrefix_append, Option.map_some, if_true]

theorem Bound.Plain.line_chars {b : Bound} (h : b.Plain) :
    '\n' ∉ b.line.toList ∧ '\r' ∉ b.line.toList := by
  have hall : all (fun c => c ≠ '\n' && c ≠ '\r') b.line = true := by
    refine all_join (by decide) fun w hw => all_iff.mpr fun c hc => ?_
    have hgraphic := all_iff.mp (h.graphic_words w hw) c hc
    simp only [Bool.and_eq_true, decide_eq_true_eq]
    constructor
    · rintro rfl
      exact absurd hgraphic (by decide)
    · rintro rfl
      exact absurd hgraphic (by decide)
  constructor
  · intro hmem
    simpa using all_iff.mp hall _ hmem
  · intro hmem
    simpa using all_iff.mp hall _ hmem

theorem previewLine_eq (b : BoundRpm) : NativePlan.previewLine b = b.shown.line ++ "\n" := by
  obtain ⟨native, sha256, replaces, expected, authority⟩ := b
  have hspace : " ".toList = [' '] := by decide
  have harrow : " -> ".toList = ' ' :: "->".toList ++ [' '] := by decide
  have hsha : " sha256:".toList = ' ' :: "sha256:".toList := by decide
  rw [← String.toList_inj]
  cases replaces with
  | none =>
    simp [NativePlan.previewLine, BoundRpm.shown, Bound.line, Bound.words, join, hspace, hsha,
      List.intercalate_cons_of_ne_nil]
  | some old =>
    simp [NativePlan.previewLine, BoundRpm.shown, Bound.line, Bound.words, join, hspace, harrow, hsha,
      List.intercalate_cons_of_ne_nil]

/-- What the plan binds, in its order. -/
def NativePlan.bindings (plan : NativePlan) : List Bound := plan.packages.map BoundRpm.shown

section
variable {plan : NativePlan}

/-- A plan with packages shows one line for each of them. -/
theorem lines_preview (hplain : ∀ b ∈ plan.bindings, b.Plain) (hne : plan.packages ≠ []) :
    lines plan.preview = plan.bindings.map Bound.line := by
  have htext : plan.preview = unlines (plan.bindings.map Bound.line) := by
    have hempty : plan.isEmpty = false := by simpa [NativePlan.isEmpty] using hne
    rw [NativePlan.preview, hempty, NativePlan.bindings]
    clear hempty hne hplain
    induction plan.packages with
    | nil => rfl
    | cons b packages ih =>
      rw [List.map_cons, String.join_cons, previewLine_eq]
      simpa [unlines] using ih
  rw [htext]
  refine lines_unlines fun l hl => ?_
  obtain ⟨b, hb, rfl⟩ := List.mem_map.mp hl
  obtain ⟨hnewline, hreturn⟩ := (hplain b hb).line_chars
  exact ⟨hnewline, stripSuffix_return hreturn⟩

/-- The preview of a plain plan is read back as what the plan binds. -/
theorem readPreview_preview (hplain : ∀ b ∈ plan.bindings, b.Plain) :
    readPreview plan.preview = plan.bindings := by
  by_cases hne : plan.packages = []
  · have hread : readPreview "No package changes.\n" = [] := by decide
    have hempty : plan.isEmpty = true := by simp [NativePlan.isEmpty, hne]
    rw [NativePlan.preview, hempty, if_pos rfl, hread, NativePlan.bindings, hne, List.map_nil]
  · rw [readPreview, lines_preview hplain hne, List.filterMap_map]
    have hread : ∀ b ∈ plan.bindings, (readLine ∘ Bound.line) b = some b := fun b hb =>
      readLine_line (hplain b hb)
    rw [List.filterMap_congr hread, List.filterMap_some]

end

/-! ### Every constructor makes a plain plan -/

section
variable {crates : Crates}

theorem checkExpected_ok {names : List String} {expected : List ReleasePackage} {names' : List String}
    (h : expected.foldlM checkExpected names = .ok names') :
    ∀ p ∈ expected, validatePackage p = .ok () := by
  induction expected generalizing names with
  | nil => simp
  | cons p expected ih =>
    rw [List.foldlM_cons, except_bind_ok] at h
    obtain ⟨names₁, hstep, hrest⟩ := h
    rw [checkExpected, except_bind_ok] at hstep
    obtain ⟨⟨⟩, hvalid, -⟩ := hstep
    exact List.forall_mem_cons.mpr ⟨hvalid, ih hrest⟩

/-- Bound rows are plain when the inputs have the native shape. -/
theorem bindInstall_plain {expected : List ReleasePackage} {rows : List StoredRpm}
    {binding binding' : InstallBinding} (hshape : ∀ p ∈ expected, NativeShape p)
    (hplain : ∀ b ∈ binding.packages, b.shown.Plain)
    (h : rows.foldlM (bindInstall expected) binding = .ok binding') :
    (∀ b ∈ binding'.packages, b.shown.Plain) ∧
      binding'.packages.length = binding.packages.length + rows.length := by
  induction rows generalizing binding with
  | nil =>
    cases h
    exact ⟨hplain, rfl⟩
  | cons row rows ih =>
    rw [List.foldlM_cons, except_bind_ok] at h
    obtain ⟨mid, hstep, hrest⟩ := h
    simp only [bindInstall, except_bind_ok, refuse_ok, need_ok, not_or, not_not, pure, Except.pure,
      Except.ok.injEq] at hstep
    obtain ⟨_, ⟨haction, -⟩, package, hfind, rfl⟩ := hstep
    have hpackage := hshape package (List.mem_of_find?_eq_some hfind)
    have hnevra : row.nevra = identityOf package := by simpa using List.find?_some hfind
    obtain ⟨hplain', hlength⟩ := ih (fun b hb => by
      rcases List.mem_append.mp hb with hb | hb
      · exact hplain b hb
      · rw [List.mem_singleton.mp hb]
        refine ⟨.inl haction, by simp [BoundRpm.shown], ?_, graphic_of_digest hpackage.sha256⟩
        simp only [BoundRpm.shown, hnevra]
        exact hpackage.graphic_identity) hrest
    refine ⟨hplain', ?_⟩
    rw [hlength, List.length_append, List.length_singleton, List.length_cons]
    omega

theorem parseInstall_plain {bytes : Bytes} {expected : List ReleasePackage} {plan : NativePlan}
    (h : NativePlan.parseInstall crates bytes expected = .ok plan) :
    (∀ b ∈ plan.bindings, b.Plain) ∧ plan.packages ≠ [] := by
  simp only [NativePlan.parseInstall, except_bind_ok, refuse_ok, need_ok, not_or, not_not, pure,
    Except.pure, Except.ok.injEq] at h
  obtain ⟨_, ⟨-, hexpected, -⟩, document, -, _, ⟨-, hcount⟩, names, hnames, binding, hbind, rfl⟩ := h
  have hshape : ∀ p ∈ expected, NativeShape p := fun p hp =>
    nativeShape_of_validatePackage (checkExpected_ok hnames p hp)
  obtain ⟨hplain, hlength⟩ := bindInstall_plain hshape (by simp) hbind
  have hperm := List.perm_insertionSort byNevra binding.packages
  constructor
  · intro b hb
    obtain ⟨b, hmem, rfl⟩ := List.mem_map.mp hb
    exact hplain b (hperm.mem_iff.mp hmem)
  · intro hnil
    have hzero := hperm.length_eq
    simp only at hnil
    rw [hnil, hlength, hcount] at hzero
    exact hexpected (List.length_eq_zero_iff.mp (by simpa using hzero.symm))

theorem BoundExactly.plain {repositoryId : String} {projectInputs inputs : List ReleasePackage}
    {inventory : NativeInventory} {rows : List StoredRpm} {packages : List BoundRpm}
    (h : BoundExactly repositoryId projectInputs inventory inputs rows packages)
    (hshape : ∀ p ∈ inputs, NativeShape p) : ∀ b ∈ packages, b.shown.Plain := by
  intro b hb
  obtain ⟨hbinds, hsha, hreplaces, -⟩ := h.entries b hb
  have hexpected : b.expected ∈ pendingInputs inventory inputs :=
    h.expected.mem_iff.mp (List.mem_map_of_mem hb)
  have hpackage := hshape _ (pendingInputs_subset hexpected)
  refine ⟨?_, ?_, ?_, ?_⟩
  · simp only [BoundRpm.shown, hbinds.action]
    split
    · exact .inl rfl
    · exact .inr rfl
  · intro old hold
    simp only [BoundRpm.shown, hreplaces, Option.mem_def, Option.map_eq_some_iff] at hold
    obtain ⟨r, hr, rfl⟩ := hold
    exact graphic_recordIdentity (inventory.valid r (mem_installedAt.mp (List.mem_of_head? hr)).1)
  · simp only [BoundRpm.shown, hbinds.nevra]
    exact hpackage.graphic_identity
  · simp only [BoundRpm.shown, hsha]
    exact graphic_of_digest hpackage.sha256

/-- Without a transaction there is no package, and nothing had to change. -/
theorem parseWithDependencies_none {expected : List ReleasePackage} {dependencies : List FedoraRpm}
    {inventory : NativeInventory} {repositoryId : String} {t : Trace} {plan : NativePlan}
    (h : (NativePlan.parseWithDependencies crates none expected dependencies inventory
      repositoryId).Runs t (.ok plan)) :
    plan.packages = [] ∧ ExactNoOp inventory (planInputs expected dependencies) := by
  simp only [NativePlan.parseWithDependencies, Prog.lift_forM, Prog.runs_lift_bind_ok, refuse_ok,
    not_or, not_lt, not_not, NativePlan.parseInputs, Prog.runs_bind_ok (p := List.foldlM _ _ _),
    Prog.runs_pure, Except.ok.injEq] at h
  obtain ⟨_, -, _, hvalid, _, -, staged, t₁, t₂, rfl, hstage, _, hempty, rfl, rfl⟩ := h
  have hshape := @planInputs_shape expected dependencies (except_forM_ok.mp hvalid)
  obtain ⟨hstaged, -⟩ := stageInputs_runs hshape hstage
  have hincoming := hstaged.incoming
  rw [hempty] at hincoming
  have hpending : pendingInputs inventory (planInputs expected dependencies) = [] :=
    List.map_eq_nil_iff.mp hincoming.symm.eq_nil
  refine ⟨rfl, fun p hp => ?_⟩
  by_contra hnone
  have hmem : p ∈ pendingInputs inventory (planInputs expected dependencies) :=
    List.mem_filter.mpr ⟨hp, by simpa using hnone⟩
  rw [hpending] at hmem
  cases hmem

theorem parseWithDependencies_plain {bytes : Option Bytes} {expected : List ReleasePackage}
    {dependencies : List FedoraRpm} {inventory : NativeInventory} {repositoryId : String} {t : Trace}
    {plan : NativePlan} (h : (NativePlan.parseWithDependencies crates bytes expected dependencies
      inventory repositoryId).Runs t (.ok plan)) :
    (∀ b ∈ plan.bindings, b.Plain) ∧
      (plan.packages = [] → ExactNoOp inventory (planInputs expected dependencies)) := by
  cases bytes with
  | none =>
    obtain ⟨hempty, hnoop⟩ := parseWithDependencies_none h
    exact ⟨by simp [NativePlan.bindings, hempty], fun _ => hnoop⟩
  | some bytes =>
    have hexact := parseWithDependencies_sound h
    obtain ⟨rows, -, -, hbound⟩ := hexact.rows
    constructor
    · intro b hb
      obtain ⟨b, hmem, rfl⟩ := List.mem_map.mp hb
      exact hbound.plain (planInputs_shape hexact.admissible.valid) b hmem
    · intro hnil
      have hpending := hbound.expected
      rw [hnil] at hpending
      exact absurd hpending.symm.eq_nil hexact.admissible.pending

/-- Every plan is plain, and empty only when nothing had to change. -/
theorem Produced.plain {plan : NativePlan} {noop : Prop} (h : Produced crates plan noop) :
    (∀ b ∈ plan.bindings, b.Plain) ∧ (plan.packages = [] → noop) := by
  cases h with
  | install h =>
    obtain ⟨hplain, hne⟩ := parseInstall_plain h
    exact ⟨hplain, fun hnil => absurd hnil hne⟩
  | update h =>
    rw [NativePlan.parseUpdate, Prog.runs_lift_bind_ok] at h
    obtain ⟨_, -, h⟩ := h
    simpa [planInputs] using parseWithDependencies_plain h
  | withDependencies h => exact parseWithDependencies_plain h

/-- Plans with one preview bind the same actions, and every plan that changes something shows it. -/
theorem preview_determines {plan plan' : NativePlan} {noop noop' : Prop}
    (h : Produced crates plan noop) (h' : Produced crates plan' noop') :
    (plan.preview = plan'.preview → plan.bindings = plan'.bindings) ∧
    (¬ noop → lines plan.preview = plan.bindings.map Bound.line ∧
      plan.preview ≠ "No package changes.\n") := by
  obtain ⟨hplain, hempty⟩ := h.plain
  obtain ⟨hplain', -⟩ := h'.plain
  constructor
  · intro heq
    rw [← readPreview_preview hplain, heq, readPreview_preview hplain']
  · intro hchange
    have hne : plan.packages ≠ [] := fun hnil => hchange (hempty hnil)
    refine ⟨lines_preview hplain hne, fun heq => ?_⟩
    have hread : readPreview "No package changes.\n" = [] := by decide
    rw [← heq, readPreview_preview hplain, NativePlan.bindings, List.map_eq_nil_iff] at hread
    exact hne hread

end

/-- The upgrade of the older tools is shown line by line. -/
theorem preview_determines_upgrade : ∃ plan,
    Produced (Minimal.planning Minimal.upgrade) plan
      (ExactNoOp Minimal.outdated (planInputs [Minimal.stack, Minimal.tools] [])) ∧
    lines plan.preview = plan.bindings.map Bound.line ∧ plan.preview ≠ "No package changes.\n" := by
  obtain ⟨t, plan, hrun⟩ := Minimal.upgrade_planned
  have hproduced := Produced.withDependencies hrun
  refine ⟨plan, hproduced, (preview_determines hproduced hproduced).2 fun hnoop => ?_⟩
  obtain ⟨r, hr, hrecord⟩ := hnoop Minimal.stack (by decide)
  have hnone : ∀ r ∈ Minimal.outdated.packages, ¬ IsRecordOf r Minimal.stack := by decide
  exact hnone r hr hrecord

end NpuStack.Install
