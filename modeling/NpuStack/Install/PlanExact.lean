import NpuStack.Install.Plan

/-! Exactness of the native plan. Staging turns the inputs into two tables (`StagedExactly`): the
    pending inputs under their identities, and the identities of the records they supersede. Binding
    consumes both tables row by row (`bindRows_sound`), and cannot get stuck on rows that correspond
    to them (`bindRows_complete`). So a transaction is accepted exactly when its rows are the pending
    inputs and the superseded records, one row each, in any order. -/

namespace NpuStack.Install
open Interaction Text Serde NpuStack.Runtime
open Schema hiding isPackageName isPackageVersion

/-! ### What the rows must be -/

/-- Inputs whose exact identity is not installed yet. -/
def pendingInputs (inventory : NativeInventory) (inputs : List ReleasePackage) : List ReleasePackage :=
  inputs.filter fun p => ¬ ∃ r ∈ inventory.packages, IsRecordOf r p

/-- Installed records of the name and architecture of a pending input. -/
def superseded (inventory : NativeInventory) (inputs : List ReleasePackage) : List InstalledRpm :=
  (pendingInputs inventory inputs).flatMap (installedAt inventory)

/-- The row that installs a pending input, or upgrades the record it supersedes. -/
structure BindsTo (repositoryId : String) (inventory : NativeInventory) (p : ReleasePackage)
    (row : StoredRpm) : Prop where
  nevra : row.nevra = identityOf p
  action : row.action = if installedAt inventory p = [] then "Install" else "Upgrade"
  reason : row.reason = "User" ∨ row.reason = "Dependency"
  repository : row.repoId ∈ allowedRepositories repositoryId
  path : row.packagePath = some (packagePath p.filename)

/-- The row that removes a superseded record. -/
structure Replaces (r : InstalledRpm) (row : StoredRpm) : Prop where
  nevra : row.nevra = recordIdentity r
  reason : row.reason = "User" ∨ row.reason = "Dependency"
  repository : row.repoId = "@System"
  path : row.packagePath = none

def isReplaced (row : StoredRpm) : Bool := row.action = "Replaced"

/-- Rows and pending inputs, and rows and superseded records, correspond one to one. -/
structure ExactRows (repositoryId : String) (inventory : NativeInventory)
    (inputs : List ReleasePackage) (rows : List StoredRpm) : Prop where
  bound : ∃ matched, matched.Perm (rows.filter fun row => !isReplaced row) ∧
    List.Forall₂ (BindsTo repositoryId inventory) (pendingInputs inventory inputs) matched
  replaced : ∃ matched, matched.Perm (rows.filter isReplaced) ∧
    List.Forall₂ Replaces (superseded inventory inputs) matched

/-- The native tool ordered the installed version strictly below the input's. -/
def OrderedBelow (t : Trace) (r : InstalledRpm) (p : ReleasePackage) : Prop :=
  Ran t (compareRequest r.evr p.nevr) (utf8 "-1\n")

/-! ### Identities of well-formed inputs -/

theorem NativeShape.notMem_arch {p : ReleasePackage} (h : NativeShape p) : '.' ∉ p.arch.toList :=
  Install.notMem_arch h.arch

theorem identityOf_inj {p q : ReleasePackage} (hp : NativeShape p) (hq : NativeShape q)
    (h : identityOf p = identityOf q) : p.name = q.name :=
  (nativeIdentity_inj hp.evr hq.evr hp.notMem_arch hq.notMem_arch h).1

theorem recordIdentity_inj {inventory : NativeInventory} {r s : InstalledRpm}
    (hr : r ∈ inventory.packages) (hs : s ∈ inventory.packages)
    (h : recordIdentity r = recordIdentity s) : r = s := by
  have hvr := inventory.valid r hr
  have hvs := inventory.valid s hs
  simp only [validRecord, Bool.and_eq_true] at hvr hvs
  exact inventory.eq_of_key_eq hr hs (InstalledRpm.key_eq.mpr (nativeIdentity_inj hvr.1.1.2 hvs.1.1.2
    (notMem_rpmArch hvr.1.2) (notMem_rpmArch hvs.1.2) h))

/-- The fields an identity is printed from: a package name of either grammar, a version with its
    epoch, and an architecture. -/
structure Printable (name evr arch : String) : Prop where
  name : rpmName name = true ∨ identifier name = true
  evr : validEvr evr = true
  arch : all (fun c => c.isAlphanum || c = '_') arch = true

theorem Printable.notMem_arch {name evr arch : String} (h : Printable name evr arch) :
    '.' ∉ arch.toList := by
  intro hmem
  have hdot := all_iff.mp h.arch _ hmem
  simp at hdot

/-- A printed identity belongs to one name, version and architecture. So no two records of an
    inventory, and no two inputs that differ in one of the three, share a key. -/
theorem identities_unambiguous :
    (∀ name evr arch name' evr' arch', Printable name evr arch → Printable name' evr' arch' →
      (nativeIdentity name evr arch = nativeIdentity name' evr' arch' ↔
        name = name' ∧ evr = evr' ∧ arch = arch')) ∧
    (∀ inventory : NativeInventory, (inventory.packages.map recordIdentity).Nodup) ∧
    ∀ inputs : List ReleasePackage, (∀ p ∈ inputs, Printable p.name p.nevr p.arch) →
      (inputs.map fun p => (p.name, p.nevr, p.arch)).Nodup → (inputs.map identityOf).Nodup := by
  have hinj : ∀ {name evr arch name' evr' arch' : String}, Printable name evr arch →
      Printable name' evr' arch' → nativeIdentity name evr arch = nativeIdentity name' evr' arch' →
      name = name' ∧ evr = evr' ∧ arch = arch' :=
    fun h h' => nativeIdentity_inj h.evr h'.evr h.notMem_arch h'.notMem_arch
  refine ⟨fun name evr arch name' evr' arch' h h' => ⟨hinj h h', ?_⟩, fun inventory => ?_,
    fun inputs hvalid hnd => ?_⟩
  · rintro ⟨rfl, rfl, rfl⟩
    rfl
  · have hnd : inventory.packages.Nodup :=
      inventory.increasing.imp fun hlt heq => absurd (heq ▸ hlt) (lt_irrefl _)
    exact hnd.map_on fun r hr s hs => recordIdentity_inj hr hs
  · rw [List.Nodup, List.pairwise_map] at hnd ⊢
    refine hnd.imp_of_mem fun {p q} hp hq hne heq => hne ?_
    obtain ⟨h₁, h₂, h₃⟩ := hinj (hvalid p hp) (hvalid q hq) heq
    rw [h₁, h₂, h₃]

/-- Dashes and dots move between the fields and a zero epoch is dropped: the identities differ. -/
theorem identities_unambiguous_kernel :
    nativeIdentity "kernel" "0:6.11-2.fc44" "x86_64" = "kernel-6.11-2.fc44.x86_64" ∧
      nativeIdentity "kernel-6.11" "0:2-1.fc44" "x86_64" ≠
        nativeIdentity "kernel" "0:6.11-2.fc44" "x86_64" := by
  have hfirst : Printable "kernel" "0:6.11-2.fc44" "x86_64" :=
    ⟨.inl (by decide), by decide, by decide⟩
  have hsecond : Printable "kernel-6.11" "0:2-1.fc44" "x86_64" :=
    ⟨.inr (by decide), by decide, by decide⟩
  refine ⟨by decide, fun h => ?_⟩
  have hname := ((identities_unambiguous.1 _ _ _ _ _ _ hsecond hfirst).mp h).1
  exact absurd hname (by decide)

/-- File names determine package names, as identities do. -/
theorem filename_inj {p q : ReleasePackage} (hp : NativeShape p) (hq : NativeShape q)
    (h : p.filename = q.filename) : p.name = q.name := by
  have hparts : ∀ {p : ReleasePackage}, NativeShape p → ∃ version release : String,
      p.filename = nativeFilename p.name (version ++ "-" ++ release) p.arch ∧
      '-' ∉ version.toList ∧ '-' ∉ release.toList := by
    intro p hp
    obtain ⟨epoch, vr, hsplit, hfile⟩ := hp.filename
    obtain ⟨-, epoch', version, release, hepoch, hversion, hrelease, hnevr⟩ := validEvr_iff.mp hp.evr
    have hcolon : ":".toList = [':'] := by decide
    have hsplit' : splitOnce ':' p.nevr = some (epoch', version ++ "-" ++ release) := by
      rw [hnevr]
      exact splitOnce_eq_some.mpr ⟨by simp [hcolon], notMem_of_canonicalEpoch hepoch (by decide)⟩
    obtain ⟨-, rfl⟩ := Prod.mk.inj (Option.some.inj (hsplit.symm.trans hsplit'))
    exact ⟨version, release, hfile, notMem_of_rpmScalar hversion (by decide) (by decide),
      notMem_of_rpmScalar hrelease (by decide) (by decide)⟩
  obtain ⟨v, r, hpf, hv, hr⟩ := hparts hp
  obtain ⟨v', r', hqf, hv', hr'⟩ := hparts hq
  have hdash : "-".toList = ['-'] := by decide
  have hdot : ".".toList = ['.'] := by decide
  have hlist : (p.name.toList ++ '-' :: (v.toList ++ '-' :: r.toList)) ++ '.' :: p.arch.toList =
      (q.name.toList ++ '-' :: (v'.toList ++ '-' :: r'.toList)) ++ '.' :: q.arch.toList := by
    have hfull := congrArg String.toList (hpf ▸ hqf ▸ h)
    refine List.append_cancel_right (?_ : _ ++ ".rpm".toList = _ ++ ".rpm".toList)
    simpa [nativeFilename, hdash, hdot] using hfull
  obtain ⟨hfront, -⟩ := append_sep_inj hp.notMem_arch hq.notMem_arch hlist
  have hrel : p.name.toList ++ '-' :: v.toList = q.name.toList ++ '-' :: v'.toList ∧ _ :=
    append_sep_inj hr hr' (by simpa using hfront)
  exact String.toList_inj.mp (append_sep_inj hv hv' hrel.1).1

/-! ### Staging -/

variable {inventory : NativeInventory} {p : ReleasePackage}

theorem mem_installedAt {r : InstalledRpm} : r ∈ installedAt inventory p ↔
    r ∈ inventory.packages ∧ r.name = p.name ∧ r.arch = p.arch := by
  simp [installedAt]

/-- The entry a pending input waits under. -/
def entryOf (inventory : NativeInventory) (p : ReleasePackage) :
    String × ReleasePackage × Option String :=
  (identityOf p, p, (installedAt inventory p).head?.map recordIdentity)

theorem pendingInputs_append (seen : List ReleasePackage) (p : ReleasePackage) :
    pendingInputs inventory (seen ++ [p]) =
      pendingInputs inventory seen ++ pendingInputs inventory [p] := by
  simp [pendingInputs]

theorem superseded_append (seen : List ReleasePackage) (p : ReleasePackage) :
    superseded inventory (seen ++ [p]) = superseded inventory seen ++ superseded inventory [p] := by
  simp [superseded, pendingInputs_append]

/-- An input without an installed record of its name and architecture is pending. -/
theorem pendingInputs_new (h : installedAt inventory p = []) : pendingInputs inventory [p] = [p] := by
  refine List.filter_eq_self.mpr fun q hq => ?_
  obtain rfl := List.mem_singleton.mp hq
  simp only [decide_eq_true_eq, not_exists, not_and]
  intro r hr hrec
  have : r ∈ installedAt inventory q := mem_installedAt.mpr ⟨hr, hrec.1, hrec.2.2⟩
  rw [h] at this
  cases this

/-- With one such record, it is pending exactly when the versions differ. -/
theorem pendingInputs_one {old : InstalledRpm} (h : installedAt inventory p = [old]) :
    pendingInputs inventory [p] = if old.evr = p.nevr then [] else [p] := by
  have hold := mem_installedAt.mp (h ▸ List.mem_singleton.mpr rfl : old ∈ installedAt inventory p)
  have hiff : (∃ r ∈ inventory.packages, IsRecordOf r p) ↔ old.evr = p.nevr := by
    constructor
    · rintro ⟨r, hr, hrec⟩
      have hmem : r ∈ installedAt inventory p := mem_installedAt.mpr ⟨hr, hrec.1, hrec.2.2⟩
      rw [h] at hmem
      obtain rfl := List.mem_singleton.mp hmem
      exact hrec.2.1
    · exact fun hevr => ⟨old, hold.1, hold.2.1, hevr, hold.2.2⟩
  rw [pendingInputs, List.filter_singleton]
  by_cases hevr : old.evr = p.nevr
  · simp [hevr, hiff.mpr hevr]
  · simp [hevr, hiff]

/-- The staged tables hold exactly the pending inputs seen so far and what they supersede. -/
structure StagedExactly (inventory : NativeInventory) (seen : List ReleasePackage) (staged : Staged) :
    Prop where
  names : ∀ name, name ∈ staged.names ↔ name ∈ seen.map (·.name)
  distinct : (seen.map (·.name)).Nodup
  single : ∀ p ∈ seen, (installedAt inventory p).length ≤ 1
  incoming : staged.incoming.Perm ((pendingInputs inventory seen).map (entryOf inventory))
  replacements : staged.replacements.Perm ((superseded inventory seen).map recordIdentity)

theorem StagedExactly.nil : StagedExactly inventory [] ⟨[], [], []⟩ where
  names := by simp
  distinct := by simp
  single := by simp
  incoming := .refl _
  replacements := .refl _

/-- No earlier input has the identity of one with a new name. -/
theorem StagedExactly.fresh_key {seen : List ReleasePackage} {staged : Staged}
    (h : StagedExactly inventory seen staged) (hshape : ∀ q ∈ seen, NativeShape q)
    (hp : NativeShape p) (hname : p.name ∉ staged.names) :
    identityOf p ∉ Keyed.keys staged.incoming := by
  intro hmem
  have hkeys := (h.incoming.map Prod.fst).mem_iff.mp hmem
  simp only [List.map_map, List.mem_map, Function.comp_apply, entryOf] at hkeys
  obtain ⟨q, hq, heq⟩ := hkeys
  have hq' : q ∈ seen := (List.mem_filter.mp hq).1
  have hnames := identityOf_inj (hshape q hq') hp heq
  exact hname ((h.names _).mpr (List.mem_map.mpr ⟨q, hq', hnames⟩))

/-- No earlier input supersedes a record of a new name. -/
theorem StagedExactly.fresh_record {seen : List ReleasePackage} {staged : Staged} {old : InstalledRpm}
    (h : StagedExactly inventory seen staged) (hold : old ∈ installedAt inventory p)
    (hname : p.name ∉ staged.names) : recordIdentity old ∉ staged.replacements := by
  intro hmem
  have hrec := h.replacements.mem_iff.mp hmem
  simp only [superseded, List.mem_map, List.mem_flatMap] at hrec
  obtain ⟨s, ⟨q, hq, hs⟩, heq⟩ := hrec
  obtain ⟨hsmem, hsname, -⟩ := mem_installedAt.mp hs
  obtain ⟨homem, honame, -⟩ := mem_installedAt.mp hold
  obtain rfl := recordIdentity_inj hsmem homem heq
  refine hname ((h.names _).mpr (List.mem_map.mpr ⟨q, (List.mem_filter.mp hq).1, ?_⟩))
  rw [← hsname, honame]

/-- One successful step of staging. -/
theorem stageInput_runs {seen : List ReleasePackage} {staged staged' : Staged} {t : Trace}
    (h : StagedExactly inventory seen staged) (hshape : ∀ q ∈ seen, NativeShape q)
    (hp : NativeShape p) (hrun : (stageInput inventory staged p).Runs t (.ok staged')) :
    StagedExactly inventory (seen ++ [p]) staged' ∧
      ∀ q ∈ pendingInputs inventory [p], ∀ r ∈ installedAt inventory q, OrderedBelow t r q := by
  rw [stageInput, Prog.runs_lift_bind_ok] at hrun
  obtain ⟨_, hfresh, hrun⟩ := hrun
  have hname : p.name ∉ staged.names := by simpa using hfresh
  have hnames : ∀ name, name ∈ p.name :: staged.names ↔ name ∈ (seen ++ [p]).map (·.name) := by
    intro name
    simp [h.names, or_comm]
  have hdistinct : ((seen ++ [p]).map (·.name)).Nodup := by
    rw [List.map_append, List.map_singleton, List.nodup_append]
    refine ⟨h.distinct, List.nodup_singleton _, fun a ha b hb hab => ?_⟩
    rw [List.mem_singleton.mp hb] at hab
    exact hname ((h.names _).mpr (hab ▸ ha))
  have hsingle : (installedAt inventory p).length ≤ 1 →
      ∀ q ∈ seen ++ [p], (installedAt inventory q).length ≤ 1 := by
    intro hone q hq
    rcases List.mem_append.mp hq with hq | hq
    · exact h.single q hq
    · rwa [List.mem_singleton.mp hq]
  have hkey := h.fresh_key hshape hp hname
  split at hrun
  next hnone =>
    obtain ⟨rfl, heq⟩ := Prog.runs_pure.mp hrun
    obtain rfl := Except.ok.inj heq
    refine ⟨⟨hnames, hdistinct, hsingle (by simp [hnone]), ?_, ?_⟩, ?_⟩
    · rw [pendingInputs_append, pendingInputs_new hnone, Keyed.insert_of_fresh hkey]
      have hentry : entryOf inventory p = (identityOf p, p, none) := by simp [entryOf, hnone]
      simpa [hentry] using (h.incoming.cons _).trans (List.perm_append_singleton _ _).symm
    · rw [superseded_append]
      have : superseded inventory [p] = [] := by simp [superseded, pendingInputs_new hnone, hnone]
      simpa [this] using h.replacements
    · intro q hq r hr
      obtain rfl : q = p := by simpa [pendingInputs_new hnone] using hq
      rw [hnone] at hr
      cases hr
  next old hone =>
    have hpend := pendingInputs_one hone
    split at hrun
    next hevr =>
      obtain ⟨rfl, heq⟩ := Prog.runs_pure.mp hrun
      obtain rfl := Except.ok.inj heq
      rw [if_pos hevr] at hpend
      have hsup : superseded inventory [p] = [] := by simp [superseded, hpend]
      refine ⟨⟨hnames, hdistinct, hsingle (by simp [hone]), ?_, ?_⟩, ?_⟩
      · simpa [pendingInputs_append, hpend] using h.incoming
      · simpa [superseded_append, hsup] using h.replacements
      · simp [hpend]
    next hevr =>
      rw [if_neg hevr] at hpend
      rw [Prog.runs_bind_ok] at hrun
      obtain ⟨ordering, t₁, t₂, rfl, hcompare, hrun⟩ := hrun
      obtain ⟨-, -, output, hclean, hordering, rfl⟩ := compareRpmVersions_runs.mp hcompare
      rw [Prog.runs_lift_bind_ok] at hrun
      obtain ⟨_, hlt, hrun⟩ := hrun
      obtain rfl : ordering = .lt := by simpa using hlt
      obtain ⟨rfl, heq⟩ := Prog.runs_pure.mp hrun
      obtain rfl := Except.ok.inj heq
      have hold : old ∈ installedAt inventory p := by simp [hone]
      have hrecord := h.fresh_record hold hname
      have hsup : superseded inventory [p] = [old] := by simp [superseded, hpend, hone]
      refine ⟨⟨hnames, hdistinct, hsingle (by simp [hone]), ?_, ?_⟩, ?_⟩
      · rw [pendingInputs_append, hpend, Keyed.insert_of_fresh hkey]
        have hentry : entryOf inventory p = (identityOf p, p, some (recordIdentity old)) := by
          simp [entryOf, hone]
        simpa [hentry] using (h.incoming.cons _).trans (List.perm_append_singleton _ _).symm
      · rw [superseded_append, hsup, List.insert_of_not_mem hrecord]
        simpa using (h.replacements.cons _).trans (List.perm_append_singleton _ _).symm
      · intro q hq r hr
        obtain rfl : q = p := by simpa [hpend] using hq
        obtain rfl : r = old := by simpa [hone] using hr
        exact ⟨output, hclean, parseOrdering_lt.mp hordering, by simp [Saw]⟩
  · exact absurd (Prog.runs_fail.mp hrun).2 (by simp)

/-- Staging a list of inputs that all have the native shape. -/
theorem stageInputs_runs {inputs : List ReleasePackage} {staged : Staged} {t : Trace}
    (hshape : ∀ q ∈ inputs, NativeShape q)
    (hrun : (inputs.foldlM (stageInput inventory) ⟨[], [], []⟩).Runs t (.ok staged)) :
    StagedExactly inventory inputs staged ∧
      ∀ q ∈ pendingInputs inventory inputs, ∀ r ∈ installedAt inventory q, OrderedBelow t r q := by
  have hfold := Prog.runs_foldlM_ok
    (fun seen staged t => StagedExactly inventory seen staged ∧
      ∀ q ∈ pendingInputs inventory seen, ∀ r ∈ installedAt inventory q, OrderedBelow t r q)
    (fun seen p rest staged t staged' t' hall hI hrun => by
      obtain ⟨hstep, hordered⟩ := stageInput_runs hI.1 (fun q hq => hshape q (by simp [hall, hq]))
        (hshape p (by simp [hall])) hrun
      refine ⟨hstep, fun q hq r hr => ?_⟩
      rw [pendingInputs_append] at hq
      rcases List.mem_append.mp hq with hq | hq
      · exact (hI.2 q hq r hr).mono (List.subset_append_left _ _)
      · exact (hordered q hq r hr).mono (List.subset_append_right _ _))
    (List.nil_append inputs).symm (t := []) ⟨.nil, by simp [pendingInputs]⟩ hrun
  simpa using hfold

/-- Staging cannot fail on distinct inputs with at most one installed record each, when every
    comparison is answered "below". -/
theorem stageInputs_total {inputs : List ReleasePackage} {t : Trace} {r : Except InstallError Staged}
    (hshape : ∀ q ∈ inputs, NativeShape q) (hdistinct : (inputs.map (·.name)).Nodup)
    (hsingle : ∀ q ∈ inputs, (installedAt inventory q).length ≤ 1) (hbelow : AllBelow t)
    (hrun : (inputs.foldlM (stageInput inventory) ⟨[], [], []⟩).Runs t r) :
    ∃ staged, r = .ok staged := by
  have hstep : ∀ seen p rest staged t r, inputs = seen ++ p :: rest →
      (∀ name, name ∈ staged.names ↔ name ∈ seen.map (·.name)) → AllBelow t →
      (stageInput inventory staged p).Runs t r →
      ∃ staged', r = .ok staged' ∧ ∀ name, name ∈ staged'.names ↔ name ∈ (seen ++ [p]).map (·.name) := by
    intro seen p rest staged t r hall hnames hbelow hrun
    have hfresh : p.name ∉ staged.names := by
      rw [hnames]
      rw [hall, List.map_append, List.map_cons] at hdistinct
      exact fun hmem => (List.nodup_append.mp hdistinct).2.2 _ hmem _ List.mem_cons_self rfl
    have hnames' : ∀ name, name ∈ p.name :: staged.names ↔ name ∈ (seen ++ [p]).map (·.name) := by
      intro name
      simp [hnames, or_comm]
    have hrefuse : refuse (p.name ∈ staged.names) transactionError = .ok () := by simp [hfresh]
    rw [stageInput, hrefuse, Prog.lift_ok_bind] at hrun
    split at hrun
    next hnone =>
      obtain ⟨-, rfl⟩ := Prog.runs_pure.mp hrun
      exact ⟨_, rfl, hnames'⟩
    next old hone =>
      split at hrun
      · obtain ⟨-, rfl⟩ := Prog.runs_pure.mp hrun
        exact ⟨_, rfl, hnames'⟩
      · have hold := (mem_installedAt.mp (hone ▸ List.mem_singleton.mpr rfl)).1
        have hvalid := inventory.valid old hold
        simp only [validRecord, Bool.and_eq_true] at hvalid
        have hp := hshape p (by simp [hall])
        rcases Prog.runs_bind.mp hrun with ⟨e, rfl, hfail⟩ | ⟨ordering, t₁, t₂, rfl, hok, hrun⟩
        · exact absurd (compareRpmVersions_total hvalid.1.1.2 hp.evr hbelow hfail) (by simp)
        · have hlt := compareRpmVersions_total hvalid.1.1.2 hp.evr
            (fun e he => hbelow e (by simp [he])) hok
          obtain rfl := Except.ok.inj hlt
          have hnot : refuse (Ordering.lt ≠ .lt) transactionError = .ok () := by simp
          rw [hnot, Prog.lift_ok_bind] at hrun
          obtain ⟨-, rfl⟩ := Prog.runs_pure.mp hrun
          exact ⟨_, rfl, hnames'⟩
    next hnone hone =>
      have hlen := hsingle p (by simp [hall])
      rcases hlist : installedAt inventory p with _ | ⟨old, _ | ⟨_, _⟩⟩
      · exact absurd hlist hnone
      · exact absurd hlist (hone old)
      · rw [hlist] at hlen
        simp at hlen
  obtain ⟨staged, rfl, -⟩ := Prog.runs_foldlM_total _ _ hstep (List.nil_append inputs).symm
    (by simp) hbelow hrun
  exact ⟨staged, rfl⟩

/-! ### Binding -/

/-- A row that takes the entry out of the incoming table. -/
structure Takes (repositoryId : String) (entry : String × ReleasePackage × Option String)
    (row : StoredRpm) : Prop where
  nevra : row.nevra = entry.1
  action : row.action = rowAction entry.2.2
  reason : row.reason = "User" ∨ row.reason = "Dependency"
  repository : row.repoId ∈ allowedRepositories repositoryId
  path : row.packagePath = some (packagePath entry.2.1.filename)
  safe : safePackagePath (packagePath entry.2.1.filename) = true

/-- A row that removes a record. -/
structure Removes (row : StoredRpm) : Prop where
  reason : row.reason = "User" ∨ row.reason = "Dependency"
  repository : row.repoId = "@System"
  path : row.packagePath = none

/-- The package a row and its entry are bound as. -/
def bound (projectInputs : List ReleasePackage) (entry : String × ReleasePackage × Option String)
    (row : StoredRpm) : BoundRpm where
  native := row
  sha256 := entry.2.1.sha256
  replaces := entry.2.2
  expected := entry.2.1
  authority := authorityOf projectInputs entry.2.1

/-- The entry a bound package took. -/
def BoundRpm.entry (b : BoundRpm) : String × ReleasePackage × Option String :=
  (b.native.nevra, b.expected, b.replaces)

variable {repositoryId : String} {projectInputs : List ReleasePackage}

/-- One row, accepted. -/
theorem bindRow_ok {binding binding' : Binding} {row : StoredRpm} :
    bindRow repositoryId projectInputs binding row = .ok binding' ↔
      (isReplaced row = true ∧ Removes row ∧ row.nevra ∈ binding.replacements ∧
        binding' = { binding with replacements := binding.replacements.erase row.nevra }) ∨
      (isReplaced row = false ∧ ∃ value, Keyed.find row.nevra binding.incoming = some value ∧
        Takes repositoryId (row.nevra, value) row ∧ packagePath value.1.filename ∉ binding.paths ∧
        binding' = {
          incoming := Keyed.erase row.nevra binding.incoming
          replacements := binding.replacements
          paths := packagePath value.1.filename :: binding.paths
          packages := binding.packages ++ [bound projectInputs (row.nevra, value) row] }) := by
  simp only [bindRow, isReplaced, except_bind_ok, refuse_ok]
  by_cases haction : row.action = "Replaced"
  · simp only [haction, if_true, except_bind_ok, refuse_ok, not_or, not_not, pure, Except.pure,
      Except.ok.injEq, decide_true, Bool.true_eq_false, false_and, or_false, true_and]
    constructor
    · rintro ⟨_, hreason, _, ⟨hrepo, hpath, hmem⟩, rfl⟩
      exact ⟨⟨by tauto, hrepo, by simpa using hpath⟩, hmem, rfl⟩
    · rintro ⟨⟨hreason, hrepo, hpath⟩, hmem, rfl⟩
      exact ⟨(), by tauto, (), ⟨hrepo, by simp [hpath], hmem⟩, rfl⟩
  · simp only [haction, if_false, except_bind_ok, refuse_ok, need_ok, not_or, not_not, pure,
      Except.pure, Except.ok.injEq, decide_false, Bool.false_eq_true, false_and, false_or, true_and]
    constructor
    · rintro ⟨_, hreason, value, hfind, path, hpath, _, ⟨hact, hrepo, hsafe, rfl, hfresh⟩, rfl⟩
      exact ⟨value, hfind, ⟨rfl, hact, by tauto, hrepo, hpath, by simpa using hsafe⟩, hfresh, rfl⟩
    · rintro ⟨value, hfind, htakes, hfresh, rfl⟩
      have hreason := htakes.reason
      exact ⟨(), by tauto, value, hfind, _, htakes.path, (), ⟨htakes.action, htakes.repository,
        by simpa using htakes.safe, rfl, hfresh⟩, rfl⟩

/-- Accepted rows consume entries of the two tables one for one. -/
theorem bindRows_sound : ∀ {rows : List StoredRpm} {binding binding' : Binding},
    (Keyed.keys binding.incoming).Nodup →
    rows.foldlM (bindRow repositoryId projectInputs) binding = .ok binding' →
    ∃ packages, binding'.packages = binding.packages ++ packages ∧
      binding.incoming.Perm (packages.map BoundRpm.entry ++ binding'.incoming) ∧
      packages.map (·.native) = (rows.filter fun row => !isReplaced row) ∧
      (∀ b ∈ packages, Takes repositoryId b.entry b.native ∧
        b = bound projectInputs b.entry b.native) ∧
      binding.replacements.Perm ((rows.filter isReplaced).map (·.nevra) ++ binding'.replacements) ∧
      ∀ row ∈ rows.filter isReplaced, Removes row
  | [], binding, binding', _, h => by
    obtain rfl : binding = binding' := by simpa [pure, Except.pure] using h
    exact ⟨[], by simp, .refl _, rfl, by simp, .refl _, by simp⟩
  | row :: rows, binding, binding', hnd, h => by
    rw [List.foldlM_cons, except_bind_ok] at h
    obtain ⟨mid, hrow, hrest⟩ := h
    rcases bindRow_ok.mp hrow with ⟨hrep, hremoves, hmem, rfl⟩ |
      ⟨hrep, value, hfind, htakes, -, rfl⟩
    · obtain ⟨packages, hpkg, hin, hnative, hall, hout, hrem⟩ :=
        @bindRows_sound rows { binding with replacements := binding.replacements.erase row.nevra }
          binding' hnd hrest
      refine ⟨packages, hpkg, hin, by simpa [hrep] using hnative, hall, ?_, ?_⟩
      · rw [List.filter_cons_of_pos hrep, List.map_cons, List.cons_append]
        exact (List.perm_cons_erase hmem).trans (hout.cons _)
      · rw [List.filter_cons_of_pos hrep]
        exact List.forall_mem_cons.mpr ⟨hremoves, hrem⟩
    · obtain ⟨packages, hpkg, hin, hnative, hall, hout, hrem⟩ :=
        bindRows_sound (Keyed.keys_erase_nodup _ hnd) hrest
      have hfilter : (row :: rows).filter isReplaced = rows.filter isReplaced := by simp [hrep]
      refine ⟨bound projectInputs (row.nevra, value) row :: packages, ?_, ?_, ?_, ?_, ?_, ?_⟩
      · rw [hpkg, List.append_assoc, List.singleton_append]
      · exact (Keyed.perm_of_find hnd hfind).trans (hin.cons _)
      · simp [hrep, hnative, bound]
      · exact List.forall_mem_cons.mpr ⟨⟨htakes, rfl⟩, hall⟩
      · rwa [hfilter]
      · rwa [hfilter]

/-- Rows that correspond to the tables are accepted, and leave both empty. -/
theorem bindRows_complete : ∀ {rows : List StoredRpm} {binding : Binding}
    {entries : List (String × ReleasePackage × Option String)},
    (Keyed.keys binding.incoming).Nodup → binding.incoming.Perm entries →
    List.Forall₂ (Takes repositoryId) entries (rows.filter fun row => !isReplaced row) →
    binding.replacements.Perm ((rows.filter isReplaced).map (·.nevra)) →
    (∀ row ∈ rows.filter isReplaced, Removes row) →
    (entries.map fun e => packagePath e.2.1.filename).Nodup →
    (∀ e ∈ entries, packagePath e.2.1.filename ∉ binding.paths) →
    ∃ binding', rows.foldlM (bindRow repositoryId projectInputs) binding = .ok binding' ∧
      binding'.incoming = [] ∧ binding'.replacements = []
  | [], binding, entries, _, hin, hforall, hout, _, _, _ => by
    obtain rfl : entries = [] := by simpa using hforall
    exact ⟨binding, rfl, hin.eq_nil, by simpa using hout⟩
  | row :: rows, binding, entries, hnd, hin, hforall, hout, hremoves, hpaths, hfresh => by
    rw [List.foldlM_cons]
    by_cases hrep : isReplaced row = true
    · rw [List.filter_cons_of_pos hrep] at hout hremoves
      obtain ⟨hrow, hrest⟩ := List.forall_mem_cons.mp hremoves
      have hmem : row.nevra ∈ binding.replacements := hout.mem_iff.mpr (by simp)
      have hstep : bindRow repositoryId projectInputs binding row = .ok _ :=
        bindRow_ok.mpr (.inl ⟨hrep, hrow, hmem, rfl⟩)
      rw [hstep]
      exact @bindRows_complete rows
        { binding with replacements := binding.replacements.erase row.nevra } entries hnd hin
        (by simpa [hrep] using hforall)
        ((List.perm_cons_erase hmem).symm.trans hout).cons_inv hrest hpaths hfresh
    · have hrep' : isReplaced row = false := by simpa using hrep
      have hfilter : (row :: rows).filter isReplaced = rows.filter isReplaced := by simp [hrep']
      have hfilter' : ((row :: rows).filter fun row => !isReplaced row) =
          row :: rows.filter fun row => !isReplaced row := by simp [hrep']
      rw [hfilter'] at hforall
      rw [hfilter] at hout hremoves
      obtain ⟨⟨key, value⟩, entries, htakes, htail, rfl⟩ := List.forall₂_cons_right_iff.mp hforall
      obtain rfl : row.nevra = key := htakes.nevra
      obtain ⟨hfind, herase⟩ := Keyed.find_of_perm hnd hin
      obtain ⟨hnot, hpaths⟩ := List.nodup_cons.mp hpaths
      have hstep : bindRow repositoryId projectInputs binding row = .ok _ := bindRow_ok.mpr
        (.inr ⟨hrep', value, hfind, htakes, hfresh _ List.mem_cons_self, rfl⟩)
      rw [hstep]
      refine bindRows_complete (Keyed.keys_erase_nodup _ hnd) herase htail hout hremoves hpaths ?_
      intro e he hmem
      rcases List.mem_cons.mp hmem with heq | hmem
      · exact hnot (List.mem_map.mpr ⟨e, he, heq⟩)
      · exact hfresh e (List.mem_cons_of_mem _ he) hmem

/-! ### The tables of distinct inputs -/

variable {inputs : List ReleasePackage} {staged : Staged}

theorem pendingInputs_subset {q : ReleasePackage} (h : q ∈ pendingInputs inventory inputs) :
    q ∈ inputs := (List.mem_filter.mp h).1

/-- Distinct inputs wait under distinct identities. -/
theorem entries_nodup (inventory : NativeInventory) {inputs : List ReleasePackage}
    (hshape : ∀ q ∈ inputs, NativeShape q) (hdistinct : (inputs.map (·.name)).Nodup) :
    (((pendingInputs inventory inputs).map (entryOf inventory)).map Prod.fst).Nodup := by
  have hsub : ((pendingInputs inventory inputs).map (·.name)).Nodup :=
    hdistinct.sublist (List.filter_sublist.map _)
  rw [List.map_map]
  refine List.Nodup.map_on (fun p hp q hq heq => ?_) hsub.of_map
  exact List.inj_on_of_nodup_map hsub hp hq (identityOf_inj (hshape p (pendingInputs_subset hp))
    (hshape q (pendingInputs_subset hq)) heq)

theorem packagePath_inj {filename filename' : String}
    (h : packagePath filename = packagePath filename') : filename = filename' := by
  have hlist := congrArg String.toList h
  simp only [packagePath, String.toList_append] at hlist
  exact String.toList_inj.mp (List.append_cancel_left hlist)

/-- Distinct inputs have distinct stored paths. -/
theorem paths_nodup (inventory : NativeInventory) {inputs : List ReleasePackage}
    (hshape : ∀ q ∈ inputs, NativeShape q) (hdistinct : (inputs.map (·.name)).Nodup) :
    ((pendingInputs inventory inputs).map fun p => packagePath p.filename).Nodup := by
  have hsub : ((pendingInputs inventory inputs).map (·.name)).Nodup :=
    hdistinct.sublist (List.filter_sublist.map _)
  refine List.Nodup.map_on (fun p hp q hq heq => ?_) hsub.of_map
  exact List.inj_on_of_nodup_map hsub hp hq (filename_inj (hshape p (pendingInputs_subset hp))
    (hshape q (pendingInputs_subset hq)) (packagePath_inj heq))

/-- A file name that starts with a letter or digit makes a safe path. -/
theorem safePackagePath_packagePath (hp : NativeShape p)
    (hfirst : p.filename.toList.head?.any Char.isAlphanum = true) :
    safePackagePath (packagePath p.filename) = true := by
  obtain ⟨-, vr, -, hfile⟩ := hp.filename
  have hsuffix : endsWith ".rpm" p.filename = true := by
    simp only [endsWith, hfile, nativeFilename, String.toList_append, List.isSuffixOf_iff_suffix]
    exact List.suffix_append _ _
  simp only [safePackagePath, packagePath, stripPrefix_append, hsuffix, hfirst, hp.chars,
    decide_eq_true hp.length, Bool.and_self]

theorem takes_entryOf {row : StoredRpm} : Takes repositoryId (entryOf inventory p) row ↔
    BindsTo repositoryId inventory p row ∧ safePackagePath (packagePath p.filename) = true := by
  have haction : rowAction ((installedAt inventory p).head?.map recordIdentity) =
      if installedAt inventory p = [] then "Install" else "Upgrade" := by
    cases installedAt inventory p <;> rfl
  constructor
  · rintro ⟨hn, ha, hr, hrepo, hpath, hsafe⟩
    exact ⟨⟨hn, ha.trans haction, hr, hrepo, hpath⟩, hsafe⟩
  · rintro ⟨⟨hn, ha, hr, hrepo, hpath⟩, hsafe⟩
    exact ⟨hn, ha.trans haction.symm, hr, hrepo, hpath, hsafe⟩

/-! ### Accepted rows are exact -/

/-- The bound packages of an accepted document. -/
structure BoundExactly (repositoryId : String) (projectInputs : List ReleasePackage)
    (inventory : NativeInventory) (inputs : List ReleasePackage) (rows : List StoredRpm)
    (packages : List BoundRpm) : Prop where
  expected : (packages.map (·.expected)).Perm (pendingInputs inventory inputs)
  native : (packages.map (·.native)).Perm (rows.filter fun row => !isReplaced row)
  entries : ∀ b ∈ packages, BindsTo repositoryId inventory b.expected b.native ∧
    b.sha256 = b.expected.sha256 ∧
    b.replaces = (installedAt inventory b.expected).head?.map recordIdentity ∧
    b.authority = authorityOf projectInputs b.expected
  safe : ∀ b ∈ packages, safePackagePath (packagePath b.expected.filename) = true
  sorted : packages.Pairwise fun a b => a.native.nevra < b.native.nevra

/-- What an accepted document holds, and what its rows are bound to. -/
theorem bindRows_exact {document : StoredTransaction} {packages : List BoundRpm}
    (hstaged : StagedExactly inventory inputs staged) (hshape : ∀ q ∈ inputs, NativeShape q)
    (h : bindRows repositoryId projectInputs staged document = .ok packages) :
    document.version = "1.0" ∧ ExactRows repositoryId inventory inputs document.rpms ∧
      BoundExactly repositoryId projectInputs inventory inputs document.rpms packages := by
  simp only [bindRows, except_bind_ok, refuse_ok, not_or, not_not, pure, Except.pure,
    Except.ok.injEq] at h
  obtain ⟨_, ⟨hversion, -⟩, binding, hfold, _, ⟨hin, hout⟩, rfl⟩ := h
  have hkeys := entries_nodup inventory hshape hstaged.distinct
  have hnd : (Keyed.keys staged.incoming).Nodup :=
    ((hstaged.incoming.map Prod.fst).nodup_iff).mpr hkeys
  obtain ⟨packages, hpackages, hperm, hnative, hbound, hreplaced, hremoves⟩ :=
    @bindRows_sound _ _ _ ⟨staged.incoming, staged.replacements, [], []⟩ binding hnd hfold
  simp only [hin, hout, List.append_nil, List.nil_append] at hpackages hperm hreplaced
  rw [hpackages]
  have hsorted := List.perm_insertionSort byNevra packages
  have hentries : ((pendingInputs inventory inputs).map (entryOf inventory)).Perm
      (packages.map BoundRpm.entry) := hstaged.incoming.symm.trans hperm
  have hentry : ∀ b ∈ packages, b.entry = entryOf inventory b.expected := by
    intro b hb
    obtain ⟨p, -, hp⟩ := List.mem_map.mp (hentries.mem_iff.mpr (List.mem_map_of_mem hb))
    have hexpected : p = b.expected := congrArg (·.2.1) hp
    rw [← hexpected, hp]
  have hbinds : ∀ b ∈ packages, BindsTo repositoryId inventory b.expected b.native ∧
      safePackagePath (packagePath b.expected.filename) = true := by
    intro b hb
    have htakes := (hbound b hb).1
    rw [hentry b hb] at htakes
    exact takes_entryOf.mp htakes
  refine ⟨hversion, ⟨?_, ?_⟩, ⟨?_, ?_, ?_, ?_, ?_⟩⟩
  · have hexpected : (pendingInputs inventory inputs).Perm (packages.map (·.expected)) := by
      have := hentries.map (·.2.1)
      simpa [Function.comp_def, entryOf, BoundRpm.entry] using this
    have hforall : List.Forall₂ (BindsTo repositoryId inventory) (packages.map (·.expected))
        (packages.map (·.native)) := by
      rw [List.forall₂_map_left_iff, List.forall₂_map_right_iff, List.forall₂_same]
      exact fun b hb => (hbinds b hb).1
    obtain ⟨matched, hmatched, hp⟩ := List.perm_comp_forall₂ hexpected hforall
    exact ⟨matched, hnative ▸ hp, hmatched⟩
  · have hids : ((superseded inventory inputs).map recordIdentity).Perm
        ((document.rpms.filter isReplaced).map (·.nevra)) :=
      hstaged.replacements.symm.trans hreplaced
    have hforall : List.Forall₂ (fun id (row : StoredRpm) => row.nevra = id ∧ Removes row)
        ((document.rpms.filter isReplaced).map (·.nevra)) (document.rpms.filter isReplaced) := by
      rw [List.forall₂_map_left_iff, List.forall₂_same]
      exact fun row hrow => ⟨rfl, hremoves row hrow⟩
    obtain ⟨matched, hmatched, hp⟩ := List.perm_comp_forall₂ hids hforall
    refine ⟨matched, hp, (List.forall₂_map_left_iff.mp hmatched).imp ?_⟩
    exact fun r row ⟨hn, hr⟩ => ⟨hn, hr.reason, hr.repository, hr.path⟩
  · have := (hentries.map (·.2.1)).symm
    exact (hsorted.map _).trans (by simpa [Function.comp_def, entryOf, BoundRpm.entry] using this)
  · exact hnative ▸ hsorted.map _
  · intro b hb
    have hb' := hsorted.mem_iff.mp hb
    have hreplaces : b.replaces = _ := congrArg (·.2.2) (hentry b hb')
    have hself := (hbound b hb').2
    exact ⟨(hbinds b hb').1, congrArg (·.sha256) hself, hreplaces, congrArg (·.authority) hself⟩
  · exact fun b hb => (hbinds b (hsorted.mem_iff.mp hb)).2
  · have htrans : IsTrans BoundRpm byNevra := ⟨fun _ _ _ h h' => le_trans h h'⟩
    have htotal : Std.Total byNevra := ⟨fun a b => le_total a.native.nevra b.native.nevra⟩
    have hle := List.pairwise_insertionSort byNevra packages
    have hne : ((packages.insertionSort byNevra).map fun b => b.native.nevra).Nodup := by
      refine ((hsorted.map _).nodup_iff).mpr ?_
      have := ((hentries.map Prod.fst).nodup_iff).mp hkeys
      simpa [Function.comp_def, BoundRpm.entry] using this
    exact (hle.and (List.pairwise_map.mp hne)).imp fun h => lt_of_le_of_ne h.1 h.2

/-- Rows that correspond to the tables are accepted, in any order. -/
theorem bindRows_total {document : StoredTransaction}
    (hstaged : StagedExactly inventory inputs staged) (hshape : ∀ q ∈ inputs, NativeShape q)
    (hsafe : ∀ q ∈ pendingInputs inventory inputs, safePackagePath (packagePath q.filename) = true)
    (hversion : document.version = "1.0")
    (h : ExactRows repositoryId inventory inputs document.rpms) :
    ∃ packages, bindRows repositoryId projectInputs staged document = .ok packages := by
  have hkeys := entries_nodup inventory hshape hstaged.distinct
  have hnd : (Keyed.keys staged.incoming).Nodup :=
    ((hstaged.incoming.map Prod.fst).nodup_iff).mpr hkeys
  obtain ⟨matched, hmatched, hbinds⟩ := h.bound
  obtain ⟨removed, hremoved, hreplaces⟩ := h.replaced
  have htakes : List.Forall₂ (Takes repositoryId) ((pendingInputs inventory inputs).map
      (entryOf inventory)) matched := by
    rw [List.forall₂_map_left_iff]
    refine List.forall₂_iff_zip.mpr ⟨hbinds.length_eq, fun {p row} hzip => takes_entryOf.mpr ?_⟩
    exact ⟨(List.forall₂_iff_zip.mp hbinds).2 hzip, hsafe p (List.of_mem_zip hzip).1⟩
  obtain ⟨entries, hforall, hentries⟩ := List.perm_comp_forall₂ hmatched.symm htakes.flip
  have hin : staged.incoming.Perm entries := hstaged.incoming.trans hentries.symm
  have hids : removed.map (·.nevra) = (superseded inventory inputs).map recordIdentity := by
    rw [← List.forall₂_eq_eq_eq, List.forall₂_map_left_iff, List.forall₂_map_right_iff]
    exact (hreplaces.imp fun _ _ hr => hr.nevra).flip
  have hout : staged.replacements.Perm ((document.rpms.filter isReplaced).map (·.nevra)) :=
    hstaged.replacements.trans (hids ▸ hremoved.map _)
  have hremoves : ∀ row ∈ document.rpms.filter isReplaced, Removes row := by
    intro row hrow
    exact Keyed.forall_mem_right (fun _ _ hr => ⟨hr.reason, hr.repository, hr.path⟩) hreplaces row
      (hremoved.mem_iff.mpr hrow)
  have hpaths : (entries.map fun e => packagePath e.2.1.filename).Nodup := by
    refine ((hentries.map _).nodup_iff).mpr ?_
    rw [List.map_map]
    exact paths_nodup inventory hshape hstaged.distinct
  obtain ⟨binding, hfold, hin', hout'⟩ := @bindRows_complete repositoryId projectInputs document.rpms
    ⟨staged.incoming, staged.replacements, [], []⟩ entries hnd hin hforall.flip hout hremoves hpaths
    (by simp)
  have hcount : document.rpms.length = staged.incoming.length + staged.replacements.length := by
    rw [hin.length_eq, hout.length_eq, List.length_map, ← hforall.length_eq, add_comm]
    exact List.length_eq_length_filter_add isReplaced
  refine ⟨binding.packages.insertionSort byNevra, ?_⟩
  simp only [bindRows, except_bind_ok, refuse_ok, not_or, not_not, pure, Except.pure,
    Except.ok.injEq]
  exact ⟨(), ⟨hversion, hcount⟩, binding, hfold, (), ⟨hin', hout'⟩, rfl⟩

/-! ### Acceptance -/

section
variable {crates : Crates} {bytes : Bytes} {expected : List ReleasePackage}
  {dependencies : List FedoraRpm} {t : Trace} {plan : NativePlan}

/-- The inputs of a plan: project packages and verified dependencies. -/
def planInputs (expected : List ReleasePackage) (dependencies : List FedoraRpm) :
    List ReleasePackage := expected ++ dependencies.map (·.package)

/-- Inputs a plan can be made from. -/
structure Admissible (repositoryId : String) (inventory : NativeInventory)
    (expected : List ReleasePackage) (dependencies : List FedoraRpm) : Prop where
  projects : expected.length ≤ MAX_PROJECT_INPUTS
  total : expected.length + dependencies.length ≤ MAX_INPUTS
  repository : validRepositoryId repositoryId = true
  valid : ∀ p ∈ expected, validatePackage p = .ok ()
  distinct : ((planInputs expected dependencies).map (·.name)).Nodup
  single : ∀ p ∈ planInputs expected dependencies, (installedAt inventory p).length ≤ 1
  pending : pendingInputs inventory (planInputs expected dependencies) ≠ []
  /-- Stored file names start with a letter or digit; those of project packages always do. -/
  stored : ∀ d ∈ dependencies, d.package ∈ pendingInputs inventory (planInputs expected dependencies) →
    d.package.filename.toList.head?.any Char.isAlphanum = true

/-- What it means that transaction bytes were accepted as a plan. -/
structure PlannedExactly (crates : Crates) (repositoryId : String) (inventory : NativeInventory)
    (expected : List ReleasePackage) (dependencies : List FedoraRpm) (bytes : Bytes) (t : Trace)
    (plan : NativePlan) : Prop where
  admissible : Admissible repositoryId inventory expected dependencies
  size : bytes.length ≤ MAX_TRANSACTION_BYTES
  /-- Nothing is replaced unless it is older than what replaces it. -/
  ordered : ∀ p ∈ pendingInputs inventory (planInputs expected dependencies),
    ∀ r ∈ installedAt inventory p, OrderedBelow t r p
  rows : ∃ rows, (crates.json bytes).bind readTransaction = some ⟨"1.0", rows⟩ ∧
    ExactRows repositoryId inventory (planInputs expected dependencies) rows ∧
    BoundExactly repositoryId expected inventory (planInputs expected dependencies) rows
      plan.packages
  transaction : plan.transactionSha256 = some (crates.sha256 bytes)
  fingerprint : plan.inventoryFingerprint = some (inventory.fingerprint crates)

theorem planInputs_shape (h : ∀ p ∈ expected, validatePackage p = .ok ()) :
    ∀ p ∈ planInputs expected dependencies, NativeShape p := by
  intro p hp
  rcases List.mem_append.mp hp with hp | hp
  · exact nativeShape_of_validatePackage (h p hp)
  · obtain ⟨d, -, rfl⟩ := List.mem_map.mp hp
    exact d.shape

/-- Release packages have names, hence file names, that start with a letter or digit. -/
theorem filename_head_of_validatePackage {p : ReleasePackage} (h : validatePackage p = .ok ()) :
    p.filename.toList.head?.any Char.isAlphanum = true := by
  obtain ⟨hname, -, -, -, epoch, version, release, -, -, -, -, hfile⟩ := validatePackage_parts h
  simp only [identifier, Bool.and_eq_true, decide_eq_true_eq] at hname
  obtain ⟨⟨-, hhead⟩, -⟩ := hname
  obtain ⟨c, l, hlist⟩ : ∃ c l, p.name.toList = c :: l := by
    cases hlist : p.name.toList with
    | nil => simp [hlist] at hhead
    | cons c l => exact ⟨c, l, rfl⟩
  rw [hlist] at hhead
  simpa [hfile, nativeFilename, hlist] using hhead

theorem safePackagePath_head {filename : String} (h : safePackagePath (packagePath filename) = true) :
    filename.toList.head?.any Char.isAlphanum = true := by
  simp only [safePackagePath, packagePath, stripPrefix_append, Bool.and_eq_true] at h
  exact h.1.2

/-- Accepted bytes are exact. -/
theorem parseWithDependencies_sound
    (h : (NativePlan.parseWithDependencies crates (some bytes) expected dependencies inventory
      repositoryId).Runs t (.ok plan)) :
    PlannedExactly crates repositoryId inventory expected dependencies bytes t plan := by
  simp only [NativePlan.parseWithDependencies, Prog.lift_forM, Prog.runs_lift_bind_ok, refuse_ok,
    not_or, not_lt, NativePlan.parseInputs, Prog.runs_bind_ok (p := List.foldlM _ _ _), need_ok,
    Prog.runs_pure, Except.ok.injEq] at h
  obtain ⟨_, ⟨hprojects, htotal⟩, _, hvalid, _, ⟨-, hlabel⟩, staged, t₁, t₂, rfl, hstage, _,
    ⟨hpending, hsize⟩, document, hdocument, packages, hbind, rfl, rfl⟩ := h
  have hvalid := except_forM_ok.mp hvalid
  have hshape := @planInputs_shape expected dependencies hvalid
  obtain ⟨hstaged, hordered⟩ := stageInputs_runs hshape hstage
  obtain ⟨hversion, hrows, hbound⟩ := bindRows_exact hstaged hshape hbind
  refine ⟨⟨hprojects, htotal, by simpa using hlabel, hvalid, hstaged.distinct, hstaged.single, ?_, ?_⟩,
    hsize, ?_, ⟨document.rpms, ?_, hrows, hbound⟩, rfl, rfl⟩
  · intro hnil
    have hempty := hstaged.incoming
    rw [hnil] at hempty
    exact hpending hempty.eq_nil
  · intro d _ hd
    obtain ⟨b, hb, hexpected⟩ := List.mem_map.mp (hbound.expected.mem_iff.mpr hd)
    exact hexpected ▸ safePackagePath_head (hbound.safe b hb)
  · intro p hp r hr
    refine (hordered p hp r hr).mono fun e he => ?_
    simp [he]
  · rw [hdocument, ← hversion]

/-- Every document that holds exactly these rows is accepted, whatever their order. -/
theorem parseWithDependencies_complete {r : Except InstallError NativePlan} {rows : List StoredRpm}
    (hadmissible : Admissible repositoryId inventory expected dependencies)
    (hsize : bytes.length ≤ MAX_TRANSACTION_BYTES)
    (hdocument : (crates.json bytes).bind readTransaction = some ⟨"1.0", rows⟩)
    (hrows : ExactRows repositoryId inventory (planInputs expected dependencies) rows)
    (hbelow : AllBelow t)
    (h : (NativePlan.parseWithDependencies crates (some bytes) expected dependencies inventory
      repositoryId).Runs t r) : ∃ plan, r = .ok plan := by
  have hshape := @planInputs_shape expected dependencies hadmissible.valid
  have hcounts : refuse (expected.length > MAX_PROJECT_INPUTS ∨
      expected.length + dependencies.length > MAX_INPUTS) transactionError = .ok () := by
    simp [hadmissible.projects, hadmissible.total]
  have hvalid : forM expected validatePackage = .ok () := except_forM_ok.mpr hadmissible.valid
  have hinputs : planInputs expected dependencies ≠ [] := by
    intro hnil
    exact hadmissible.pending (by rw [hnil]; rfl)
  have hlabel : refuse (planInputs expected dependencies = [] ∨
      validRepositoryId repositoryId = false) transactionError = .ok () := by
    simp [hinputs, hadmissible.repository]
  rw [NativePlan.parseWithDependencies, hcounts, Prog.lift_ok_bind, Prog.lift_forM,
    hvalid, Prog.lift_ok_bind, NativePlan.parseInputs] at h
  rw [← planInputs, hlabel, Prog.lift_ok_bind] at h
  rcases Prog.runs_bind.mp h with ⟨e, -, hfail⟩ | ⟨staged, t₁, t₂, rfl, hstage, h⟩
  · obtain ⟨staged, hok⟩ := stageInputs_total hshape hadmissible.distinct hadmissible.single hbelow hfail
    cases hok
  · obtain ⟨hstaged, -⟩ := stageInputs_runs hshape hstage
    have hsafe : ∀ q ∈ pendingInputs inventory (planInputs expected dependencies),
        safePackagePath (packagePath q.filename) = true := by
      intro q hq
      have hq' := pendingInputs_subset hq
      refine safePackagePath_packagePath (hshape q hq') ?_
      rcases List.mem_append.mp hq' with hproject | hdependency
      · exact filename_head_of_validatePackage (hadmissible.valid q hproject)
      · obtain ⟨d, hd, rfl⟩ := List.mem_map.mp hdependency
        exact hadmissible.stored d hd hq
    obtain ⟨packages, hpackages⟩ := @bindRows_total inventory repositoryId expected _ staged
      ⟨"1.0", rows⟩ hstaged hshape hsafe rfl hrows
    have hpending : staged.incoming ≠ [] := by
      intro hnil
      have := hstaged.incoming.length_eq
      rw [hnil, List.length_map] at this
      exact hadmissible.pending (List.length_eq_zero_iff.mp this.symm)
    have hwithin : refuse (staged.incoming = [] ∨ bytes.length > MAX_TRANSACTION_BYTES)
        transactionError = .ok () := by
      simp [hpending, hsize]
    simp only [hwithin, hdocument, need, hpackages, Prog.lift_ok_bind, Prog.runs_pure] at h
    exact ⟨_, h.2.symm⟩

/-- A plan asks for nothing but version comparisons. -/
theorem parseWithDependencies_asks {bytes : Option Bytes} :
    (NativePlan.parseWithDependencies crates bytes expected dependencies inventory repositoryId).Asks
      fun q => ∃ left right, q = .run (compareRequest left right) := by
  have hstage : ∀ staged : Staged, ∀ p ∈ planInputs expected dependencies,
      (stageInput inventory staged p).Asks fun q => ∃ left right, q = .run (compareRequest left right) := by
    intro staged p _
    refine Prog.asks_bind (Prog.asks_lift _) fun _ => ?_
    dsimp only
    split
    · exact Prog.asks_pure _
    · split
      · exact Prog.asks_pure _
      · refine Prog.asks_bind ?_ fun _ => Prog.asks_bind (Prog.asks_lift _) fun _ => Prog.asks_pure _
        refine Prog.asks_bind (Prog.asks_lift _) fun _ => Prog.asks_bind ?_ fun _ => Prog.asks_lift _
        exact (Prog.asks_expect _ _).mpr ⟨_, _, rfl⟩
    · exact Prog.asks_fail _
  refine Prog.asks_bind (Prog.asks_lift _) fun _ => Prog.asks_bind ?_ fun _ => ?_
  · exact Prog.asks_forM fun p _ => Prog.asks_lift _
  · refine Prog.asks_bind (Prog.asks_lift _) fun _ => Prog.asks_bind (Prog.asks_foldlM hstage) fun _ => ?_
    cases bytes with
    | none => exact Prog.asks_bind (Prog.asks_lift _) fun _ => Prog.asks_pure _
    | some bytes =>
      exact Prog.asks_bind (Prog.asks_lift _) fun _ => Prog.asks_bind (Prog.asks_lift _) fun _ =>
        Prog.asks_bind (Prog.asks_lift _) fun _ => Prog.asks_pure _

/-- Whatever is planned, the native tool may answer every comparison with "below". -/
theorem parseWithDependencies_below {bytes : Option Bytes} : ∃ t r, AllBelow t ∧
    (NativePlan.parseWithDependencies crates bytes expected dependencies inventory
      repositoryId).Runs t r :=
  exists_allBelow (parseWithDependencies_asks.mono fun _ ⟨_, _, hq⟩ => ⟨_, hq⟩)

/-- Transactions are accepted exactly when their rows are the pending inputs and what they replace. -/
theorem parseWithDependencies_exact :
    (∀ t plan, (NativePlan.parseWithDependencies crates (some bytes) expected dependencies inventory
        repositoryId).Runs t (.ok plan) →
      PlannedExactly crates repositoryId inventory expected dependencies bytes t plan) ∧
    (Admissible repositoryId inventory expected dependencies →
      bytes.length ≤ MAX_TRANSACTION_BYTES →
      ∀ rows, (crates.json bytes).bind readTransaction = some ⟨"1.0", rows⟩ →
      ExactRows repositoryId inventory (planInputs expected dependencies) rows →
      ∀ t r, AllBelow t → (NativePlan.parseWithDependencies crates (some bytes) expected dependencies
        inventory repositoryId).Runs t r → ∃ plan, r = .ok plan) :=
  ⟨fun _ _ h => parseWithDependencies_sound h, fun hadmissible hsize _ hdocument hrows _ _ hbelow h =>
    parseWithDependencies_complete hadmissible hsize hdocument hrows hbelow h⟩

end

namespace Minimal

def rowJson (row : StoredRpm) : Json := .obj ([("nevra", .str row.nevra), ("action", .str row.action),
  ("reason", .str row.reason), ("repo_id", .str row.repoId)] ++
  (row.packagePath.map fun path => ("package_path", Json.str path)).toList)

def transactionJson (rows : List StoredRpm) : Json :=
  .obj [("version", .str "1.0"), ("rpms", .arr (rows.map rowJson))]

def transactionBytes (rows : List StoredRpm) : Bytes := utf8 (transactionJson rows).render

/-- The crates, which also read one transaction. -/
def planning (rows : List StoredRpm) : Crates where
  sha256 := crates.sha256
  json bytes := if bytes = transactionBytes rows then some (transactionJson rows) else crates.json bytes
  toml := crates.toml

theorem readStoredRpm_rowJson (row : StoredRpm) : readStoredRpm (rowJson row) = some row := by
  obtain ⟨nevra, action, reason, repoId, path⟩ := row
  cases path <;> rfl

theorem json_planning (rows : List StoredRpm) :
    (planning rows).json (transactionBytes rows) = some (transactionJson rows) := if_pos rfl

theorem readTransaction_planning (rows : List StoredRpm) :
    ((planning rows).json (transactionBytes rows)).bind readTransaction = some ⟨"1.0", rows⟩ := by
  have hread : ∀ rows : List StoredRpm, (rows.map rowJson).mapM readStoredRpm = some rows := by
    intro rows
    induction rows with
    | nil => rfl
    | cons row rows ih => simp [List.mapM_cons, readStoredRpm_rowJson, ih]
  have hdocument : readTransaction (transactionJson rows) =
      (readVec readStoredRpm (.arr (rows.map rowJson))).bind fun rows => some ⟨"1.0", rows⟩ := rfl
  have hrows : readVec readStoredRpm (.arr (rows.map rowJson)) = some rows := hread rows
  rw [json_planning, Option.bind_some, hdocument, hrows, Option.bind_some]

/-- An older release of the tools is installed. -/
def older : InstalledRpm := ⟨"intel-npu-stack-tools", "0:0.9-1.fc44", "x86_64", 1⟩

def outdated : NativeInventory := ⟨[bash, older], by decide +kernel, by decide⟩

/-- Install the metapackage, upgrade the tools, remove the older tools. -/
def upgrade : List StoredRpm := [
  ⟨"intel-npu-stack-tools-0.9-1.fc44.x86_64", "Replaced", "User", "@System", none⟩,
  ⟨"intel-npu-stack-1.0-1.fc44.noarch", "Install", "User", "@stored_transaction(@commandline)",
    some "./packages/intel-npu-stack-1.0-1.fc44.noarch.rpm"⟩,
  ⟨"intel-npu-stack-tools-1.0-1.fc44.x86_64", "Upgrade", "User", "@stored_transaction(@commandline)",
    some "./packages/intel-npu-stack-tools-1.0-1.fc44.x86_64.rpm"⟩]

theorem upgrade_admissible : Admissible "npu" outdated [stack, tools] [] where
  projects := by decide
  total := by decide
  repository := by decide
  valid := by
    intro p hp
    have hp : p ∈ manifest.packages := List.Perm.mem_iff (.swap ..) |>.mp hp
    exact manifest.package_valid hp
  distinct := by decide
  single := by decide
  pending := by decide
  stored := by simp

theorem upgrade_exact : ExactRows "npu" outdated (planInputs [stack, tools] []) upgrade where
  bound := ⟨_, .refl _, .cons ⟨by decide, by decide, by decide, by decide, by decide⟩
    (.cons ⟨by decide, by decide, by decide, by decide, by decide⟩ .nil)⟩
  replaced := ⟨_, .refl _, .cons ⟨by decide, by decide, by decide, by decide⟩ .nil⟩

/-- The upgrade can be planned. -/
theorem upgrade_planned : ∃ t plan, (NativePlan.parseWithDependencies (planning upgrade)
    (some (transactionBytes upgrade)) [stack, tools] [] outdated "npu").Runs t (.ok plan) := by
  have hsize : (transactionBytes upgrade).length ≤ MAX_TRANSACTION_BYTES := by
    rw [transactionBytes, length_utf8]
    decide +kernel
  obtain ⟨t, r, hbelow, hrun⟩ := parseWithDependencies_below
  obtain ⟨plan, rfl⟩ := parseWithDependencies_complete upgrade_admissible hsize
    (readTransaction_planning _) upgrade_exact hbelow hrun
  exact ⟨t, plan, hrun⟩

/-- A package name may start with an underscore. -/
def underscore : FedoraRpm where
  package := ⟨"_x", "0:1-1", "noarch", "_x-1-1.noarch.rpm", stack.sha256, .runtime⟩
  shape := {
    name := by decide
    evr := by decide +kernel
    arch := .inr rfl
    filename := ⟨"0", "1-1", by decide, by decide⟩
    sha256 := by rfl
    chars := by decide
    length := by decide }

def underscoreRow : StoredRpm := ⟨"_x-1-1.noarch", "Install", "Dependency",
  "@stored_transaction(fedora)", some "./packages/_x-1-1.noarch.rpm"⟩

end Minimal

/-- The older tools are upgraded and the metapackage is installed. -/
theorem parseWithDependencies_exact_upgrade : ∃ t plan,
    (NativePlan.parseWithDependencies (Minimal.planning Minimal.upgrade)
      (some (Minimal.transactionBytes Minimal.upgrade)) [Minimal.stack, Minimal.tools] []
      Minimal.outdated "npu").Runs t (.ok plan) ∧
    PlannedExactly (Minimal.planning Minimal.upgrade) "npu" Minimal.outdated
      [Minimal.stack, Minimal.tools] [] (Minimal.transactionBytes Minimal.upgrade) t plan := by
  obtain ⟨t, plan, hrun⟩ := Minimal.upgrade_planned
  exact ⟨t, plan, hrun, parseWithDependencies_exact.1 t plan hrun⟩

/-- Rows that correspond to the inputs are refused when a dependency's name starts with an
    underscore. -/
theorem underscore_refused :
    ExactRows "npu" Minimal.base (planInputs [] [Minimal.underscore]) [Minimal.underscoreRow] ∧
    ((Minimal.planning [Minimal.underscoreRow]).json
      (Minimal.transactionBytes [Minimal.underscoreRow])).bind readTransaction =
        some ⟨"1.0", [Minimal.underscoreRow]⟩ ∧
    (Minimal.transactionBytes [Minimal.underscoreRow]).length ≤ MAX_TRANSACTION_BYTES ∧
    ∀ t plan, ¬ (NativePlan.parseWithDependencies (Minimal.planning [Minimal.underscoreRow])
      (some (Minimal.transactionBytes [Minimal.underscoreRow])) [] [Minimal.underscore] Minimal.base
      "npu").Runs t (.ok plan) := by
  refine ⟨⟨⟨_, .refl _, .cons ⟨by decide, by decide, by decide, by decide, by decide⟩ .nil⟩,
    ⟨_, .refl _, .nil⟩⟩, Minimal.readTransaction_planning _, ?_, fun t plan h => ?_⟩
  · rw [Minimal.transactionBytes, length_utf8]
    decide +kernel
  · obtain ⟨rows, -, -, hbound⟩ := (parseWithDependencies_sound h).rows
    have hpending : Minimal.underscore.package ∈ plan.packages.map (·.expected) :=
      hbound.expected.mem_iff.mpr (by decide)
    obtain ⟨b, hb, hexpected⟩ := List.mem_map.mp hpending
    have hsafe := hbound.safe b hb
    rw [hexpected] at hsafe
    exact absurd hsafe (by decide)

end NpuStack.Install
