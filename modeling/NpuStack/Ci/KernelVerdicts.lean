import Mathlib.Data.List.Dedup
import Mathlib.Data.List.ReduceOption
import NpuStack.Ci.KernelWatch
import NpuStack.Schemes.Keyed
import NpuStack.Schemes.OrderedMap

/-! The kernel watcher finds exactly the builds that need action, in whatever order it is told of them.

        updates ──observe──▶ found      (keys: the kernels shown)
        records ──loadProbe──▶ outcomes (pairs: the records that cover)
        kernel × window ──windowAction──▶ at most one action

    Each of the three loops reads its items one by one, so their order does not matter (`Gather`). An
    update whose status is a list or a dictionary stops the watcher (`watched_iff`). -/

namespace NpuStack.Ci.KernelWatch
open Interaction Text
open Py (Value)

/-! ### Numbers and versions -/

theorem decimal_of_isDigit {c : Char} (h : c.isDigit = true) : decimal c = some (c.toNat - '0'.toNat) := by
  simp only [Char.isDigit, Bool.and_eq_true, decide_eq_true_eq, ge_iff_le, UInt32.le_iff_toNat_le,
    Char.toNat_val] at h
  change 48 ≤ c.toNat ∧ c.toNat ≤ 57 at h
  have hin : (decide (0x30 ≤ c.toNat) && decide (c.toNat < 0x30 + 10)) = true := by
    simp only [Bool.and_eq_true, decide_eq_true_eq]
    omega
  simp only [decimal, DIGIT_ZEROS, List.find?, hin]
  rfl

theorem int_of_isDigits {s : String} (h : isDigits s = true) : int s = Nat.ofDigitChars 10 s.toList 0 := by
  rw [isDigits, Bool.and_eq_true] at h
  have hall := all_iff.mp h.2
  have hfold : ∀ (cs : List Char) (n : ℕ), (∀ c ∈ cs, c.isDigit = true) →
      cs.foldl (fun n c => 10 * n + (decimal c).getD 0) n = Nat.ofDigitChars 10 cs n := by
    intro cs
    induction cs with
    | nil => intro n _; rfl
    | cons c cs ih =>
      intro n hcs
      obtain ⟨hc, hcs⟩ := List.forall_mem_cons.mp hcs
      rw [List.foldl_cons, decimal_of_isDigit hc, ih _ hcs, Nat.ofDigitChars_cons]
      rfl
  exact hfold _ _ hall

theorem int_repr (n : ℕ) : int n.repr = n := by
  rw [int_of_isDigits (isDigits_repr n), Nat.toList_repr, Nat.ofDigitChars_ten_toDigits]

/-- A version printed with dots reads back. -/
theorem split_dotted {version : List ℕ} (h : version ≠ []) : (split '.' (dotted version)).map int = version := by
  have hfree : ∀ part ∈ version.map Nat.repr, '.' ∉ part.toList := by
    intro part hpart hdot
    obtain ⟨n, -, rfl⟩ := List.mem_map.mp hpart
    have hdigits := isDigits_repr n
    rw [isDigits, Bool.and_eq_true] at hdigits
    exact absurd (all_iff.mp hdigits.2 '.' hdot) (by decide)
  rw [dotted, split_join hfree (by simpa using h), List.map_map]
  simp [Function.comp_def, int_repr]

/-! ### The builds found -/

theorem eq_str {value : Value} {s : String} : value.eq (.str s) = true ↔ value = .str s := by
  cases value with
  | str t => simp [Value.eq]
  | float f => cases f <;> simp [Value.eq, Value.number]
  | _ => simp [Value.eq, Value.number]

/-- An update entry shows a kernel build in a Fedora 44 repository. -/
def Shows (entry : Value) (kernel : String) (version : List ℕ) : Prop :=
  ∃ fields, entry = .dict fields ∧
    (∃ status ∈ ["stable", "testing", "obsolete"], field fields "status" = .str status ∧
      (status = "obsolete" → ∃ date, field fields "date_testing" = .str date ∧ date ≠ "")) ∧
    (∃ release, field fields "release" = .dict release ∧ field release "name" = .str "F44") ∧
    ∃ builds, field fields "builds" = .list builds ∧
      ∃ build ∈ builds, parseKernelNvr (buildNvr build) = some (version, kernel)

/-- A Fedora 44 kernel build that reached a repository. -/
def Reached (document : Value) (kernel : String) (version : List ℕ) : Prop :=
  ∃ entry ∈ bodhiUpdates document, Shows entry kernel version

/-- The status of an entry can be looked up. -/
def HasStatus (entry : Value) : Prop :=
  ∀ fields, entry = .dict fields → (field fields "status").hashable = true

/-- A build is known by its kernel. -/
theorem parseKernelNvr_kernel {nvr : Value} {version : List ℕ} {kernel : String}
    (h : parseKernelNvr nvr = some (version, kernel)) : nvr = .str ("kernel-" ++ kernel) := by
  simp only [parseKernelNvr, Option.bind_eq_bind, Option.bind_eq_some_iff] at h
  obtain ⟨text, htext, _, -, kernel', hkernel, version', -, heq⟩ := h
  obtain ⟨rfl, rfl⟩ := Prod.mk.inj (Option.some.inj heq)
  rw [stripPrefix_eq_some] at hkernel
  cases nvr with
  | str s => rw [← hkernel, Option.some.inj htext]
  | _ => cases htext

theorem version_unique {nvr nvr' : Value} {version version' : List ℕ} {kernel : String}
    (h : parseKernelNvr nvr = some (version, kernel)) (h' : parseKernelNvr nvr' = some (version', kernel)) :
    version = version' := by
  rw [parseKernelNvr_kernel h, ← parseKernelNvr_kernel h', h'] at h
  exact (Prod.mk.inj (Option.some.inj h)).1.symm

theorem mem_observed {status : String} : (OBSERVED.lookup status).isSome = true ↔
    status ∈ ["stable", "testing", "obsolete"] := by
  simp only [OBSERVED, List.lookup_cons, List.lookup_nil, List.mem_cons, List.not_mem_nil, or_false]
  by_cases h₁ : status = "stable"
  · simp [h₁]
  by_cases h₂ : status = "testing"
  · simp [h₂]
  by_cases h₃ : status = "obsolete"
  · simp [h₃]
  · simp [h₁, h₂, h₃, beq_eq_false_iff_ne.mpr h₁, beq_eq_false_iff_ne.mpr h₂, beq_eq_false_iff_ne.mpr h₃]

theorem nonemptyText_iff {value : Value} : nonemptyText value = true ↔ ∃ s, value = .str s ∧ s ≠ "" := by
  cases value <;> simp [nonemptyText]

theorem mem_entryBuilds {fields : List (String × Value)} {status : String} {build : Value} :
    build ∈ entryBuilds fields status ↔
      (status = "obsolete" → ∃ date, field fields "date_testing" = .str date ∧ date ≠ "") ∧
      (∃ release, field fields "release" = .dict release ∧ field release "name" = .str "F44") ∧
      ∃ builds, field fields "builds" = .list builds ∧ build ∈ builds := by
  rw [← nonemptyText_iff, entryBuilds]
  split
  next hobsolete =>
    simp only [Bool.and_eq_true, decide_eq_true_eq, Bool.not_eq_true'] at hobsolete
    refine ⟨fun h => absurd h List.not_mem_nil, fun h => ?_⟩
    rw [h.1 hobsolete.1] at hobsolete
    cases hobsolete.2
  next hreached =>
    have hdate : status = "obsolete" → nonemptyText (field fields "date_testing") = true := by
      simpa using hreached
    split
    next release builds hrelease hbuilds =>
      split
      next hname =>
        rw [eq_str] at hname
        refine ⟨fun h => ⟨hdate, ⟨release, hrelease, hname⟩, builds, hbuilds, h⟩, ?_⟩
        rintro ⟨-, -, builds', hbuilds', h⟩
        rwa [Value.list.inj (hbuilds.symm.trans hbuilds')]
      next hname =>
        refine ⟨fun h => absurd h List.not_mem_nil, ?_⟩
        rintro ⟨-, ⟨release', hrelease', hname'⟩, -⟩
        obtain rfl := Value.dict.inj (hrelease.symm.trans hrelease')
        exact absurd (eq_str.mpr hname') hname
    next hother =>
      refine ⟨fun h => absurd h List.not_mem_nil, ?_⟩
      rintro ⟨-, ⟨release, hrelease, -⟩, builds, hbuilds, -⟩
      exact absurd hbuilds (hother release builds hrelease)

theorem entryStatus_ok {fields : List (String × Value)} {status : Option String}
    (h : entryStatus fields = .ok status) (name : String) :
    status = some name ↔ name ∈ ["stable", "testing", "obsolete"] ∧ field fields "status" = .str name := by
  rw [entryStatus, except_bind_ok] at h
  obtain ⟨_, -, h⟩ := h
  cases h
  rw [Option.filter_eq_some_iff, mem_observed, and_comm]
  refine and_congr_right fun _ => ?_
  cases field fields "status" <;> simp [Value.asStr]

/-- What is read of an entry is what it shows. -/
theorem observeEntry_ok {entry : Value} {builds : List (String × Observed)}
    (h : observeEntry entry = .ok builds) {kernel : String} {version : List ℕ} :
    (∃ build, (kernel, build) ∈ builds ∧ build.version = version) ↔ Shows entry kernel version := by
  rw [observeEntry.eq_def] at h
  split at h
  next fields =>
    rw [except_bind_ok] at h
    obtain ⟨status, hstatus, h⟩ := h
    have hnames := entryStatus_ok hstatus
    cases status with
    | none =>
      cases h
      refine ⟨fun ⟨_, habs, _⟩ => absurd habs List.not_mem_nil, ?_⟩
      rintro ⟨fields', heq, ⟨status, hmem, hfield, -⟩, -⟩
      cases heq
      cases (hnames status).mpr ⟨hmem, hfield⟩
    | some status =>
      cases h
      obtain ⟨hmem, hfield⟩ := (hnames status).mp rfl
      constructor
      · rintro ⟨build, hbuild, rfl⟩
        obtain ⟨raw, hraw, heq⟩ := List.mem_filterMap.mp hbuild
        obtain ⟨⟨version, kernel'⟩, hparse, heq⟩ := Option.map_eq_some_iff.mp heq
        obtain ⟨rfl, rfl⟩ := Prod.mk.inj heq
        obtain ⟨hdate, hrelease, raws, hraws, hraw⟩ := mem_entryBuilds.mp hraw
        exact ⟨fields, rfl, ⟨status, hmem, hfield, hdate⟩, hrelease, raws, hraws, raw, hraw, hparse⟩
      · rintro ⟨fields', heq, ⟨status', hmem', hfield', hdate⟩, hrelease, raws, hraws, raw, hraw, hparse⟩
        cases heq
        obtain rfl : status = status' := Value.str.inj (hfield.symm.trans hfield')
        have hbuild := mem_entryBuilds.mpr ⟨hdate, hrelease, raws, hraws, hraw⟩
        refine ⟨⟨version, status, ((field fields "alias").asStr.filter isAlias).getD ""⟩,
          List.mem_filterMap.mpr ⟨raw, hbuild, ?_⟩, rfl⟩
        rw [hparse]
        rfl
  next hother =>
    cases h
    refine ⟨fun ⟨_, habs, _⟩ => absurd habs List.not_mem_nil, ?_⟩
    rintro ⟨fields, heq, -⟩
    exact absurd heq (hother fields)

theorem observeEntry_total {entry : Value} : (∃ builds, observeEntry entry = .ok builds) ↔ HasStatus entry := by
  rw [observeEntry.eq_def]
  split
  next fields =>
    constructor
    · rintro ⟨builds, h⟩ fields' heq
      cases heq
      rw [except_bind_ok] at h
      obtain ⟨status, hstatus, -⟩ := h
      rw [entryStatus, except_bind_ok] at hstatus
      exact require_ok.mp hstatus.choose_spec.1
    · intro h
      rw [entryStatus, require_pos (h fields rfl), except_ok_bind]
      cases (field fields "status").asStr.filter fun status => (OBSERVED.lookup status).isSome with
      | none => exact ⟨_, rfl⟩
      | some status => exact ⟨_, rfl⟩
  next hother => exact ⟨fun _ fields heq => absurd heq (hother fields), fun _ => ⟨_, rfl⟩⟩

/-! ### The kernels of a document -/

/-- What is found after some entries: each kernel they show, once, with its version. -/
structure Found (found : List (String × Observed)) (shown : List (List (String × Observed))) : Prop where
  unique : (found.map Prod.fst).Nodup
  kernels : ∀ kernel, kernel ∈ found.map Prod.fst ↔ kernel ∈ shown.flatten.map Prod.fst
  among : ∀ item ∈ found, item ∈ shown.flatten

theorem mem_keys_recordBuild {found : List (String × Observed)} {build : String × Observed} {kernel : String} :
    kernel ∈ (recordBuild found build).map Prod.fst ↔ kernel ∈ found.map Prod.fst ∨ kernel = build.1 := by
  rw [recordBuild]
  split
  next current hcurrent =>
    split
    next => exact Py.mem_keys_insertItem
    next =>
      refine ⟨.inl, ?_⟩
      rintro (hmem | rfl)
      · exact hmem
      · exact List.mem_map.mpr ⟨_, Keyed.mem_of_lookup hcurrent, rfl⟩
  next => exact Py.mem_keys_insertItem

theorem mem_recordBuild {found : List (String × Observed)} {build item : String × Observed}
    (h : item ∈ recordBuild found build) : item ∈ found ∨ item = build := by
  rw [recordBuild] at h
  split at h
  next =>
    split at h
    next => exact Py.mem_insertItem h
    next => exact .inl h
  next => exact Py.mem_insertItem h

theorem nodup_recordBuild {found : List (String × Observed)} {build : String × Observed}
    (h : (found.map Prod.fst).Nodup) : ((recordBuild found build).map Prod.fst).Nodup := by
  rw [recordBuild]
  split
  next =>
    split
    next => exact Py.nodup_insertItem h
    next => exact h
  next => exact Py.nodup_insertItem h

/-- Recording one more entry keeps what is found exact. -/
theorem Found.record : ∀ {builds found : List (String × Observed)} {shown : List (List (String × Observed))}
    {done : List (String × Observed)}, Found found (shown ++ [done]) →
      Found (builds.foldl recordBuild found) (shown ++ [done ++ builds])
  | [], found, shown, done, h => by simpa using h
  | build :: builds, found, shown, done, h => by
    have hnext : Found (recordBuild found build) (shown ++ [done ++ [build]]) := by
      refine ⟨nodup_recordBuild h.unique, fun kernel => ?_, fun item hitem => ?_⟩
      · rw [mem_keys_recordBuild, h.kernels]
        simp [or_assoc]
      · rcases mem_recordBuild hitem with hmem | rfl
        · have := h.among item hmem
          simp only [List.flatten_append, List.flatten_singleton, List.mem_append] at this ⊢
          tauto
        · simp
    have hrest : Found (builds.foldl recordBuild (recordBuild found build))
        (shown ++ [done ++ [build] ++ builds]) :=
      hnext.record
    simpa using hrest

theorem observe_steps : Gather.Steps observe observeEntry (fun _ _ => True) Found where
  ok := by
    intro found shown entry found' hfound h
    rw [observe, except_bind_ok] at h
    obtain ⟨builds, hbuilds, h⟩ := h
    cases h
    have hnil : Found found (shown ++ [[]]) := ⟨hfound.unique, by simpa using hfound.kernels, by
      simpa using hfound.among⟩
    exact ⟨builds, hbuilds, fun _ _ => trivial, by simpa using hnil.record⟩
  total := by
    intro found shown entry builds _ h _
    exact ⟨builds.foldl recordBuild found, by rw [observe, h, except_ok_bind]; rfl⟩

/-- The kernels of a document are those that reached a repository, each once. -/
structure Listed (document : Value) (kernels : List Kernel) : Prop where
  unique : (kernels.map Kernel.kernel).Nodup
  reached : ∀ kernel, kernel ∈ kernels.map Kernel.kernel ↔ ∃ version, Reached document kernel version
  version : ∀ item ∈ kernels, ∀ version, Reached document item.kernel version → item.version = dotted version

theorem reached_unique {document : Value} {kernel : String} {version version' : List ℕ}
    (h : Reached document kernel version) (h' : Reached document kernel version') : version = version' := by
  obtain ⟨_, -, _, -, -, -, _, -, _, -, hparse⟩ := h
  obtain ⟨_, -, _, -, -, -, _, -, _, -, hparse'⟩ := h'
  exact version_unique hparse hparse'

/-- Every update of a document has a status that can be looked up. -/
def HasStatuses (document : Value) : Prop := ∀ entry ∈ bodhiUpdates document, HasStatus entry

theorem found_nil : Found [] [] := ⟨by simp, by simp, by simp⟩

/-- What the shown builds of a document's updates are. -/
theorem mem_shown {document : Value} {shown : List (List (String × Observed))}
    (h : List.Forall₂ (fun entry builds => observeEntry entry = .ok builds) (bodhiUpdates document) shown)
    {kernel : String} {version : List ℕ} :
    (∃ build, (kernel, build) ∈ shown.flatten ∧ build.version = version) ↔ Reached document kernel version := by
  constructor
  · rintro ⟨build, hbuild, rfl⟩
    obtain ⟨builds, hbuilds, hbuild⟩ := List.mem_flatten.mp hbuild
    obtain ⟨entry, hentry, hobserve⟩ := Keyed.exists_of_mem_right h _ hbuilds
    exact ⟨entry, hentry, (observeEntry_ok hobserve).mp ⟨build, hbuild, rfl⟩⟩
  · rintro ⟨entry, hentry, hshows⟩
    obtain ⟨builds, hbuilds, hobserve⟩ := Keyed.exists_of_mem_left h _ hentry
    obtain ⟨build, hbuild, rfl⟩ := (observeEntry_ok hobserve).mpr hshows
    exact ⟨build, List.mem_flatten.mpr ⟨builds, hbuilds, hbuild⟩, rfl⟩

theorem kernelsFromBodhi_ok {document : Value} {kernels : List Kernel}
    (h : kernelsFromBodhi document = .ok kernels) : Listed document kernels := by
  rw [kernelsFromBodhi, except_bind_ok] at h
  obtain ⟨found, hfound, h⟩ := h
  cases h
  obtain ⟨shown, hshown, -, hexact⟩ := Gather.foldlM_ok observe_steps found_nil .nil hfound
  rw [List.nil_append] at hexact
  have hperm := List.mergeSort_perm found fun a b => decide (b.2.version ≤ a.2.version)
  have hnames : ((found.mergeSort fun a b => decide (b.2.version ≤ a.2.version)).map fun item =>
      Kernel.mk item.1 (dotted item.2.version) item.2.status item.2.update).map Kernel.kernel =
      (found.mergeSort fun a b => decide (b.2.version ≤ a.2.version)).map Prod.fst := by
    rw [List.map_map]
    rfl
  have hversion : ∀ item ∈ found, Reached document item.1 item.2.version :=
    fun item hitem => (mem_shown hshown).mp ⟨item.2, hexact.among item hitem, rfl⟩
  constructor
  case unique =>
    rw [hnames]
    exact (hperm.map _).nodup_iff.mpr hexact.unique
  case reached =>
    intro kernel
    rw [hnames, (hperm.map _).mem_iff]
    constructor
    · intro hmem
      obtain ⟨item, hitem, rfl⟩ := List.mem_map.mp hmem
      exact ⟨_, hversion item hitem⟩
    · rintro ⟨version, hreached⟩
      obtain ⟨build, hbuild, -⟩ := (mem_shown hshown).mpr hreached
      exact (hexact.kernels kernel).mpr (List.mem_map.mpr ⟨_, hbuild, rfl⟩)
  case version =>
    intro item hitem version hreached
    obtain ⟨item', hitem', rfl⟩ := List.mem_map.mp hitem
    exact congrArg dotted (reached_unique (hversion item' (hperm.mem_iff.mp hitem')) hreached)

theorem kernelsFromBodhi_total {document : Value} :
    (∃ kernels, kernelsFromBodhi document = .ok kernels) ↔ HasStatuses document := by
  constructor
  · rintro ⟨kernels, h⟩ entry hentry
    rw [kernelsFromBodhi, except_bind_ok] at h
    obtain ⟨found, hfound, -⟩ := h
    obtain ⟨shown, hshown, -⟩ := Gather.foldlM_ok observe_steps found_nil .nil hfound
    obtain ⟨builds, -, hbuilds⟩ := Keyed.exists_of_mem_left hshown entry hentry
    exact observeEntry_total.mp ⟨builds, hbuilds⟩
  · intro h
    obtain ⟨shown, hshown⟩ := Keyed.exists_forall₂ fun entry hentry => observeEntry_total.mpr (h entry hentry)
    obtain ⟨found, hfound, -⟩ := Gather.foldlM_total observe_steps found_nil hshown
      (List.pairwise_of_forall fun _ _ => trivial)
    exact ⟨_, by rw [kernelsFromBodhi, hfound, except_ok_bind]; rfl⟩

/-! ### Windows -/

/-- A window with releases at both ends. -/
def Window.Parsed (window : Window) (low high : List ℕ) : Prop :=
  parseVersion (.str window.min) = .ok low ∧ parseVersion (.str window.maxExclusive) = .ok high ∧ low < high

/-- Windows of qualified profiles: each profile once, each window between two releases. -/
structure Qualified (windows : List Window) : Prop where
  unique : (windows.map Window.id).Nodup
  parsed : ∀ window ∈ windows, ∃ low high, window.Parsed low high

section
variable {componentsSha : List (String × Value) → Option String}

theorem parseVersion_str {value : Value} {version : List ℕ} (h : parseVersion value = .ok version) :
    ∃ text, value.asStr = some text ∧ parseVersion (.str text) = .ok version := by
  have h' := h
  rw [parseVersion, except_bind_ok] at h'
  obtain ⟨text, htext, -⟩ := h'
  rw [need_ok] at htext
  refine ⟨text, htext, ?_⟩
  cases value with
  | str s =>
    cases htext
    exact h
  | _ => cases htext

/-- A qualified profile's window, read on its own. -/
structure ReadsWindow (componentsSha : List (String × Value) → Option String) (document : Value)
    (window : Window) : Prop where
  qualified : isQualified document = .ok true
  kernel : ∃ kernel min max low high, document.getD "kernel" (.dict []) = some kernel ∧
    kernel.get "min" = some min ∧ kernel.get "max_exclusive" = some max ∧ min.asStr = some window.min ∧
    max.asStr = some window.maxExclusive ∧ parseVersion min = .ok low ∧ parseVersion max = .ok high ∧ low < high
  evidence : ∃ qualification evidence, document.getD "qualification" (.dict []) = some qualification ∧
    qualification.get "evidence_sha256" = some evidence ∧ evidence.asStr.filter isDigest = some window.evidence
  id : ∃ id, document.get "id" = some id ∧ validProfileId id = some window.id
  components : componentsDigest componentsSha document = .ok window.components

/-- One profile adds its window, unless its id is taken. -/
theorem addWindow_ok {windows windows' : List Window} {document : Value} :
    addWindow componentsSha windows document = .ok windows' ↔
      isQualified document = .ok false ∧ windows' = windows ∨
      ∃ window, ReadsWindow componentsSha document window ∧ window.id ∉ windows.map Window.id ∧
        windows' = windows ++ [window] := by
  rw [addWindow, except_bind_ok]
  constructor
  · rintro ⟨qualified, hqualified, h⟩
    cases qualified with
    | false =>
      cases h
      exact .inl ⟨hqualified, rfl⟩
    | true =>
      simp only [Bool.not_true, Bool.false_eq_true, if_false, except_bind_ok, need_ok, require_ok] at h
      obtain ⟨kernel, hkernel, min, hmin, max, hmax, low, hlow, high, hhigh, _, hlt, qualification, hqual,
        evidence, hevidence, evidence', hdigest, id, hid, id', hid', _, hfresh, min', hmin', max', hmax',
        components, hcomponents, h⟩ := h
      cases h
      exact .inr ⟨⟨id', min', max', evidence', components⟩, ⟨hqualified,
        ⟨kernel, min, max, low, high, hkernel, hmin, hmax, hmin', hmax', hlow, hhigh, hlt⟩,
        ⟨qualification, evidence, hqual, hevidence, hdigest⟩, ⟨id, hid, hid'⟩, hcomponents⟩, hfresh, rfl⟩
  · rintro (⟨hqualified, rfl⟩ | ⟨window, hreads, hfresh, rfl⟩)
    · exact ⟨false, hqualified, rfl⟩
    · refine ⟨true, hreads.qualified, ?_⟩
      obtain ⟨kernel, min, max, low, high, hkernel, hmin, hmax, hmin', hmax', hlow, hhigh, hlt⟩ := hreads.kernel
      obtain ⟨qualification, evidence, hqual, hevidence, hdigest⟩ := hreads.evidence
      obtain ⟨id, hid, hid'⟩ := hreads.id
      simp only [Bool.not_true, Bool.false_eq_true, if_false, except_bind_ok, need_ok, require_ok]
      exact ⟨kernel, hkernel, min, hmin, max, hmax, low, hlow, high, hhigh, ⟨⟩, hlt, qualification, hqual,
        evidence, hevidence, window.evidence, hdigest, id, hid, window.id, hid', ⟨⟩, hfresh, window.min, hmin',
        window.maxExclusive, hmax', window.components, hreads.components, rfl⟩

theorem ReadsWindow.parsed {document : Value} {window : Window}
    (h : ReadsWindow componentsSha document window) : ∃ low high, window.Parsed low high := by
  obtain ⟨kernel, min, max, low, high, -, -, -, hmin, hmax, hlow, hhigh, hlt⟩ := h.kernel
  obtain ⟨text, htext, hparse⟩ := parseVersion_str hlow
  obtain ⟨text', htext', hparse'⟩ := parseVersion_str hhigh
  obtain rfl := Option.some.inj (htext.symm.trans hmin)
  obtain rfl := Option.some.inj (htext'.symm.trans hmax)
  exact ⟨low, high, hparse, hparse', hlt⟩

/-- The window of a profile, if it is a qualified one. -/
def readWindow (componentsSha : List (String × Value) → Option String) (document : Value) :
    Except String (List Window) := addWindow componentsSha [] document

theorem readWindow_ok {document : Value} {added : List Window} :
    readWindow componentsSha document = .ok added ↔ isQualified document = .ok false ∧ added = [] ∨
      ∃ window, ReadsWindow componentsSha document window ∧ added = [window] := by
  rw [readWindow, addWindow_ok]
  simp

/-- The windows gathered from some profiles. -/
structure Windows (windows : List Window) (gathered : List (List Window)) : Prop where
  all : windows = gathered.flatten
  qualified : Qualified windows

theorem addWindow_steps : Gather.Steps (addWindow componentsSha) (readWindow componentsSha)
    (fun earlier later => ∀ a ∈ earlier, ∀ b ∈ later, a.id ≠ b.id) Windows where
  ok := by
    intro windows gathered document windows' hI h
    rcases addWindow_ok.mp h with ⟨hqualified, rfl⟩ | ⟨window, hreads, hfresh, rfl⟩
    · exact ⟨[], readWindow_ok.mpr (.inl ⟨hqualified, rfl⟩), by simp, by simpa using hI.all, hI.qualified⟩
    · refine ⟨[window], readWindow_ok.mpr (.inr ⟨window, hreads, rfl⟩), ?_, by simp [hI.all], ?_, ?_⟩
      · intro earlier hearlier a ha b hb heq
        rw [List.mem_singleton.mp hb] at heq
        refine hfresh (List.mem_map.mpr ⟨a, ?_, heq⟩)
        rw [hI.all]
        exact List.mem_flatten.mpr ⟨earlier, hearlier, ha⟩
      · rw [List.map_append, List.map_singleton, ← List.concat_eq_append]
        exact hI.qualified.unique.concat hfresh
      · rw [List.forall_mem_append]
        exact ⟨hI.qualified.parsed, by simpa using hreads.parsed⟩
  total := by
    intro windows gathered document added hI h hfits
    rcases readWindow_ok.mp h with ⟨hqualified, rfl⟩ | ⟨window, hreads, rfl⟩
    · exact ⟨windows, addWindow_ok.mpr (.inl ⟨hqualified, rfl⟩)⟩
    · refine ⟨windows ++ [window], addWindow_ok.mpr (.inr ⟨window, hreads, ?_, rfl⟩)⟩
      intro hmem
      obtain ⟨other, hother, heq⟩ := List.mem_map.mp hmem
      rw [hI.all] at hother
      obtain ⟨earlier, hearlier, hother⟩ := List.mem_flatten.mp hother
      exact hfits earlier hearlier other hother window List.mem_cons_self heq

theorem windows_nil : Windows [] [] := ⟨rfl, by simp, by simp⟩

theorem qualifiedWindows_ok {documents : List Value} {windows : List Window}
    (h : qualifiedWindows componentsSha documents = .ok windows) : Qualified windows := by
  obtain ⟨_, -, -, hI⟩ := Gather.foldlM_ok addWindow_steps windows_nil .nil h
  exact hI.qualified

/-- The windows do not depend on the order of the profiles. -/
theorem qualifiedWindows_perm {documents documents' : List Value} {windows : List Window}
    (hperm : documents.Perm documents') (h : qualifiedWindows componentsSha documents = .ok windows) :
    ∃ windows', qualifiedWindows componentsSha documents' = .ok windows' ∧ windows.Perm windows' := by
  have hsymm : ∀ earlier later : List Window, (∀ a ∈ earlier, ∀ b ∈ later, a.id ≠ b.id) →
      ∀ a ∈ later, ∀ b ∈ earlier, a.id ≠ b.id := fun _ _ hfits a ha b hb => (hfits b hb a ha).symm
  obtain ⟨gathered, gathered', windows', hrun, hI, hI', hp⟩ :=
    Gather.foldlM_perm addWindow_steps hsymm windows_nil hperm h
  refine ⟨windows', hrun, ?_⟩
  rw [hI.all, hI'.all]
  exact hp.flatten

end

/-! ### Records that cover a kernel -/

/-- A record applies to a kernel under a window: it is of its profile, and ran on its component set and, for
    a qualification, on its evidence. -/
structure Covers (window : Window) (kernel : String) (probe : Probe) : Prop where
  profile : probe.profile = window.id
  kernel : probe.kernel = kernel
  components : probe.components = window.components
  evidence : probe.qualification = true → probe.evidence = window.evidence

theorem staleReason_none {window : Window} {probe : Probe} : staleReason window probe = none ↔
    probe.components = window.components ∧ (probe.qualification = true → probe.evidence = window.evidence) := by
  rw [staleReason]
  split
  next h => exact ⟨nofun, fun h' => absurd h'.1 h⟩
  next h =>
    rw [not_not] at h
    split
    next h' => exact ⟨nofun, fun h'' => absurd (h''.2 h'.1) h'.2⟩
    next h' =>
      refine ⟨fun _ => ⟨h, fun hq => ?_⟩, fun _ => rfl⟩
      by_contra hne
      exact h' ⟨hq, hne⟩

theorem currentWindow_eq_some {windows : List Window} (hunique : (windows.map Window.id).Nodup)
    {profile : String} {window : Window} :
    currentWindow windows profile = some window ↔ window ∈ windows ∧ window.id = profile := by
  constructor
  · intro h
    exact ⟨List.mem_reverse.mp (List.mem_of_find?_eq_some h), by simpa using List.find?_some h⟩
  · rintro ⟨hmem, rfl⟩
    cases h : currentWindow windows window.id with
    | none =>
      rw [currentWindow, List.find?_eq_none] at h
      exact absurd (by simp) (h window (List.mem_reverse.mpr hmem))
    | some other =>
      have hother := List.mem_reverse.mp (List.mem_of_find?_eq_some h)
      have hid : other.id = window.id := by simpa using List.find?_some h
      rw [List.inj_on_of_nodup_map hunique hother hmem hid]

theorem currentWindow_eq_none {windows : List Window} {profile : String}
    (h : currentWindow windows profile = none) : ∀ window ∈ windows, window.id ≠ profile := by
  rw [currentWindow, List.find?_eq_none] at h
  exact fun window hmem heq => h window (List.mem_reverse.mpr hmem) (by simpa using heq)

/-- Two records can stand in one registry: they are not the same, and agree where both apply. -/
def Fits (windows : List Window) (p q : Probe) : Prop :=
  p.identity ≠ q.identity ∧
    ∀ window ∈ windows, ∀ kernel, Covers window kernel p → Covers window kernel q → p.pass = q.pass

/-- The outcome of a profile and kernel is what the records that apply say. -/
structure Outcomes (windows : List Window) (loaded : Loaded) (probes : List Probe) : Prop where
  seen : loaded.seen = probes.map Probe.identity
  outcomes : ∀ window ∈ windows, ∀ kernel pass, loaded.outcomes.lookup (window.id, kernel) = some pass ↔
    ∃ probe ∈ probes, Covers window kernel probe ∧ probe.pass = pass

theorem Outcomes.skip {windows : List Window} {loaded loaded' : Loaded} {probes : List Probe} {probe : Probe}
    (h : Outcomes windows loaded probes) (hseen : loaded'.seen = loaded.seen ++ [probe.identity])
    (houtcomes : loaded'.outcomes = loaded.outcomes)
    (hprobe : ∀ window ∈ windows, ∀ kernel, Covers window kernel probe →
      loaded.outcomes.lookup (window.id, kernel) = some probe.pass) :
    Outcomes windows loaded' (probes ++ [probe]) := by
  refine ⟨by rw [hseen, h.seen, List.map_append]; rfl, fun window hwindow kernel pass => ?_⟩
  rw [houtcomes]
  constructor
  · intro hlookup
    obtain ⟨earlier, hmem, hcovers⟩ := (h.outcomes window hwindow kernel pass).mp hlookup
    exact ⟨earlier, List.mem_append_left _ hmem, hcovers⟩
  · rintro ⟨other, hmem, hcovers, rfl⟩
    rcases List.mem_append.mp hmem with hmem | hmem
    · exact (h.outcomes window hwindow kernel _).mpr ⟨other, hmem, hcovers, rfl⟩
    · rw [List.mem_singleton.mp hmem] at hcovers ⊢
      exact hprobe window hwindow kernel hcovers

/-- The first record that applies to a profile and kernel gives its outcome. -/
theorem Outcomes.extend {windows : List Window} {loaded loaded' : Loaded} {probes : List Probe} {probe : Probe}
    {window : Window} (hunique : (windows.map Window.id).Nodup) (hwindow : window ∈ windows)
    (h : Outcomes windows loaded probes)
    (houtcomes : loaded'.outcomes = loaded.outcomes ++ [((window.id, probe.kernel), probe.pass)])
    (hlookup : loaded.outcomes.lookup (window.id, probe.kernel) = none)
    (hcovers : Covers window probe.kernel probe) :
    ∀ other ∈ windows, ∀ kernel pass, loaded'.outcomes.lookup (other.id, kernel) = some pass ↔
      ∃ recorded ∈ probes ++ [probe], Covers other kernel recorded ∧ recorded.pass = pass := by
  intro other hother kernel pass
  rw [houtcomes, List.lookup_append, Option.or_eq_some_iff, h.outcomes other hother]
  constructor
  · rintro (⟨earlier, hmem, hearlier⟩ | ⟨-, hnew⟩)
    · exact ⟨earlier, List.mem_append_left _ hmem, hearlier⟩
    · obtain ⟨heq, rfl⟩ := Prod.mk.inj (List.mem_singleton.mp (Keyed.mem_of_lookup hnew))
      obtain ⟨hid, rfl⟩ := Prod.mk.inj heq
      obtain rfl := List.inj_on_of_nodup_map hunique hother hwindow hid
      exact ⟨probe, by simp, hcovers, rfl⟩
  · rintro ⟨recorded, hmem, hrecorded, rfl⟩
    rcases List.mem_append.mp hmem with hmem | hmem
    · exact .inl ⟨recorded, hmem, hrecorded, rfl⟩
    · rw [List.mem_singleton.mp hmem] at hrecorded ⊢
      have hid := hrecorded.profile.symm.trans hcovers.profile
      obtain rfl := List.inj_on_of_nodup_map hunique hother hwindow hid
      obtain rfl := hrecorded.kernel
      exact .inr ⟨hlookup, by simp⟩

theorem loadProbe_steps {windows : List Window} (hunique : (windows.map Window.id).Nodup) :
    Gather.Steps (loadProbe windows) readProbe (Fits windows) (Outcomes windows) where
  ok := by
    intro loaded probes raw loaded' hI h
    rw [loadProbe, except_bind_ok] at h
    obtain ⟨probe, hread, h⟩ := h
    rw [except_bind_ok] at h
    obtain ⟨_, hfresh, h⟩ := h
    rw [require_ok, hI.seen] at hfresh
    have hidentity : ∀ earlier ∈ probes, earlier.identity ≠ probe.identity :=
      fun earlier hmem heq => hfresh (List.mem_map.mpr ⟨earlier, hmem, heq⟩)
    refine ⟨probe, hread, ?_⟩
    split at h
    next hnone =>
      cases h
      have hfree : ∀ window ∈ windows, ∀ kernel, ¬ Covers window kernel probe := fun window hwindow _ hcovers =>
        currentWindow_eq_none hnone window hwindow hcovers.profile.symm
      exact ⟨fun earlier hmem => ⟨hidentity earlier hmem, fun window hwindow kernel _ hcovers =>
        absurd hcovers (hfree window hwindow kernel)⟩,
        hI.skip rfl rfl fun window hwindow kernel hcovers => absurd hcovers (hfree window hwindow kernel)⟩
    next window hwindow =>
      obtain ⟨hmem, hid⟩ := (currentWindow_eq_some hunique).mp hwindow
      -- A record covers under no window but its profile's.
      have honly : ∀ other ∈ windows, ∀ kernel, Covers other kernel probe → other = window := fun other hother _ hcovers =>
        List.inj_on_of_nodup_map hunique hother hmem (hcovers.profile.symm.trans hid.symm)
      split at h
      next reason hstale =>
        cases h
        have hfree : ∀ window ∈ windows, ∀ kernel, ¬ Covers window kernel probe := by
          intro other hother kernel hcovers
          obtain rfl := honly other hother kernel hcovers
          rw [staleReason_none.mpr ⟨hcovers.components, hcovers.evidence⟩] at hstale
          cases hstale
        exact ⟨fun earlier hmem => ⟨hidentity earlier hmem, fun window hwindow kernel _ hcovers =>
          absurd hcovers (hfree window hwindow kernel)⟩,
          hI.skip rfl rfl fun window hwindow kernel hcovers => absurd hcovers (hfree window hwindow kernel)⟩
      next hstale =>
        rw [staleReason_none] at hstale
        have hcovers : Covers window probe.kernel probe := ⟨hid.symm, rfl, hstale.1, hstale.2⟩
        rw [← hid] at h
        dsimp only at h
        split at h
        next pass hlookup =>
          rw [except_bind_ok] at h
          obtain ⟨_, hagree, h⟩ := h
          cases h
          rw [require_ok] at hagree
          subst hagree
          refine ⟨fun earlier hearlier => ⟨hidentity earlier hearlier, ?_⟩, hI.skip rfl rfl ?_⟩
          · intro other hother kernel hcovers₁ hcovers₂
            obtain rfl := honly other hother kernel hcovers₂
            obtain rfl := hcovers₂.kernel
            have := (hI.outcomes other hother _ earlier.pass).mpr ⟨earlier, hearlier, hcovers₁, rfl⟩
            exact Option.some.inj (this.symm.trans hlookup)
          · intro other hother kernel hcovers'
            obtain rfl := honly other hother kernel hcovers'
            obtain rfl := hcovers'.kernel
            exact hlookup
        next hlookup =>
          cases h
          refine ⟨fun earlier hearlier => ⟨hidentity earlier hearlier, ?_⟩, ?_, ?_⟩
          · intro other hother kernel hcovers₁ hcovers₂
            obtain rfl := honly other hother kernel hcovers₂
            obtain rfl := hcovers₂.kernel
            have := (hI.outcomes other hother _ earlier.pass).mpr ⟨earlier, hearlier, hcovers₁, rfl⟩
            rw [hlookup] at this
            cases this
          · simp [hI.seen]
          · exact hI.extend hunique hmem rfl hlookup hcovers
  total := by
    intro loaded probes raw probe hI hread hfits
    have hfresh : probe.identity ∉ loaded.seen := by
      rw [hI.seen]
      intro hmem
      obtain ⟨earlier, hearlier, heq⟩ := List.mem_map.mp hmem
      exact (hfits earlier hearlier).1 heq
    rw [loadProbe, hread, except_ok_bind, require_pos hfresh, except_ok_bind]
    split
    next => exact ⟨_, rfl⟩
    next window hwindow =>
      obtain ⟨hmem, hid⟩ := (currentWindow_eq_some hunique).mp hwindow
      split
      next => exact ⟨_, rfl⟩
      next hstale =>
        rw [staleReason_none] at hstale
        have hcovers : Covers window probe.kernel probe := ⟨hid.symm, rfl, hstale.1, hstale.2⟩
        rw [← hid]
        dsimp only
        split
        next pass hlookup =>
          obtain ⟨earlier, hearlier, hcovers', rfl⟩ := (hI.outcomes window hmem _ pass).mp hlookup
          have hagree := (hfits earlier hearlier).2 window hmem _ hcovers' hcovers
          rw [require_pos hagree, except_ok_bind]
          exact ⟨_, rfl⟩
        next => exact ⟨_, rfl⟩

/-- The last window of an id does not depend on their order. -/
theorem currentWindow_perm {windows windows' : List Window} (hunique : (windows.map Window.id).Nodup)
    (hperm : windows.Perm windows') : currentWindow windows' = currentWindow windows := by
  have hunique' : (windows'.map Window.id).Nodup := (hperm.map _).nodup_iff.mp hunique
  funext profile
  refine Option.ext fun window => ?_
  rw [currentWindow_eq_some hunique', currentWindow_eq_some hunique, hperm.mem_iff]

/-! ### Verdicts -/

/-- Some record that applies says pass. -/
def Passed (probes : List Probe) (window : Window) (kernel : String) : Prop :=
  ∃ probe ∈ probes, Covers window kernel probe ∧ probe.pass = true

/-- Some record that applies says fail. -/
def Failed (probes : List Probe) (window : Window) (kernel : String) : Prop :=
  ∃ probe ∈ probes, Covers window kernel probe ∧ probe.pass = false

/-- A window asks for an action on a kernel. -/
def Needs (probes : List Probe) (window : Window) (kernel : String) (version : List ℕ) : Prop :=
  ∃ low high, window.Parsed low high ∧ low ≤ version ∧ (high ≤ version ∨ ¬ Passed probes window kernel)

/-- The action a window asks for. -/
def Asks (probes : List Probe) (window : Window) (kernel : String) (version : List ℕ) (verdict : Verdict) :
    Prop :=
  ∃ low high, window.Parsed low high ∧ low ≤ version ∧
    (high ≤ version ∧ verdict = .requalificationRequired ∨
      version < high ∧ ¬ Passed probes window kernel ∧
        (Failed probes window kernel ∧ verdict = .probeFailed ∨
          ¬ Failed probes window kernel ∧ verdict = .probeRequired))

theorem needs_iff {probes : List Probe} {window : Window} {kernel : String} {version : List ℕ} :
    Needs probes window kernel version ↔ ∃ verdict, Asks probes window kernel version verdict := by
  constructor
  · rintro ⟨low, high, hparsed, hlow, hneeds⟩
    by_cases hhigh : high ≤ version
    · exact ⟨_, low, high, hparsed, hlow, .inl ⟨hhigh, rfl⟩⟩
    · have hpass := hneeds.resolve_left hhigh
      by_cases hfail : Failed probes window kernel
      · exact ⟨_, low, high, hparsed, hlow, .inr ⟨not_le.mp hhigh, hpass, .inl ⟨hfail, rfl⟩⟩⟩
      · exact ⟨_, low, high, hparsed, hlow, .inr ⟨not_le.mp hhigh, hpass, .inr ⟨hfail, rfl⟩⟩⟩
  · rintro ⟨verdict, low, high, hparsed, hlow, ⟨hhigh, -⟩ | ⟨-, hpass, -⟩⟩
    · exact ⟨low, high, hparsed, hlow, .inl hhigh⟩
    · exact ⟨low, high, hparsed, hlow, .inr hpass⟩

/-- The interval an action names. -/
def Window.interval (window : Window) : String := "[" ++ window.min ++ ", " ++ window.maxExclusive ++ ")"

section
variable {windows windows' : List Window} {loaded : Loaded} {probes probes' : List Probe} {kernel : String}
  {version : List ℕ}

theorem Asks.perm {window : Window} {verdict : Verdict} (hperm : probes.Perm probes')
    (h : Asks probes window kernel version verdict) : Asks probes' window kernel version verdict := by
  have hpass : Passed probes' window kernel ↔ Passed probes window kernel := by
    simp only [Passed, hperm.mem_iff]
  have hfail : Failed probes' window kernel ↔ Failed probes window kernel := by
    simp only [Failed, hperm.mem_iff]
  rwa [Asks, hpass, hfail]

/-- What a window asks of a kernel is what is found for it. -/
theorem windowAction_ok (kernel : String) (version : List ℕ) (hqualified : Qualified windows)
    (houtcomes : Outcomes windows loaded probes)
    {window : Window} (hwindow : window ∈ windows) :
    ∃ found, windowAction loaded.outcomes kernel version window = .ok found ∧
      ∀ action, found = some action ↔ action.profile = window.id ∧ action.window = window.interval ∧
        Asks probes window kernel version action.action := by
  obtain ⟨low, high, hparsed⟩ := hqualified.parsed window hwindow
  have hlow := hparsed.1
  have hhigh := hparsed.2.1
  have hpass : Passed probes window kernel ↔ loaded.outcomes.lookup (window.id, kernel) = some true :=
    (houtcomes.outcomes window hwindow kernel true).symm
  have hfail : Failed probes window kernel ↔ loaded.outcomes.lookup (window.id, kernel) = some false :=
    (houtcomes.outcomes window hwindow kernel false).symm
  have hasks : ∀ verdict, Asks probes window kernel version verdict ↔ low ≤ version ∧
      (high ≤ version ∧ verdict = .requalificationRequired ∨ version < high ∧
        ¬ Passed probes window kernel ∧ (Failed probes window kernel ∧ verdict = .probeFailed ∨
          ¬ Failed probes window kernel ∧ verdict = .probeRequired)) := by
    intro verdict
    constructor
    · rintro ⟨low', high', ⟨hlow', hhigh', -⟩, hverdict⟩
      obtain rfl := Except.ok.inj (hlow.symm.trans hlow')
      obtain rfl := Except.ok.inj (hhigh.symm.trans hhigh')
      exact hverdict
    · exact fun hverdict => ⟨low, high, hparsed, hverdict⟩
  have haction : ∀ (verdict : Verdict) (action : Action),
      some (Action.mk window.id window.interval verdict) = some action ↔
        action.profile = window.id ∧ action.window = window.interval ∧ action.action = verdict := by
    rintro verdict ⟨profile, interval, action⟩
    simp only [Option.some.injEq, Action.mk.injEq]
    tauto
  simp only [hasks, hpass, hfail]
  rw [windowAction, hlow]
  dsimp only
  rw [except_ok_bind]
  split
  next hbelow =>
    refine ⟨none, rfl, fun action => ⟨nofun, fun h => absurd h.2.2.1 (not_le.mpr hbelow)⟩⟩
  next hbelow =>
    have hlow' := not_lt.mp hbelow
    rw [hhigh, except_ok_bind]
    split
    next habove =>
      refine ⟨_, rfl, fun action => ?_⟩
      rw [← Window.interval, haction]
      simp [hlow', habove, not_lt.mpr habove]
    next habove =>
      have habove' := not_le.mp habove
      split
      next hlookup => exact ⟨none, rfl, fun action => by simp [hlookup, habove]⟩
      next hlookup =>
        refine ⟨_, rfl, fun action => ?_⟩
        rw [← Window.interval, haction]
        simp [hlow', habove, habove', hlookup]
      next hlookup =>
        refine ⟨_, rfl, fun action => ?_⟩
        rw [← Window.interval, haction]
        simp [hlow', habove, habove', hlookup]

/-- The actions of a finding: what the windows ask for, one by one. -/
structure Acts (probes : List Probe) (windows : List Window) (kernel : String) (version : List ℕ)
    (actions : List Action) : Prop where
  unique : (actions.map Action.profile).Nodup
  mem : ∀ action, action ∈ actions ↔ ∃ window ∈ windows, action.profile = window.id ∧
    action.window = window.interval ∧ Asks probes window kernel version action.action

/-- What is said of a kernel, apart from where it was seen: its actions in the order of their profiles. -/
structure Reports (probes : List Probe) (windows : List Window) (kernel : String) (version : List ℕ)
    (finding : Finding) : Prop where
  names : finding.kernel = kernel
  actions : Acts probes windows kernel version finding.actions
  sorted : finding.actions.Pairwise fun a b => a.profile ≤ b.profile
  observation : ∃ texts : List String, texts.Pairwise (· < ·) ∧ finding.observation = commaJoin texts ∧
    ∀ text, text ∈ texts ↔ ∃ action ∈ finding.actions, action.action.text = text

/-- What is found for some elements keeps their order. -/
theorem reduceOption_sublist {α β : Type} {f : α → String} {g : β → String} : ∀ {items : List α}
    {found : List (Option β)}, List.Forall₂ (fun item found => ∀ x, found = some x → g x = f item) items found →
      (found.reduceOption.map g).Sublist (items.map f)
  | _, _, .nil => .slnil
  | _, none :: _, .cons _ h => by
    rw [List.reduceOption_cons_of_none]
    exact (reduceOption_sublist h).cons _
  | _, some x :: _, .cons hx h => by
    rw [List.reduceOption_cons_of_some, List.map_cons, List.map_cons, hx x rfl]
    exact (reduceOption_sublist h).cons_cons _

theorem pairwise_sorted {α : Type} (key : α → String) (l : List α) :
    (l.mergeSort fun a b => decide (key a ≤ key b)).Pairwise fun a b => key a ≤ key b := by
  have hsorted := @List.pairwise_mergeSort _ (fun a b => decide (key a ≤ key b))
    (fun a b c hab hbc => by simpa using (of_decide_eq_true hab).trans (of_decide_eq_true hbc))
    (fun a b => by simpa using le_total (key a) (key b)) l
  exact hsorted.imp fun h => of_decide_eq_true h

/-- Texts without repetition, in order. -/
theorem sorted_texts (texts : List String) : (texts.dedup.mergeSort (· ≤ ·)).Pairwise (· < ·) := by
  have hnodup : (texts.dedup.mergeSort (· ≤ ·)).Nodup :=
    (List.mergeSort_perm _ _).nodup_iff.mpr (List.nodup_dedup _)
  exact (pairwise_sorted (fun text => text) texts.dedup).imp₂ (fun _ _ hle hne => lt_of_le_of_ne hle hne) hnodup

/-- The windows' actions, in their order. -/
theorem windowActions_ok (kernel : String) (version : List ℕ) (hqualified : Qualified windows)
    (houtcomes : Outcomes windows loaded probes) :
    ∃ actions, windows.mapM (windowAction loaded.outcomes kernel version) = .ok actions ∧
      Acts probes windows kernel version actions.reduceOption := by
  obtain ⟨actions, hactions⟩ := Keyed.exists_forall₂ fun window hwindow =>
    windowAction_ok kernel version hqualified houtcomes hwindow
  have hmapM : windows.mapM (windowAction loaded.outcomes kernel version) = .ok actions :=
    except_mapM_ok.mpr (hactions.imp fun _ _ h => h.1)
  refine ⟨actions, hmapM, ?_, fun action => ?_⟩
  · exact hqualified.unique.sublist (reduceOption_sublist
      (hactions.imp fun _ _ h action haction => ((h.2 action).mp haction).1))
  · rw [List.reduceOption_mem_iff]
    constructor
    · intro hmem
      obtain ⟨window, hwindow, -, hfound⟩ := Keyed.exists_of_mem_right hactions _ hmem
      exact ⟨window, hwindow, (hfound action).mp rfl⟩
    · rintro ⟨window, hwindow, haction⟩
      obtain ⟨found, hmem, -, hfound⟩ := Keyed.exists_of_mem_left hactions _ hwindow
      rwa [← (hfound action).mpr haction]

theorem scanKernel_ok (issues : String → Option ℤ) (hqualified : Qualified windows)
    (houtcomes : Outcomes windows loaded probes) {item : Kernel} (hversion : item.version = dotted version)
    (hne : version ≠ []) :
    ∃ found, scanKernel windows loaded.outcomes issues item = .ok found ∧
      (∀ finding, found = some finding → Reports probes windows item.kernel version finding) ∧
      (found = none ↔ ∀ window ∈ windows, ¬ Needs probes window item.kernel version) := by
  obtain ⟨actions, hmapM, hacts⟩ := windowActions_ok item.kernel version
    hqualified houtcomes
  have hempty : actions.reduceOption = [] ↔ ∀ window ∈ windows, ¬ Needs probes window item.kernel version := by
    rw [List.eq_nil_iff_forall_not_mem]
    constructor
    · intro h window hwindow hneeds
      obtain ⟨verdict, hasks⟩ := needs_iff.mp hneeds
      exact h ⟨window.id, window.interval, verdict⟩ ((hacts.mem _).mpr ⟨window, hwindow, rfl, rfl, hasks⟩)
    · intro h action hmem
      obtain ⟨window, hwindow, -, -, hasks⟩ := (hacts.mem action).mp hmem
      exact h window hwindow (needs_iff.mpr ⟨_, hasks⟩)
  rw [scanKernel, hversion, split_dotted hne]
  dsimp only
  rw [hmapM, except_ok_bind]
  split
  next hnil => exact ⟨none, rfl, nofun, by simpa using hempty.mp hnil⟩
  next hnil =>
    refine ⟨_, rfl, ?_, ⟨nofun, fun h => absurd (hempty.mpr h) hnil⟩⟩
    rintro finding heq
    cases heq
    have hperm := List.mergeSort_perm actions.reduceOption fun a b => decide (a.profile ≤ b.profile)
    refine ⟨rfl, ⟨(hperm.map _).nodup_iff.mpr hacts.unique, fun action => ?_⟩, ?_, ?_⟩
    · rw [hperm.mem_iff, hacts.mem]
    · exact pairwise_sorted Action.profile _
    · refine ⟨_, sorted_texts (actions.reduceOption.map fun action => action.action.text), rfl, fun text => ?_⟩
      rw [List.mem_mergeSort, List.mem_dedup, List.mem_map]
      simp only [hperm.mem_iff]

/-! ### All findings -/

/-- The findings of a document: one for each kernel that reached a repository and that some window needs an
    action for, with the actions. -/
structure Exact (document : Value) (windows : List Window) (probes : List Probe) (found : List Finding) :
    Prop where
  unique : (found.map Finding.kernel).Nodup
  kernels : ∀ kernel, kernel ∈ found.map Finding.kernel ↔
    ∃ version, Reached document kernel version ∧ ∃ window ∈ windows, Needs probes window kernel version
  reports : ∀ finding ∈ found, ∃ version, Reached document finding.kernel version ∧
    Reports probes windows finding.kernel version finding

theorem reached_ne_nil {document : Value} (h : Reached document kernel version) : version ≠ [] := by
  obtain ⟨_, -, _, -, -, -, _, -, _, -, hparse⟩ := h
  simp only [parseKernelNvr, Option.bind_eq_bind, Option.bind_eq_some_iff] at hparse
  obtain ⟨_, -, _, -, _, -, version', ⟨middle, -, hmiddle⟩, heq⟩ := hparse
  obtain ⟨rfl, -⟩ := Prod.mk.inj (Option.some.inj heq)
  rw [kernelVersion] at hmiddle
  split at hmiddle
  next =>
    split at hmiddle
    next =>
      split at hmiddle
      next => rw [← Option.some.inj hmiddle]; simp
      next => cases hmiddle
    next => cases hmiddle
  next => cases hmiddle

theorem findings_exact {document : Value} {kernels : List Kernel} (issues : String → Option ℤ)
    (hqualified : Qualified windows) (houtcomes : Outcomes windows loaded probes)
    (hkernels : kernelsFromBodhi document = .ok kernels) :
    ∃ found, findings document windows loaded.outcomes issues = .ok found ∧
      Exact document windows probes found := by
  have hlisted := kernelsFromBodhi_ok hkernels
  have hjudged : ∀ item ∈ kernels, ∃ found, scanKernel windows loaded.outcomes issues item = .ok found ∧
      ∃ version, Reached document item.kernel version ∧
        (∀ finding, found = some finding → Reports probes windows item.kernel version finding) ∧
        (found = none ↔ ∀ window ∈ windows, ¬ Needs probes window item.kernel version) := by
    intro item hitem
    obtain ⟨version, hreached⟩ := (hlisted.reached item.kernel).mp (List.mem_map_of_mem hitem)
    have hversion := hlisted.version item hitem version hreached
    obtain ⟨found, hscan, hreports, hnone⟩ := scanKernel_ok issues hqualified houtcomes hversion
      (reached_ne_nil hreached)
    exact ⟨found, hscan, version, hreached, hreports, hnone⟩
  obtain ⟨found, hfound⟩ := Keyed.exists_forall₂ hjudged
  have hmapM : kernels.mapM (scanKernel windows loaded.outcomes issues) = .ok found :=
    except_mapM_ok.mpr (hfound.imp fun _ _ h => h.1)
  refine ⟨found.reduceOption, ?_, ?_, fun kernel => ?_, fun finding hfinding => ?_⟩
  · rw [findings, hkernels, except_ok_bind, scan, hmapM, except_ok_bind]
    rfl
  · refine hlisted.unique.sublist (reduceOption_sublist (hfound.imp fun item found h finding heq => ?_))
    obtain ⟨-, version, -, hreports, -⟩ := h
    exact (hreports finding heq).names
  · constructor
    · intro hmem
      obtain ⟨finding, hfinding, rfl⟩ := List.mem_map.mp hmem
      rw [List.reduceOption_mem_iff] at hfinding
      obtain ⟨item, -, -, version, hreached, hreports, hnone⟩ := Keyed.exists_of_mem_right hfound _ hfinding
      rw [(hreports finding rfl).names]
      refine ⟨version, hreached, ?_⟩
      by_contra hno
      simp only [not_exists, not_and] at hno
      cases hnone.mpr hno
    · rintro ⟨version, hreached, window, hwindow, hneeds⟩
      obtain ⟨item, hitem, rfl⟩ := List.mem_map.mp ((hlisted.reached kernel).mpr ⟨version, hreached⟩)
      obtain ⟨opt, hopt, -, version', hreached', hreports, hnone⟩ := Keyed.exists_of_mem_left hfound _ hitem
      obtain rfl := reached_unique hreached hreached'
      cases opt with
      | none => exact absurd hneeds (hnone.mp rfl window hwindow)
      | some finding =>
        rw [← (hreports finding rfl).names]
        exact List.mem_map_of_mem (List.reduceOption_mem_iff.mpr hopt)
  · rw [List.reduceOption_mem_iff] at hfinding
    obtain ⟨item, -, -, version, hreached, hreports, -⟩ := Keyed.exists_of_mem_right hfound _ hfinding
    have hsaid := hreports finding rfl
    rw [hsaid.names]
    exact ⟨version, hreached, hsaid⟩

/-- What a finding says of its kernel, apart from where it was seen. -/
def Finding.verdict (finding : Finding) : String × String × List Action :=
  (finding.kernel, finding.observation, finding.actions)

/-- What is said of a kernel is determined by the windows and the records, in any order. -/
theorem Reports.determined {finding finding' : Finding} (hwindows : windows.Perm windows')
    (hprobes : probes.Perm probes') (h : Reports probes windows kernel version finding)
    (h' : Reports probes' windows' kernel version finding') : finding.verdict = finding'.verdict := by
  have hmem : ∀ action, action ∈ finding.actions ↔ action ∈ finding'.actions := by
    intro action
    rw [h.actions.mem, h'.actions.mem]
    simp only [hwindows.mem_iff]
    exact exists_congr fun window => and_congr_right fun _ => and_congr_right fun _ => and_congr_right fun _ =>
      ⟨fun hasks => hasks.perm hprobes, fun hasks => hasks.perm hprobes.symm⟩
  have hactions : finding.actions = finding'.actions := by
    have hnodup := h.actions.unique.of_map _
    have hperm := (List.perm_ext_iff_of_nodup hnodup (h'.actions.unique.of_map _)).mpr hmem
    refine hperm.eq_of_pairwise (fun a b ha hb hab hba => ?_) h.sorted h'.sorted
    exact List.inj_on_of_nodup_map h.actions.unique ha ((hmem b).mpr hb) (le_antisymm hab hba)
  obtain ⟨texts, hsorted, hjoined, htexts⟩ := h.observation
  obtain ⟨texts', hsorted', hjoined', htexts'⟩ := h'.observation
  have heq : texts = texts' := by
    refine OrderedMap.eq_of_mem_iff hsorted hsorted' fun text => ?_
    rw [htexts, htexts', hactions]
  rw [Finding.verdict, Finding.verdict, h.names, h'.names, hactions, hjoined, hjoined', heq]

/-- The verdicts do not depend on the order of updates, windows or records. -/
theorem Exact.perm {document document' : Value} {found found' : List Finding}
    (hupdates : (bodhiUpdates document).Perm (bodhiUpdates document')) (hwindows : windows.Perm windows')
    (hprobes : probes.Perm probes') (h : Exact document windows probes found)
    (h' : Exact document' windows' probes' found') :
    (found.map Finding.verdict).Perm (found'.map Finding.verdict) := by
  have hreached : ∀ kernel version, Reached document kernel version ↔ Reached document' kernel version := by
    intro kernel version
    simp only [Reached, hupdates.mem_iff]
  have hneeds : ∀ window kernel version,
      Needs probes window kernel version ↔ Needs probes' window kernel version := by
    intro window kernel version
    rw [needs_iff, needs_iff]
    exact exists_congr fun _ => ⟨fun hasks => hasks.perm hprobes, fun hasks => hasks.perm hprobes.symm⟩
  have hnodup : ∀ l : List Finding, (l.map Finding.kernel).Nodup → (l.map Finding.verdict).Nodup := by
    intro l hl
    refine List.Nodup.of_map Prod.fst ?_
    rwa [List.map_map]
  refine (List.perm_ext_iff_of_nodup (hnodup _ h.unique) (hnodup _ h'.unique)).mpr fun verdict => ?_
  have hkernels : ∀ kernel, kernel ∈ found.map Finding.kernel ↔ kernel ∈ found'.map Finding.kernel := by
    intro kernel
    rw [h.kernels, h'.kernels]
    simp only [hreached, hwindows.mem_iff, hneeds]
  -- Findings of one kernel report the same.
  have hsame : ∀ finding ∈ found, ∀ finding' ∈ found', finding.kernel = finding'.kernel →
      finding.verdict = finding'.verdict := by
    intro finding hfinding finding' hfinding' heq
    obtain ⟨version, hr, hreports⟩ := h.reports finding hfinding
    obtain ⟨version', hr', hreports'⟩ := h'.reports finding' hfinding'
    rw [heq, hreached] at hr
    obtain rfl := reached_unique hr hr'
    rw [← heq] at hreports'
    exact hreports.determined hwindows hprobes hreports'
  constructor
  · intro hmem
    obtain ⟨finding, hfinding, rfl⟩ := List.mem_map.mp hmem
    obtain ⟨finding', hfinding', heq⟩ := List.mem_map.mp ((hkernels _).mp (List.mem_map_of_mem hfinding))
    rw [hsame finding hfinding finding' hfinding' heq.symm]
    exact List.mem_map_of_mem hfinding'
  · intro hmem
    obtain ⟨finding', hfinding', rfl⟩ := List.mem_map.mp hmem
    obtain ⟨finding, hfinding, heq⟩ := List.mem_map.mp ((hkernels _).mpr (List.mem_map_of_mem hfinding'))
    rw [← hsame finding hfinding finding' hfinding' heq]
    exact List.mem_map_of_mem hfinding

theorem outcomes_nil : Outcomes windows ⟨[], [], []⟩ [] := ⟨rfl, by simp⟩

theorem loadProbes_ok {registry : Value} (hunique : (windows.map Window.id).Nodup)
    (h : loadProbes registry windows = .ok loaded) :
    ∃ records probes, registryProbes registry = .ok records ∧
      List.Forall₂ (fun record probe => readProbe record = .ok probe) records probes ∧
      Outcomes windows loaded probes ∧ probes.Pairwise (Fits windows) := by
  rw [loadProbes, except_bind_ok] at h
  obtain ⟨records, hrecords, h⟩ := h
  obtain ⟨probes, hread, hfits, houtcomes⟩ := Gather.foldlM_ok (loadProbe_steps hunique) outcomes_nil .nil h
  exact ⟨records, probes, hrecords, hread, houtcomes, hfits⟩

/-- Whether a registry is accepted does not depend on the order of its records or of the windows. -/
theorem loadProbes_perm {registry : Value} {records : List Value} (hunique : (windows.map Window.id).Nodup)
    (hwindows : windows.Perm windows') (hread : List.Forall₂ (fun record probe => readProbe record = .ok probe)
      records probes) (hfits : probes.Pairwise (Fits windows)) {records' : List Value}
    (hrecords : records.Perm records') (hregistry : registryProbes registry = .ok records') :
    ∃ loaded' probes', loadProbes registry windows' = .ok loaded' ∧ Outcomes windows' loaded' probes' ∧
      probes.Perm probes' := by
  have hunique' : (windows'.map Window.id).Nodup := (hwindows.map _).nodup_iff.mp hunique
  obtain ⟨probes', hread', hprobes⟩ := Gather.forall₂_perm hrecords hread
  have hfits' : probes'.Pairwise (Fits windows') := by
    have hsymm : ∀ {p q : Probe}, Fits windows p q → Fits windows q p := fun hpq =>
      ⟨hpq.1.symm, fun window hwindow kernel hq hp => (hpq.2 window hwindow kernel hp hq).symm⟩
    refine (hfits.perm hprobes hsymm).imp fun hpq => ⟨hpq.1, fun window hwindow => ?_⟩
    exact hpq.2 window (hwindows.mem_iff.mpr hwindow)
  obtain ⟨loaded', hload, houtcomes⟩ :=
    Gather.foldlM_total (loadProbe_steps hunique') outcomes_nil hread' (by simpa using hfits')
  rw [List.nil_append] at houtcomes
  exact ⟨loaded', probes', by rw [loadProbes, hregistry, except_ok_bind, hload], houtcomes, hprobes⟩

/-- The watcher does its work on a document: it returns exactly the findings that are due, from records that
    agree, and the same verdicts whatever the order of updates, profiles and records. -/
structure Watched (componentsSha : List (String × Value) → Option String) (document : Value)
    (profiles : List Value) (windows : List Window) (registry : Value) (loaded : Loaded)
    (issues : String → Option ℤ) (found : List Finding) (records : List Value) (probes : List Probe) : Prop where
  run : findings document windows loaded.outcomes issues = .ok found
  read : registryProbes registry = .ok records ∧
    List.Forall₂ (fun record probe => readProbe record = .ok probe) records probes
  exact : Exact document windows probes found
  agree : ∀ p ∈ probes, ∀ q ∈ probes, ∀ window ∈ windows, ∀ kernel,
    Covers window kernel p → Covers window kernel q → p.pass = q.pass
  order : ∀ document' profiles' registry' records', (bodhiUpdates document).Perm (bodhiUpdates document') →
    profiles.Perm profiles' → registryProbes registry' = .ok records' → records.Perm records' →
    ∃ windows' loaded' found', qualifiedWindows componentsSha profiles' = .ok windows' ∧
      loadProbes registry' windows' = .ok loaded' ∧
      findings document' windows' loaded'.outcomes issues = .ok found' ∧
      (found.map Finding.verdict).Perm (found'.map Finding.verdict)

/-- The watcher does its work exactly on the documents whose updates all have a status that can be looked up:
    `entry.get('status') not in OBSERVED` raises on a list or a dictionary. -/
theorem watched_iff {componentsSha : List (String × Value) → Option String} {document registry : Value}
    {profiles : List Value} {issues : String → Option ℤ}
    (hprofiles : qualifiedWindows componentsSha profiles = .ok windows)
    (hregistry : loadProbes registry windows = .ok loaded) :
    (∃ found records probes,
      Watched componentsSha document profiles windows registry loaded issues found records probes) ↔
      HasStatuses document := by
  have hqualified := qualifiedWindows_ok hprofiles
  constructor
  · rintro ⟨found, _, _, hwatched⟩
    have hrun := hwatched.run
    rw [findings, except_bind_ok] at hrun
    obtain ⟨kernels, hkernels, -⟩ := hrun
    exact kernelsFromBodhi_total.mp ⟨kernels, hkernels⟩
  · intro hstatuses
    obtain ⟨records, probes, hrecords, hread, houtcomes, hfits⟩ := loadProbes_ok hqualified.unique hregistry
    obtain ⟨kernels, hkernels⟩ := kernelsFromBodhi_total.mpr hstatuses
    obtain ⟨found, hfound, hexact⟩ := findings_exact issues hqualified houtcomes hkernels
    refine ⟨found, records, probes, hfound, ⟨hrecords, hread⟩, hexact, ?_, ?_⟩
    · intro p hp q hq window hwindow kernel hcovers hcovers'
      have hlookup := (houtcomes.outcomes window hwindow kernel p.pass).mpr ⟨p, hp, hcovers, rfl⟩
      have hlookup' := (houtcomes.outcomes window hwindow kernel q.pass).mpr ⟨q, hq, hcovers', rfl⟩
      exact Option.some.inj (hlookup.symm.trans hlookup')
    · intro document' profiles' registry' records' hupdates hperm hregistry' hrecords'
      obtain ⟨windows', hprofiles', hwindows⟩ := qualifiedWindows_perm hperm hprofiles
      obtain ⟨loaded', probes', hload', houtcomes', hprobes⟩ :=
        loadProbes_perm hqualified.unique hwindows hread hfits hrecords' hregistry'
      have hstatuses' : HasStatuses document' := fun entry hentry =>
        hstatuses entry (hupdates.mem_iff.mpr hentry)
      obtain ⟨kernels', hkernels'⟩ := kernelsFromBodhi_total.mpr hstatuses'
      obtain ⟨found', hfound', hexact'⟩ := findings_exact issues
        (qualifiedWindows_ok hprofiles') houtcomes' hkernels'
      exact ⟨windows', loaded', found', hprofiles', hload', hfound',
        hexact.perm hupdates hwindows hprobes hexact'⟩

end

/-! ### A kernel missed -/

namespace Sample

def profile : Value :=
  .dict [("id", .str "lunar-lake"), ("status", .str "qualified"),
    ("platform", .dict [("id", .str "fedora"), ("version_id", .str "44")]),
    ("kernel", .dict [("min", .str "7.2.5"), ("max_exclusive", .str "7.3.0")]),
    ("components", .dict [("npu_firmware", .dict [("version", .str "1.38.0")])]),
    ("qualification", .dict [("evidence_sha256", .str (String.ofList (List.replicate 64 'e')))])]

def componentsSha (_ : List (String × Value)) : Option String := some (String.ofList (List.replicate 64 'c'))

def window : Window :=
  ⟨"lunar-lake", "7.2.5", "7.3.0", String.ofList (List.replicate 64 'e'), String.ofList (List.replicate 64 'c')⟩

def registry : Value := .dict [("schema_version", .int 1), ("probes", .list [])]

def update : Value :=
  .dict [("alias", .str "FEDORA-2026-ca91e91bf0"), ("status", .str "stable"),
    ("release", .dict [("name", .str "F44")]),
    ("builds", .list [.dict [("nvr", .str "kernel-7.2.7-200.fc44")]])]

/-- An update whose status is a list. -/
def malformed : Value := .dict [("status", .list [])]

def document : Value := .dict [("updates", .list [update])]

def unlucky : Value := .dict [("updates", .list [update, malformed])]

theorem qualifiedWindows_profile : qualifiedWindows componentsSha [profile] = .ok [window] := rfl

theorem loadProbes_registry : loadProbes registry [window] = .ok ⟨[], [], []⟩ := rfl

end Sample

/-- A kernel that reached a repository and needs a probe is not found beside a malformed update. -/
theorem kernel_missed :
    qualifiedWindows Sample.componentsSha [Sample.profile] = .ok [Sample.window] ∧
      loadProbes Sample.registry [Sample.window] = .ok ⟨[], [], []⟩ ∧
      Reached Sample.unlucky "7.2.7-200.fc44" [7, 2, 7] ∧
      Needs [] Sample.window "7.2.7-200.fc44" [7, 2, 7] ∧
      ¬ ∃ found, findings Sample.unlucky [Sample.window] [] (fun _ => none) = .ok found := by
  refine ⟨rfl, rfl, ?_, ?_, ?_⟩
  · exact ⟨Sample.update, List.mem_cons_self, _, rfl, ⟨"stable", by simp, rfl, nofun⟩, ⟨_, rfl, rfl⟩, _, rfl, _,
      List.mem_cons_self, rfl⟩
  · exact ⟨[7, 2, 5], [7, 3, 0], ⟨rfl, rfl, by decide⟩, by decide,
      .inr fun ⟨_, hmem, _⟩ => absurd hmem List.not_mem_nil⟩
  · rintro ⟨found, hfound⟩
    have hstopped : kernelsFromBodhi Sample.unlucky = .error "unhashable type" := rfl
    rw [findings, hstopped] at hfound
    cases hfound

theorem watched_iff_sample :
    (∃ found records probes, Watched Sample.componentsSha Sample.document [Sample.profile] [Sample.window]
      Sample.registry ⟨[], [], []⟩ (fun _ => none) found records probes) ↔ HasStatuses Sample.document :=
  watched_iff Sample.qualifiedWindows_profile Sample.loadProbes_registry

end NpuStack.Ci.KernelWatch
