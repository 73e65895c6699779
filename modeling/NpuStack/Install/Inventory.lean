import Mathlib.Data.Prod.Lex
import NpuStack.Install.Environment

/-! The observed package database: bounded query output, one record a line, no identity twice.

        name|epoch:version-release|arch|installtime

    Install-only and multilib entries stay separate records. An inventory carries what its parser
    checked: every record is well formed, and the records are in strictly increasing order of
    identity. Two inventories are therefore equal as soon as they hold the same records, and so are
    their restrictions to one package name (`named_increasing`). Version strings are compared only by
    the native tool (`compareRpmVersions`). -/

namespace NpuStack.Install
open Interaction Text Schema NpuStack.Runtime

def MAX_INVENTORY_BYTES : ℕ := 8388608

def INVENTORY_FORMAT : String :=
  "%\x7bNAME\x7d|%\x7bEPOCHNUM\x7d:%\x7bVERSION\x7d-%\x7bRELEASE\x7d|%\x7bARCH\x7d|%\x7bINSTALLTIME\x7d\n"

def observationError : InstallError := ⟨30, "INSTALL_RPM_OBSERVATION_FAILED",
  "native RPM package state or version ordering could not be verified"⟩

/-- One installed native RPM identity. -/
structure InstalledRpm where
  name : String
  evr : String
  arch : String
  installTime : ℕ
  deriving DecidableEq, Repr

namespace InstalledRpm

/-- A record is identified by name, version and architecture. -/
def key (r : InstalledRpm) : String ×ₗ String ×ₗ String := toLex (r.name, toLex (r.evr, r.arch))

theorem key_eq {r s : InstalledRpm} :
    r.key = s.key ↔ r.name = s.name ∧ r.evr = s.evr ∧ r.arch = s.arch := by
  simp [key]

/-- Records in the derived order, compared up to the identity. -/
def before (r s : InstalledRpm) : Prop := r.key ≤ s.key

instance : DecidableRel before := fun r s => inferInstanceAs (Decidable (r.key ≤ s.key))

end InstalledRpm

/-! ### Well-formed records -/

def rpmName (value : String) : Bool := value ≠ "" && len value ≤ 128 && all identifierChar value

/-- Epochs are canonical decimal numbers below `2 ^ 32`. -/
def canonicalEpoch (epoch : String) : Bool :=
  epoch ≠ "" && all Char.isDigit epoch && (parseUnsigned 32 epoch).isSome &&
    (len epoch = 1 || !startsWith "0" epoch)

/-- A canonical epoch, a version and a release. -/
def validEvr (value : String) : Bool :=
  if len value > 256 then false
  else match splitOnce ':' value with
  | none => false
  | some (epoch, vr) => match splitOnce '-' vr with
    | none => false
    | some (version, release) => canonicalEpoch epoch && rpmScalar version && rpmScalar release

def rpmArch (name arch : String) : Bool :=
  arch ≠ "" && len arch ≤ 32 &&
    (all (fun c => c.isAlphanum || c = '_') arch || (name = "gpg-pubkey" && arch = "(none)"))

/-- The checks on one record; the last is the width of its integer. -/
def validRecord (r : InstalledRpm) : Bool :=
  rpmName r.name && validEvr r.evr && rpmArch r.name r.arch && r.installTime < 2 ^ 64

/-- The four fields of a line. -/
def parseRecord (line : String) : Option InstalledRpm :=
  match split '|' line with
  | [name, evr, arch, time] =>
    if isDigits time then (parseUnsigned 64 time).map (InstalledRpm.mk name evr arch) else none
  | _ => none

/-! ### Inventories -/

/-- Immutable observation of the native package database. -/
structure NativeInventory where
  packages : List InstalledRpm
  valid : ∀ r ∈ packages, validRecord r = true
  increasing : packages.Pairwise fun r s => r.key < s.key

theorem sort_increasing {records : List InstalledRpm} (h : (records.map InstalledRpm.key).Nodup) :
    (records.insertionSort InstalledRpm.before).Pairwise fun r s => r.key < s.key := by
  have htrans : IsTrans InstalledRpm InstalledRpm.before := ⟨fun _ _ _ h h' => le_trans h h'⟩
  have htotal : Std.Total InstalledRpm.before := ⟨fun r s => le_total r.key s.key⟩
  have hle := List.pairwise_insertionSort InstalledRpm.before records
  have hnd : ((records.insertionSort InstalledRpm.before).map InstalledRpm.key).Nodup :=
    ((List.perm_insertionSort InstalledRpm.before records).map _).nodup_iff.mpr h
  exact (hle.and (List.pairwise_map.mp hnd)).imp fun h => lt_of_le_of_ne h.1 h.2

namespace NativeInventory

/-- Sorted records, when all are well formed and no identity repeats. -/
def ofRecords (records : List InstalledRpm) : Option NativeInventory :=
  if h : (∀ r ∈ records, validRecord r = true) ∧ (records.map InstalledRpm.key).Nodup then
    some ⟨records.insertionSort InstalledRpm.before,
      fun r hr => h.1 r ((List.mem_insertionSort _).mp hr), sort_increasing h.2⟩
  else none

/-- Parses complete bounded RPM query records and rejects duplicate NEVRAs. -/
def parseQuery (bytes : Bytes) : Except InstallError NativeInventory := do
  refuse (bytes = [] ∨ bytes.length > MAX_INVENTORY_BYTES) observationError
  let text ← need (fromUtf8 bytes) observationError
  let body ← need (stripSuffix "\n" text) observationError
  let records ← need ((split '\n' body).mapM parseRecord) observationError
  refuse (records.length > 100000) observationError
  need (ofRecords records) observationError

/-- One line of the fingerprinted text. -/
def recordLine (r : InstalledRpm) : String :=
  r.name ++ "|" ++ r.evr ++ "|" ++ r.arch ++ "|" ++ r.installTime.repr ++ "\n"

/-- Identifies package identities and installation times, independent of query order. -/
def fingerprint (crates : Crates) (inventory : NativeInventory) : String :=
  crates.sha256 (inventory.packages.flatMap fun r => utf8 (recordLine r))

end NativeInventory

/-- The fixed native query request. -/
def nativeRpmRequest (args : List String) (stdoutLimit : ℕ) : ProcessRequest where
  executable := "/usr/bin/rpm"
  args := ["--macros", "/usr/lib/rpm/macros", "--noplugins"] ++ args
  timeout := 10
  stdoutLimit := stdoutLimit
  stderrLimit := 16384
  environment := []

def nativeRpm (args : List String) (stdoutLimit : ℕ) : Sys Bytes :=
  runClean (nativeRpmRequest args stdoutLimit) observationError observationError

namespace NativeInventory

def queryRequest : ProcessRequest :=
  nativeRpmRequest ["--dbpath", "/usr/lib/sysimage/rpm", "-qa", "--qf", INVENTORY_FORMAT]
    MAX_INVENTORY_BYTES

/-- Reads the Fedora system database without user macro-file overrides. -/
def query : Sys NativeInventory := do
  let output ← nativeRpm ["--dbpath", "/usr/lib/sysimage/rpm", "-qa", "--qf", INVENTORY_FORMAT]
    MAX_INVENTORY_BYTES
  parseQuery output

/-- The native tool listed exactly this inventory. -/
def Observed (t : Trace) (inventory : NativeInventory) : Prop :=
  ∃ output, Ran t queryRequest output ∧ parseQuery output = .ok inventory

theorem Observed.mono {t t' : Trace} {inventory : NativeInventory} (h : Observed t inventory)
    (ht : t ⊆ t') : Observed t' inventory := by
  obtain ⟨output, hran, hparse⟩ := h
  exact ⟨output, hran.mono ht, hparse⟩

end NativeInventory

/-- The expression evaluated by RPM's own version comparison. -/
def compareExpression (left right : String) : String :=
  "%\x7blua: local a=rpm.ver(\"" ++ left ++ "\"); local b=rpm.ver(\"" ++ right ++
    "\"); if a < b then print(-1) elseif a > b then print(1) else print(0) end\x7d"

def compareRequest (left right : String) : ProcessRequest :=
  nativeRpmRequest ["--eval", compareExpression left right] 16

/-- The three answers the comparison may print. -/
def parseOrdering (output : Bytes) : Option Ordering :=
  if output = utf8 "-1\n" then some .lt
  else if output = utf8 "0\n" then some .eq
  else if output = utf8 "1\n" then some .gt
  else none

/-- Compares complete validated epoch/version/release strings with RPM's own `rpm.ver`. -/
def compareRpmVersions (left right : String) : Sys Ordering := do
  refuse (!validEvr left || !validEvr right) observationError
  let output ← nativeRpm ["--eval", compareExpression left right] 16
  need (parseOrdering output) observationError

theorem compareRpmVersions_runs {left right : String} {t : Trace} {ordering : Ordering} :
    (compareRpmVersions left right).Runs t (.ok ordering) ↔
      validEvr left = true ∧ validEvr right = true ∧ ∃ output : ProcessOutput,
        output.clean = true ∧ parseOrdering output.stdout = some ordering ∧
        t = [⟨.run (compareRequest left right), .ok output⟩] := by
  simp only [compareRpmVersions, Prog.runs_lift_bind_ok, refuse_ok, Bool.or_eq_true,
    Bool.not_eq_true', not_or, Bool.not_eq_false, nativeRpm, runs_runClean_bind_ok, Prog.runs_lift,
    need_ok]
  constructor
  · rintro ⟨_, ⟨hl, hr⟩, output, _, hc, rfl, rfl, hparse⟩
    exact ⟨hl, hr, output, hc, hparse, rfl⟩
  · rintro ⟨hl, hr, output, hc, hparse, rfl⟩
    exact ⟨(), ⟨hl, hr⟩, output, [], hc, rfl, rfl, hparse⟩

theorem parseOrdering_lt {output : Bytes} : parseOrdering output = some .lt ↔ output = utf8 "-1\n" := by
  have h₀ : utf8 "0\n" ≠ utf8 "-1\n" := by decide
  have h₁ : utf8 "1\n" ≠ utf8 "-1\n" := by decide
  simp only [parseOrdering]
  split
  · next h => simp [h]
  · next h =>
    refine iff_of_false (fun hlt => ?_) h
    split at hlt
    · cases hlt
    · split at hlt <;> cases hlt

/-- Every question of the trace was a clean tool run that printed the answer for "below". -/
def AllBelow (t : Trace) : Prop :=
  ∀ e ∈ t, ∃ (request : ProcessRequest) (output : ProcessOutput), e = ⟨.run request, .ok output⟩ ∧
    output.clean = true ∧ output.stdout = utf8 "-1\n"

/-- Comparing valid versions cannot fail on such answers. -/
theorem compareRpmVersions_total {left right : String} {t : Trace} {r : Except InstallError Ordering}
    (hl : validEvr left = true) (hr : validEvr right = true) (hbelow : AllBelow t)
    (h : (compareRpmVersions left right).Runs t r) : r = .ok .lt := by
  have hvalid : refuse (!validEvr left || !validEvr right) observationError = .ok () := by
    simp [hl, hr]
  rw [compareRpmVersions, hvalid] at h
  rw [Prog.lift_ok_bind, nativeRpm, runClean, Prog.expect_bind] at h
  obtain ⟨a, t', rfl, hrest⟩ := Prog.runs_ask.mp h
  obtain ⟨request, output, heq, hc, hout⟩ := hbelow _ List.mem_cons_self
  cases heq
  rw [runClean_judge.mpr ⟨output, rfl, hc, rfl⟩, Prog.lift_ok_bind, parseOrdering_lt.mpr hout]
    at hrest
  exact (Prog.runs_lift.mp hrest).2.symm

/-- A program that only runs tools can always be answered so. -/
theorem exists_allBelow {α : Type} {p : Sys α} (h : p.Asks fun q => ∃ request, q = .run request) :
    ∃ t r, AllBelow t ∧ p.Runs t r := by
  refine Prog.exists_runs (fun q hq => ?_) h
  obtain ⟨request, rfl⟩ := hq
  exact ⟨.ok ⟨.exit 0, utf8 "-1\n", false, false⟩, request, _, rfl, rfl, rfl⟩

/-! ### The shape of a version -/

theorem notMem_of_rpmScalar {value : String} (h : rpmScalar value = true) {c : Char}
    (hc : c ∉ "._+~^".toList) (ha : c.isAlphanum = false) : c ∉ value.toList := by
  simp only [rpmScalar, Bool.and_eq_true] at h
  intro hmem
  have := all_iff.mp h.2 c hmem
  rw [ha, Bool.false_or, List.contains_iff_mem] at this
  exact hc this

theorem notMem_of_canonicalEpoch {epoch : String} (h : canonicalEpoch epoch = true) {c : Char}
    (hc : c.isDigit = false) : c ∉ epoch.toList := by
  simp only [canonicalEpoch, Bool.and_eq_true] at h
  intro hmem
  simpa [hc] using all_iff.mp h.1.1.2 c hmem

/-- A valid version reads as its epoch, version and release, and nothing else. -/
theorem validEvr_iff {value : String} : validEvr value = true ↔
    len value ≤ 256 ∧ ∃ epoch version release, canonicalEpoch epoch = true ∧
      rpmScalar version = true ∧ rpmScalar release = true ∧
      value = epoch ++ ":" ++ (version ++ "-" ++ release) := by
  have hcolon : ":".toList = [':'] := by decide
  have hdash : "-".toList = ['-'] := by decide
  constructor
  · intro h
    rw [validEvr] at h
    split at h
    · cases h
    next hlen =>
    split at h
    · cases h
    next epoch vr hepoch =>
    split at h
    · cases h
    next version release hversion =>
    simp only [Bool.and_eq_true] at h
    refine ⟨not_lt.mp hlen, epoch, version, release, h.1.1, h.1.2, h.2, ?_⟩
    rw [← String.toList_inj, (splitOnce_eq_some.mp hepoch).1, (splitOnce_eq_some.mp hversion).1]
    simp [hcolon, hdash]
  · rintro ⟨hlen, epoch, version, release, hepoch, hversion, hrelease, rfl⟩
    have hsplit : splitOnce ':' (epoch ++ ":" ++ (version ++ "-" ++ release)) =
        some (epoch, version ++ "-" ++ release) :=
      splitOnce_eq_some.mpr ⟨by simp [hcolon], notMem_of_canonicalEpoch hepoch (by decide)⟩
    have hsplit' : splitOnce '-' (version ++ "-" ++ release) = some (version, release) :=
      splitOnce_eq_some.mpr ⟨by simp [hdash],
        notMem_of_rpmScalar hversion (by decide) (by decide)⟩
    rw [validEvr, if_neg (not_lt.mpr hlen), hsplit]
    simp only [hsplit', hepoch, hversion, hrelease, Bool.and_self]

/-! ### What an inventory guarantees -/

namespace NativeInventory

variable (inventory : NativeInventory)

theorem keys_nodup : (inventory.packages.map InstalledRpm.key).Nodup :=
  (List.pairwise_map.mpr inventory.increasing).imp ne_of_lt

theorem packages_nodup : inventory.packages.Nodup := List.Nodup.of_map _ inventory.keys_nodup

/-- A record is determined by its identity. -/
theorem eq_of_key_eq {r s : InstalledRpm} (hr : r ∈ inventory.packages) (hs : s ∈ inventory.packages)
    (h : r.key = s.key) : r = s :=
  List.inj_on_of_nodup_map inventory.keys_nodup hr hs h

theorem mem_ofRecords {records : List InstalledRpm} {inventory : NativeInventory}
    (h : ofRecords records = some inventory) {r : InstalledRpm} :
    r ∈ inventory.packages ↔ r ∈ records := by
  simp only [ofRecords] at h
  split at h
  · obtain rfl := Option.some.inj h
    exact List.mem_insertionSort _
  · cases h

/-- The records of one name, in order. -/
def named (name : String) : List InstalledRpm := inventory.packages.filter fun r => r.name = name

@[simp] theorem mem_named {name : String} {r : InstalledRpm} :
    r ∈ inventory.named name ↔ r ∈ inventory.packages ∧ r.name = name := by
  simp [named]

theorem named_increasing (name : String) :
    (inventory.named name).Pairwise fun r s => r.key < s.key :=
  inventory.increasing.filter _

end NativeInventory

/-! ### Records of a package -/

/-- The record has exactly the package's name, version and architecture. -/
def IsRecordOf (r : InstalledRpm) (p : ReleasePackage) : Prop :=
  r.name = p.name ∧ r.evr = p.nevr ∧ r.arch = p.arch

instance (r : InstalledRpm) (p : ReleasePackage) : Decidable (IsRecordOf r p) :=
  inferInstanceAs (Decidable (_ ∧ _ ∧ _))

theorem IsRecordOf.key_eq {r s : InstalledRpm} {p : ReleasePackage} (hr : IsRecordOf r p)
    (hs : IsRecordOf s p) : r.key = s.key :=
  InstalledRpm.key_eq.mpr ⟨hr.1.trans hs.1.symm, hr.2.1.trans hs.2.1.symm, hr.2.2.trans hs.2.2.symm⟩

namespace Minimal

def bash : InstalledRpm := ⟨"bash", "0:5.3-1.fc44", "x86_64", 1⟩

/-- A database without the release. -/
def base : NativeInventory := ⟨[bash], by decide, by decide⟩

end Minimal

end NpuStack.Install
