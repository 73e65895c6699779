import NpuStack.Runtime.Process
import NpuStack.Schema.Profile
import NpuStack.Schemes.Interaction

/-! The doctor's view of one installed package: ask the native tool for the records of a name, and
    read a single line back.

        name ⇥ epoch:version-release ⇥ installtime ⏎

    Anything else is invalid output, so the reader treats a package name as the key of the database
    (`parseOneLine_two`). -/

namespace NpuStack.Runtime
open Interaction Text Schema

def PACKAGE_FORMAT : String :=
  "%\x7bNAME\x7d\t%\x7bEPOCHNUM\x7d:%\x7bVERSION\x7d-%\x7bRELEASE\x7d\t%\x7bINSTALLTIME\x7d\n"

def QUERY_TIMEOUT : ℕ := 10
def STDOUT_LIMIT : ℕ := 65536
def STDERR_LIMIT : ℕ := 16384

structure InstalledPackage where
  name : String
  version : String
  installTime : ℕ
  deriving DecidableEq, Repr

inductive PackageQuery where
  | present (package : InstalledPackage)
  | missing
  | failed (code : String)
  deriving DecidableEq, Repr

def isPackageName (value : String) : Bool :=
  value ≠ "" && len value ≤ 4096 && all (fun c => c.isAlphanum || ".+-_".toList.contains c) value

def isPackageVersion (value : String) : Bool :=
  value ≠ "" && len value ≤ 4096 && all (fun c => c.isAlphanum || ".+-_:~^".toList.contains c) value

/-- Exactly one nonempty line, ended by a line feed. -/
def parseOneLine (bytes : Bytes) : Option String :=
  if bytes.getLast? = some 10 then
    let line := bytes.dropLast
    if line = [] ∨ 10 ∈ line ∨ 13 ∈ line then none else fromUtf8 line
  else none

def parsePackageOutput (bytes : Bytes) (expectedName : String) : Option InstalledPackage := do
  let line ← parseOneLine bytes
  match split '\t' line with
  | [name, version, installTime] =>
    if name ≠ expectedName || !isPackageName name || !isPackageVersion version ||
        !isDigits installTime then none
    else (parseUnsigned 64 installTime).map (InstalledPackage.mk name version)
  | _ => none

/-- What the answer to the package query means. -/
def classify (package : String) : Except ProcessError ProcessOutput → PackageQuery
  | .error _ => .failed "PACKAGE_QUERY_FAILED"
  | .ok output =>
    if output.stdoutOverflow || output.stderrOverflow then .failed "PACKAGE_OUTPUT_INVALID"
    else match output.termination with
    | .exit 0 =>
      match parsePackageOutput output.stdout package with
      | some installed => .present installed
      | none => .failed "PACKAGE_OUTPUT_INVALID"
    | .exit 1 =>
      if output.stdout = [] ∨ output.stdout = utf8 ("package " ++ package ++ " is not installed\n") then
        .missing
      else .failed "PACKAGE_QUERY_FAILED"
    | _ => .failed "PACKAGE_QUERY_FAILED"

def packageRequest (rpmExecutable package : String) : ProcessRequest where
  executable := rpmExecutable
  args := ["-q", "--qf", PACKAGE_FORMAT, "--", package]
  timeout := QUERY_TIMEOUT
  stdoutLimit := STDOUT_LIMIT
  stderrLimit := STDERR_LIMIT
  environment := []

/-- Code that only runs processes and cannot fail. -/
abbrev Probe (α : Type) := Prog (fun _ : ProcessRequest => Except ProcessError ProcessOutput) Empty α

def queryPackage (rpmExecutable package : String) : Probe PackageQuery :=
  .expect (packageRequest rpmExecutable package) fun result => .ok (classify package result)

/-- The error code the version check of a provider reports, if any. -/
def versionFailure (provider : NativeProvider) : PackageQuery → Option String
  | .missing => some "PACKAGE_NOT_INSTALLED"
  | .failed code => some code
  | .present installed =>
    if installed.version ≠ provider.version then some "PACKAGE_VERSION_MISMATCH" else none

/-! ### Reading lines back -/

/-- A single printed line is read back. -/
theorem parseOneLine_line {line : String} (hne : line ≠ "")
    (hascii : ∀ c ∈ line.toList, c.toNat < 128 ∧ c.toNat ≠ 10 ∧ c.toNat ≠ 13) :
    parseOneLine (utf8 (line ++ "\n")) = some line := by
  have hnl : utf8 "\n" = [10] := by decide
  have hne' : utf8 line ≠ [] := fun h => hne (utf8_injective (h.trans (by decide : [] = utf8 "")))
  have h10 : 10 ∉ utf8 line := notMem_utf8 (fun c hc => (hascii c hc).1) fun c hc => (hascii c hc).2.1
  have h13 : 13 ∉ utf8 line := notMem_utf8 (fun c hc => (hascii c hc).1) fun c hc => (hascii c hc).2.2
  simp [parseOneLine, utf8_append, hnl, hne', h10, h13]

/-- Two printed lines are not one line. -/
theorem parseOneLine_two (first second : String) (rest : Bytes) :
    parseOneLine (utf8 (first ++ "\n") ++ (utf8 (second ++ "\n") ++ rest)) = none := by
  have hnl : utf8 "\n" = [10] := by decide
  have hmem : 10 ∈ (utf8 (first ++ "\n") ++ (utf8 (second ++ "\n") ++ rest)).dropLast := by
    have hne : utf8 (second ++ "\n") ++ rest ≠ [] := by simp [utf8_append, hnl]
    rw [List.dropLast_append_of_ne_nil hne]
    simp [utf8_append, hnl]
  rw [parseOneLine]
  split
  · rw [if_pos (.inr (.inl hmem))]
  · rfl

theorem isGraphic_of_isPackageName {name : String} (h : isPackageName name = true) :
    ∀ c ∈ name.toList, isGraphic c = true := by
  simp only [isPackageName, Bool.and_eq_true] at h
  exact isGraphic_of_all (forall_chars (by decide)) h.2

theorem isGraphic_of_isPackageVersion {version : String} (h : isPackageVersion version = true) :
    ∀ c ∈ version.toList, isGraphic c = true := by
  simp only [isPackageVersion, Bool.and_eq_true] at h
  exact isGraphic_of_all (forall_chars (by decide)) h.2

/-- The line of one record. -/
def packageLine (name version : String) (installTime : ℕ) : String :=
  name ++ "\t" ++ version ++ "\t" ++ installTime.repr

/-- A printed record of three fields is read back. -/
theorem parsePackageOutput_line {name version : String} {installTime : ℕ}
    (hname : isPackageName name = true) (hversion : isPackageVersion version = true)
    (htime : installTime < 2 ^ 64) :
    parsePackageOutput (utf8 (packageLine name version installTime ++ "\n")) name =
      some ⟨name, version, installTime⟩ := by
  have hn := isGraphic_of_isPackageName hname
  have hv := isGraphic_of_isPackageVersion hversion
  have ht : ∀ c ∈ installTime.repr.toList, isGraphic c = true := by
    have hdigits := (Bool.and_eq_true _ _ ▸ isDigits_repr installTime).2
    exact fun c hc => isGraphic_of_isAlphanum (by simp [Char.isAlphanum, all_iff.mp hdigits c hc])
  have hgraphic : ∀ c : Char, isGraphic c = true → 33 ≤ c.toNat ∧ c.toNat ≤ 126 := by
    intro c hc; simpa [isGraphic] using hc
  have hline : parseOneLine (utf8 (packageLine name version installTime ++ "\n")) =
      some (packageLine name version installTime) := by
    refine parseOneLine_line (fun h => ?_) fun c hc => ?_
    · have := congrArg String.toList h
      simp [packageLine] at this
    · simp only [packageLine, String.toList_append, List.mem_append] at hc
      have htab : ∀ c ∈ "\t".toList, c.toNat = 9 := forall_chars (by decide)
      rcases hc with (((hc | hc) | hc) | hc) | hc
      · have := hgraphic c (hn c hc); omega
      · have := htab c hc; omega
      · have := hgraphic c (hv c hc); omega
      · have := htab c hc; omega
      · have := hgraphic c (ht c hc); omega
  have hsplit : split '\t' (packageLine name version installTime) =
      [name, version, installTime.repr] := by
    have htab : ∀ {s : String}, (∀ c ∈ s.toList, isGraphic c = true) → '\t' ∉ s.toList :=
      fun hs hmem => by have := hs _ hmem; simp [isGraphic] at this
    have hsep : "\t".toList = ['\t'] := by decide
    have hassoc : packageLine name version installTime =
        name ++ "\t" ++ (version ++ "\t" ++ installTime.repr) := by
      simp only [packageLine, String.append_assoc]
    rw [hassoc, split_append hsep (htab hn), split_append hsep (htab hv), split_of_notMem (htab ht)]
  simp [parsePackageOutput, hline, hsplit, hname, hversion, isDigits_repr,
    parseUnsigned_repr htime]

end NpuStack.Runtime
