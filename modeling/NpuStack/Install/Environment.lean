import NpuStack.Core.Matching
import NpuStack.Install.Manifest
import NpuStack.Runtime.Process

/-! Everything the installer reads from or does to the outside world, as one type of questions.

    Paths are lists of components, so `root.join("./packages/a.rpm")` and
    `root.join("packages").join("a.rpm")` are one path, as they are for `Path` equality. A read
    answers with the bytes delivered before end of file; the caller's `take` cuts them. The native
    planner, the platform detector, the terminal and the privileged executor are the boundaries the
    source injects; their answers are unconstrained. -/

namespace NpuStack.Install
open Interaction Text Schema NpuStack.Core NpuStack.Runtime

/-! ### Paths -/

/-- Components of an absolute path. -/
structure Path where
  components : List String
  deriving DecidableEq, Repr

namespace Path

/-- The components of a relative path, without empty and `.` ones. -/
def parts (relative : String) : List String := (split '/' relative).filter fun c => c ≠ "" ∧ c ≠ "."

/-- `Path::join` of a relative path. -/
def join (p : Path) (relative : String) : Path := ⟨p.components ++ parts relative⟩

/-- The rendered path. -/
def display (p : Path) : String := "/" ++ "/".intercalate p.components

/-- `Path::file_name`: the last component, unless it is `..`. -/
def fileName (p : Path) : Option String := p.components.getLast?.filter (· ≠ "..")

/-- `Path::parent`. -/
def parent (p : Path) : Option Path :=
  if p.components = [] then none else some ⟨p.components.dropLast⟩

end Path

/-! ### Answers -/

inductive FileKind where
  | file | directory | symlink | other
  deriving DecidableEq, Repr

/-- `fs::symlink_metadata`. -/
structure Metadata where
  kind : FileKind
  len : ℕ
  deriving DecidableEq, Repr

def Metadata.isFile (m : Metadata) : Bool := m.kind = .file

def Metadata.isDir (m : Metadata) : Bool := m.kind = .directory

/-- Components of a link's target. -/
structure LinkTarget where
  absolute : Bool
  components : List String
  deriving DecidableEq, Repr

inductive IoError where
  | notFound | other
  deriving DecidableEq, Repr

/-- A directory entry. A name that is not UTF-8 is still a name, but has no string. -/
structure DirEntry where
  name : String
  utf8 : Bool
  kind : FileKind
  len : ℕ
  deriving DecidableEq, Repr

/-- Inputs to the download-only native solver. -/
structure DnfPlanningRequest where
  configuration : Path
  transaction : Path
  packages : List ReleasePackage
  deriving DecidableEq, Repr

/-- How a privileged command ended. -/
inductive ReplayStatus where
  | exit (code : ℤ)
  | signal
  deriving DecidableEq, Repr

/-! ### Questions -/

inductive Question where
  | run (request : ProcessRequest)
  | symlinkMetadata (path : Path)
  | readLink (path : Path)
  | canonicalize (path : Path)
  | readFile (path : Path)
  | readDir (path : Path)
  | createDir (path : Path)
  | createDirAll (path : Path)
  | writeFile (path : Path) (bytes : Bytes)
  | setPrivate (path : Path)
  | copyFile (source target : Path)
  | tempDir (stem : String)
  | plan (request : DnfPlanningRequest)
  | detectPlatform
  | execute (argv : List String)
  | writeOut (text : String)
  | flushOut
  | writeErr (text : String)
  | readResponse
  deriving DecidableEq

/-- The type of answer each question has. -/
@[reducible] def Answer : Question → Type
  | .run _ => Except ProcessError ProcessOutput
  | .symlinkMetadata _ => Except IoError Metadata
  | .readLink _ => Except IoError LinkTarget
  | .canonicalize _ => Except IoError Path
  | .readFile _ => Except IoError Bytes
  | .readDir _ => Except IoError (List DirEntry)
  | .tempDir _ => Except IoError Path
  | .plan _ => Except InstallError Path
  | .detectPlatform => Option PlatformFacts
  | .execute _ => Except IoError ReplayStatus
  | .readResponse => Except IoError String
  | _ => Except IoError Unit

/-- Installer code. -/
abbrev Sys (α : Type) := Prog Answer InstallError α

/-- What a run asked and was answered, in order. -/
abbrev Trace := List (Event Answer)

/-- The trace records this answer to this question. -/
def Saw (t : Trace) (q : Question) (a : Answer q) : Prop := (⟨q, a⟩ : Event Answer) ∈ t

/-! ### Single questions -/

section
variable (path : Path) (e : InstallError)

def lstat : Sys Metadata := .expect (.symlinkMetadata path) fun a => okOr a e

def readLink : Sys LinkTarget := .expect (.readLink path) fun a => okOr a e

def readFile : Sys Bytes := .expect (.readFile path) fun a => okOr a e

def readDir : Sys (List DirEntry) := .expect (.readDir path) fun a => okOr a e

def createDir : Sys Unit := .expect (.createDir path) fun a => okOr a e

def createDirAll : Sys Unit := .expect (.createDirAll path) fun a => okOr a e

def writeFile (bytes : Bytes) : Sys Unit := .expect (.writeFile path bytes) fun a => okOr a e

def setPrivate : Sys Unit := .expect (.setPrivate path) fun a => okOr a e

def copyFile (target : Path) : Sys Unit := .expect (.copyFile path target) fun a => okOr a e

def tempDir (stem : String) : Sys Path := .expect (.tempDir stem) fun a => okOr a e

end

/-- Run a tool and return its output, refusing anything but a clean exit. -/
def runClean (request : ProcessRequest) (failed unclean : InstallError) : Sys Bytes :=
  .expect (.run request) fun answer => do
    let output ← okOr answer failed
    refuse (!output.clean) unclean
    return output.stdout

/-- The tool answered `stdout` with exit 0 and both streams within their limits. -/
def Ran (t : Trace) (request : ProcessRequest) (stdout : Bytes) : Prop :=
  ∃ output : ProcessOutput, output.clean = true ∧ output.stdout = stdout ∧
    Saw t (.run request) (.ok output)

theorem runClean_judge {answer : Except ProcessError ProcessOutput} {failed unclean : InstallError}
    {stdout : Bytes} :
    (do let output ← okOr answer failed
        refuse (!output.clean) unclean
        return output.stdout : Except InstallError Bytes) = .ok stdout ↔
      ∃ output : ProcessOutput, answer = .ok output ∧ output.clean = true ∧ output.stdout = stdout := by
  simp only [except_bind_ok, okOr_ok, refuse_ok, pure, Except.pure, Except.ok.injEq,
    Bool.not_eq_true, Bool.not_eq_false']
  constructor
  · rintro ⟨output, h, _, hc, hs⟩
    exact ⟨output, h, hc, hs⟩
  · rintro ⟨output, h, hc, hs⟩
    exact ⟨output, h, (), hc, hs⟩

/-- A tool run in front of a program. -/
theorem runs_runClean_bind_ok {request : ProcessRequest} {failed unclean : InstallError} {t : Trace}
    {α : Type} {f : Bytes → Sys α} {b : α} :
    (runClean request failed unclean >>= f).Runs t (.ok b) ↔ ∃ output : ProcessOutput, ∃ t',
      output.clean = true ∧ t = ⟨.run request, .ok output⟩ :: t' ∧ (f output.stdout).Runs t' (.ok b) := by
  simp only [runClean, Prog.runs_expect_bind_ok, runClean_judge]
  constructor
  · rintro ⟨_, t', ⟨_, ⟨output, rfl, hc, rfl⟩, rfl⟩, h⟩
    exact ⟨output, t', hc, rfl, h⟩
  · rintro ⟨output, t', hc, rfl, h⟩
    exact ⟨_, t', ⟨_, ⟨output, rfl, hc, rfl⟩, rfl⟩, h⟩

/-- A take within the limit took everything. -/
theorem take_of_length_le {bytes : Bytes} {limit : ℕ}
    (h : (bytes.take (limit + 1)).length ≤ limit) : bytes.take (limit + 1) = bytes := by
  rw [List.length_take] at h
  exact List.take_of_length_le (by omega)

/-! ### Evidence grows with the trace -/

theorem Saw.mono {t t' : Trace} {q : Question} {a : Answer q} (h : Saw t q a) (ht : t ⊆ t') :
    Saw t' q a := ht h

theorem Ran.mono {t t' : Trace} {request : ProcessRequest} {stdout : Bytes}
    (h : Ran t request stdout) (ht : t ⊆ t') : Ran t' request stdout := by
  obtain ⟨output, hc, hs, hsaw⟩ := h
  exact ⟨output, hc, hs, ht hsaw⟩

end NpuStack.Install
