import NpuStack.Install.FedoraSources
import NpuStack.Install.Review

/-! Privileged replay of a reviewed transaction. Two commands may reach the executor, in this order,
    and everything recorded at preparation is checked again before the first:

        receipt ─▶ non-empty ─▶ bound bytes ─▶ import key ─▶ key listed ─▶ replay
                                               (exit 0)                    (exit 0)

    Every run takes one of four ways through this (`ReplayRun`). -/

namespace NpuStack.Install
open Interaction Text NpuStack.Runtime

/-- One private owner of an exact, fully verified installation transaction. -/
structure PreparedTransaction where
  /-- Where the plan lives; a receipt refers to it by this. -/
  address : ℕ
  directory : Path
  trust : ProjectRpmTrust
  planning : Path
  primaryFingerprint : String
  plan : NativePlan
  bound : List (Path × String × ℕ)
  symlinks : List (Path × LinkTarget)

/-- A failed replay with its native exit, when one exists. -/
structure ReplayFailure where
  error : InstallError
  status : Option ℤ
  deriving DecidableEq, Repr

def refused (error : InstallError) : ReplayFailure := ⟨error, none⟩

def receiptMismatch : InstallError := ⟨30, "INSTALL_PLAN_RECEIPT_MISMATCH",
  "the approval receipt belongs to a different prepared transaction"⟩

def nothingToReplay : InstallError := ⟨30, "INSTALL_NOTHING_TO_REPLAY",
  "an exact no-op has no native transaction to replay"⟩

def importFailed (status : Option ℤ) : ReplayFailure := ⟨⟨30, "INSTALL_KEY_IMPORT_FAILED",
  "the release public key could not be installed into the native database"⟩, status⟩

def replayFailed (status : Option ℤ) : ReplayFailure := ⟨⟨30, "INSTALL_REPLAY_FAILED",
  "the native replay did not complete; native output was preserved"⟩, status⟩

def spawnFailed : ReplayFailure := refused ⟨30, "INSTALL_REPLAY_SPAWN_FAILED",
  "the privileged native replay could not be started"⟩

/-- How a privileged command ended, as a result. -/
def outcome (failed : Option ℤ → ReplayFailure) (spawn : ReplayFailure) :
    Except IoError ReplayStatus → Except ReplayFailure Unit
  | .ok (.exit code) => if code = 0 then .ok () else .error (failed (some code))
  | .ok .signal => .error (failed none)
  | .error _ => .error spawn

/-- The keys the system database holds, one version a line. -/
def importedKeyRequest : ProcessRequest where
  executable := "/usr/bin/rpm"
  args := macroArguments ++ ["-qa", "gpg-pubkey", "--qf", "%\x7bVERSION\x7d\n"]
  timeout := 10
  stdoutLimit := 65536
  stderrLimit := 65536
  environment := []

namespace PreparedTransaction

variable (crates : Crates) (prepared : PreparedTransaction)

def store : Path := prepared.directory.join "store"

/-- Rechecks one recorded file. -/
def verifyBoundFile (bound : Path × String × ℕ) : Sys Unit := do
  let (path, expected, limit) := bound
  let metadata ← lstat path boundError
  refuse (!metadata.isFile || metadata.len > limit) boundError
  let digest ← digestFileWithLimit crates path limit
  refuse (digest ≠ expected) boundError

/-- Rechecks every recorded digest, the stored transaction, every signature and the observed installed
    state. -/
def verifyBound : Sys Unit := do
  verifySymlinks prepared.symlinks
  forM prepared.bound (verifyBoundFile crates)
  prepared.plan.verifyStored crates prepared.store
  prepared.plan.verifySignatures crates prepared.store prepared.trust

/-- Fixed privileged release-key import of the bound public key. -/
def keyImportArgv : List String := ["/usr/bin/sudo", "--set-home", "--", "/usr/bin/rpmkeys", "--import",
  prepared.directory.display ++ "/public.asc"]

/-- The exact privileged argv of the native replay itself. -/
def replayArgv : List String := ["/usr/bin/sudo", "--set-home", "--", "/usr/bin/dnf5", "--no-plugins",
  "--config=" ++ prepared.directory.display ++ "/replay.ini",
  "--setopt=reposdir=" ++ prepared.directory.display ++ "/repos",
  "--setopt=localpkg_gpgcheck=True", "--setopt=install_weak_deps=False", "--assumeyes", "replay",
  prepared.directory.display ++ "/store"]

/-- The privileged argv sequence, for display and audit. -/
def replaySteps : List (List String) := [prepared.keyImportArgv, prepared.replayArgv]

/-- Confirms the bound release key is present in the observed system database. -/
def verifyImportedKey : Sys Unit := do
  let stdout ← runClean importedKeyRequest boundError boundError
  let text ← need (fromUtf8 stdout) boundError
  refuse (prepared.primaryFingerprint ∉ lines text) boundError

/-- Replays the reviewed exact transaction. -/
def executeReplay (approval : ApprovedPlan) : Prog Answer ReplayFailure Unit := do
  refuse (approval.plan.address ≠ prepared.address) (refused receiptMismatch)
  refuse (prepared.plan.isEmpty = true) (refused nothingToReplay)
  (prepared.verifyBound crates).mapError refused
  Prog.expect (.execute prepared.keyImportArgv) (outcome importFailed (importFailed none))
  prepared.verifyImportedKey.mapError fun _ => importFailed none
  Prog.expect (.execute prepared.replayArgv) (outcome replayFailed spawnFailed)

end PreparedTransaction

/-! ### What a recheck saw -/

section
variable {crates : Crates} {prepared : PreparedTransaction} {approval : ApprovedPlan} {t : Trace}

/-- The commands handed to the executor, in order. -/
def executed (t : Trace) : List (List String) :=
  t.filterMap fun e => match e.question with
    | .execute argv => some argv
    | _ => none

@[simp] theorem executed_nil : executed [] = [] := rfl

@[simp] theorem executed_append (t t' : Trace) : executed (t ++ t') = executed t ++ executed t' :=
  List.filterMap_append

@[simp] theorem executed_cons_execute (argv : List String) (answer : Except IoError ReplayStatus)
    (t : Trace) : executed (⟨.execute argv, answer⟩ :: t) = argv :: executed t := rfl

end

namespace Minimal

end Minimal

end NpuStack.Install
