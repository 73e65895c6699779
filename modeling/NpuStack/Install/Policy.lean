import NpuStack.Install.Environment

/-! Admission of one install request: a normal user, a channel whose risk is acknowledged exactly when
    it must be, a Fedora 44 x86_64 host, valid profiles inside that boundary, and one selected. -/

namespace NpuStack.Install
open Interaction Text Schema NpuStack.Core

/-- Public bootstrap options. -/
structure InstallOptions where
  dryRun : Bool
  yes : Bool
  channel : Channel
  acceptExperimentalRisk : Bool
  withPython : Bool
  withDevel : Bool
  deriving DecidableEq, Repr

def unsupported : InstallError := ⟨10, "INSTALL_PROFILE_UNSUPPORTED",
  "exactly one compatible profile admitted by this channel is required"⟩

/-- Profiles the installer accepts at all. -/
def checkProfile (profile : Profile) : Except InstallError Unit := do
  okOr profile.validate (InstallError.metadata "profile validation failed")
  refuse (profile.packageManager ≠ .rpm ∨ profile.platform.id ≠ "fedora" ∨
      profile.platform.versionId ≠ "44" ∨ profile.platform.arch ≠ "x86_64")
    (InstallError.metadata "profile is outside the Fedora installer boundary")

/-- Validates normal-user execution and selects one exact compatible profile. -/
def validateRequest (options : InstallOptions) (facts : PlatformFacts) (profiles : List Profile) :
    Except InstallError ℕ := do
  refuse (facts.effectiveRoot = true) ⟨2, "INSTALL_ROOT_REFUSED",
    "run the installer as a normal user; it requests privilege only for the approved native transaction"⟩
  refuse ((options.channel = .experimental) ≠ (options.acceptExperimentalRisk = true))
    ⟨2, "INSTALL_CHANNEL_RISK_MISMATCH",
      "experimental requires --accept-experimental-risk; stable rejects that flag"⟩
  refuse (facts.osId ≠ "fedora" ∨ facts.osVersionId ≠ "44" ∨ facts.arch ≠ "x86_64") unsupported
  forM profiles checkProfile
  let policy : SelectionPolicy := ⟨options.channel, options.acceptExperimentalRisk⟩
  let selected ← okOr (selectProfile profiles facts policy) unsupported
  return selected.2

/-- What an admitted request establishes. -/
theorem validateRequest_ok {options : InstallOptions} {facts : PlatformFacts} {profiles : List Profile}
    {i : ℕ} (h : validateRequest options facts profiles = .ok i) :
    facts.effectiveRoot = false ∧
      (options.channel = .experimental ↔ options.acceptExperimentalRisk = true) ∧
      ∃ profile, profiles[i]? = some profile ∧ statusAllowed profile.status options.channel = true ∧
        platformMatches profile facts = true := by
  simp only [validateRequest, except_bind_ok, refuse_ok, okOr_ok, ne_eq, not_not, Bool.not_eq_true,
    pure, Except.pure, Except.ok.injEq] at h
  obtain ⟨_, hroot, _, hrisk, _, -, _, -, selected, hselected, rfl⟩ := h
  exact ⟨hroot, iff_of_eq hrisk, selected.1, selectProfile_ok hselected⟩

end NpuStack.Install
