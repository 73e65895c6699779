import NpuStack.Schema.Profile

/-! Selection of the one profile a platform may install. Lifecycle policy and platform compatibility
    filter the profiles; more than one survivor is as much a refusal as none.

        profiles ──status allowed by the channel──▶ ──platform matches──▶ exactly one -/

namespace NpuStack.Core
open Interaction Text Schema

/-- Sanitized platform facts used for profile matching. -/
structure PlatformFacts where
  osId : String
  osVersionId : String
  arch : String
  kernel : KernelVersion
  pciIds : List PciId
  intelVpuLoaded : Bool
  accelNodePresent : Bool
  effectiveRoot : Bool
  bootTimeEpoch : ℕ
  deriving DecidableEq, Repr

/-- User-selected profile channel. -/
inductive Channel where
  | stable | experimental
  deriving DecidableEq, Repr

structure SelectionPolicy where
  channel : Channel
  acknowledgeRisk : Bool
  deriving DecidableEq, Repr

/-- Deterministic profile-selection failure. -/
inductive SelectionError where
  | noCompatibleProfile
  | riskAcknowledgementRequired
  | ambiguousProfiles (ids : List String)
  deriving DecidableEq, Repr

def statusAllowed (status : ProfileStatus) : Channel → Bool
  | .stable => status = .qualified
  | .experimental => status = .qualified || status = .experimental

def kernelMatches (profile : Profile) (actual : KernelVersion) : Bool :=
  match KernelVersion.parseRelease profile.kernel.min,
    KernelVersion.parseRelease profile.kernel.maxExclusive with
  | .ok minimum, .ok maximum => minimum ≤ actual && actual < maximum
  | _, _ => false

/-- Platform compatibility, without a lifecycle state or channel. -/
def platformMatches (profile : Profile) (facts : PlatformFacts) : Bool :=
  profile.platform.id = facts.osId && profile.platform.versionId = facts.osVersionId &&
    profile.platform.arch = facts.arch &&
    profile.hardware.any (fun supported => facts.pciIds.any fun actual => actual = supported) &&
    profile.kernel.module = "intel_vpu" && facts.intelVpuLoaded && kernelMatches profile facts.kernel

/-- A profile with its position, which is what a reference into the slice identifies. -/
abbrev Placed := Profile × ℕ

def byId (a b : Placed) : Prop := a.1.id ≤ b.1.id

instance : DecidableRel byId := fun a b => inferInstanceAs (Decidable (a.1.id ≤ b.1.id))

/-- Selects exactly one installable profile for the supplied platform facts. -/
def selectProfile (profiles : List Profile) (facts : PlatformFacts) (policy : SelectionPolicy) :
    Except SelectionError Placed := do
  refuse (policy.channel = .experimental ∧ policy.acknowledgeRisk = false)
    SelectionError.riskAcknowledgementRequired
  let candidates := (profiles.zipIdx.filter fun p => statusAllowed p.1.status policy.channel).filter
    fun p => platformMatches p.1 facts
  match candidates.insertionSort byId with
  | [] => .error .noCompatibleProfile
  | [profile] => return profile
  | sorted => .error (.ambiguousProfiles (sorted.map fun p => p.1.id))

/-- The selected profile is in its place, allowed by the channel, and fits the platform. -/
theorem selectProfile_ok {profiles : List Profile} {facts : PlatformFacts} {policy : SelectionPolicy}
    {selected : Placed} (h : selectProfile profiles facts policy = .ok selected) :
    profiles[selected.2]? = some selected.1 ∧
      statusAllowed selected.1.status policy.channel = true ∧
      platformMatches selected.1 facts = true := by
  simp only [selectProfile, except_bind_ok, refuse_ok] at h
  obtain ⟨_, -, h⟩ := h
  split at h
  · cases h
  next hone =>
    obtain rfl := Except.ok.inj h
    have hmem := (List.mem_insertionSort byId).mp (hone ▸ List.mem_singleton.mpr rfl)
    obtain ⟨hallowed, hmatches⟩ := List.mem_filter.mp hmem
    obtain ⟨hplaced, hallowed⟩ := List.mem_filter.mp hallowed
    exact ⟨List.mk_mem_zipIdx_iff_getElem?.mp hplaced, hallowed, hmatches⟩
  · cases h

end NpuStack.Core
