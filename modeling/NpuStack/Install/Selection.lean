import NpuStack.Install.Policy
import NpuStack.Schema.Release

/-! What the selection means, without its filters and its sort.

        profile i  ──status the channel admits, platform fits──▶  eligible
        exactly one eligible place  ⟺  it is selected

    Places tell profiles apart, so equal identifiers and overlapping kernel ranges do no harm beyond
    making a second place eligible, and nothing but the places themselves depends on the order. -/

namespace NpuStack.Install
open Interaction Text Schema NpuStack.Core

/-- The platform is the one the profile is for. -/
structure Fits (profile : Profile) (facts : PlatformFacts) : Prop where
  id : profile.platform.id = facts.osId
  versionId : profile.platform.versionId = facts.osVersionId
  arch : profile.platform.arch = facts.arch
  hardware : ∃ device ∈ profile.hardware, device ∈ facts.pciIds
  driver : profile.kernel.module = "intel_vpu"
  loaded : facts.intelVpuLoaded = true
  kernel : ∃ minimum maximum, Writes profile.kernel.min minimum ∧
    Writes profile.kernel.maxExclusive maximum ∧ minimum ≤ facts.kernel ∧ facts.kernel < maximum

def Admits : Channel → ProfileStatus → Prop
  | .stable, status => status = .qualified
  | .experimental, status => status = .qualified ∨ status = .experimental

/-- The place holds a profile that the channel admits and the platform fits. -/
def Eligible (profiles : List Profile) (facts : PlatformFacts) (channel : Channel) (i : ℕ) : Prop :=
  ∃ profile, profiles[i]? = some profile ∧ Admits channel profile.status ∧ Fits profile facts

theorem statusAllowed_iff {status : ProfileStatus} {channel : Channel} :
    statusAllowed status channel = true ↔ Admits channel status := by
  cases channel <;> simp [statusAllowed, Admits]

theorem kernelMatches_iff {profile : Profile} {actual : KernelVersion} :
    kernelMatches profile actual = true ↔ ∃ minimum maximum, Writes profile.kernel.min minimum ∧
      Writes profile.kernel.maxExclusive maximum ∧ minimum ≤ actual ∧ actual < maximum := by
  simp only [← parseRelease_ok, kernelMatches]
  constructor
  · intro h
    split at h
    · next minimum maximum hmin hmax =>
      simp only [Bool.and_eq_true, decide_eq_true_eq] at h
      exact ⟨minimum, maximum, hmin, hmax, h⟩
    · cases h
  · rintro ⟨minimum, maximum, hmin, hmax, hle, hlt⟩
    simp [hmin, hmax, hle, hlt]

theorem platformMatches_iff {profile : Profile} {facts : PlatformFacts} :
    platformMatches profile facts = true ↔ Fits profile facts := by
  simp only [platformMatches, Bool.and_eq_true, decide_eq_true_eq, kernelMatches_iff,
    List.any_eq_true]
  constructor
  · rintro ⟨⟨⟨⟨⟨⟨hid, hversion⟩, harch⟩, device, hdevice, actual, hactual, rfl⟩, hmodule⟩, hloaded⟩,
      hkernel⟩
    exact ⟨hid, hversion, harch, ⟨actual, hdevice, hactual⟩, hmodule, hloaded, hkernel⟩
  · rintro ⟨hid, hversion, harch, ⟨device, hdevice, hactual⟩, hmodule, hloaded, hkernel⟩
    exact ⟨⟨⟨⟨⟨⟨hid, hversion⟩, harch⟩, device, hdevice, device, hactual, rfl⟩, hmodule⟩, hloaded⟩,
      hkernel⟩

/-! ### The candidates -/

/-- The profiles that pass both filters, with their places. -/
def candidates (profiles : List Profile) (facts : PlatformFacts) (channel : Channel) : List Placed :=
  (profiles.zipIdx.filter fun p => statusAllowed p.1.status channel).filter
    fun p => platformMatches p.1 facts

/-- What becomes of the sorted candidates. -/
def choose : List Placed → Except SelectionError Placed
  | [] => .error .noCompatibleProfile
  | [profile] => .ok profile
  | sorted => .error (.ambiguousProfiles (sorted.map fun p => p.1.id))

variable {profiles : List Profile} {facts : PlatformFacts}

theorem selectProfile_eq {policy : SelectionPolicy}
    (hpolicy : ¬(policy.channel = .experimental ∧ policy.acknowledgeRisk = false)) :
    selectProfile profiles facts policy =
      choose ((candidates profiles facts policy.channel).insertionSort byId) := by
  rw [selectProfile, refuse, if_neg hpolicy, candidates]
  dsimp only [bind, Except.bind]
  split
  · next hsorted => rw [hsorted]; rfl
  · next hsorted => rw [hsorted]; rfl
  · next hnil hone =>
    rw [choose]
    · exact hnil
    · exact hone

theorem mem_candidates {channel : Channel} {p : Placed} : p ∈ candidates profiles facts channel ↔
    profiles[p.2]? = some p.1 ∧ Admits channel p.1.status ∧ Fits p.1 facts := by
  rw [candidates, List.mem_filter, List.mem_filter, List.mem_zipIdx_iff_getElem?, statusAllowed_iff,
    platformMatches_iff, and_assoc]

theorem nodup_candidates (profiles : List Profile) (facts : PlatformFacts) (channel : Channel) :
    (candidates profiles facts channel).Nodup := by
  have hplaces : (profiles.zipIdx.map Prod.snd).Nodup := by
    rw [List.zipIdx_map_snd]
    exact List.nodup_range'
  exact ((List.Nodup.of_map _ hplaces).filter _).filter _

theorem eligible_iff {channel : Channel} {i : ℕ} : Eligible profiles facts channel i ↔
    ∃ profile, (profile, i) ∈ candidates profiles facts channel := by
  simp only [Eligible, mem_candidates]

theorem choose_ok {sorted : List Placed} {selected : Placed} :
    choose sorted = .ok selected ↔ sorted = [selected] := by
  match sorted with
  | [] => simp [choose]
  | [p] => simp [choose]
  | p :: q :: rest => simp [choose]

/-- A profile is selected when its place is the only eligible one. -/
theorem selectProfile_iff {policy : SelectionPolicy} {profile : Profile} {i : ℕ} :
    selectProfile profiles facts policy = .ok (profile, i) ↔
      ¬(policy.channel = .experimental ∧ policy.acknowledgeRisk = false) ∧
        profiles[i]? = some profile ∧ ∀ j, Eligible profiles facts policy.channel j ↔ j = i := by
  by_cases hpolicy : policy.channel = .experimental ∧ policy.acknowledgeRisk = false
  · have herror : selectProfile profiles facts policy = .error .riskAcknowledgementRequired := by
      rw [selectProfile, refuse, if_pos hpolicy]
      rfl
    rw [herror]
    constructor
    · intro h
      cases h
    · rintro ⟨hno, _⟩
      exact absurd hpolicy hno
  · have hsorted : (candidates profiles facts policy.channel).insertionSort byId = [(profile, i)] ↔
        candidates profiles facts policy.channel = [(profile, i)] := by
      rw [← List.perm_singleton, (List.perm_insertionSort byId _).congr_left, List.perm_singleton]
    rw [selectProfile_eq hpolicy, choose_ok, hsorted]
    constructor
    · intro hone
      have hmem : (profile, i) ∈ candidates profiles facts policy.channel := by
        rw [hone]
        exact List.mem_singleton.mpr rfl
      refine ⟨hpolicy, (mem_candidates.mp hmem).1, ?_⟩
      intro j
      rw [eligible_iff, hone]
      simp
    · rintro ⟨_, hplace, hunique⟩
      have hnodup := nodup_candidates profiles facts policy.channel
      obtain ⟨profile', hmem'⟩ := eligible_iff.mp ((hunique i).mpr rfl)
      have hall : ∀ p ∈ candidates profiles facts policy.channel, p = (profile, i) := by
        rintro ⟨q, j⟩ hq
        have hj : j = i := (hunique j).mp (eligible_iff.mpr ⟨q, hq⟩)
        have hsame : profiles[i]? = some q := hj ▸ (mem_candidates.mp hq).1
        rw [hplace] at hsame
        cases hsame
        rw [hj]
      have hmem : (profile, i) ∈ candidates profiles facts policy.channel := hall _ hmem' ▸ hmem'
      rw [List.eq_replicate_of_mem hall] at hnodup hmem ⊢
      rw [List.nodup_replicate] at hnodup
      have hpos : (candidates profiles facts policy.channel).length ≠ 0 := by
        intro hzero
        rw [hzero] at hmem
        cases hmem
      have hlen : (candidates profiles facts policy.channel).length = 1 := by omega
      rw [hlen]
      rfl

/-! ### The order of the list -/

/-- The candidates without their places. -/
theorem candidates_fst (profiles : List Profile) (facts : PlatformFacts) (channel : Channel) :
    (candidates profiles facts channel).map Prod.fst =
      (profiles.filter fun p => statusAllowed p.status channel).filter
        fun p => platformMatches p facts := by
  have hfst : (profiles.zipIdx.map Prod.fst) = profiles := List.zipIdx_map_fst 0 profiles
  conv_rhs => rw [← hfst]
  rw [List.filter_map, List.filter_map, candidates]
  rfl

/-- Which profile is chosen, or why none, is decided by the ids in order and the profiles. -/
theorem choose_congr {sorted sorted' : List Placed}
    (hids : sorted.map (fun p => p.1.id) = sorted'.map fun p => p.1.id)
    (hperm : (sorted.map Prod.fst).Perm (sorted'.map Prod.fst)) :
    (choose sorted).map Prod.fst = (choose sorted').map Prod.fst := by
  match sorted, sorted' with
  | [], [] => rfl
  | [], _ :: _ => simp at hids
  | [p], [p'] =>
    have hone : p.1 = p'.1 := by simpa using hperm
    simp [choose, Except.map, hone]
  | [_], [] => simp at hids
  | [_], _ :: _ :: _ => simp at hids
  | _ :: _ :: _, [] => simp at hids
  | _ :: _ :: _, [_] => simp at hids
  | p :: q :: rest, p' :: q' :: rest' =>
    simp only [choose, Except.map, hids]

/-- Reordering the profiles changes neither the selection nor its refusal. -/
theorem selectProfile_perm {profiles' : List Profile} (policy : SelectionPolicy)
    (h : profiles'.Perm profiles) : (selectProfile profiles' facts policy).map Prod.fst =
      (selectProfile profiles facts policy).map Prod.fst := by
  by_cases hpolicy : policy.channel = .experimental ∧ policy.acknowledgeRisk = false
  · rw [selectProfile, selectProfile, refuse, if_pos hpolicy]
    rfl
  · rw [selectProfile_eq hpolicy, selectProfile_eq hpolicy]
    have hfst : ((candidates profiles' facts policy.channel).map Prod.fst).Perm
        ((candidates profiles facts policy.channel).map Prod.fst) := by
      rw [candidates_fst, candidates_fst]
      exact (h.filter _).filter _
    have hsorted : ∀ l : List Placed,
        (l.insertionSort byId).map (fun p => p.1.id) = (l.map fun p => p.1.id).insertionSort (· ≤ ·) := by
      intro l
      exact List.map_insertionSort _ _ (fun p : Placed => p.1.id) l fun _ _ _ _ => Iff.rfl
    refine choose_congr ?_ ?_
    · rw [hsorted, hsorted]
      refine List.Perm.eq_of_sortedLE (List.sortedLE_insertionSort) List.sortedLE_insertionSort ?_
      refine (List.perm_insertionSort _ _).trans (List.Perm.trans ?_ (List.perm_insertionSort _ _).symm)
      have hids := hfst.map (fun p : Profile => p.id)
      rwa [List.map_map, List.map_map] at hids
    · exact ((List.perm_insertionSort byId _).map _).trans
        (hfst.trans ((List.perm_insertionSort byId _).map _).symm)

/-! ### The request -/

/-- A valid profile for the platform the installer serves. -/
structure Served (profile : Profile) : Prop where
  valid : profile.validate = .ok ()
  packageManager : profile.packageManager = .rpm
  id : profile.platform.id = "fedora"
  versionId : profile.platform.versionId = "44"
  arch : profile.platform.arch = "x86_64"

theorem checkProfile_ok {profile : Profile} {u : Unit} :
    checkProfile profile = .ok u ↔ Served profile := by
  simp only [checkProfile, except_bind_ok, okOr_ok, refuse_ok, not_or, not_not]
  constructor
  · rintro ⟨_, hvalid, hmanager, hid, hversion, harch⟩
    exact ⟨hvalid, hmanager, hid, hversion, harch⟩
  · rintro ⟨hvalid, hmanager, hid, hversion, harch⟩
    exact ⟨(), hvalid, hmanager, hid, hversion, harch⟩

/-- The place of a reference into the slice. -/
def position (profiles : List Profile) (selected : Placed) : Option ℕ :=
  profiles.zipIdx.findIdx? fun entry => entry.2 = selected.2

/-- The lookup finds the selected profile itself, whatever ids the others have. -/
theorem position_selected {profile : Profile} {i : ℕ} (h : profiles[i]? = some profile) :
    position profiles (profile, i) = some i := by
  obtain ⟨hlt, hget⟩ := List.getElem?_eq_some_iff.mp h
  rw [position, List.findIdx?_eq_some_iff_getElem]
  refine ⟨by simpa using hlt, by simp, ?_⟩
  intro j hj
  simp
  omega

/-- Every request that is admitted, and what for. -/
theorem validateRequest_iff {options : InstallOptions} {i : ℕ} :
    validateRequest options facts profiles = .ok i ↔ facts.effectiveRoot = false ∧
      (options.channel = .experimental ↔ options.acceptExperimentalRisk = true) ∧
      (facts.osId = "fedora" ∧ facts.osVersionId = "44" ∧ facts.arch = "x86_64") ∧
      (∀ profile ∈ profiles, Served profile) ∧ ∃ profile, selectProfile profiles facts
        ⟨options.channel, options.acceptExperimentalRisk⟩ = .ok (profile, i) := by
  have hall : ∀ u : PUnit, forM profiles checkProfile = Except.ok u ↔ ∀ profile ∈ profiles, Served profile := by
    intro u
    rw [except_forM_ok]
    simp only [checkProfile_ok]
  simp only [validateRequest, except_bind_ok, refuse_ok, okOr_ok, ne_eq, not_not, Bool.not_eq_true,
    pure, Except.pure, Except.ok.injEq, hall, not_or]
  constructor
  · rintro ⟨_, hroot, _, hrisk, _, hplatform, _, hserved, ⟨profile, j⟩, hselected, rfl⟩
    exact ⟨hroot, iff_of_eq hrisk, hplatform, hserved, profile, hselected⟩
  · rintro ⟨hroot, hrisk, hplatform, hserved, profile, hselected⟩
    exact ⟨(), hroot, (), propext hrisk, (), hplatform, (), hserved, _, hselected, rfl⟩

/-- Selection picks the only eligible place and nothing else decides it: not the order of the
    profiles, not their ids. A request is admitted with exactly that place, or refused. -/
theorem selection_exact (profiles : List Profile) (facts : PlatformFacts) (policy : SelectionPolicy)
    (options : InstallOptions) :
    (∀ profile i, selectProfile profiles facts policy = .ok (profile, i) ↔
      ¬(policy.channel = .experimental ∧ policy.acknowledgeRisk = false) ∧
        profiles[i]? = some profile ∧ ∀ j, Eligible profiles facts policy.channel j ↔ j = i) ∧
    (∀ profiles' : List Profile, profiles'.Perm profiles →
      (selectProfile profiles' facts policy).map Prod.fst =
        (selectProfile profiles facts policy).map Prod.fst) ∧
    (policy.channel = .stable → ∀ selected, selectProfile profiles facts policy = .ok selected →
      selected.1.status = .qualified) ∧
    ∀ i, validateRequest options facts profiles = .ok i ↔ facts.effectiveRoot = false ∧
      (options.channel = .experimental ↔ options.acceptExperimentalRisk = true) ∧
      (facts.osId = "fedora" ∧ facts.osVersionId = "44" ∧ facts.arch = "x86_64") ∧
      (∀ profile ∈ profiles, Served profile) ∧ ∃ profile, selectProfile profiles facts
          ⟨options.channel, options.acceptExperimentalRisk⟩ = .ok (profile, i) ∧
        position profiles (profile, i) = some i := by
  refine ⟨fun _ _ => selectProfile_iff, fun _ h => selectProfile_perm policy h, ?_, ?_⟩
  · rintro hstable ⟨profile, i⟩ h
    obtain ⟨_, hplace, hunique⟩ := selectProfile_iff.mp h
    obtain ⟨profile', hplace', hadmits, _⟩ := (hunique i).mpr rfl
    rw [hplace] at hplace'
    cases hplace'
    rwa [hstable] at hadmits
  · intro i
    rw [validateRequest_iff]
    have hposition : ∀ profile, selectProfile profiles facts
        ⟨options.channel, options.acceptExperimentalRisk⟩ = .ok (profile, i) →
        position profiles (profile, i) = some i := by
      intro profile h
      exact position_selected (selectProfile_iff.mp h).2.1
    constructor
    · rintro ⟨hroot, hrisk, hplatform, hserved, profile, hselected⟩
      exact ⟨hroot, hrisk, hplatform, hserved, profile, hselected, hposition profile hselected⟩
    · rintro ⟨hroot, hrisk, hplatform, hserved, profile, hselected, _⟩
      exact ⟨hroot, hrisk, hplatform, hserved, profile, hselected⟩

end NpuStack.Install
