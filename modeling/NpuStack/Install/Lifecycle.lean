import NpuStack.Install.Inventory

/-! Post-transaction verification. A replay exit is never success by itself: the database is observed
    again and compared with the release manifest and the observation made before.

        selected   : an exact record, and no other version of the name      (`matchedRecord`)
        unselected : the same records before and after                      (`frozen`)

    `verifyInstallation_ok` says when it succeeds and what it then reports; the closure of a bound
    release (every profile component is a selected package, hence installed) follows. -/

namespace NpuStack.Install
open Interaction Text Schema
open ReleaseManifest (roleSelected byName)

/-- Honest installation state after the native transaction. -/
structure LifecycleReport where
  verified : List String
  pendingReboot : List String
  pendingRelogin : List String
  deriving DecidableEq, Repr

def verifyFailed (message : String) : InstallError := ⟨21, "INSTALL_VERIFY_FAILED", message⟩

/-- The exact record of a release package, if the inventory holds it. -/
def matchedRecord (after : NativeInventory) (package : ReleasePackage) : Option InstalledRpm :=
  (after.named package.name).find? fun rpm => rpm.evr = package.nevr && rpm.arch = package.arch

/-- One selected package; collects the verified names and the names whose record is new. -/
def verifyPackage (before after : NativeInventory) (acc : List String × List String)
    (package : ReleasePackage) : Except InstallError (List String × List String) := do
  let entries := after.named package.name
  let exact := matchedRecord after package
  refuse (exact.isNone || entries.any fun rpm => rpm.evr ≠ package.nevr)
    (verifyFailed
      "an expected release package is missing, at the wrong version, or duplicated")
  let matched ← need exact
    (verifyFailed "an expected release package is missing, at the wrong version, or duplicated")
  let untouched := matched ∈ before.packages
  return (acc.1 ++ [package.name], if untouched then acc.2 else acc.2 ++ [matched.name])

/-- The records of one name without the name. -/
def snapshot (inventory : NativeInventory) (name : String) : List (String × String × ℕ) :=
  (inventory.named name).map fun rpm => (rpm.evr, rpm.arch, rpm.installTime)

/-- One package of the manifest outside the selection. -/
def verifyUnselected (selectedNames : List String) (before after : NativeInventory)
    (package : ReleasePackage) : Except InstallError Unit :=
  refuse (package.name ∉ selectedNames ∧ snapshot before package.name ≠ snapshot after package.name)
    (verifyFailed "a release package outside the selection changed during the transaction")

/-- Capabilities whose provider changed and that need this activation. -/
def pending (profile : Profile) (changed : List String) (activation : ActivationRequirement) :
    List String :=
  (profile.components.entries.filter fun entry =>
    changed.contains entry.2.provider.package && entry.2.provider.activation = activation).map (·.1)

/-- Verifies the observed inventory against the release selection. -/
def verifyInstallation (manifest : ReleaseManifest) (withPython withDevel : Bool)
    (profile : Profile) (before after : NativeInventory) : Except InstallError LifecycleReport := do
  let selected ← manifest.selectedPackages withPython withDevel
  let (verified, changed) ← selected.foldlM (verifyPackage before after) ([], [])
  forM manifest.packages (verifyUnselected (selected.map (·.name)) before after)
  return {
    verified
    pendingReboot := pending profile changed .reboot
    pendingRelogin := pending profile changed .relogin }

/-! ### Records of a package -/

variable {before after : NativeInventory} {p : ReleasePackage} {r : InstalledRpm}

/-- The scan finds the one record of the package. -/
theorem matchedRecord_eq_some :
    matchedRecord after p = some r ↔ r ∈ after.packages ∧ IsRecordOf r p := by
  constructor
  · intro h
    have hmem := after.mem_named.mp (List.mem_of_find?_eq_some h)
    have hp := List.find?_some h
    simp only [Bool.and_eq_true, decide_eq_true_eq] at hp
    exact ⟨hmem.1, hmem.2, hp⟩
  · rintro ⟨hr, hrec⟩
    cases hfind : matchedRecord after p with
    | none =>
      have := List.find?_eq_none.mp hfind r (after.mem_named.mpr ⟨hr, hrec.1⟩)
      simp [hrec.2.1, hrec.2.2] at this
    | some s =>
      have hmem := after.mem_named.mp (List.mem_of_find?_eq_some hfind)
      have hs := List.find?_some hfind
      simp only [Bool.and_eq_true, decide_eq_true_eq] at hs
      have hkey : s.key = r.key := IsRecordOf.key_eq (p := p) ⟨hmem.2, hs⟩ hrec
      rw [after.eq_of_key_eq hmem.1 hr hkey]

/-- The record of the package is not one the earlier observation already held. -/
def changedBy (before after : NativeInventory) (p : ReleasePackage) : Bool :=
  (matchedRecord after p).any (· ∉ before.packages)

theorem changedBy_iff : changedBy before after p = true ↔
    ∃ r ∈ after.packages, IsRecordOf r p ∧ r ∉ before.packages := by
  simp only [changedBy, Option.any_eq_true, matchedRecord_eq_some, decide_eq_true_eq, and_assoc]

/-- Exactly the package is installed: its record is there, and no other version of its name. -/
def Installed (after : NativeInventory) (p : ReleasePackage) : Prop :=
  (∃ r ∈ after.packages, IsRecordOf r p) ∧ ∀ r ∈ after.packages, r.name = p.name → r.evr = p.nevr

/-- One step of the scan over the selection. -/
theorem verifyPackage_ok {acc acc' : List String × List String} :
    verifyPackage before after acc p = .ok acc' ↔ Installed after p ∧
      acc' = (acc.1 ++ [p.name], acc.2 ++ ([p].filter (changedBy before after)).map (·.name)) := by
  simp only [verifyPackage, except_bind_ok, refuse_ok, need_ok, pure, Except.pure, Except.ok.injEq]
  constructor
  · rintro ⟨_, hok, r, hmatch, rfl⟩
    have hrec := matchedRecord_eq_some.mp hmatch
    refine ⟨⟨⟨r, hrec⟩, fun s hs hname => ?_⟩, ?_⟩
    · simp only [hmatch, Option.isNone_some, Bool.false_or, List.any_eq_true, not_exists,
        not_and, decide_eq_true_eq, not_not] at hok
      exact hok s (after.mem_named.mpr ⟨hs, hname⟩)
    · rw [List.filter_singleton, changedBy, hmatch]
      by_cases hold : r ∈ before.packages <;> simp [hold, hrec.2.1]
  · rintro ⟨⟨⟨r, hr, hrec⟩, hsole⟩, rfl⟩
    have hmatch := matchedRecord_eq_some.mpr ⟨hr, hrec⟩
    refine ⟨(), ?_, r, hmatch, ?_⟩
    · simp only [hmatch, Option.isNone_some, Bool.false_or, List.any_eq_true, not_exists,
        not_and, decide_eq_true_eq, not_not]
      exact fun s hs => hsole s (after.mem_named.mp hs).1 (after.mem_named.mp hs).2
    · rw [List.filter_singleton, changedBy, hmatch]
      by_cases hold : r ∈ before.packages <;> simp [hold, hrec.1]

/-- The whole scan: every package is installed, and the collected names are theirs in order. -/
theorem verifyPackages_ok : ∀ {ps : List ReleasePackage} {acc acc' : List String × List String},
    ps.foldlM (verifyPackage before after) acc = .ok acc' ↔ (∀ p ∈ ps, Installed after p) ∧
      acc' = (acc.1 ++ ps.map (·.name),
        acc.2 ++ (ps.filter (changedBy before after)).map (·.name))
  | [], acc, acc' => by simp [pure, Except.pure, eq_comm]
  | p :: ps, acc, acc' => by
    simp only [List.foldlM_cons, except_bind_ok, verifyPackage_ok, @verifyPackages_ok ps,
      List.mem_cons, forall_eq_or_imp]
    constructor
    · rintro ⟨_, ⟨hp, rfl⟩, hps, rfl⟩
      refine ⟨⟨hp, hps⟩, ?_⟩
      by_cases hc : changedBy before after p <;> simp [hc]
    · rintro ⟨⟨hp, hps⟩, rfl⟩
      refine ⟨_, ⟨hp, rfl⟩, hps, ?_⟩
      by_cases hc : changedBy before after p <;> simp [hc]

/-! ### Unselected packages -/

/-- The name has the same records in both observations. -/
def Frozen (before after : NativeInventory) (name : String) : Prop :=
  ∀ evr arch time, (⟨name, evr, arch, time⟩ : InstalledRpm) ∈ before.packages ↔
    (⟨name, evr, arch, time⟩ : InstalledRpm) ∈ after.packages

/-- Snapshots are sorted lists without repetition, so comparing them compares the sets. -/
theorem snapshot_eq_iff {name : String} :
    snapshot before name = snapshot after name ↔ Frozen before after name := by
  have hmem : ∀ (inventory : NativeInventory) evr arch time,
      (evr, arch, time) ∈ snapshot inventory name ↔ ⟨name, evr, arch, time⟩ ∈ inventory.packages := by
    intro inventory evr arch time
    simp only [snapshot, List.mem_map, NativeInventory.mem_named, Prod.mk.injEq]
    constructor
    · rintro ⟨r, ⟨hr, rfl⟩, rfl, rfl, rfl⟩; exact hr
    · exact fun h => ⟨_, ⟨h, rfl⟩, rfl, rfl, rfl⟩
  constructor
  · intro h evr arch time
    rw [← hmem, ← hmem, h]
  · intro h
    have hnamed : before.named name = after.named name := by
      have hnd : ∀ inventory : NativeInventory, (inventory.named name).Nodup :=
        fun inventory => inventory.packages_nodup.filter _
      refine ((List.perm_ext_iff_of_nodup (hnd before) (hnd after)).mpr fun r => ?_).eq_of_pairwise
        (fun r s _ _ hrs hsr => absurd (hrs.trans hsr) (lt_irrefl _))
        (before.named_increasing name) (after.named_increasing name)
      simp only [NativeInventory.mem_named]
      refine and_congr_left ?_
      rintro rfl
      exact h r.evr r.arch r.installTime
    rw [snapshot, snapshot, hnamed]

/-! ### The whole verification -/

/-- When verification succeeds, and with which report. -/
theorem verifyInstallation_ok {manifest : ReleaseManifest} {withPython withDevel : Bool}
    {profile : Profile} {report : LifecycleReport} :
    verifyInstallation manifest withPython withDevel profile before after = .ok report ↔
      ∃ selected, manifest.selectedPackages withPython withDevel = .ok selected ∧
        (∀ p ∈ selected, Installed after p) ∧
        (∀ p ∈ manifest.packages, p ∉ selected → Frozen before after p.name) ∧
        report = {
          verified := selected.map (·.name)
          pendingReboot :=
            pending profile ((selected.filter (changedBy before after)).map (·.name)) .reboot
          pendingRelogin :=
            pending profile ((selected.filter (changedBy before after)).map (·.name)) .relogin } := by
  have hunsel : ∀ {selected}, manifest.selectedPackages withPython withDevel = .ok selected →
      ∀ p ∈ manifest.packages, (p.name ∉ selected.map (·.name) ↔ p ∉ selected) := by
    intro selected hsel p hp
    obtain ⟨-, -, rfl⟩ := ReleaseManifest.selectedPackages_ok.mp hsel
    refine not_congr ⟨fun h => ?_, List.mem_map_of_mem⟩
    obtain ⟨q, hq, hname⟩ := List.mem_map.mp h
    rwa [← manifest.eq_of_name_eq (ReleaseManifest.mem_selected.mp hq).1 hp hname]
  simp only [verifyInstallation, except_bind_ok, except_forM_ok, verifyPackages_ok,
    verifyUnselected, refuse_ok, not_and, not_not, snapshot_eq_iff, pure, Except.pure,
    Except.ok.injEq]
  constructor
  · rintro ⟨selected, hsel, _, ⟨hinst, rfl⟩, _, hfrozen, rfl⟩
    exact ⟨selected, hsel, hinst, fun p hp hn => hfrozen p hp ((hunsel hsel p hp).mpr hn), rfl⟩
  · rintro ⟨selected, hsel, hinst, hfrozen, rfl⟩
    exact ⟨selected, hsel, _, ⟨hinst, rfl⟩, (), fun p hp hn => hfrozen p hp ((hunsel hsel p hp).mp hn),
      rfl⟩

/-- A pending capability is one whose provider is selected, new, and needs the activation. -/
theorem mem_pending {profile : Profile} {selected : List ReleasePackage}
    {activation : ActivationRequirement} {capability : String} :
    capability ∈ pending profile ((selected.filter (changedBy before after)).map (·.name)) activation ↔
      ∃ component, (capability, component) ∈ profile.components.entries ∧
        component.provider.activation = activation ∧
        ∃ p ∈ selected, p.name = component.provider.package ∧
          ∃ r ∈ after.packages, IsRecordOf r p ∧ r ∉ before.packages := by
  simp only [pending, List.mem_map, List.mem_filter, Bool.and_eq_true, decide_eq_true_eq,
    List.contains_iff_mem, changedBy_iff]
  constructor
  · rintro ⟨⟨c, component⟩, ⟨hmem, ⟨p, ⟨hp, hr⟩, hname⟩, hact⟩, rfl⟩
    exact ⟨component, hmem, hact, p, hp, hname, hr⟩
  · rintro ⟨component, hmem, hact, p, hp, hname, hr⟩
    exact ⟨(capability, component), ⟨hmem, ⟨p, ⟨hp, hr⟩, hname⟩, hact⟩, rfl⟩

/-! ### Exactness -/

/-- Verification succeeds exactly on the requested installation, and reports exactly what is pending. -/
theorem verifyInstallation_exact (manifest : ReleaseManifest) (withPython withDevel : Bool)
    (profile : Profile) (before after : NativeInventory) :
    ((∃ report, verifyInstallation manifest withPython withDevel profile before after = .ok report) ↔
      (withPython = true → ∃ p ∈ manifest.packages, p.role = .python) ∧
      (withDevel = true → ∃ p ∈ manifest.packages, p.role = .devel) ∧
      (∀ p ∈ manifest.packages, roleSelected withPython withDevel p.role = true →
        (∃ r ∈ after.packages, r.name = p.name ∧ r.evr = p.nevr ∧ r.arch = p.arch) ∧
          ∀ r ∈ after.packages, r.name = p.name → r.evr = p.nevr) ∧
      ∀ p ∈ manifest.packages, roleSelected withPython withDevel p.role = false →
        ∀ evr arch time, (⟨p.name, evr, arch, time⟩ : InstalledRpm) ∈ before.packages ↔
          (⟨p.name, evr, arch, time⟩ : InstalledRpm) ∈ after.packages) ∧
    ∀ report, verifyInstallation manifest withPython withDevel profile before after = .ok report →
      report.verified.Pairwise (· < ·) ∧
      (∀ name, name ∈ report.verified ↔
        ∃ p ∈ manifest.packages, roleSelected withPython withDevel p.role = true ∧ p.name = name) ∧
      ∀ capability,
        (capability ∈ report.pendingReboot ↔
          ∃ component, (capability, component) ∈ profile.components.entries ∧
            component.provider.activation = .reboot ∧
            ∃ p ∈ manifest.packages, roleSelected withPython withDevel p.role = true ∧
              p.name = component.provider.package ∧
              ∃ r ∈ after.packages, IsRecordOf r p ∧ r ∉ before.packages) ∧
        (capability ∈ report.pendingRelogin ↔
          ∃ component, (capability, component) ∈ profile.components.entries ∧
            component.provider.activation = .relogin ∧
            ∃ p ∈ manifest.packages, roleSelected withPython withDevel p.role = true ∧
              p.name = component.provider.package ∧
              ∃ r ∈ after.packages, IsRecordOf r p ∧ r ∉ before.packages) := by
  have hmem : ∀ {selected}, manifest.selectedPackages withPython withDevel = .ok selected →
      ∀ p, p ∈ selected ↔ p ∈ manifest.packages ∧ roleSelected withPython withDevel p.role = true := by
    intro selected hsel p
    obtain ⟨-, -, rfl⟩ := ReleaseManifest.selectedPackages_ok.mp hsel
    exact ReleaseManifest.mem_selected
  refine ⟨⟨?_, ?_⟩, ?_⟩
  · rintro ⟨report, h⟩
    obtain ⟨selected, hsel, hinst, hfrozen, -⟩ := verifyInstallation_ok.mp h
    obtain ⟨hpy, hdev, -⟩ := ReleaseManifest.selectedPackages_ok.mp hsel
    refine ⟨hpy, hdev, fun p hp hrole => hinst p ((hmem hsel p).mpr ⟨hp, hrole⟩), ?_⟩
    intro p hp hrole
    exact hfrozen p hp fun h => by simp [((hmem hsel p).mp h).2] at hrole
  · rintro ⟨hpy, hdev, hinst, hfrozen⟩
    have hsel := ReleaseManifest.selectedPackages_ok.mpr ⟨hpy, hdev, rfl⟩
    refine ⟨_, verifyInstallation_ok.mpr ⟨_, hsel, fun p hp => ?_, fun p hp hn => ?_, rfl⟩⟩
    · exact hinst p ((hmem hsel p).mp hp).1 ((hmem hsel p).mp hp).2
    · exact hfrozen p hp (by simpa [hmem hsel p, hp] using hn)
  · intro report h
    obtain ⟨selected, hsel, -, -, rfl⟩ := verifyInstallation_ok.mp h
    have hsorted : (selected.map (·.name)).Pairwise (· < ·) := by
      obtain ⟨-, -, rfl⟩ := ReleaseManifest.selectedPackages_ok.mp hsel
      exact List.pairwise_map.mpr (manifest.selected_sorted withPython withDevel)
    refine ⟨hsorted, fun name => ?_, fun capability => ⟨?_, ?_⟩⟩
    · simp only [List.mem_map, hmem hsel, and_assoc]
    · simp only [mem_pending, hmem hsel, and_assoc]
    · simp only [mem_pending, hmem hsel, and_assoc]

/-! ### Release closure -/

/-- A runtime package is always selected. -/
theorem runtime_selected {manifest : ReleaseManifest} {withPython withDevel : Bool}
    {selected : List ReleasePackage} (hsel : manifest.selectedPackages withPython withDevel = .ok selected)
    {p : ReleasePackage} (hp : p ∈ manifest.packages) (hrole : p.role = .runtime) : p ∈ selected := by
  obtain ⟨-, -, rfl⟩ := ReleaseManifest.selectedPackages_ok.mp hsel
  exact ReleaseManifest.mem_selected.mpr ⟨hp, by rw [hrole]; rfl⟩

/-- Each component of a bound profile is provided by a runtime package of the release. -/
theorem bound_provider {crates : Crates} {profileBytes : Bytes} {manifest : ReleaseManifest}
    {profile : Profile} (hbind : manifest.bindProfile crates profileBytes = .ok profile)
    {entry : String × ComponentRequirement} (hentry : entry ∈ profile.components.entries) :
    ∃ p ∈ manifest.packages, p.name = entry.2.provider.package ∧ p.role = .runtime ∧
      p.nevr = entry.2.provider.version ∧ p.sha256 = entry.2.sha256 :=
  ReleaseManifest.bindComponent_ok ((ReleaseManifest.bindProfile_ok.mp hbind).2.2.2.2.2.2 entry hentry)

/-- After a verified installation every provider is installed at the profile's version. -/
theorem provider_installed {crates : Crates} {profileBytes : Bytes} {manifest : ReleaseManifest}
    {profile : Profile} {withPython withDevel : Bool} {report : LifecycleReport}
    (hbind : manifest.bindProfile crates profileBytes = .ok profile)
    (hverify : verifyInstallation manifest withPython withDevel profile before after = .ok report)
    {entry : String × ComponentRequirement} (hentry : entry ∈ profile.components.entries) :
    (∃ r ∈ after.packages, r.name = entry.2.provider.package ∧ r.evr = entry.2.provider.version) ∧
      ∀ r ∈ after.packages, r.name = entry.2.provider.package → r.evr = entry.2.provider.version := by
  obtain ⟨p, hp, hname, hrole, hnevr, -⟩ := bound_provider hbind hentry
  obtain ⟨selected, hsel, hinst, -⟩ := verifyInstallation_ok.mp hverify
  obtain ⟨⟨r, hr, hrec⟩, hsole⟩ := hinst p (runtime_selected hsel hp hrole)
  rw [← hname, ← hnevr]
  exact ⟨⟨r, hr, hrec.1, hrec.2.1⟩, hsole⟩

/-- A bound release is closed: every component of the profile is a selected package, so a verified
    installation has every provider at the profile's version. -/
theorem release_closed {crates : Crates} {bytes profileBytes : Bytes} {manifest : ReleaseManifest}
    {profile : Profile} {withPython withDevel : Bool} {selected : List ReleasePackage}
    (_hparse : ReleaseManifest.parseJson crates bytes = .ok manifest)
    (hbind : manifest.bindProfile crates profileBytes = .ok profile)
    (hsel : manifest.selectedPackages withPython withDevel = .ok selected) :
    profile.components.keys = REQUIRED_COMPONENTS ∧
    (∀ entry ∈ profile.components.entries, ∃ p,
      manifest.packages.filter (fun q => q.name = entry.2.provider.package) = [p] ∧
      p.role = .runtime ∧ p.nevr = entry.2.provider.version ∧ p.sha256 = entry.2.sha256 ∧
      p ∈ selected) ∧
    (selected.map (·.name)).Nodup ∧ (selected.map (·.filename)).Nodup ∧
    (∃ p ∈ selected, p.name = "intel-npu-stack") ∧
    (∃ p ∈ selected, p.name = "intel-npu-stack-tools") ∧
    (∀ (bytes' : Bytes) (reordered : List ReleasePackage), bytes'.length ≤ MAX_METADATA_BYTES →
      reordered.Perm manifest.packages →
      (crates.json bytes').bind readManifest = some { manifest.document with packages := reordered } →
      ∃ manifest', ReleaseManifest.parseJson crates bytes' = .ok manifest' ∧
        manifest'.selectedPackages withPython withDevel = .ok selected) ∧
    ∀ before after report,
      verifyInstallation manifest withPython withDevel profile before after = .ok report →
      ∀ entry ∈ profile.components.entries, ∃ r ∈ after.packages,
        r.name = entry.2.provider.package ∧ r.evr = entry.2.provider.version := by
  obtain ⟨-, -, ⟨_, -, hprofile⟩, -⟩ := ReleaseManifest.bindProfile_ok.mp hbind
  have hsorted := (ReleaseManifest.selectedPackages_ok.mp hsel).2.2
  have hrequired : ∀ name ∈ REQUIRED_PACKAGES, ∃ p ∈ selected, p.name = name := by
    intro name hname
    obtain ⟨p, hp, hpn, hrole⟩ := manifest.exists_required hname
    exact ⟨p, runtime_selected hsel hp hrole, hpn⟩
  refine ⟨Profile.keys_of_validate (Profile.parseToml_ok.mp hprofile).2.2, ?_,
    hsorted ▸ manifest.selected_names_nodup .., hsorted ▸ manifest.selected_filenames_nodup ..,
    hrequired _ (by simp [REQUIRED_PACKAGES]), hrequired _ (by simp [REQUIRED_PACKAGES]), ?_, ?_⟩
  · intro entry hentry
    obtain ⟨p, hp, hname, hrole, hnevr, hsha⟩ := bound_provider hbind hentry
    exact ⟨p, hname ▸ manifest.filter_name hp, hrole, hnevr, hsha, runtime_selected hsel hp hrole⟩
  · intro bytes' reordered hlen hperm hdoc
    let manifest' : ReleaseManifest := ⟨_, manifest.validated_perm hperm⟩
    have hcongr : manifest'.selectedPackages withPython withDevel =
        manifest.selectedPackages withPython withDevel :=
      ReleaseManifest.selectedPackages_congr withPython withDevel hperm
    exact ⟨manifest', ReleaseManifest.parseJson_ok.mpr ⟨hlen, hdoc⟩, hcongr.trans hsel⟩
  · intro before after report hverify entry hentry
    exact (provider_installed hbind hverify hentry).1

namespace Minimal

def recordOf (p : ReleasePackage) (installTime : ℕ) : InstalledRpm :=
  ⟨p.name, p.nevr, p.arch, installTime⟩

/-- The same database with the smallest release installed. -/
def installed : NativeInventory :=
  ⟨[bash, recordOf stack 2, recordOf tools 2], by decide, by decide⟩

theorem selected : manifest.selectedPackages false false = .ok [stack, tools] := rfl

def report : LifecycleReport := ⟨["intel-npu-stack", "intel-npu-stack-tools"], REQUIRED_COMPONENTS, []⟩

theorem verified : verifyInstallation manifest false false profile base installed = .ok report := rfl

end Minimal

/-- The smallest release is closed. -/
theorem release_closed_minimal : ([Minimal.stack, Minimal.tools].map (·.name)).Nodup ∧
    (∀ entry ∈ Minimal.profile.components.entries, ∃ p,
      Minimal.manifest.packages.filter (fun q => q.name = entry.2.provider.package) = [p] ∧
      p.role = .runtime ∧ p.nevr = entry.2.provider.version ∧ p.sha256 = entry.2.sha256 ∧
      p ∈ [Minimal.stack, Minimal.tools]) ∧
    ∀ entry ∈ Minimal.profile.components.entries, ∃ r ∈ Minimal.installed.packages,
      r.name = entry.2.provider.package ∧ r.evr = entry.2.provider.version := by
  have h := release_closed Minimal.manifest_parsed Minimal.profile_bound Minimal.selected
  exact ⟨h.2.2.1, h.2.1, h.2.2.2.2.2.2.2 _ _ _ Minimal.verified⟩

end NpuStack.Install
