import NpuStack.Install.Agreement
import NpuStack.Runtime.Uncached

/-! Pending reboots, seen by the installer and by the doctor.

        before, after ──records compared──▶ pending_reboot          (what changed)
        after, boot time ──install times──▶ Ready true | Ready false | Unknown

    The doctor's loop gives up at the first provider it does not find at the profile's version, and
    otherwise says whether any was installed after the boot, in whatever order they come
    (`rebootPending_ready`). On a verified installation with one record a provider, none is given up. -/

namespace NpuStack.Install
open Interaction Text Schema NpuStack.Runtime

/-- The doctor's package queries are answered from the inventory, in whatever record order. -/
def ReadsFrom (o : Observations) (inventory : NativeInventory) : Prop :=
  ∀ name, ∃ records, records.Perm (inventory.named name) ∧
    o.query name = classify name (.ok (rpmQueryOutput records name))

/-- The packages the doctor's inspection of a profile hands on. -/
def packagesOf (o : Observations) (profile : Profile) : List (String × InstalledPackage) :=
  presentPackages o (packageNames profile)

/-- The component's provider is to be activated by a reboot. -/
def NeedsReboot (profile : Profile) (component : ComponentRequirement) : Prop :=
  component ∈ profile.components.values ∧ component.provider.activation = .reboot

/-- The provider is among the packages at the profile's version. -/
def Matched (packages : List (String × InstalledPackage)) (component : ComponentRequirement)
    (package : InstalledPackage) : Prop :=
  packages.lookup component.provider.package = some package ∧
    package.version = component.provider.version

/-! ### The doctor's loop -/

/-- The loop is ready when every provider is matched, and then says whether one is newer. -/
theorem rebootPending_ready {packages : List (String × InstalledPackage)} {boot : ℕ}
    {components : List ComponentRequirement} {required b : Bool} :
    rebootPending packages boot components required = activationReady b ↔
      (∀ component ∈ components, ∃ package, Matched packages component package) ∧
        (b = true ↔ required = true ∨ ∃ component ∈ components, ∃ package,
          Matched packages component package ∧ boot < package.installTime) := by
  induction components generalizing required with
  | nil => cases required <;> cases b <;> simp [rebootPending, activationReady]
  | cons component rest ih =>
    rw [rebootPending]
    cases hlookup : packages.lookup component.provider.package with
    | none =>
      constructor
      · intro h
        cases h
      · rintro ⟨hall, _⟩
        obtain ⟨package, hfound, _⟩ := hall component List.mem_cons_self
        rw [hlookup] at hfound
        cases hfound
    | some package =>
      dsimp only
      split
      · next hversion =>
        constructor
        · intro h
          cases h
        · rintro ⟨hall, _⟩
          obtain ⟨package', hfound, hsame⟩ := hall component List.mem_cons_self
          rw [hlookup] at hfound
          cases hfound
          exact absurd hsame hversion
      · next hversion =>
        have hmatched : ∀ package', Matched packages component package' ↔ package' = package := by
          intro package'
          rw [Matched, hlookup]
          constructor
          · rintro ⟨h, _⟩
            exact (Option.some.inj h).symm
          · intro h
            rw [h]
            exact ⟨rfl, not_not.mp hversion⟩
        rw [ih, List.forall_mem_cons]
        simp only [hmatched, List.mem_cons, exists_eq_or_imp, exists_eq_left, exists_eq, true_and,
          Bool.or_eq_true, decide_eq_true_eq, or_assoc]

/-- Otherwise the loop does not know. -/
theorem rebootPending_cases (packages : List (String × InstalledPackage)) (boot : ℕ)
    (components : List ComponentRequirement) (required : Bool) :
    (∃ b, rebootPending packages boot components required = activationReady b) ∨
      rebootPending packages boot components required = activationUnknown := by
  induction components generalizing required with
  | nil => exact Or.inl ⟨required, rfl⟩
  | cons component rest ih =>
    rw [rebootPending]
    split
    · exact Or.inr rfl
    · split
      · exact Or.inr rfl
      · exact ih _

/-! ### The doctor's answer -/

section
variable {profile : Profile} {packages : List (String × InstalledPackage)}

theorem mem_rebootProviders {component : ComponentRequirement} :
    component ∈ profile.components.values.filter (fun c => c.provider.activation = .reboot) ↔
      NeedsReboot profile component := by
  rw [List.mem_filter, decide_eq_true_eq, NeedsReboot]

theorem rebootProviders_nil :
    profile.components.values.filter (fun c => c.provider.activation = .reboot) = [] ↔
      ¬∃ component, NeedsReboot profile component := by
  rw [List.eq_nil_iff_forall_not_mem]
  simp only [mem_rebootProviders, not_exists]

/-- With nothing to be activated by a reboot, the boot time is not looked at. -/
theorem inspectActivation_none (h : ¬∃ component, NeedsReboot profile component)
    (bootTime : Option ℕ) : inspectActivation profile packages bootTime = activationReady false := by
  simp only [inspectActivation, rebootProviders_nil.mpr h, if_true]

/-- The providers of the profile, the packages and the boot time the answer is known for. -/
theorem inspectActivation_ready {bootTime : Option ℕ} {b : Bool}
    (hneeds : ∃ component, NeedsReboot profile component) :
    inspectActivation profile packages bootTime = activationReady b ↔ ∃ boot, bootTime = some boot ∧
      (∀ component, NeedsReboot profile component → ∃ package, Matched packages component package) ∧
      (b = true ↔ ∃ component, NeedsReboot profile component ∧ ∃ package,
        Matched packages component package ∧ boot < package.installTime) := by
  have hne : ¬profile.components.values.filter (fun c => c.provider.activation = .reboot) = [] := by
    intro h
    exact rebootProviders_nil.mp h hneeds
  simp only [inspectActivation, if_neg hne]
  cases bootTime with
  | none =>
    constructor
    · intro h
      cases h
    · rintro ⟨_, h, _⟩
      cases h
  | some boot =>
    dsimp only
    rw [rebootPending_ready]
    simp only [mem_rebootProviders, Bool.false_eq_true, false_or, Option.some.injEq, exists_eq_left']

theorem inspectActivation_cases (profile : Profile) (packages : List (String × InstalledPackage))
    (bootTime : Option ℕ) : (∃ b, inspectActivation profile packages bootTime = activationReady b) ∨
      inspectActivation profile packages bootTime = activationUnknown := by
  simp only [inspectActivation]
  split
  · exact Or.inl ⟨false, rfl⟩
  · cases bootTime with
    | none => exact Or.inr rfl
    | some boot => exact rebootPending_cases packages boot _ false

/-- What is not known to be ready is unknown. -/
theorem inspectActivation_unknown {bootTime : Option ℕ}
    (hneeds : ∃ component, NeedsReboot profile component)
    (h : bootTime = none ∨ ∃ component, NeedsReboot profile component ∧
      ∀ package, ¬Matched packages component package) :
    inspectActivation profile packages bootTime = activationUnknown := by
  have hnot : ∀ b, inspectActivation profile packages bootTime ≠ activationReady b := by
    intro b hready
    obtain ⟨boot, hboot, hall, _⟩ := (inspectActivation_ready hneeds).mp hready
    rcases h with hnone | ⟨component, hcomponent, hno⟩
    · rw [hboot] at hnone
      cases hnone
    · obtain ⟨package, hmatched⟩ := hall component hcomponent
      exact hno package hmatched
  rcases inspectActivation_cases profile packages bootTime with ⟨b, hready⟩ | hunknown
  · exact absurd hready (hnot b)
  · exact hunknown

/-! ### One inventory -/

variable {o : Observations} {after : NativeInventory}

theorem lookup_presentPackages {names : List String} {name : String} {installed : InstalledPackage}
    (hname : name ∈ names) (hpresent : o.query name = .present installed) :
    (presentPackages o names).lookup name = some installed := by
  induction names with
  | nil => cases hname
  | cons first names ih =>
    by_cases heq : name = first
    · subst heq
      simp [presentPackages, queriesOf, hpresent]
    · have hrest := ih ((List.mem_cons.mp hname).resolve_left heq)
      have hskip : ∀ package, ((first, package) :: presentPackages o names).lookup name =
          some installed := by
        intro package
        rw [List.lookup_cons, beq_eq_false_iff_ne.mpr heq]
        exact hrest
      rw [presentPackages, queriesOf, List.map_cons, List.filterMap_cons]
      cases o.query first with
      | present package => exact hskip package
      | missing => exact hrest
      | failed code => exact hrest

/-- A provider with one record is among the doctor's packages as that record. -/
theorem packagesOf_one (hreads : ReadsFrom o after) {component : ComponentRequirement}
    (hcomponent : component ∈ profile.components.values) {record : InstalledRpm}
    (hone : after.named component.provider.package = [record]) :
    (packagesOf o profile).lookup component.provider.package =
      some ⟨record.name, record.evr, record.installTime⟩ := by
  have hmem : component.provider.package ∈ packageNames profile :=
    mem_packageNames.mpr (Or.inl ⟨component, hcomponent, rfl⟩)
  have hrecord := after.mem_named.mp (hone ▸ List.mem_singleton.mpr rfl : record ∈ after.named _)
  obtain ⟨records, hperm, hquery⟩ := hreads component.provider.package
  rw [hone, List.perm_singleton] at hperm
  refine lookup_presentPackages hmem ?_
  rw [hquery, hperm, ← hrecord.2]
  exact classify_one hrecord.1

theorem mem_values {component : ComponentRequirement} :
    component ∈ profile.components.values ↔
      ∃ capability, (capability, component) ∈ profile.components.entries := by
  rw [OrderedMap.values, List.mem_map]
  constructor
  · rintro ⟨⟨capability, _⟩, hentry, rfl⟩
    exact ⟨capability, hentry⟩
  · rintro ⟨capability, hentry⟩
    exact ⟨_, hentry, rfl⟩

/-- On a verified installation the match of a provider is its one record. -/
theorem matched_iff {crates : Crates} {profileBytes : Bytes} {manifest : ReleaseManifest}
    {withPython withDevel : Bool} {before : NativeInventory} {report : LifecycleReport}
    (hbind : manifest.bindProfile crates profileBytes = .ok profile)
    (hverify : verifyInstallation manifest withPython withDevel profile before after = .ok report)
    (hreads : ReadsFrom o after) {component : ComponentRequirement}
    (hcomponent : component ∈ profile.components.values) {record : InstalledRpm}
    (hone : after.named component.provider.package = [record]) {package : InstalledPackage} :
    Matched (packagesOf o profile) component package ↔
      package = ⟨record.name, record.evr, record.installTime⟩ := by
  obtain ⟨capability, hentry⟩ := mem_values.mp hcomponent
  have hrecord := after.mem_named.mp (hone ▸ List.mem_singleton.mpr rfl : record ∈ after.named _)
  have hversion : record.evr = component.provider.version :=
    (provider_installed hbind hverify hentry).2 record hrecord.1 hrecord.2
  rw [Matched, packagesOf_one hreads hcomponent hone]
  constructor
  · rintro ⟨h, _⟩
    exact (Option.some.inj h).symm
  · rintro rfl
    exact ⟨rfl, hversion⟩

end

/-! ### Agreement -/

/-- What the installer leaves pending is what the doctor calls required once it is newer than the
    boot, and what the doctor calls done is older. The doctor never answers when it does not know:
    not without a boot time, not without a provider, not with another version of one. With nothing to
    be activated by a reboot there is nothing to know. -/
theorem activation_agrees {crates : Crates} {profileBytes : Bytes} {manifest : ReleaseManifest}
    {profile : Profile} {withPython withDevel : Bool} {before after : NativeInventory}
    {report : LifecycleReport} {o : Observations}
    (hbind : manifest.bindProfile crates profileBytes = .ok profile)
    (hverify : verifyInstallation manifest withPython withDevel profile before after = .ok report)
    (hone : ∀ component ∈ profile.components.values,
      ∃ record, after.named component.provider.package = [record])
    (hreads : ReadsFrom o after) :
    (∀ boot capability component record, capability ∈ report.pendingReboot →
      (capability, component) ∈ profile.components.entries →
      after.named component.provider.package = [record] → boot < record.installTime →
      inspectActivation profile (packagesOf o profile) (some boot) = activationReady true) ∧
    (∀ bootTime, inspectActivation profile (packagesOf o profile) bootTime = activationReady false →
      ∀ component, NeedsReboot profile component → ∃ boot, bootTime = some boot ∧
        ∀ record, after.named component.provider.package = [record] → record.installTime ≤ boot) ∧
    ∀ packages bootTime,
      ((∃ component, NeedsReboot profile component) → bootTime = none →
        inspectActivation profile packages bootTime = activationUnknown) ∧
      (∀ component, NeedsReboot profile component →
        (∀ package, ¬Matched packages component package) →
        inspectActivation profile packages bootTime = activationUnknown) ∧
      ((¬∃ component, NeedsReboot profile component) →
        inspectActivation profile packages bootTime = activationReady false) := by
  have hmatched : ∀ component, NeedsReboot profile component → ∃ record,
      after.named component.provider.package = [record] ∧ ∀ package,
        Matched (packagesOf o profile) component package ↔
          package = ⟨record.name, record.evr, record.installTime⟩ := by
    intro component hneeds
    obtain ⟨record, hrecord⟩ := hone component hneeds.1
    refine ⟨record, hrecord, ?_⟩
    intro package
    exact matched_iff hbind hverify hreads hneeds.1 hrecord
  have hpending : ∀ capability component, capability ∈ report.pendingReboot →
      (capability, component) ∈ profile.components.entries → NeedsReboot profile component := by
    intro capability component hcapability hentry
    obtain ⟨selected, _, _, _, hreport⟩ := verifyInstallation_ok.mp hverify
    rw [hreport] at hcapability
    obtain ⟨component', hentry', hreboot, _⟩ := mem_pending.mp hcapability
    cases profile.components.eq_of_key_eq hentry hentry' rfl
    exact ⟨mem_values.mpr ⟨capability, hentry⟩, hreboot⟩
  refine ⟨?_, ?_, ?_⟩
  · intro boot capability component record hcapability hentry hrecord hnewer
    have hneeds := hpending capability component hcapability hentry
    rw [inspectActivation_ready ⟨component, hneeds⟩]
    refine ⟨boot, rfl, ?_, ?_⟩
    · intro component' hneeds'
      obtain ⟨record', _, hmatch⟩ := hmatched component' hneeds'
      exact ⟨_, (hmatch _).mpr rfl⟩
    · obtain ⟨record', hrecord', hmatch⟩ := hmatched component hneeds
      rw [hrecord] at hrecord'
      cases hrecord'
      exact ⟨fun _ => ⟨component, hneeds, _, (hmatch _).mpr rfl, hnewer⟩, fun _ => rfl⟩
  · intro bootTime hready component hneeds
    obtain ⟨boot, hboot, _, hnone⟩ := (inspectActivation_ready ⟨component, hneeds⟩).mp hready
    refine ⟨boot, hboot, ?_⟩
    intro record hrecord
    obtain ⟨record', hrecord', hmatch⟩ := hmatched component hneeds
    rw [hrecord] at hrecord'
    cases hrecord'
    by_contra hnewer
    have htrue := hnone.mpr ⟨component, hneeds, _, (hmatch _).mpr rfl, Nat.lt_of_not_le hnewer⟩
    cases htrue
  · intro packages bootTime
    refine ⟨?_, ?_, fun h => inspectActivation_none h bootTime⟩
    · intro hneeds hnone
      exact inspectActivation_unknown hneeds (Or.inl hnone)
    · intro component hneeds hno
      exact inspectActivation_unknown ⟨component, hneeds⟩ (Or.inr ⟨component, hneeds, hno⟩)

/-- The queries answered from an inventory in its own order. -/
def observationsOf (inventory : NativeInventory) : Observations where
  query name := classify name (.ok (rpmQueryOutput (inventory.named name) name))
  file _ := .digest ""
  owner name := .ok name

theorem readsFrom_observationsOf (inventory : NativeInventory) :
    ReadsFrom (observationsOf inventory) inventory := fun _ => ⟨_, List.Perm.refl _, rfl⟩

/-- On the smallest release, booted before it was installed. -/
theorem activation_agrees_minimal : "npu_firmware" ∈ Minimal.report.pendingReboot ∧
    inspectActivation Minimal.profile (packagesOf (observationsOf Minimal.installed) Minimal.profile)
      (some 1) = activationReady true := by
  have hone : ∀ component ∈ Minimal.profile.components.values,
      ∃ record, Minimal.installed.named component.provider.package = [record] := by
    intro component hcomponent
    obtain ⟨_, hentry⟩ := mem_values.mp hcomponent
    obtain ⟨_, _, heq⟩ := List.mem_map.mp hentry
    cases heq
    exact ⟨Minimal.recordOf Minimal.tools 2, rfl⟩
  have hfirmware : "npu_firmware" ∈ Minimal.report.pendingReboot := by decide
  refine ⟨hfirmware, ?_⟩
  exact (activation_agrees Minimal.profile_bound Minimal.verified hone
    (readsFrom_observationsOf Minimal.installed)).1 1 "npu_firmware" Minimal.component
      (Minimal.recordOf Minimal.tools 2) hfirmware (List.mem_map_of_mem (by decide)) rfl (by decide)

/-! The smallest release again, but with nothing to be activated by a reboot. -/

namespace Immediate

def component : ComponentRequirement :=
  { Minimal.component with
    provider := { Minimal.component.provider with activation := .immediate } }

def componentText (name : String) : String :=
  "[components." ++ name ++ "]\nversion = \"1.0\"\nsource = \"https://a.b/c\"\nsha256 = \"" ++
  component.sha256 ++ "\"\n[components." ++ name ++ ".provider]\npackage = \"intel-npu-stack-tools\"\n" ++
  "version = \"0:1.0-1.fc44\"\nactivation = \"immediate\"\n[[components." ++ name ++
  ".provider.files]]\npath = \"/usr/bin/npu\"\nsha256 = " ++
  "\"3b9c358f36f0a31b6ad3e14f309c7cf198ac9246e8316f9ce543d5b19ac02b80\"\n[components." ++ name ++
  ".license]\nexpression = \"MIT\"\nredistribution = \"allowed\"\nevidence_sha256 = " ++
  "\"ee8250fb76e094b34b471f13a73dbbe51d1ae142e9df59d7c0d31ec20f0a0a8e\"\n"

def profile : Profile :=
  { Minimal.profile with
    components := ⟨REQUIRED_COMPONENTS.map (·, component), by decide +kernel⟩ }

def profileText : String :=
  "schema_version = 1\nid = \"npu\"\nstack_release = \"1.0.0\"\nstatus = \"experimental\"\n" ++
  "package_manager = \"rpm\"\nconflicts = []\n[platform]\nid = \"fedora\"\nversion_id = \"44\"\n" ++
  "arch = \"x86_64\"\n[[hardware]]\nvendor = \"8086\"\ndevice = \"643e\"\n[kernel]\nmin = \"6.0.0\"\n" ++
  "max_exclusive = \"8.0.0\"\nmodule = \"intel_vpu\"\n" ++
  String.join (REQUIRED_COMPONENTS.map componentText)

def profileBytes : Bytes := utf8 profileText

def document : ManifestDocument :=
  { Minimal.document with
    profileSha256 := "f84d70e3d02984bb9fd98f5ff44a00f90900d413faaad22e2876a76840d4bde6" }

def manifest : ReleaseManifest := ⟨document, rfl⟩

def crates : Crates where
  sha256 bytes := if bytes = profileBytes then document.profileSha256
    else "0000000000000000000000000000000000000000000000000000000000000000"
  json _ := none
  toml text := if text = profileText then .ok profile else .error "expected a key"

theorem profile_length : profileBytes.length = 3793 := by
  rw [profileBytes, length_utf8]
  decide +kernel

theorem profile_bound : manifest.bindProfile crates profileBytes = .ok profile := by
  have hlen : len profileText ≤ MAX_PROFILE_BYTES := by
    rw [← length_utf8, ← profileBytes, profile_length]
    decide
  have hparsed : crates.toml profileText = .ok profile := by simp only [crates, if_true]
  refine ReleaseManifest.bindProfile_ok.mpr ⟨?_, ?_, ⟨profileText, fromUtf8_utf8 _,
    Profile.parseToml_ok.mpr ⟨hlen, hparsed, rfl⟩⟩, rfl, rfl, rfl, ?_⟩
  · rw [profile_length]
    decide
  · simp only [crates, if_true]
    rfl
  · have hcomponent : ∀ name, ReleaseManifest.bindComponent manifest.packages (name, component) =
        .ok () := fun _ => rfl
    intro entry hentry
    obtain ⟨name, _, rfl⟩ := List.mem_map.mp hentry
    exact hcomponent name

end Immediate

/-- A boot time that is not known, on a verified installation, and no reboot is called for. -/
theorem unknown_boot_is_ready :
    Immediate.manifest.bindProfile Immediate.crates Immediate.profileBytes = .ok Immediate.profile ∧
    verifyInstallation Immediate.manifest false false Immediate.profile Minimal.base
      Minimal.installed = .ok ⟨["intel-npu-stack", "intel-npu-stack-tools"], [], []⟩ ∧
    ReadsFrom (observationsOf Minimal.installed) Minimal.installed ∧
    inspectActivation Immediate.profile
      (packagesOf (observationsOf Minimal.installed) Immediate.profile) none = activationReady false :=
  ⟨Immediate.profile_bound, rfl, readsFrom_observationsOf _, rfl⟩

end NpuStack.Install
