import NpuStack.Install.Lifecycle
import NpuStack.Runtime.Package

/-! The installer and the doctor read one database in two formats.

        inventory ──verifyInstallation──▶ every provider at the profile's version
            │
            └──one line per record──▶ queryPackage ──▶ present | missing | failed

    The inventory keeps multilib entries of one version apart, and verification accepts them; the
    doctor parses a single line. They agree on a provider exactly when the database holds one record
    of its name (`queryPackage_present_iff`). -/

namespace NpuStack.Install
open Interaction Text NpuStack.Runtime
open Schema hiding isPackageName isPackageVersion

/-- What the native tool prints for a package name: a line for each of its records. -/
def rpmQueryOutput (records : List InstalledRpm) (name : String) : ProcessOutput :=
  if records = [] then
    ⟨.exit 1, utf8 ("package " ++ name ++ " is not installed\n"), false, false⟩
  else
    let printed := records.flatMap fun r => utf8 (packageLine r.name r.evr r.installTime ++ "\n")
    ⟨.exit 0, printed.take STDOUT_LIMIT, STDOUT_LIMIT < printed.length, false⟩

/-- Every package query of the trace was answered from the inventory, in whatever record order. -/
def AnsweredFrom (inventory : NativeInventory) (rpmExecutable : String)
    (t : List (Event fun _ : ProcessRequest => Except ProcessError ProcessOutput)) : Prop :=
  ∀ event ∈ t, ∀ name, event.question = packageRequest rpmExecutable name →
    ∃ records, records.Perm (inventory.named name) ∧
      event.answer = .ok (rpmQueryOutput records name)

/-! ### Records the doctor can read -/

theorem isPackageName_of_rpmName {name : String} (h : rpmName name = true) :
    isPackageName name = true := by
  have hchar : ∀ c, identifierChar c = (c.isAlphanum || ".+-_".toList.contains c) := by
    intro c
    have hmem : "-_.+".toList.contains c = ".+-_".toList.contains c := by
      rw [Bool.eq_iff_iff, List.contains_iff_mem, List.contains_iff_mem]
      simp only [show "-_.+".toList = ['-', '_', '.', '+'] from rfl,
        show ".+-_".toList = ['.', '+', '-', '_'] from rfl, List.mem_cons, List.not_mem_nil]
      tauto
    rw [identifierChar, hmem]
  simp only [rpmName, Bool.and_eq_true, decide_eq_true_eq] at h
  obtain ⟨⟨hne, hlen⟩, hall⟩ := h
  simp only [isPackageName, Bool.and_eq_true, decide_eq_true_eq]
  refine ⟨⟨hne, by omega⟩, ?_⟩
  rw [all_iff] at hall ⊢
  exact fun c hc => hchar c ▸ hall c hc

theorem isPackageVersion_of_validEvr {evr : String} (h : validEvr evr = true) :
    isPackageVersion evr = true := by
  obtain ⟨hlen, epoch, version, release, hepoch, hversion, hrelease, rfl⟩ := validEvr_iff.mp h
  have hscalar : ∀ {s}, rpmScalar s = true →
      all (fun c => c.isAlphanum || ".+-_:~^".toList.contains c) s = true := by
    intro s hs
    simp only [rpmScalar, Bool.and_eq_true] at hs
    rw [all_iff] at hs ⊢
    intro c hc
    have := hs.2 c hc
    simp only [Bool.or_eq_true, List.contains_iff_mem] at this ⊢
    refine this.imp_right fun hm => ?_
    have hsub : ∀ d ∈ "._+~^".toList, d ∈ ".+-_:~^".toList := forall_chars (by decide)
    exact hsub c hm
  have hdigits : all (fun c => c.isAlphanum || ".+-_:~^".toList.contains c) epoch = true := by
    simp only [canonicalEpoch, Bool.and_eq_true] at hepoch
    rw [all_iff] at ⊢
    intro c hc
    simp [Char.isAlphanum, all_iff.mp hepoch.1.1.2 c hc]
  simp only [isPackageVersion, Bool.and_eq_true, decide_eq_true_eq, all_append, hscalar hversion,
    hscalar hrelease, hdigits]
  refine ⟨⟨fun hempty => ?_, by omega⟩, by decide⟩
  have := congrArg String.toList hempty
  simp at this

/-- A record's line stays far below the output limit. -/
theorem length_packageLine {r : InstalledRpm} (hr : validRecord r = true) :
    (utf8 (packageLine r.name r.evr r.installTime ++ "\n")).length ≤ STDOUT_LIMIT := by
  simp only [validRecord, Bool.and_eq_true, decide_eq_true_eq] at hr
  obtain ⟨⟨⟨hname, hevr⟩, -⟩, htime⟩ := hr
  have hn : len r.name ≤ 128 := by
    simp only [rpmName, Bool.and_eq_true, decide_eq_true_eq] at hname
    exact hname.1.2
  have he : len r.evr ≤ 256 := (validEvr_iff.mp hevr).1
  have ht : len r.installTime.repr ≤ 20 := by
    have hdigits := (Bool.and_eq_true _ _ ▸ isDigits_repr r.installTime).2
    rw [len_of_ascii]
    · exact (Nat.length_repr_le_iff (by decide)).mpr (lt_trans htime (by decide))
    · intro c hc
      have := isGraphic_of_isAlphanum (c := c) (by simp [Char.isAlphanum, all_iff.mp hdigits c hc])
      simp only [isGraphic, Bool.and_eq_true, decide_eq_true_eq] at this
      omega
  have htab : len "\t" = 1 := by decide
  have hnl : len "\n" = 1 := by decide
  rw [length_utf8, packageLine]
  simp only [len_append, htab, hnl, STDOUT_LIMIT]
  omega

/-- The one record of a name is reported as it is. -/
theorem classify_one {inventory : NativeInventory} {r : InstalledRpm} (hr : r ∈ inventory.packages) :
    classify r.name (.ok (rpmQueryOutput [r] r.name)) = .present ⟨r.name, r.evr, r.installTime⟩ := by
  have hvalid := inventory.valid r hr
  have hlen := length_packageLine hvalid
  simp only [validRecord, Bool.and_eq_true, decide_eq_true_eq] at hvalid
  have hparse := parsePackageOutput_line (isPackageName_of_rpmName hvalid.1.1.1)
    (isPackageVersion_of_validEvr hvalid.1.1.2) hvalid.2
  have hout : rpmQueryOutput [r] r.name =
      ⟨.exit 0, utf8 (packageLine r.name r.evr r.installTime ++ "\n"), false, false⟩ := by
    simp [rpmQueryOutput, List.take_of_length_le hlen, hlen]
  rw [hout, classify]
  simp [hparse]

/-- Several records of a name are invalid output. -/
theorem classify_many {records : List InstalledRpm} {name : String} (h : 2 ≤ records.length) :
    classify name (.ok (rpmQueryOutput records name)) = .failed "PACKAGE_OUTPUT_INVALID" := by
  match records, h with
  | r :: s :: rest, _ =>
    by_cases hover : STDOUT_LIMIT <
        ((r :: s :: rest).flatMap fun r =>
          utf8 (packageLine r.name r.evr r.installTime ++ "\n")).length
    · simp only [classify, rpmQueryOutput, reduceCtorEq, if_false, hover, decide_true, Bool.true_or,
        if_true]
    · have hparse : parsePackageOutput ((r :: s :: rest).flatMap fun r =>
          utf8 (packageLine r.name r.evr r.installTime ++ "\n")) name = none := by
        rw [List.flatMap_cons, List.flatMap_cons, parsePackageOutput, parseOneLine_two]
        rfl
      simp only [classify, rpmQueryOutput, reduceCtorEq, if_false, hover, decide_false,
        Bool.or_self, Bool.false_eq_true, List.take_of_length_le (not_lt.mp hover), hparse]

/-! ### Agreement -/

theorem packageRequest_inj {rpmExecutable a b : String}
    (h : packageRequest rpmExecutable a = packageRequest rpmExecutable b) : a = b := by
  simpa [packageRequest] using h

/-- Answered from an inventory, the query ends with what the records of the name mean. -/
theorem queryPackage_runs (rpmExecutable name : String) (inventory : NativeInventory)
    {t : List (Event fun _ : ProcessRequest => Except ProcessError ProcessOutput)}
    {r : Except Empty PackageQuery} :
    (queryPackage rpmExecutable name).Runs t r ∧ AnsweredFrom inventory rpmExecutable t ↔
      ∃ records, records.Perm (inventory.named name) ∧
        t = [⟨packageRequest rpmExecutable name, .ok (rpmQueryOutput records name)⟩] ∧
        r = .ok (classify name (.ok (rpmQueryOutput records name))) := by
  rw [queryPackage, Prog.runs_expect]
  constructor
  · rintro ⟨⟨a, rfl, rfl⟩, hans⟩
    obtain ⟨records, hperm, ha⟩ := hans _ (List.mem_singleton.mpr rfl) name rfl
    obtain rfl : a = .ok (rpmQueryOutput records name) := ha
    exact ⟨records, hperm, rfl, rfl⟩
  · rintro ⟨records, hperm, rfl, rfl⟩
    refine ⟨⟨_, rfl, rfl⟩, fun event hevent name' hq => ?_⟩
    obtain rfl := List.mem_singleton.mp hevent
    obtain rfl := packageRequest_inj hq
    exact ⟨records, hperm, rfl⟩

/-- On a verified installation the doctor reports a provider at its version exactly when the database
    holds a single record of its name. -/
theorem queryPackage_present_iff {crates : Crates} {profileBytes : Bytes} {manifest : ReleaseManifest}
    {profile : Profile} {withPython withDevel : Bool} {before after : NativeInventory}
    {report : LifecycleReport} (rpmExecutable : String)
    (hbind : manifest.bindProfile crates profileBytes = .ok profile)
    (hverify : verifyInstallation manifest withPython withDevel profile before after = .ok report) :
    (∀ entry ∈ profile.components.entries, ∀ t r,
      (queryPackage rpmExecutable entry.2.provider.package).Runs t r →
      AnsweredFrom after rpmExecutable t →
      ∃ installTime, r = .ok
        (.present ⟨entry.2.provider.package, entry.2.provider.version, installTime⟩)) ↔
    ∀ entry ∈ profile.components.entries,
      ∃ record, after.named entry.2.provider.package = [record] := by
  refine forall₂_congr fun entry hentry => ?_
  obtain ⟨⟨r₀, hr₀, hname₀, -⟩, hsole⟩ := provider_installed hbind hverify hentry
  have hmem₀ : r₀ ∈ after.named entry.2.provider.package := after.mem_named.mpr ⟨hr₀, hname₀⟩
  constructor
  · intro hreport
    match hnamed : after.named entry.2.provider.package with
    | [] => rw [hnamed] at hmem₀; cases hmem₀
    | [record] => exact ⟨record, rfl⟩
    | r :: s :: rest =>
      obtain ⟨hrun, hans⟩ := (queryPackage_runs rpmExecutable entry.2.provider.package after).mpr
        ⟨r :: s :: rest, by rw [hnamed], rfl, rfl⟩
      obtain ⟨_, habs⟩ := hreport _ _ hrun hans
      rw [classify_many (by simp)] at habs
      cases habs
  · rintro ⟨record, hnamed⟩ t r hrun hans
    obtain ⟨records, hperm, -, rfl⟩ := (queryPackage_runs _ _ _).mp ⟨hrun, hans⟩
    have hrecord := after.mem_named.mp (hnamed ▸ List.mem_singleton.mpr rfl : record ∈ after.named _)
    obtain rfl := List.perm_singleton.mp (hnamed ▸ hperm)
    refine ⟨record.installTime, ?_⟩
    rw [← hrecord.2, classify_one hrecord.1, hsole record hrecord.1 hrecord.2]

/-- On the smallest release both sides agree. -/
theorem queryPackage_present_minimal :
    verifyInstallation Minimal.manifest false false Minimal.profile Minimal.base Minimal.installed =
      .ok Minimal.report ∧
    ∀ entry ∈ Minimal.profile.components.entries, ∀ t r,
      (queryPackage "/usr/bin/rpm" entry.2.provider.package).Runs t r →
      AnsweredFrom Minimal.installed "/usr/bin/rpm" t →
      ∃ installTime, r = .ok
        (.present ⟨entry.2.provider.package, entry.2.provider.version, installTime⟩) := by
  refine ⟨Minimal.verified,
    (queryPackage_present_iff "/usr/bin/rpm" Minimal.profile_bound Minimal.verified).mpr ?_⟩
  have hone : Minimal.installed.named Minimal.component.provider.package =
      [Minimal.recordOf Minimal.tools 2] := rfl
  intro entry hentry
  obtain ⟨name, -, rfl⟩ := List.mem_map.mp hentry
  exact ⟨_, hone⟩

namespace Minimal

/-- The installed release beside a 32-bit build of the same version of the tools. -/
def multilib : NativeInventory :=
  ⟨[bash, recordOf stack 2, ⟨tools.name, tools.nevr, "i686", 2⟩, recordOf tools 2],
    by decide, by decide⟩

end Minimal

/-- The installer verifies an installation whose tools the doctor then calls invalid output. -/
theorem multilib_disagrees :
    Minimal.manifest.bindProfile Minimal.crates Minimal.profileBytes = .ok Minimal.profile ∧
    verifyInstallation Minimal.manifest false false Minimal.profile Minimal.base Minimal.multilib =
      .ok Minimal.report ∧
    ("npu_firmware", Minimal.component) ∈ Minimal.profile.components.entries ∧
    ∃ t, AnsweredFrom Minimal.multilib "/usr/bin/rpm" t ∧
      (queryPackage "/usr/bin/rpm" Minimal.component.provider.package).Runs t
        (.ok (.failed "PACKAGE_OUTPUT_INVALID")) := by
  refine ⟨Minimal.profile_bound, rfl, List.mem_map_of_mem (by decide), ?_⟩
  have hnamed : Minimal.multilib.named Minimal.component.provider.package =
      [⟨Minimal.tools.name, Minimal.tools.nevr, "i686", 2⟩, Minimal.recordOf Minimal.tools 2] := rfl
  obtain ⟨hrun, hans⟩ := (queryPackage_runs "/usr/bin/rpm" Minimal.component.provider.package
    Minimal.multilib).mpr ⟨_, .refl _, rfl, rfl⟩
  rw [hnamed, classify_many (by simp)] at hrun
  exact ⟨_, hans, hrun⟩

end NpuStack.Install
