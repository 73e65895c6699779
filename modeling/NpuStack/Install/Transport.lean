import NpuStack.Install.Signature

/-! Fetching one pinned release. Three downloads, each bounded, and nothing is parsed before it is
    authenticated:

        release.json ──sha256──▶ release.json.sig ──gpg──▶ manifest ──version──▶ profile.toml ──bind──▶
              pinned digest          pinned key                pinned version       manifest digest

    A run that returns a release has one shape (`fetchRelease_runs`), with every check on it. What
    any run may ask is fixed by the location (`fetchRelease_asks`): no document chooses a key, a
    digest or a URL. -/

namespace NpuStack.Install
open Interaction Text Schema NpuStack.Runtime

/-- Release identity supplied by the independently verified installer. -/
structure ReleaseLocation where
  version : String
  baseUrl : String
  metadataSha256 : String
  primaryFingerprint : String
  keyring : Bytes
  deriving DecidableEq

/-- The pinned identity is well formed. -/
def ReleaseLocation.valid (location : ReleaseLocation) : Bool :=
  releaseVersion location.version && repositoryUrl location.baseUrl location.version &&
    digest location.metadataSha256 && fingerprint location.primaryFingerprint &&
    location.keyring ≠ [] && location.keyring.length ≤ 1048576

def ReleaseLocation.trust (location : ReleaseLocation) : ReleaseTrust :=
  ⟨location.metadataSha256, location.primaryFingerprint, location.keyring⟩

/-- Authenticated metadata and its byte-bound profile. -/
structure VerifiedRelease where
  manifest : ReleaseManifest
  profile : Profile

def curlRequest (base filename : String) (limit : ℕ) (directory : Path) : ProcessRequest where
  executable := "/usr/bin/curl"
  args := ["--disable", "--fail", "--location", "--proto", "=https", "--proto-redir", "=https",
    "--connect-timeout", "15", "--max-time", "60", "--max-filesize", limit.repr, "--output",
    (directory.join filename).display, "--", base ++ filename]
  timeout := 65
  stdoutLimit := 4096
  stderrLimit := 16384
  environment := []

def download (base filename : String) (limit : ℕ) (directory : Path) : Sys Bytes := do
  let path := directory.join filename
  let _ ← runClean (curlRequest base filename limit directory)
    (InstallError.integrity "metadata download process failed")
    (InstallError.integrity "metadata download did not complete within limits")
  let metadata ← lstat path (InstallError.integrity "downloaded metadata file is missing")
  refuse (!metadata.isFile || metadata.len > limit)
    (InstallError.integrity "downloaded metadata is not a bounded regular file")
  let bytes ← readFile path (InstallError.integrity "cannot read downloaded metadata")
  refuse ((bytes.take (limit + 1)).length > limit)
    (InstallError.integrity "downloaded metadata grew beyond its byte limit")
  return bytes.take (limit + 1)

section
variable (crates : Crates)

/-- Fetches bounded release data, verifies trust, then binds the exact profile. -/
def fetchRelease (location : ReleaseLocation) : Sys VerifiedRelease := do
  refuse (location.valid = false)
    (InstallError.integrity "invalid independently pinned release location")
  let directory ← tempDir
    (InstallError.integrity "cannot create private metadata download directory") "intel-npu-release-"
  let metadata ← download location.baseUrl "release.json" 1048576 directory
  refuse (crates.sha256 metadata ≠ location.metadataSha256)
    (InstallError.integrity "downloaded release metadata checksum mismatch")
  let signature ← download location.baseUrl "release.json.sig" 65536 directory
  verifyDetached crates metadata signature location.trust
  let manifest ← ReleaseManifest.parseJson crates metadata
  refuse (manifest.stackRelease ≠ location.version)
    (InstallError.integrity "authenticated metadata names a different release")
  let bytes ← download location.baseUrl "profile.toml" 1048576 directory
  let profile ← manifest.bindProfile crates bytes
  return ⟨manifest, profile⟩

end

/-! ### Downloads -/

/-- The events of one complete download. -/
def downloaded (base filename : String) (limit : ℕ) (directory : Path) (output : ProcessOutput)
    (metadata : Metadata) (bytes : Bytes) : Trace :=
  [⟨.run (curlRequest base filename limit directory), .ok output⟩,
    ⟨.symlinkMetadata (directory.join filename), .ok metadata⟩,
    ⟨.readFile (directory.join filename), .ok bytes⟩]

/-- The file was fetched whole, within its limit. -/
structure Fetched (limit : ℕ) (output : ProcessOutput) (metadata : Metadata) (bytes : Bytes) : Prop where
  clean : output.clean = true
  file : metadata.isFile = true
  size : metadata.len ≤ limit
  length : bytes.length ≤ limit

theorem download_runs {base filename : String} {limit : ℕ} {directory : Path} {t : Trace}
    {bytes : Bytes} : (download base filename limit directory).Runs t (.ok bytes) ↔
      ∃ output metadata, Fetched limit output metadata bytes ∧
        t = downloaded base filename limit directory output metadata bytes := by
  simp only [download, runs_runClean_bind_ok, lstat, readFile, Prog.runs_expect_bind_ok, okOr_ok,
    exists_eq_left, Prog.runs_lift_bind_ok, refuse_ok, Bool.or_eq_true, Bool.not_eq_true',
    decide_eq_true_eq, not_or, not_lt, Bool.not_eq_false, Prog.runs_pure, Except.ok.injEq]
  constructor
  · rintro ⟨output, _, hclean, rfl, metadata, _, rfl, _, ⟨hfile, hsize⟩, input, _, rfl, _, hlength,
      rfl, rfl⟩
    have htake : input.take (limit + 1) = input := take_of_length_le hlength
    rw [htake] at hlength ⊢
    exact ⟨output, metadata, ⟨hclean, hfile, hsize, hlength⟩, rfl⟩
  · rintro ⟨output, metadata, ⟨hclean, hfile, hsize, hlength⟩, rfl⟩
    have htake : bytes.take (limit + 1) = bytes := List.take_of_length_le (by omega)
    exact ⟨output, _, hclean, rfl, metadata, _, rfl, (), ⟨hfile, hsize⟩, bytes, _, rfl, (),
      by rwa [htake], rfl, htake⟩

/-! ### Releases -/

/-- The checks on the three documents and on GnuPG's verdict. -/
structure Authentic (crates : Crates) (location : ReleaseLocation) (metadata signature profile : Bytes)
    (status : Bytes) (release : VerifiedRelease) : Prop where
  pinned : location.valid = true
  digest : crates.sha256 metadata = location.metadataSha256
  nonempty : metadata ≠ [] ∧ signature ≠ []
  policy : verifySignatureStatus 0 status location.primaryFingerprint = .ok ()
  manifest : ReleaseManifest.parseJson crates metadata = .ok release.manifest
  version : release.manifest.stackRelease = location.version
  profile : release.manifest.bindProfile crates profile = .ok release.profile

/-- The events of verification, staged in a directory. -/
def staged (staging : Path) (metadata signature keyring : Bytes) (imported verified : ProcessOutput) :
    Trace :=
  [⟨.tempDir "intel-npu-signature-", .ok staging⟩,
    ⟨.writeFile (staging.join "release.json") metadata, .ok ()⟩,
    ⟨.writeFile (staging.join "release.sig") signature, .ok ()⟩,
    ⟨.writeFile (staging.join "public-key") keyring, .ok ()⟩,
    ⟨.run (importRequest staging), .ok imported⟩,
    ⟨.run (verifyRequest staging), .ok verified⟩]

/-- The events of a complete fetch. -/
structure FetchTrace (location : ReleaseLocation) (metadata signature profile : Bytes)
    (directory staging : Path) (verified : ProcessOutput) (t : Trace) : Prop where
  shape : ∃ (o₁ o₂ o₃ imported : ProcessOutput) (m₁ m₂ m₃ : Metadata),
    Fetched 1048576 o₁ m₁ metadata ∧ Fetched 65536 o₂ m₂ signature ∧ Fetched 1048576 o₃ m₃ profile ∧
    imported.clean = true ∧ t = ⟨.tempDir "intel-npu-release-", .ok directory⟩ ::
      (downloaded location.baseUrl "release.json" 1048576 directory o₁ m₁ metadata ++
      (downloaded location.baseUrl "release.json.sig" 65536 directory o₂ m₂ signature ++
      (staged staging metadata signature location.keyring imported verified ++
      downloaded location.baseUrl "profile.toml" 1048576 directory o₃ m₃ profile)))
  clean : verified.clean = true

/-- A run returns a release exactly when it has this shape and its documents are authentic. -/
theorem fetchRelease_runs {crates : Crates} {location : ReleaseLocation} {t : Trace}
    {release : VerifiedRelease} : (fetchRelease crates location).Runs t (.ok release) ↔
      ∃ metadata signature profile directory staging verified,
        FetchTrace location metadata signature profile directory staging verified t ∧
        Authentic crates location metadata signature profile verified.stdout release := by
  simp only [fetchRelease, Prog.runs_lift_bind_ok, refuse_ok, Bool.not_eq_false, tempDir,
    Prog.runs_expect_bind_ok, okOr_ok, exists_eq_left, Prog.runs_bind_ok (p := download _ _ _ _),
    Prog.runs_bind_ok (p := verifyDetached _ _ _ _), download_runs, verifyDetached_runs, not_not,
    Prog.runs_pure, Except.ok.injEq]
  constructor
  · rintro ⟨_, hvalid, directory, _, rfl, metadata, _, _, rfl, ⟨o₁, m₁, hf₁, rfl⟩, _, hdigest,
      signature, _, _, rfl, ⟨o₂, m₂, hf₂, rfl⟩, _, _, _, rfl,
      ⟨⟨hmeta, -, hsig, -⟩, staging, imported, verified, hi, hv, hpolicy, rfl⟩,
      manifest, hmanifest, _, hversion, profile, _, _, rfl, ⟨o₃, m₃, hf₃, rfl⟩,
      bound, hbound, rfl, rfl⟩
    exact ⟨metadata, signature, profile, directory, staging, verified,
      ⟨⟨o₁, o₂, o₃, imported, m₁, m₂, m₃, hf₁, hf₂, hf₃, hi, by rw [List.append_nil]; rfl⟩, hv⟩,
      ⟨hvalid, hdigest, ⟨hmeta, hsig⟩, hpolicy, hmanifest, hversion, hbound⟩⟩
  · rintro ⟨metadata, signature, profile, directory, staging, verified,
      ⟨⟨o₁, o₂, o₃, imported, m₁, m₂, m₃, hf₁, hf₂, hf₃, hi, rfl⟩, hv⟩, hauth⟩
    have hvalid := hauth.pinned
    simp only [ReleaseLocation.valid, Bool.and_eq_true, decide_eq_true_eq] at hvalid
    exact ⟨(), hauth.pinned, directory, _, rfl, metadata, _, _, rfl, ⟨o₁, m₁, hf₁, rfl⟩, (),
      hauth.digest, signature, _, _, rfl, ⟨o₂, m₂, hf₂, rfl⟩, (), _, _, rfl,
      ⟨⟨hauth.nonempty.1, hf₁.length, hauth.nonempty.2, hf₂.length, hvalid.1.2, hvalid.2,
        hvalid.1.1.2, hvalid.1.1.1.2, hauth.digest⟩, staging, imported, verified, hi, hv,
        hauth.policy, rfl⟩,
      release.manifest, hauth.manifest, (), hauth.version, profile, _, _, (List.append_nil _).symm,
      ⟨o₃, m₃, hf₃, rfl⟩, release.profile, hauth.profile, rfl, rfl⟩

/-! ### Trust does not come from documents -/

/-- Questions a location admits: only paths and staged documents vary. -/
inductive Pinned (location : ReleaseLocation) : Question → Prop
  | tempDir (stem : String) : Pinned location (.tempDir stem)
  | curl (directory : Path) {filename : String} {limit : ℕ}
      (h : (filename, limit) ∈ [("release.json", 1048576), ("release.json.sig", 65536),
        ("profile.toml", 1048576)]) :
      Pinned location (.run (curlRequest location.baseUrl filename limit directory))
  | lstat (path : Path) : Pinned location (.symlinkMetadata path)
  | read (path : Path) : Pinned location (.readFile path)
  | stage (directory : Path) {filename : String} (h : filename ∈ ["release.json", "release.sig"])
      (bytes : Bytes) : Pinned location (.writeFile (directory.join filename) bytes)
  | key (directory : Path) :
      Pinned location (.writeFile (directory.join "public-key") location.keyring)
  | import (directory : Path) : Pinned location (.run (importRequest directory))
  | verify (directory : Path) : Pinned location (.run (verifyRequest directory))

theorem download_asks {location : ReleaseLocation} {filename : String} {limit : ℕ} {directory : Path}
    (h : (filename, limit) ∈ [("release.json", 1048576), ("release.json.sig", 65536),
      ("profile.toml", 1048576)]) :
    (download location.baseUrl filename limit directory).Asks (Pinned location) :=
  Prog.asks_bind ((Prog.asks_expect _ _).mpr (.curl directory h)) fun _ =>
    Prog.asks_bind ((Prog.asks_expect _ _).mpr (.lstat _)) fun _ =>
      Prog.asks_bind (Prog.asks_lift _) fun _ =>
        Prog.asks_bind ((Prog.asks_expect _ _).mpr (.read _)) fun _ =>
          Prog.asks_bind (Prog.asks_lift _) fun _ => Prog.asks_pure _

theorem verifyDetached_asks {crates : Crates} {location : ReleaseLocation} {data signature : Bytes} :
    (verifyDetached crates data signature location.trust).Asks (Pinned location) :=
  Prog.asks_bind (Prog.asks_lift _) fun _ =>
    Prog.asks_bind ((Prog.asks_expect _ _).mpr (.tempDir _)) fun _ =>
      Prog.asks_bind ((Prog.asks_expect _ _).mpr (.stage _ (by simp) _)) fun _ =>
        Prog.asks_bind ((Prog.asks_expect _ _).mpr (.stage _ (by simp) _)) fun _ =>
          Prog.asks_bind ((Prog.asks_expect _ _).mpr (.key _)) fun _ =>
            Prog.asks_bind ((Prog.asks_expect _ _).mpr (.import _)) fun _ =>
              Prog.asks_bind ((Prog.asks_expect _ _).mpr (.verify _)) fun _ => Prog.asks_lift _

/-- Every question of a fetch is fixed by the location, up to directories and staged documents. -/
theorem fetchRelease_asks {crates : Crates} {location : ReleaseLocation} :
    (fetchRelease crates location).Asks (Pinned location) :=
  Prog.asks_bind (Prog.asks_lift _) fun _ =>
    Prog.asks_bind ((Prog.asks_expect _ _).mpr (.tempDir _)) fun _ =>
      Prog.asks_bind (download_asks (by simp)) fun _ => Prog.asks_bind (Prog.asks_lift _) fun _ =>
        Prog.asks_bind (download_asks (by simp)) fun _ => Prog.asks_bind verifyDetached_asks fun _ =>
          Prog.asks_bind (Prog.asks_lift _) fun _ => Prog.asks_bind (Prog.asks_lift _) fun _ =>
            Prog.asks_bind (download_asks (by simp)) fun _ =>
              Prog.asks_bind (Prog.asks_lift _) fun _ => Prog.asks_pure _

/-! ### Reads of a complete fetch -/

section
variable {crates : Crates} {location : ReleaseLocation} {metadata signature profile : Bytes}
  {directory staging path : Path} {verified : ProcessOutput} {t : Trace}

/-- The three files a complete fetch read. -/
theorem FetchTrace.reads (h : FetchTrace location metadata signature profile directory staging
    verified t) {bytes : Bytes} (hread : Saw t (.readFile path) (.ok bytes)) :
    (path = directory.join "release.json" ∧ bytes = metadata) ∨
      (path = directory.join "release.json.sig" ∧ bytes = signature) ∨
      (path = directory.join "profile.toml" ∧ bytes = profile) := by
  obtain ⟨⟨o₁, o₂, o₃, imported, m₁, m₂, m₃, -, -, -, -, rfl⟩, -⟩ := h
  simp only [Saw, downloaded, staged, List.mem_cons, List.mem_append, List.not_mem_nil,
    or_false] at hread
  rcases hread with h | (h | h | h) | (h | h | h) | (h | h | h | h | h | h) | h | h | h <;> cases h
  · exact .inl ⟨rfl, rfl⟩
  · exact .inr (.inl ⟨rfl, rfl⟩)
  · exact .inr (.inr ⟨rfl, rfl⟩)

theorem join_ne {directory directory' : Path} {name name' : String}
    (hne : Path.parts name ≠ []) (hne' : Path.parts name' ≠ [])
    (h : (Path.parts name).getLast? ≠ (Path.parts name').getLast?) :
    directory.join name ≠ directory'.join name' := by
  intro heq
  have hlast := congrArg (·.components.getLast?) heq
  simp only [Path.join, List.getLast?_append_of_ne_nil _ hne,
    List.getLast?_append_of_ne_nil _ hne'] at hlast
  exact h hlast

theorem FetchTrace.read_metadata (h : FetchTrace location metadata signature profile directory staging
    verified t) {bytes : Bytes} (hread : Saw t (.readFile (path.join "release.json")) (.ok bytes)) :
    bytes = metadata := by
  rcases h.reads hread with ⟨-, hbytes⟩ | ⟨hpath, -⟩ | ⟨hpath, -⟩
  · exact hbytes
  · exact absurd hpath (join_ne (by decide) (by decide) (by decide))
  · exact absurd hpath (join_ne (by decide) (by decide) (by decide))

theorem FetchTrace.read_profile (h : FetchTrace location metadata signature profile directory staging
    verified t) {bytes : Bytes} (hread : Saw t (.readFile (path.join "profile.toml")) (.ok bytes)) :
    bytes = profile := by
  rcases h.reads hread with ⟨hpath, -⟩ | ⟨hpath, -⟩ | ⟨-, hbytes⟩
  · exact absurd hpath (join_ne (by decide) (by decide) (by decide))
  · exact absurd hpath (join_ne (by decide) (by decide) (by decide))
  · exact hbytes

/-- The only verdict a complete fetch asked for. -/
theorem FetchTrace.verdict (h : FetchTrace location metadata signature profile directory staging
    verified t) {output : ProcessOutput} (hrun : Saw t (.run (verifyRequest path)) (.ok output)) :
    output = verified := by
  obtain ⟨⟨o₁, o₂, o₃, imported, m₁, m₂, m₃, -, -, -, -, rfl⟩, -⟩ := h
  have hcurl : ∀ base filename limit directory, verifyRequest path ≠
      curlRequest base filename limit directory := fun _ _ _ _ heq =>
    absurd (congrArg ProcessRequest.executable heq) (by simp [verifyRequest, gpgRequest, curlRequest])
  have himport : verifyRequest path ≠ importRequest staging := fun heq =>
    absurd (congrArg (·.args.length) heq) (by simp [verifyRequest, importRequest, gpgRequest])
  simp only [Saw, downloaded, staged, List.mem_cons, List.mem_append, List.not_mem_nil,
    or_false, Event.mk.injEq, Question.run.injEq, hcurl, himport, reduceCtorEq, false_and,
    false_or] at hrun
  exact Except.ok.inj (eq_of_heq hrun.2)

/-- A document the run read, or GnuPG's verdict on one, fails its check. -/
inductive Rejected (crates : Crates) (location : ReleaseLocation) (t : Trace) : Prop
  | digest {directory : Path} {bytes : Bytes}
      (hread : Saw t (.readFile (directory.join "release.json")) (.ok bytes))
      (h : crates.sha256 bytes ≠ location.metadataSha256)
  | manifest {directory : Path} {bytes : Bytes}
      (hread : Saw t (.readFile (directory.join "release.json")) (.ok bytes))
      (h : ∀ manifest, ReleaseManifest.parseJson crates bytes = .ok manifest →
        manifest.stackRelease ≠ location.version)
  | signature {directory : Path} {output : ProcessOutput}
      (hrun : Saw t (.run (verifyRequest directory)) (.ok output))
      (h : verifySignatureStatus 0 output.stdout location.primaryFingerprint ≠ .ok ())
  | profile {directory directory' : Path} {metadata bytes : Bytes} {manifest : ReleaseManifest}
      (hmetadata : Saw t (.readFile (directory.join "release.json")) (.ok metadata))
      (hmanifest : ReleaseManifest.parseJson crates metadata = .ok manifest)
      (hread : Saw t (.readFile (directory'.join "profile.toml")) (.ok bytes))
      (h : ∀ profile, manifest.bindProfile crates bytes ≠ .ok profile)

/-- A document that fails its check fails the run. -/
theorem rejected_fails {r : Except InstallError VerifiedRelease} (hrejected : Rejected crates location t)
    (h : (fetchRelease crates location).Runs t r) : ∃ e, r = .error e := by
  cases r with
  | error e => exact ⟨e, rfl⟩
  | ok release =>
    obtain ⟨_, _, _, _, _, verified, htrace, hauth⟩ := fetchRelease_runs.mp h
    exfalso
    cases hrejected with
    | digest hread hbad =>
      obtain rfl := htrace.read_metadata hread
      exact hbad hauth.digest
    | manifest hread hbad =>
      obtain rfl := htrace.read_metadata hread
      exact hbad _ hauth.manifest hauth.version
    | signature hrun hbad =>
      obtain rfl := htrace.verdict hrun
      exact hbad hauth.policy
    | profile hmetadata hmanifest hread hbad =>
      obtain rfl := htrace.read_metadata hmetadata
      obtain rfl := htrace.read_profile hread
      obtain rfl := Except.ok.inj (hmanifest.symm.trans hauth.manifest)
      exact hbad _ hauth.profile

end

/-- A release is only ever returned authenticated. Whatever is downloaded, the location alone fixes
    the URLs asked, the key imported and the requests made, and a document that fails its check fails
    the run. -/
theorem fetchRelease_authenticated (crates : Crates) (location : ReleaseLocation) :
    (∀ t release, (fetchRelease crates location).Runs t (.ok release) →
      ∃ metadata signature profile directory staging verified,
        FetchTrace location metadata signature profile directory staging verified t ∧
        Authentic crates location metadata signature profile verified.stdout release ∧
        crates.sha256 profile = release.manifest.document.profileSha256) ∧
    (∀ t r, (fetchRelease crates location).Runs t r → ∀ e ∈ t, Pinned location e.question) ∧
    ∀ t r, (fetchRelease crates location).Runs t r → Rejected crates location t →
      ∃ e, r = .error e := by
  refine ⟨fun t release h => ?_, fun t r h => Prog.runs_asks fetchRelease_asks h,
    fun t r h hrejected => rejected_fails hrejected h⟩
  obtain ⟨metadata, signature, profile, directory, staging, verified, htrace, hauth⟩ :=
    fetchRelease_runs.mp h
  exact ⟨metadata, signature, profile, directory, staging, verified, htrace, hauth,
    (ReleaseManifest.bindProfile_ok.mp hauth.profile).2.1⟩

namespace Minimal

def primary : String := "0123456789ABCDEF0123456789ABCDEF01234567"

def keyring : Bytes :=
  utf8 "-----BEGIN PGP PUBLIC KEY BLOCK-----\n\nAA==\n-----END PGP PUBLIC KEY BLOCK-----\n"

def location : ReleaseLocation where
  version := "1.0.0"
  baseUrl := "https://a.b/1.0.0/"
  metadataSha256 := "dc155e53448afffa0c550e5b4c01f8c6431a2f5802f43e861368e2fe8dddd754"
  primaryFingerprint := primary
  keyring := keyring

/-- The records GnuPG prints for a good signature of the pinned key. -/
def records : List (List String) := [["NEWSIG"], ["GOODSIG", "89ABCDEF01234567", "Release"],
  ["VALIDSIG", primary, "2026-01-01", "1767225600", "0", "4", "0", "22", "8", "00", primary]]

def status : String := unlines (records.map fun fields => "[GNUPG:] " ++ unwords fields)

def release : VerifiedRelease := ⟨manifest, profile⟩

theorem records_fields : ∀ fields ∈ records, ∀ w ∈ fields, isStatusField w = true := by
  simp only [records, primary, List.forall_mem_cons, List.not_mem_nil, false_implies, implies_true, and_true]
  refine ⟨?_, ⟨?_, ?_, ?_⟩, ?_, ?_, ?_, ?_, ?_, ?_, ?_, ?_, ?_, ?_, ?_⟩ <;> exact isStatusField_chars (by decide)

end Minimal

end NpuStack.Install
