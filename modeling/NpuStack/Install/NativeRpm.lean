import NpuStack.Install.Inventory
import NpuStack.Install.Signature

/-! Verification of one RPM file: a private snapshot, its digest, the native signature verdict and
    the native identity.

        file ──copy──▶ snapshot ──sha256──▶ rpmkeys --checksig ──▶ rpm -qp ──sha256──▶ package

    The same check serves both trust domains; they differ in the signature lines they allow and in
    the key database they ask. A `FedoraRpm` carries what verification established about its
    package. -/

namespace NpuStack.Install
open Interaction Text NpuStack.Runtime
open Schema hiding isPackageName isPackageVersion

def MAX_RPM_BYTES : ℕ := 2 * 1024 * 1024 * 1024

def FEDORA_FINGERPRINT : String := "36f612dcf27f7d1a48a835e4dbfcf71c6d9f90a6"

def FEDORA_SIGNATURE : String :=
  "Header OpenPGP V4 RSA/SHA256 signature, key fingerprint: " ++ FEDORA_FINGERPRINT ++ ": OK"

def nativeInvalid : InstallError :=
  .integrity "RPM content, native identity or pinned signature verification failed"

/-- Characters of a stored file name. -/
def fileChar (c : Char) : Bool := c.isAlphanum || "-_.+~^".toList.contains c

/-- The file name a native identity must have. -/
def nativeFilename (name vr arch : String) : String := name ++ "-" ++ vr ++ "." ++ arch ++ ".rpm"

/-- What native verification establishes about a package. -/
structure NativeShape (p : ReleasePackage) : Prop where
  name : rpmName p.name = true
  evr : validEvr p.nevr = true
  arch : p.arch = "x86_64" ∨ p.arch = "noarch"
  filename : ∃ epoch vr, splitOnce ':' p.nevr = some (epoch, vr) ∧
    p.filename = nativeFilename p.name vr p.arch
  sha256 : digest p.sha256 = true
  chars : all fileChar p.filename = true
  length : len p.filename ≤ 512

/-! ### Release packages have the shape too -/

/-- Facts of a validated release package, part by part. -/
theorem validatePackage_parts {p : ReleasePackage} (h : validatePackage p = .ok ()) :
    identifier p.name = true ∧ digest p.sha256 = true ∧ (p.arch = "x86_64" ∨ p.arch = "noarch") ∧
      len p.nevr ≤ 256 ∧ ∃ epoch version release, canonicalEpoch epoch = true ∧
        rpmScalar version = true ∧ rpmScalar release = true ∧
        p.nevr = epoch ++ ":" ++ (version ++ "-" ++ release) ∧
        p.filename = nativeFilename p.name (version ++ "-" ++ release) p.arch := by
  simp only [validatePackage, except_bind_ok, refuse_ok, need_ok, Bool.or_eq_true, not_or,
    Bool.not_eq_true', Bool.not_eq_false, decide_eq_true_eq, not_lt, Bool.not_eq_true,
    not_not, List.contains_iff_mem, List.mem_cons, List.not_mem_nil, or_false] at h
  obtain ⟨_, ⟨⟨⟨hname, hsha⟩, harch⟩, hlen⟩, ⟨epoch, vr⟩, hepoch, ⟨version, release⟩, hvr,
    ⟨⟨⟨⟨⟨⟨hne, hdigits⟩, hparse⟩, hzero⟩, hversion⟩, hrelease⟩, -⟩, hfile⟩ := h
  have hcolon : ":".toList = [':'] := by decide
  have hdash : "-".toList = ['-'] := by decide
  have hvr' : vr = version ++ "-" ++ release := by
    rw [← String.toList_inj, (splitOnce_eq_some.mp hvr).1]
    simp [hdash]
  subst hvr'
  refine ⟨hname, hsha, harch, hlen, epoch, version, release, ?_, hversion, hrelease, ?_, ?_⟩
  · have hpos : 1 ≤ len epoch := by
      rw [Nat.one_le_iff_ne_zero, len]
      simpa using hne
    have hcanonical : len epoch = 1 ∨ startsWith "0" epoch = false := by
      rcases Bool.and_eq_false_iff.mp hzero with hle | hstart
      · simp only [gt_iff_lt, decide_eq_false_iff_not, not_lt] at hle
        exact .inl (le_antisymm hle hpos)
      · exact .inr hstart
    simp only [canonicalEpoch, Bool.and_eq_true, decide_eq_true_eq, Bool.or_eq_true,
      Bool.not_eq_true']
    exact ⟨⟨⟨hne, hdigits⟩, by simpa [Option.isNone_eq_false_iff] using hparse⟩, hcanonical⟩
  · rw [← String.toList_inj, (splitOnce_eq_some.mp hepoch).1]
    simp [hcolon, hdash]
  · rw [hfile]
    simp only [nativeFilename, String.append_assoc]

/-- The parts of a file name are file characters. -/
theorem fileChar_of_subset {q : Char → Bool} {s : String} (hq : ∀ c, q c = true → fileChar c = true)
    (h : all q s = true) : all fileChar s = true := by
  rw [all_iff] at h ⊢
  exact fun c hc => hq c (h c hc)

theorem fileChar_of_rpmScalar {s : String} (h : rpmScalar s = true) : all fileChar s = true := by
  simp only [rpmScalar, Bool.and_eq_true] at h
  refine fileChar_of_subset (fun c hc => ?_) h.2
  simp only [fileChar, Bool.or_eq_true, List.contains_iff_mem] at hc ⊢
  have hsub : ∀ d ∈ "._+~^".toList, d ∈ "-_.+~^".toList := forall_chars (by decide)
  exact hc.imp_right (hsub c)

theorem fileChar_of_identifierChar {s : String} (h : all identifierChar s = true) :
    all fileChar s = true := by
  refine fileChar_of_subset (fun c hc => ?_) h
  simp only [fileChar, identifierChar, Bool.or_eq_true, List.contains_iff_mem] at hc ⊢
  have hsub : ∀ d ∈ "-_.+".toList, d ∈ "-_.+~^".toList := forall_chars (by decide)
  exact hc.imp_right (hsub c)

theorem nativeShape_of_validatePackage {p : ReleasePackage} (h : validatePackage p = .ok ()) :
    NativeShape p := by
  obtain ⟨hname, hsha, harch, hlen, epoch, version, release, hepoch, hversion, hrelease, hnevr, hfile⟩ :=
    validatePackage_parts h
  simp only [identifier, Bool.and_eq_true, decide_eq_true_eq] at hname
  obtain ⟨⟨⟨hne, hnlen⟩, -⟩, hchars⟩ := hname
  have hcolon : ":".toList = [':'] := by decide
  have hdash : "-".toList = ['-'] := by decide
  have hsplit : splitOnce ':' p.nevr = some (epoch, version ++ "-" ++ release) := by
    rw [hnevr]
    exact splitOnce_eq_some.mpr ⟨by simp [hcolon], notMem_of_canonicalEpoch hepoch (by decide)⟩
  have harchChars : all fileChar p.arch = true ∧ len p.arch ≤ 6 := by
    rcases harch with ha | ha <;> rw [ha] <;> decide
  refine ⟨?_, validEvr_iff.mpr ⟨hlen, epoch, version, release, hepoch, hversion, hrelease, hnevr⟩,
    harch, ⟨epoch, _, hsplit, hfile⟩, hsha, ?_, ?_⟩
  · simp only [rpmName, Bool.and_eq_true, decide_eq_true_eq]
    exact ⟨⟨hne, hnlen⟩, hchars⟩
  · have hpunct : all fileChar "-" = true ∧ all fileChar "." = true ∧ all fileChar ".rpm" = true := by
      decide
    simp only [hfile, nativeFilename, all_append, fileChar_of_identifierChar hchars,
      fileChar_of_rpmScalar hversion, fileChar_of_rpmScalar hrelease, harchChars.1, hpunct,
      Bool.and_self]
  · have hlens : len "-" = 1 ∧ len "." = 1 ∧ len ".rpm" = 4 ∧ len ":" = 1 := by decide
    have hvr : len epoch + len ":" + (len version + len "-" + len release) ≤ 256 := by
      simpa [hnevr] using hlen
    have harchLen := harchChars.2
    simp only [hfile, nativeFilename, len_append]
    omega

section
variable (crates : Crates)

def nativeRequest (executable : String) (args : List String) (path : Path) (database : Option Path) :
    ProcessRequest where
  executable := executable
  args := ["--macros", "/usr/lib/rpm/macros", "--noplugins"] ++
    (match database with
      | some database => ["--dbpath", database.display]
      | none => []) ++
    args ++ [path.display]
  timeout := 120
  stdoutLimit := 16384
  stderrLimit := 16384
  environment := []

def native (executable : String) (args : List String) (path : Path) (database : Option Path) :
    Sys Bytes :=
  runClean (nativeRequest executable args path database) nativeInvalid nativeInvalid

def CHECKSIG : List String := ["--checksig", "--verbose"]

def IDENTITY_QUERY : List String := ["-qp", "--qf",
  "%\x7bNAME\x7d|%\x7bEPOCHNUM\x7d:%\x7bVERSION\x7d-%\x7bRELEASE\x7d|%\x7bARCH\x7d|0\n"]

/-- The complete accepted output of a signature check. -/
def signatureReport (snapshot : Path) (signature : String) : String :=
  snapshot.display ++ ":\n    " ++ signature ++
    "\n    Header SHA256 digest: OK\n    Payload SHA256 digest: OK\n"

def verifyHash (path : Path) (expected : String) : Sys Unit := do
  let input ← readFile path nativeInvalid
  refuse ((input.take (MAX_RPM_BYTES + 1)).length > MAX_RPM_BYTES ∨
    crates.sha256 (input.take (MAX_RPM_BYTES + 1)) ≠ expected) nativeInvalid

/-- The single record of an identity query, with the checks on it. -/
def nativePackage (filename sha256 : String) (hsha : digest sha256 = true)
    (hchars : all fileChar filename = true) (hlen : len filename ≤ 512) (inventory : NativeInventory) :
    Except InstallError { p : ReleasePackage // NativeShape p } :=
  match h : inventory.packages with
  | [identity] => do
    let ⟨harch⟩ ← ensure (identity.arch = "x86_64" ∨ identity.arch = "noarch") nativeInvalid
    match hsplit : splitOnce ':' identity.evr with
    | none => .error nativeInvalid
    | some (epoch, vr) => do
      let ⟨hfile⟩ ← ensure (filename = nativeFilename identity.name vr identity.arch) nativeInvalid
      have hvalid : validRecord identity = true := inventory.valid identity (by simp [h])
      return ⟨{
        name := identity.name
        nevr := identity.evr
        arch := identity.arch
        filename := filename
        sha256 := sha256
        role := .runtime },
        { name := by simp only [validRecord, Bool.and_eq_true] at hvalid; exact hvalid.1.1.1
          evr := by simp only [validRecord, Bool.and_eq_true] at hvalid; exact hvalid.1.1.2
          arch := harch
          filename := ⟨epoch, vr, hsplit, hfile⟩
          sha256 := hsha
          chars := hchars
          length := hlen }⟩
  | _ => .error nativeInvalid

/-- Verifies a private snapshot of one RPM file against a digest and the allowed signature lines. -/
def verifyNativeRpm (path : Path) (expectedSha256 : String) (database : Option Path)
    (allowedSignatures : List String) : Sys { p : ReleasePackage // NativeShape p } := do
  let ⟨hsha⟩ ← ensure (digest expectedSha256 = true) nativeInvalid
  let metadata ← lstat path nativeInvalid
  let filename ← need path.fileName nativeInvalid
  refuse (!metadata.isFile || metadata.len > MAX_RPM_BYTES || !endsWith ".rpm" filename) nativeInvalid
  let ⟨hlen⟩ ← ensure (len filename ≤ 512) nativeInvalid
  let ⟨hchars⟩ ← ensure (all fileChar filename = true) nativeInvalid
  let directory ← tempDir nativeInvalid "intel-npu-rpm-snapshot-"
  let snapshot := directory.join filename
  let input ← readFile path nativeInvalid
  writeFile snapshot nativeInvalid (input.take (MAX_RPM_BYTES + 1))
  refuse ((input.take (MAX_RPM_BYTES + 1)).length ≠ metadata.len) nativeInvalid
  verifyHash crates snapshot expectedSha256
  let signature ← native "/usr/bin/rpmkeys" CHECKSIG snapshot database
  let text ← need (fromUtf8 signature) nativeInvalid
  refuse (¬ ∃ signature ∈ allowedSignatures, text = signatureReport snapshot signature) nativeInvalid
  let identity ← native "/usr/bin/rpm" IDENTITY_QUERY snapshot database
  let inventory ← NativeInventory.parseQuery identity
  let package ← nativePackage filename expectedSha256 hsha hchars hlen inventory
  verifyHash crates snapshot expectedSha256
  return package

variable {crates}

theorem verifyHash_bind_ok {path : Path} {expected : String} {t : Trace} {α : Type}
    {f : Unit → Sys α} {b : α} : (verifyHash crates path expected >>= f).Runs t (.ok b) ↔
      ∃ input t', t = ⟨.readFile path, .ok input⟩ :: t' ∧
        (input.take (MAX_RPM_BYTES + 1)).length ≤ MAX_RPM_BYTES ∧
        crates.sha256 (input.take (MAX_RPM_BYTES + 1)) = expected ∧ (f ()).Runs t' (.ok b) := by
  simp only [verifyHash, bind_assoc, readFile, Prog.runs_expect_bind_ok, okOr_ok, exists_eq_left,
    Prog.runs_lift_bind_ok, refuse_ok, not_or, not_lt, not_not]
  constructor
  · rintro ⟨input, t', ht, _, ⟨hl, hs⟩, h⟩
    exact ⟨input, t', ht, hl, hs, h⟩
  · rintro ⟨input, t', ht, hl, hs, h⟩
    exact ⟨input, t', ht, (), ⟨hl, hs⟩, h⟩

theorem nativePackage_ok {filename sha256 : String} {hsha : digest sha256 = true}
    {hchars : all fileChar filename = true} {hlen : len filename ≤ 512} {inventory : NativeInventory}
    {p : { p : ReleasePackage // NativeShape p }}
    (h : nativePackage filename sha256 hsha hchars hlen inventory = .ok p) :
    p.val.filename = filename ∧ p.val.sha256 = sha256 ∧ p.val.role = .runtime ∧
      ∃ installTime, inventory.packages = [⟨p.val.name, p.val.nevr, p.val.arch, installTime⟩] := by
  rw [nativePackage] at h
  split at h
  next identity hone =>
    obtain ⟨harch, -, h⟩ := except_bind_ok.mp h
    simp only at h
    split at h
    · cases h
    next epoch vr hsplit =>
      obtain ⟨hfile, -, h⟩ := except_bind_ok.mp h
      cases h
      exact ⟨rfl, rfl, rfl, identity.installTime, hone⟩
  · cases h

/-- The native evidence for one package: the file was copied to a private snapshot with the bound
    digest, the signature tool printed an allowed line for it, and its identity is the package's. -/
structure NativelyVerified (crates : Crates) (t : Trace) (path : Path) (expected : String)
    (database : Option Path) (signature : String) (p : ReleasePackage) : Prop where
  filename : path.fileName = some p.filename
  sha256 : p.sha256 = expected
  evidence : ∃ (directory : Path) (input snapshot identity : Bytes) (inventory : NativeInventory)
    (installTime : ℕ),
    Saw t (.readFile path) (.ok input) ∧
    Saw t (.writeFile (directory.join p.filename) (input.take (MAX_RPM_BYTES + 1))) (.ok ()) ∧
    Saw t (.readFile (directory.join p.filename)) (.ok snapshot) ∧
    snapshot.length ≤ MAX_RPM_BYTES ∧ crates.sha256 snapshot = expected ∧
    Ran t (nativeRequest "/usr/bin/rpmkeys" CHECKSIG (directory.join p.filename) database)
      (utf8 (signatureReport (directory.join p.filename) signature)) ∧
    Ran t (nativeRequest "/usr/bin/rpm" IDENTITY_QUERY (directory.join p.filename) database) identity ∧
    NativeInventory.parseQuery identity = .ok inventory ∧
    inventory.packages = [⟨p.name, p.nevr, p.arch, installTime⟩]

theorem NativelyVerified.mono {t t' : Trace} {path : Path} {sha256 : String}
    {database : Option Path} {signature : String} {p : ReleasePackage}
    (h : NativelyVerified crates t path sha256 database signature p) (ht : t ⊆ t') :
    NativelyVerified crates t' path sha256 database signature p := by
  obtain ⟨hf, hs, d, i, s, n, inv, time, h₁, h₂, h₃, h₄, h₅, h₆, h₇, h₈, h₉⟩ := h
  exact ⟨hf, hs, d, i, s, n, inv, time, h₁.mono ht, h₂.mono ht, h₃.mono ht, h₄, h₅, h₆.mono ht,
    h₇.mono ht, h₈, h₉⟩

/-- The evidence is about the identity, not about the role it plays. -/
theorem NativelyVerified.congr {t : Trace} {path : Path} {sha256 : String} {database : Option Path}
    {signature : String} {p q : ReleasePackage}
    (h : NativelyVerified crates t path sha256 database signature p) (hname : p.name = q.name)
    (hnevr : p.nevr = q.nevr) (harch : p.arch = q.arch) (hfile : p.filename = q.filename)
    (hsha : sha256 = q.sha256) : NativelyVerified crates t path sha256 database signature q := by
  obtain ⟨hf, -, he⟩ := h
  rw [hname, hnevr, harch, hfile] at he
  exact ⟨hfile ▸ hf, hsha.symm, he⟩

/-- A successful verification leaves its evidence in the trace. -/
theorem verifyNativeRpm_runs {path : Path} {sha256 : String} {database : Option Path}
    {allowed : List String} {t : Trace} {p : { p : ReleasePackage // NativeShape p }}
    (h : (verifyNativeRpm crates path sha256 database allowed).Runs t (.ok p)) :
    ∃ signature ∈ allowed, NativelyVerified crates t path sha256 database signature p.val := by
  simp only [verifyNativeRpm, Prog.runs_lift_bind_ok, lstat, readFile, tempDir, writeFile,
    Prog.runs_expect_bind_ok, okOr_ok, exists_eq_left, native, verifyHash_bind_ok,
    runs_runClean_bind_ok, need_ok, refuse_ok, not_not, Prog.runs_pure, Except.ok.injEq] at h
  obtain ⟨_, -, metadata, _, rfl, filename, hname, _, -, _, -, _, -, directory, _, rfl, input, _, rfl,
    ⟨⟩, _, rfl, _, -, first, _, rfl, hfirst, hhash, checked, _, hclean, rfl, text, htext, _,
    ⟨signature, hallowed, rfl⟩, queried, _, hclean', rfl, inventory, hparse, package, hpackage, second,
    _, rfl, -, -, rfl, rfl⟩ := h
  obtain ⟨hfile, hsha, -, time, hone⟩ := nativePackage_ok hpackage
  have hreport := fromUtf8_eq_some.mp htext
  subst hfile
  refine ⟨signature, hallowed, hname, hsha, directory, input, first, queried.stdout, inventory, time,
    ?_, ?_, ?_, ?_, ?_, ⟨checked, hclean, hreport, ?_⟩, ⟨queried, hclean', rfl, ?_⟩, hparse, hone⟩
  · simp [Saw]
  · simp [Saw]
  · simp [Saw]
  · rwa [take_of_length_le hfirst] at hfirst
  · rwa [take_of_length_le hfirst] at hhash
  · simp [Saw]
  · simp [Saw]

variable (crates)

/-! ### The two trust domains -/

/-- A native dependency whose exact bytes and header passed Fedora 44's pinned signature. -/
structure FedoraRpm where
  package : ReleasePackage
  shape : NativeShape package

def FedoraRpm.verify (path : Path) (expectedSha256 : String) : Sys FedoraRpm := do
  let package ← verifyNativeRpm crates path expectedSha256 none [FEDORA_SIGNATURE]
  return ⟨package.val, package.property⟩

/-- Temporary native trust for one independently pinned release key. -/
structure ProjectRpmTrust where
  directory : Path
  primary : String
  deriving DecidableEq, Repr

namespace ProjectRpmTrust

def invalid : InstallError :=
  .integrity "project RPM signature, release identity or private pinned trust is invalid"

def database (trust : ProjectRpmTrust) : Path := trust.directory.join "rpmdb"

def runRequest (trust : ProjectRpmTrust) (executable : String) (args : List String) :
    ProcessRequest where
  executable := executable
  args := ["--macros", "/usr/lib/rpm/macros", "--noplugins", "--dbpath", trust.database.display] ++ args
  timeout := 10
  stdoutLimit := 65536
  stderrLimit := 65536
  environment := []

/-- Imports an armored public key into a private database holding exactly the pinned key. -/
def fromArmoredKey (key : Bytes) (primary : String) : Sys ProjectRpmTrust := do
  let text ← need (fromUtf8 key) invalid
  refuse (key = [] ∨ key.length > 1048576 ∨ fingerprint primary = false ∨
    startsWith "-----BEGIN PGP PUBLIC KEY BLOCK-----\n" text = false ∨
    endsWith "-----END PGP PUBLIC KEY BLOCK-----" (trimEnd text) = false) invalid
  let directory ← tempDir invalid "intel-npu-rpm-trust-"
  let trust : ProjectRpmTrust := ⟨directory, asciiLowercase primary⟩
  createDir trust.database invalid
  let file := directory.join "public.asc"
  writeFile file invalid key
  let _ ← runClean (trust.runRequest "/usr/bin/rpmkeys" ["--import", file.display]) invalid invalid
  let identity ← runClean (trust.runRequest "/usr/bin/rpm" ["-qa", "--qf", "%\x7bVERSION\x7d\n"])
    invalid invalid
  refuse (identity ≠ utf8 (trust.primary ++ "\n")) invalid
  return trust

def SIGNATURE_ALGORITHMS : List String := ["RSA/SHA256", "RSA/SHA384", "RSA/SHA512", "EdDSA/SHA512"]

/-- The signature line of the pinned key under one algorithm. -/
def signatureLine (trust : ProjectRpmTrust) (algorithm : String) : String :=
  "Header OpenPGP V4 " ++ algorithm ++ " signature, key fingerprint: " ++ trust.primary ++ ": OK"

def signatures (trust : ProjectRpmTrust) : List String :=
  SIGNATURE_ALGORITHMS.map trust.signatureLine

end ProjectRpmTrust

/-- `ProjectRpm::verify`: an exact project artifact signed by the pinned key. -/
def ProjectRpm.verify (path : Path) (expected : ReleasePackage) (trust : ProjectRpmTrust) :
    Sys ReleasePackage := do
  validatePackage expected
  let identity ← verifyNativeRpm crates path expected.sha256 (some trust.database) trust.signatures
  refuse (identity.val.name ≠ expected.name ∨ identity.val.nevr ≠ expected.nevr ∨
    identity.val.arch ≠ expected.arch ∨ identity.val.filename ≠ expected.filename)
    ProjectRpmTrust.invalid
  return expected

variable {crates}

end

end NpuStack.Install
