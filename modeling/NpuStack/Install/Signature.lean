import NpuStack.Install.Environment

/-! Detached OpenPGP signatures of release metadata. The pinned key is imported into a throwaway
    home directory, and GnuPG's machine status is judged line by line:

        data, signature, key ──stage──▶ gpg --import ──▶ gpg --status-fd 1 --verify ──▶ status lines
                                                                                          │
                                          one NEWSIG, one GOODSIG, one VALIDSIG ◀──scan───┘

    An unknown record, a second signature, an expiry or another primary key ends in a refusal. -/

namespace NpuStack.Install
open Interaction Text NpuStack.Runtime

/-- Forty upper-case hexadecimal digits. -/
def fingerprint (value : String) : Bool := len value = 40 && all isUpperHex value

def statusError : InstallError :=
  .integrity "signature does not satisfy the pinned release-key policy"

/-! ### The status policy -/

/-- What the lines seen so far established. -/
structure StatusScan where
  starts : ℕ
  goodKey : Option String
  validKey : Option String
  deriving DecidableEq, Repr

/-- Records that neither establish nor refute the signature. -/
def IGNORED_RECORDS : List String := ["KEY_CONSIDERED", "SIG_ID", "TRUST_UNDEFINED", "TRUST_NEVER",
  "TRUST_MARGINAL", "TRUST_FULLY", "TRUST_ULTIMATE"]

/-- One status record, split into its fields. -/
def statusFields (line : String) : Option (List String) :=
  (stripPrefix "[GNUPG:] " line).map splitAsciiWhitespace

/-- The fields of a `VALIDSIG` record that names the pinned primary key: a binary signature of
    version 4 class 00 over SHA-256 or better. -/
def validRecordOf (expectedPrimary : String) (fields : List String) : Bool :=
  fingerprint (fields.getD 1 "") && fields.getD 10 "" = expectedPrimary && fields.getD 5 "" = "4" &&
    fields.getD 6 "" = "0" && ["8", "9", "10"].contains (fields.getD 8 "") && fields.getD 9 "" = "00"

def statusLine (expectedPrimary : String) (scan : StatusScan) (line : String) :
    Except InstallError StatusScan := do
  let fields ← need (statusFields line) statusError
  let first := fields.head?
  if first = some "NEWSIG" then return { scan with starts := scan.starts + 1 }
  else if first = some "GOODSIG" ∧ fields.length ≥ 3 ∧ scan.goodKey = none then do
    let key := fields.getD 1 ""
    refuse (len key ≠ 16 ∨ all isUpperHex key = false) statusError
    return { scan with goodKey := some key }
  else if first = some "VALIDSIG" ∧ fields.length = 11 ∧ scan.validKey = none then do
    refuse (validRecordOf expectedPrimary fields = false) statusError
    return { scan with validKey := some (fields.getD 1 "") }
  else if first.any IGNORED_RECORDS.contains then return scan
  else .error statusError

/-- Applies release policy to GnuPG machine status. -/
def verifySignatureStatus (exitCode : ℤ) (status : Bytes) (expectedPrimary : String) :
    Except InstallError Unit := do
  refuse (exitCode ≠ 0 ∨ status.length > 65536 ∨ fingerprint expectedPrimary = false) statusError
  let text ← need (fromUtf8 status) statusError
  let scan ← (lines text).foldlM (statusLine expectedPrimary) ⟨0, none, none⟩
  match scan with
  | ⟨1, some short, some full⟩ => refuse (endsWith short full = false) statusError
  | _ => .error statusError

/-! ### Records as they are written -/

/-- A status record of those fields. -/
def statusRecord (fields : List String) : String := "[GNUPG:] " ++ unwords fields

/-- A field a record can hold: some characters, none of them white space. -/
def isStatusField (w : String) : Bool := w ≠ "" && all (fun c => !isAsciiWhitespace c) w

theorem isStatusField_chars {cs : List Char}
    (h : (!cs.isEmpty && cs.all fun c => !isAsciiWhitespace c) = true) : isStatusField (String.ofList cs) = true := by
  rw [Bool.and_eq_true, Bool.not_eq_true'] at h
  rw [isStatusField, Bool.and_eq_true, decide_eq_true_eq]
  refine ⟨fun hempty => ?_, all_chars h.2⟩
  rw [String.ofList_eq_empty_iff.mp hempty] at h
  exact absurd h.1 (by decide)

theorem statusFields_statusRecord {fields : List String} (h : ∀ w ∈ fields, isStatusField w = true) :
    statusFields (statusRecord fields) = some fields := by
  rw [statusFields, statusRecord, stripPrefix_append, Option.map_some, splitAsciiWhitespace_unwords]
  intro w hw
  simpa [isStatusField] using h w hw

/-- A record is one line. -/
theorem statusRecord_line {fields : List String} (h : ∀ w ∈ fields, isStatusField w = true) :
    '\n' ∉ (statusRecord fields).toList ∧ stripSuffix "\r" (statusRecord fields) = none := by
  have hall : all (fun c => c ≠ '\n' && c ≠ '\r') (statusRecord fields) = true := by
    have hpre : all (fun c => c ≠ '\n' && c ≠ '\r') "[GNUPG:] " = true := all_chars (by decide)
    rw [statusRecord, all_append, hpre, Bool.true_and]
    refine all_unwords (by decide) fun w hw => all_iff.mpr fun c hc => ?_
    have hword := h w hw
    rw [isStatusField, Bool.and_eq_true] at hword
    have hspace := all_iff.mp hword.2 c hc
    by_contra hne
    simp only [ne_eq, Bool.and_eq_true, decide_eq_true_eq, not_and_or, not_not] at hne
    rcases hne with rfl | rfl
    · exact absurd hspace (by decide)
    · exact absurd hspace (by decide)
  rw [all_iff] at hall
  refine ⟨?_, stripSuffix_return ?_⟩
  · exact fun hc => absurd (hall _ hc) (by decide)
  · exact fun hc => absurd (hall _ hc) (by decide)

theorem lines_statusRecords {records : List (List String)}
    (h : ∀ fields ∈ records, ∀ w ∈ fields, isStatusField w = true) :
    lines (unlines (records.map statusRecord)) = records.map statusRecord := by
  apply lines_unlines
  intro l hl
  obtain ⟨fields, hmem, rfl⟩ := List.mem_map.mp hl
  exact statusRecord_line (h fields hmem)

/-! ### What the policy establishes -/

/-- A line that establishes a valid signature of the pinned key. -/
def Validates (expectedPrimary full line : String) : Prop :=
  ∃ fields, statusFields line = some fields ∧ fields.head? = some "VALIDSIG" ∧
    fields.length = 11 ∧ validRecordOf expectedPrimary fields = true ∧ fields.getD 1 "" = full

/-- One line keeps a valid key that was found, or finds it. -/
theorem statusLine_validKey {primary line : String} {scan scan' : StatusScan}
    (h : statusLine primary scan line = .ok scan') :
    scan'.validKey = scan.validKey ∨
      ∃ full, scan'.validKey = some full ∧ Validates primary full line := by
  simp only [statusLine, except_bind_ok, need_ok] at h
  obtain ⟨fields, hfields, h⟩ := h
  split at h
  · cases h; exact .inl rfl
  split at h
  · obtain ⟨_, -, h⟩ := except_bind_ok.mp h
    cases h; exact .inl rfl
  split at h
  next hvalid =>
    obtain ⟨_, hrecord, h⟩ := except_bind_ok.mp h
    cases h
    exact .inr ⟨_, rfl, fields, hfields, hvalid.1, hvalid.2.1, by simpa using hrecord, rfl⟩
  split at h
  · cases h; exact .inl rfl
  · cases h

theorem statusLines_validKey {primary : String} : ∀ {ls : List String} {scan scan' : StatusScan},
    ls.foldlM (statusLine primary) scan = .ok scan' →
    scan'.validKey = scan.validKey ∨
      ∃ full, scan'.validKey = some full ∧ ∃ line ∈ ls, Validates primary full line
  | [], scan, scan', h => by
    cases h
    exact .inl rfl
  | line :: ls, scan, scan', h => by
    rw [List.foldlM_cons, except_bind_ok] at h
    obtain ⟨mid, hline, hrest⟩ := h
    rcases statusLines_validKey hrest with hkeep | ⟨full, hfull, l, hl, hv⟩
    · rcases statusLine_validKey hline with hkeep' | ⟨full, hfull, hv⟩
      · exact .inl (hkeep.trans hkeep')
      · exact .inr ⟨full, hkeep.trans hfull, line, List.mem_cons_self, hv⟩
    · exact .inr ⟨full, hfull, l, List.mem_cons_of_mem _ hl, hv⟩

/-- A status within policy has a record of a valid signature by the pinned primary key. -/
theorem verifySignatureStatus_ok {exitCode : ℤ} {status : Bytes} {primary : String} {u : Unit}
    (h : verifySignatureStatus exitCode status primary = .ok u) :
    exitCode = 0 ∧ ∃ text full, status = utf8 text ∧
      ∃ line ∈ lines text, Validates primary full line := by
  simp only [verifySignatureStatus, except_bind_ok, refuse_ok, need_ok, not_or, not_not] at h
  obtain ⟨_, ⟨hexit, -⟩, text, htext, scan, hscan, h⟩ := h
  refine ⟨hexit, text, ?_⟩
  split at h
  · rcases statusLines_validKey hscan with hkeep | ⟨full, -, hline⟩
    · cases hkeep
    · exact ⟨full, fromUtf8_eq_some.mp htext, hline⟩
  · cases h

/-! ### Verification -/

/-- Trust supplied by an independently authenticated, version-pinned release. -/
structure ReleaseTrust where
  sha256 : String
  primaryFingerprint : String
  keyring : Bytes
  deriving DecidableEq

def gpgRequest (args : List String) : ProcessRequest where
  executable := "/usr/bin/gpg"
  args := args
  timeout := 10
  stdoutLimit := 65536
  stderrLimit := 65536
  environment := []

/-- Import of the staged key into the throwaway home directory. -/
def importRequest (directory : Path) : ProcessRequest :=
  gpgRequest ["--no-options", "--batch", "--no-auto-key-retrieve", "--homedir", directory.display,
    "--import", (directory.join "public-key").display]

/-- Verification of the staged signature over the staged metadata. -/
def verifyRequest (directory : Path) : ProcessRequest :=
  gpgRequest ["--no-options", "--batch", "--no-auto-key-retrieve", "--no-auto-key-import",
    "--homedir", directory.display, "--status-fd", "1", "--verify",
    (directory.join "release.sig").display, (directory.join "release.json").display]

section
variable (crates : Crates)

/-- Verifies exact bounded metadata bytes with a pinned OpenPGP primary key. -/
def verifyDetached (data signature : Bytes) (trust : ReleaseTrust) : Sys Unit := do
  refuse (data = [] ∨ data.length > 1048576 ∨ signature = [] ∨ signature.length > 65536 ∨
      trust.keyring = [] ∨ trust.keyring.length > 1048576 ∨
      fingerprint trust.primaryFingerprint = false ∨ digest trust.sha256 = false ∨
      crates.sha256 data ≠ trust.sha256)
    (InstallError.integrity "metadata size, digest or trust identity is invalid")
  let directory ← tempDir (InstallError.integrity "cannot create private verification directory")
    "intel-npu-signature-"
  let staging : InstallError := .integrity "cannot stage verification input"
  writeFile (directory.join "release.json") staging data
  writeFile (directory.join "release.sig") staging signature
  writeFile (directory.join "public-key") staging trust.keyring
  let _ ← runClean (importRequest directory) (InstallError.integrity "signature verification process failed")
    (InstallError.integrity "pinned release key could not be imported")
  let status ← runClean (verifyRequest directory)
    (InstallError.integrity "signature verification process failed")
    (InstallError.integrity "signature verification failed or exceeded output limits")
  verifySignatureStatus 0 status trust.primaryFingerprint

end

/-- What a successful verification asked, in order, and what it found. -/
theorem verifyDetached_runs {crates : Crates} {data signature : Bytes} {trust : ReleaseTrust}
    {t : Trace} {u : Unit} : (verifyDetached crates data signature trust).Runs t (.ok u) ↔
      ((data ≠ [] ∧ data.length ≤ 1048576 ∧ signature ≠ [] ∧ signature.length ≤ 65536 ∧
        trust.keyring ≠ [] ∧ trust.keyring.length ≤ 1048576 ∧
        fingerprint trust.primaryFingerprint = true ∧ digest trust.sha256 = true ∧
        crates.sha256 data = trust.sha256) ∧
      ∃ (directory : Path) (imported verified : ProcessOutput),
        imported.clean = true ∧ verified.clean = true ∧
        verifySignatureStatus 0 verified.stdout trust.primaryFingerprint = .ok () ∧
        t = [⟨.tempDir "intel-npu-signature-", .ok directory⟩,
          ⟨.writeFile (directory.join "release.json") data, .ok ()⟩,
          ⟨.writeFile (directory.join "release.sig") signature, .ok ()⟩,
          ⟨.writeFile (directory.join "public-key") trust.keyring, .ok ()⟩,
          ⟨.run (importRequest directory), .ok imported⟩,
          ⟨.run (verifyRequest directory), .ok verified⟩]) := by
  simp only [verifyDetached, Prog.runs_lift_bind_ok, refuse_ok, not_or, not_lt, Bool.not_eq_false,
    not_not, tempDir, writeFile, Prog.runs_expect_bind_ok, okOr_ok, exists_eq_left,
    runs_runClean_bind_ok, Prog.runs_lift]
  constructor
  · rintro ⟨_, hchecks, directory, _, rfl, ⟨⟩, _, rfl, ⟨⟩, _, rfl, ⟨⟩, _, rfl, imported, _, hi, rfl,
      verified, _, hv, rfl, rfl, hstatus⟩
    exact ⟨hchecks, directory, imported, verified, hi, hv, hstatus, rfl⟩
  · rintro ⟨hchecks, directory, imported, verified, hi, hv, hstatus, rfl⟩
    exact ⟨(), hchecks, directory, _, rfl, (), _, rfl, (), _, rfl, (), _, rfl, imported, _, hi, rfl,
      verified, _, hv, rfl, rfl, hstatus⟩

end NpuStack.Install
