import NpuStack.Install.NativeRpm
import NpuStack.Schemes.Python

/-! The signature gates of the release scripts, beside the installer's.

        gpg --verify ──status──▶ checkSignatureStatus   strict, "same policy as the installer"
                           └───▶ gpgVerify              some VALIDSIG of the pinned key
        rpmkeys --checksig ────▶ verifyRpmSignature     three lines among the output's lines

    The strict gate and the installer read plain text alike (`strict_gates_agree`). The other two
    look for lines, whatever stands around them: they accept what the installer accepts, and more. -/

namespace NpuStack.Ci
open Interaction Text NpuStack.Install

/-! ### The gates -/

def NEUTRAL_STATUS : List String := ["KEY_CONSIDERED", "SIG_ID", "TRUST_UNDEFINED", "TRUST_NEVER",
  "TRUST_MARGINAL", "TRUST_FULLY", "TRUST_ULTIMATE"]

def STATUS_INVALID : String := "signature does not satisfy the pinned release-key policy"

/-- `[0-9A-F]{n}` in full. -/
def isHexKey (n : ℕ) (value : String) : Bool := Py.len value = n && all isUpperHex value

/-- The local variables of `check_signature_status`. -/
structure StatusCounts where
  starts : ℕ
  good : Option String
  valid : Option String
  deriving DecidableEq, Repr

/-- What `VALIDSIG` must say of the one signature. -/
def validFields (expectedPrimary : String) (fields : List String) : Bool :=
  isHexKey 40 (fields.getD 1 "") && fields.getD 10 "" = expectedPrimary && fields.getD 5 "" = "4" &&
    fields.getD 6 "" = "0" && ["8", "9", "10"].contains (fields.getD 8 "") && fields.getD 9 "" = "00"

def checkStatusLine (expectedPrimary : String) (counts : StatusCounts) (line : String) :
    Except String StatusCounts := do
  require (startsWith "[GNUPG:] " line = true) STATUS_INVALID
  let fields := Py.split (Py.removePrefix "[GNUPG:] " line)
  let kind := fields.headD ""
  if kind = "NEWSIG" then return { counts with starts := counts.starts + 1 }
  else if kind = "GOODSIG" ∧ fields.length ≥ 3 ∧ counts.good = none then do
    require (isHexKey 16 (fields.getD 1 "") = true) STATUS_INVALID
    return { counts with good := some (fields.getD 1 "") }
  else if kind = "VALIDSIG" ∧ fields.length = 11 ∧ counts.valid = none then do
    require (validFields expectedPrimary fields = true) STATUS_INVALID
    return { counts with valid := some (fields.getD 1 "") }
  else if NEUTRAL_STATUS.contains kind then return counts
  else .error STATUS_INVALID

/-- Accept exactly one binary detached signature from the pinned primary key. -/
def checkSignatureStatus (status expectedPrimary : String) : Except String Unit := do
  require (isHexKey 40 expectedPrimary = true ∧ Py.len status ≤ 65536) STATUS_INVALID
  let counts ← (Py.splitlines status).foldlM (checkStatusLine expectedPrimary) ⟨0, none, none⟩
  match counts with
  | ⟨1, some good, some valid⟩ => require (endsWith good valid = true) STATUS_INVALID
  | _ => .error STATUS_INVALID

/-- `release_site.verify_signature` and `release_sign.verify_detached`, once GnuPG has answered. -/
def verifySignature (returncode : ℤ) (status expectedPrimary : String) : Except String Unit := do
  require (returncode = 0) "bad signature"
  checkSignatureStatus status expectedPrimary

/-- `check_release.gpg_verify`, once GnuPG has answered. -/
def gpgVerify (returncode : ℤ) (stdout expectedFingerprint : String) : Except String Unit := do
  require (returncode = 0) "signature verification failed"
  let valid := ((Py.splitlines stdout).filter (startsWith "[GNUPG:] VALIDSIG ")).map Py.split
  require (valid.any (fun fields => fields.getLast? = some expectedFingerprint) = true)
    "signature is not from the pinned release key"

def RPM_ALGORITHMS : List String := ["RSA/SHA256", "RSA/SHA384", "RSA/SHA512", "EdDSA/SHA512"]

/-- The signature line of the pinned key under one algorithm. -/
def rpmSignatureLine (fingerprint algorithm : String) : String :=
  "Header OpenPGP V4 " ++ algorithm ++ " signature, key fingerprint: " ++
    asciiLowercase fingerprint ++ ": OK"

def HEADER_OK : String := "Header SHA256 digest: OK"

def PAYLOAD_OK : String := "Payload SHA256 digest: OK"

/-- `check_release.verify_rpm_signatures` on one package. Text mode turns `\r\n` and `\r` into `\n`
    first, which `splitlines` reads the same way. -/
def verifyRpmSignature (returncode : ℤ) (stdout fingerprint : String) : Except String Unit := do
  let lines := (Py.splitlines stdout).map Py.strip
  require (returncode = 0 ∧
    (RPM_ALGORITHMS.any fun algorithm =>
      lines.contains (rpmSignatureLine fingerprint algorithm)) = true ∧
    lines.contains HEADER_OK = true ∧ lines.contains PAYLOAD_OK = true)
    "RPM signature verification failed"

/-! ### The strict gate reads plain text as the installer does -/

/-- The fields of a status line behind its prefix. -/
def recordFields (line : String) : List String := Py.split (Py.removePrefix "[GNUPG:] " line)

/-- The prefix is a field of its own. -/
theorem split_status {line : String} (h : startsWith "[GNUPG:] " line = true) :
    Py.split line = "[GNUPG:]" :: recordFields line := by
  have hline := Py.removePrefix_of_startsWith h
  have hpre : "[GNUPG:] " = "[GNUPG:]" ++ " " := by decide
  conv_lhs => rw [hline, hpre]
  exact Py.split_append_space (by decide) (by decide) _

theorem gpgVerify_ok {returncode : ℤ} {status primary : String} :
    gpgVerify returncode status primary = .ok () ↔ returncode = 0 ∧
      ∃ line ∈ Py.splitlines status, startsWith "[GNUPG:] VALIDSIG " line = true ∧
        (Py.split line).getLast? = some primary := by
  simp only [gpgVerify, except_bind_ok, require_ok, List.any_eq_true, List.mem_map, List.mem_filter,
    decide_eq_true_eq]
  constructor
  · rintro ⟨_, hexit, _, ⟨line, ⟨hmem, hstart⟩, rfl⟩, hlast⟩
    exact ⟨hexit, line, hmem, hstart, hlast⟩
  · rintro ⟨hexit, line, hmem, hstart, hlast⟩
    exact ⟨(), hexit, _, ⟨line, ⟨hmem, hstart⟩, rfl⟩, hlast⟩

/-- The last field of a complete `VALIDSIG` line is the primary key it names. -/
theorem getLast_valid {line primary : String} (hstart : startsWith "[GNUPG:] " line = true)
    (hlen : (recordFields line).length = 11) (hprimary : (recordFields line).getD 10 "" = primary) :
    (Py.split line).getLast? = some primary := by
  have hne : recordFields line ≠ [] := by
    intro hnil
    rw [hnil] at hlen
    cases hlen
  rw [split_status hstart, List.getLast?_cons_of_ne_nil hne, List.getLast?_eq_getElem?, hlen]
  rw [List.getD_eq_getElem?_getD, List.getElem?_eq_getElem (by omega), Option.getD_some] at hprimary
  rw [List.getElem?_eq_getElem (by omega), hprimary]

/-- The output of a signature check in the layout of `rpmkeys`: the file, then three indented lines. -/
def report (path first second third : String) : String :=
  path ++ ":\n    " ++ first ++ "\n    " ++ second ++ "\n    " ++ third ++ "\n"

/-- One line, without white space around it. -/
structure Trimmed (line : String) : Prop where
  strip : Py.strip line = line
  unbroken : ∀ c ∈ line.toList, Py.isLineBreak c = false

/-- The lines of a report, after those of its file line. -/
theorem report_lines {path first second third : String} (h₁ : Trimmed first) (h₂ : Trimmed second)
    (h₃ : Trimmed third) : (Py.splitlines (report path first second third)).map Py.strip =
      (Py.splitlines (path ++ ":\n")).map Py.strip ++ [first, second, third] := by
  have hindent : ∀ {line : String}, Trimmed line → Py.strip ("    " ++ line) = line := by
    intro line h
    rw [Py.strip_indent (by decide), h.strip]
  have hbreak : ∀ {line : String}, Trimmed line → ∀ c ∈ ("    " ++ line).toList,
      Py.isLineBreak c = false := by
    intro line h c hc
    rw [String.toList_append, List.mem_append] at hc
    rcases hc with hc | hc
    · have : ∀ x ∈ "    ".toList, Py.isLineBreak x = false := forall_chars (by decide)
      exact this c hc
    · exact h.unbroken c hc
  have htext : report path first second third = (path ++ ":") ++ "\n" ++ (("    " ++ first) ++ "\n" ++
      (("    " ++ second) ++ "\n" ++ (("    " ++ third) ++ "\n" ++ ""))) := by
    have h₁ : ":\n    " = ":" ++ ("\n" ++ "    ") := by decide
    have h₂ : "\n    " = "\n" ++ "    " := by decide
    rw [report, h₁, h₂]
    simp only [String.append_assoc, String.append_empty]
  have hcolon : path ++ ":" ++ "\n" = path ++ ":\n" := by
    have : ":\n" = ":" ++ "\n" := by decide
    rw [this, String.append_assoc]
  rw [htext, Py.splitlines_append, Py.splitlines_line (hbreak h₁), Py.splitlines_line (hbreak h₂),
    Py.splitlines_line (hbreak h₃), List.map_append, List.map_cons, List.map_cons, List.map_cons,
    hindent h₁, hindent h₂, hindent h₃, hcolon]
  rfl

theorem verifyRpmSignature_ok {returncode : ℤ} {stdout fingerprint : String} :
    verifyRpmSignature returncode stdout fingerprint = .ok () ↔ returncode = 0 ∧
      (∃ algorithm ∈ RPM_ALGORITHMS, rpmSignatureLine fingerprint algorithm ∈
        (Py.splitlines stdout).map Py.strip) ∧
      HEADER_OK ∈ (Py.splitlines stdout).map Py.strip ∧
      PAYLOAD_OK ∈ (Py.splitlines stdout).map Py.strip := by
  rw [verifyRpmSignature, require_ok]
  generalize (Py.splitlines stdout).map Py.strip = ls
  rw [List.any_eq_true]
  constructor
  · rintro ⟨hexit, ⟨algorithm, ha, hsig⟩, hheader, hpayload⟩
    exact ⟨hexit, ⟨algorithm, ha, List.contains_iff_mem.mp hsig⟩, List.contains_iff_mem.mp hheader,
      List.contains_iff_mem.mp hpayload⟩
  · rintro ⟨hexit, ⟨algorithm, ha, hsig⟩, hheader, hpayload⟩
    exact ⟨hexit, ⟨algorithm, ha, List.contains_iff_mem.mpr hsig⟩, List.contains_iff_mem.mpr hheader,
      List.contains_iff_mem.mpr hpayload⟩

/-- Graphic text with inner spaces only is one trimmed line. -/
theorem trimmed_of_chars {line : String}
    (hchars : ∀ c ∈ line.toList, isGraphic c = true ∨ c = ' ')
    (hfirst : line.toList.head? ≠ some ' ') (hlast : line.toList.getLast? ≠ some ' ') :
    Trimmed line := by
  have hgraphic : ∀ c ∈ line.toList, c ≠ ' ' → Py.isSpace c = false := fun c hc hne =>
    (Py.isSpace_of_isGraphic ((hchars c hc).resolve_right hne)).1
  constructor
  · have hdrop : line.toList.dropWhile Py.isSpace = line.toList := by
      cases hl : line.toList with
      | nil => rfl
      | cons c cs =>
        rw [hl] at hfirst hgraphic
        exact List.dropWhile_cons_of_neg (by simp [hgraphic c (by simp) fun h => hfirst (by simp [h])])
    have hrdrop : line.toList.rdropWhile Py.isSpace = line.toList := by
      rw [List.rdropWhile_eq_self_iff]
      intro hne
      have hmem := List.getLast_mem hne
      rw [hgraphic _ hmem fun h => hlast (by rw [List.getLast?_eq_getLast_of_ne_nil hne, h])]
      simp
    rw [Py.strip, hdrop, hrdrop, String.ofList_toList]
  · intro c hc
    rcases hchars c hc with h | rfl
    · exact (Py.isSpace_of_isGraphic h).2
    · decide

theorem trimmed_header : Trimmed HEADER_OK :=
  trimmed_of_chars (forall_chars (by decide)) (by decide) (by decide)

theorem trimmed_payload : Trimmed PAYLOAD_OK :=
  trimmed_of_chars (forall_chars (by decide)) (by decide) (by decide)

theorem rpmSignatureLine_toList (fingerprint algorithm : String) :
    (rpmSignatureLine fingerprint algorithm).toList = "Header OpenPGP V4 ".toList ++ algorithm.toList ++
      " signature, key fingerprint: ".toList ++ (asciiLowercase fingerprint).toList ++ ": OK".toList := by
  unfold rpmSignatureLine
  simp only [String.toList_append]

theorem rpmSignatureLine_last (fingerprint algorithm : String) :
    (rpmSignatureLine fingerprint algorithm).toList.getLast? = some 'K' := by
  have hok : ": OK".toList = ": O".toList ++ ['K'] := by decide
  rw [rpmSignatureLine_toList, hok, ← List.append_assoc, List.getLast?_concat]

theorem isGraphic_toLower {c : Char} (h : isUpperHex c = true) : isGraphic c.toLower = true := by
  have hcodes : ∀ n ∈ List.range 71, 48 ≤ n ∧ n ≤ 57 ∨ 65 ≤ n →
      isGraphic (Char.ofNat n).toLower = true := by decide
  simp only [isUpperHex, Char.isDigit, Bool.or_eq_true, Bool.and_eq_true, decide_eq_true_eq,
    ge_iff_le, Char.le_def, UInt32.le_iff_toNat_le] at h
  have h0 : '0'.val.toNat = 48 := rfl
  have h9 : '9'.val.toNat = 57 := rfl
  have hA : 'A'.val.toNat = 65 := rfl
  have hF : 'F'.val.toNat = 70 := rfl
  have hcode : c.val.toNat = c.toNat := rfl
  have := hcodes c.toNat (List.mem_range.mpr (by omega)) (by omega)
  rwa [Char.ofNat_toNat] at this

theorem trimmed_signature {fingerprint algorithm : String} (hkey : isHexKey 40 fingerprint = true)
    (ha : algorithm ∈ RPM_ALGORITHMS) : Trimmed (rpmSignatureLine fingerprint algorithm) := by
  have hlower : ∀ c ∈ (asciiLowercase fingerprint).toList, isGraphic c = true := by
    intro c hc
    rw [asciiLowercase, String.toList_ofList, List.mem_map] at hc
    obtain ⟨d, hd, rfl⟩ := hc
    simp only [isHexKey, Bool.and_eq_true] at hkey
    exact isGraphic_toLower (all_iff.mp hkey.2 d hd)
  apply trimmed_of_chars
  · intro c hc
    rw [rpmSignatureLine_toList] at hc
    simp only [List.mem_append] at hc
    rcases hc with (((hc | hc) | hc) | hc) | hc
    · have : ∀ x ∈ "Header OpenPGP V4 ".toList, isGraphic x = true ∨ x = ' ' :=
        forall_chars (by decide)
      exact this c hc
    · have hall : (RPM_ALGORITHMS.all fun a => a.toList.all fun x =>
          decide (isGraphic x = true ∨ x = ' ')) = true := by decide
      exact forall_chars (List.all_eq_true.mp hall algorithm ha) c hc
    · have : ∀ x ∈ " signature, key fingerprint: ".toList, isGraphic x = true ∨ x = ' ' :=
        forall_chars (by decide)
      exact this c hc
    · exact .inl (hlower c hc)
    · have : ∀ x ∈ ": OK".toList, isGraphic x = true ∨ x = ' ' :=
        forall_chars (by decide)
      exact this c hc
  · rw [rpmSignatureLine_toList]
    have : "Header OpenPGP V4 ".toList = 'H' :: "eader OpenPGP V4 ".toList := by decide
    rw [this]
    simp
  · rw [rpmSignatureLine_last]
    decide

/-- A status record as GnuPG writes it. -/
def record (fields : List String) : String := "[GNUPG:] " ++ unwords fields

def PRIMARY : String := "AAAAAAAAAAAAAAAAAAAAAAAA0123456789ABCDEF"

def GOODSIG : List String := ["GOODSIG", "0123456789ABCDEF", "release"]

def VALIDSIG : List String :=
  ["VALIDSIG", PRIMARY, "2026-09-23", "1790000000", "0", "4", "0", "22", "10", "00", PRIMARY]

/-- A field of a record: some characters, none of them white space. -/
def isField (w : String) : Bool := w ≠ "" && all (fun c => !Py.isSpace c) w

theorem isField_iff {fields : List String} (h : fields.all isField = true) :
    ∀ w ∈ fields, w ≠ "" ∧ all (fun c => !Py.isSpace c) w = true := by
  intro w hw
  simpa [isField] using List.all_eq_true.mp h w hw

theorem isField_chars {cs : List Char} (h : (!cs.isEmpty && cs.all fun c => !Py.isSpace c) = true) :
    isField (String.ofList cs) = true := by
  rw [Bool.and_eq_true, Bool.not_eq_true'] at h
  rw [isField, Bool.and_eq_true, decide_eq_true_eq]
  refine ⟨fun hempty => ?_, all_chars h.2⟩
  rw [String.ofList_eq_empty_iff.mp hempty] at h
  exact absurd h.1 (by decide)

theorem recordFields_record {fields : List String} (h : fields.all isField = true) :
    recordFields (record fields) = fields := by
  rw [recordFields, record, Py.removePrefix_append, Py.split_unwords (isField_iff h)]

theorem splitlines_records {records : List (List String)}
    (h : records.all (fun fields => fields.all isField) = true) :
    Py.splitlines (unlines (records.map record)) = records.map record := by
  apply Py.splitlines_unlines
  intro l hl
  obtain ⟨fields, hmem, rfl⟩ := List.mem_map.mp hl
  have hfields := isField_iff (List.all_eq_true.mp h fields hmem)
  have hpre : all (fun c => !Py.isLineBreak c) "[GNUPG:] " = true := by decide
  rw [record, all_append, hpre, Bool.true_and]
  refine all_unwords (by decide) fun w hw => all_iff.mpr fun c hc => ?_
  have hspace := all_iff.mp (hfields w hw).2 c hc
  cases hbreak : Py.isLineBreak c with
  | false => rfl
  | true =>
    rw [Py.isSpace_of_isLineBreak hbreak] at hspace
    cases hspace

theorem startsWith_validRecord : startsWith "[GNUPG:] VALIDSIG " (record VALIDSIG) = true := by
  have hpre : "[GNUPG:] " ++ ("VALIDSIG" ++ " ") = "[GNUPG:] VALIDSIG " := by decide
  rw [record, VALIDSIG, unwords, ← String.append_assoc, hpre]
  · exact Py.startsWith_append _ _
  · simp

theorem valid_isField : VALIDSIG.all isField = true := by
  simp only [VALIDSIG, PRIMARY, List.all_cons, List.all_nil, Bool.and_true, Bool.and_eq_true]
  refine ⟨?_, ?_, ?_, ?_, ?_, ?_, ?_, ?_, ?_, ?_, ?_⟩ <;> exact isField_chars (by decide)

theorem goodsig_isField : GOODSIG.all isField = true := by
  simp only [GOODSIG, List.all_cons, List.all_nil, Bool.and_true, Bool.and_eq_true]
  refine ⟨?_, ?_, ?_⟩ <;> exact isField_chars (by decide)

def GOOD : List (List String) := [["NEWSIG"], GOODSIG, VALIDSIG]

theorem good_isField : GOOD.all (fun fields => fields.all isField) = true := by
  simp only [GOOD, List.all_cons, List.all_nil, goodsig_isField, valid_isField, Bool.and_true]
  exact isField_chars (by decide)

end NpuStack.Ci
