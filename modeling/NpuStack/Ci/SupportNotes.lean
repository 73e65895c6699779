import NpuStack.Ci.KernelVersions

/-! `release_site.py`: the tested kernels a release publishes, beside the gate of its installer.

        support-notes.toml ──supportNotes──▶ tested kernels, each inside the profile's window
        running kernel ──parseRelease──▶ three numbers ──kernelMatches──▶ admitted or refused

    Publication reads releases with a regular expression, whose digits are those of every script. The
    installer reads ASCII digits only, and no white space. Published kernels are admitted exactly when
    they keep to that (`listed_admitted_iff`). -/

namespace NpuStack.Ci.SupportNotes
open Interaction Text Schema NpuStack.Core
open Py (Value)
open KernelWatch (int isNumber decimal triple numericPart ReadsAlike)

/-! ### Kernel versions -/

/-- `(\d{1,3})\.(\d{1,3})\.(\d{1,4})` in full. -/
def matchVersion (text : String) : Option (List String) :=
  match split '.' text with
  | [major, minor, patch] =>
    if isNumber 3 major && isNumber 3 minor && isNumber 4 patch then some [major, minor, patch] else none
  | _ => none

/-- `(\d{1,3})\.(\d{1,3})\.(\d{1,4})-\d{1,4}\.` and the suffix, in full. -/
def matchTested (suffix text : String) : Option (List String) := do
  let front ← stripSuffix ("." ++ suffix) text
  let (version, build) ← splitOnce '-' front
  if isNumber 4 build then matchVersion version else none

/-- `kernel_version`: the numbers of a text that the pattern matches in full. -/
def kernelVersion (value : Value) (pattern : String → Option (List String)) : Except String (List ℕ) := do
  let text ← need value.asStr "invalid kernel version"
  let groups ← need (pattern text) "invalid kernel version"
  return groups.map int

/-- `requalification_line`: what the matrix says of kernels from the window's end on. -/
def requalificationLine (maximum : String) : Except String String := do
  match ← kernelVersion (.str maximum) matchVersion with
  | [major, minor, 0] =>
    return "kernel " ++ major.repr ++ "." ++ minor.repr ++ " series and later: requires requalification"
  | _ => return "kernel " ++ maximum ++ " and later: requires requalification"

/-! ### The notes -/

def NOTE_KEYS : List String :=
  ["schema_version", "stack_release", "profile_id", "tested_kernels", "not_supported"]

def ENTRY_KEYS : List String := ["release", "tests"]

/-- `set(items) == set(keys)`. -/
def hasKeys (items : List (String × Value)) (keys : List String) : Bool :=
  items.all (fun item => keys.contains item.1) && keys.all (items.map Prod.fst).contains

section
-- `str.isprintable` of one character, and `str` of what is no string.
variable (printable : Char → Bool) (shown : Value → String)

def shortText : Value → Bool
  | .str text => 0 < Py.len text && Py.len text ≤ 120 && all printable text
  | _ => false

/-- `str(value)`. -/
def pyStr : Value → String
  | .str text => text
  | value => shown value

/-- One tested kernel, after the releases listed before it. -/
def testedKernel (suffix : String) (low high : List ℕ) (releases : List String) (entry : Value) :
    Except String (List String) := do
  let items ← need entry.asDict "invalid tested kernel entry"
  require (hasKeys items ENTRY_KEYS = true) "invalid tested kernel entry"
  let release ← need (entry.index "release") "KeyError"
  let version ← kernelVersion release (matchTested suffix)
  let text ← need release.asStr "invalid kernel version"
  require (low ≤ version ∧ version < high) ("tested kernel " ++ text ++ " lies outside the profile kernel window")
  require (text ∉ releases) ("duplicate tested kernel: " ++ text)
  let tests ← need ((entry.index "tests").bind Value.asList)
    "tested kernel entries need short printable test names"
  require (tests ≠ [] ∧ tests.all (shortText printable) = true)
    "tested kernel entries need short printable test names"
  return releases ++ [text]

/-- `support_notes`: the tested kernels and the extra lines of the notes, validated. -/
def supportNotes (notes profile release : Value) : Except String (List Value × List Value) := do
  let items ← need notes.asDict "TypeError"
  require (hasKeys items NOTE_KEYS = true)
    "support notes must have exactly schema_version, stack_release, profile_id, tested_kernels and not_supported"
  let schemaVersion ← need (notes.index "schema_version") "KeyError"
  require (schemaVersion.eq (.int 1) = true) "support notes must be schema_version 1"
  let stackRelease ← need (notes.index "stack_release") "KeyError"
  let expected ← need (release.index "stack_release") "KeyError"
  require (stackRelease.eq expected = true) "support notes name another release"
  let profileId ← need (notes.index "profile_id") "KeyError"
  let id ← need (profile.get "id") "AttributeError"
  require (profileId.eq id = true) "support notes name another profile"
  let window ← need (profile.getD "kernel" (.dict [])) "AttributeError"
  let low ← kernelVersion (← need (window.get "min") "AttributeError") matchVersion
  let high ← kernelVersion (← need (window.get "max_exclusive") "AttributeError") matchVersion
  let platform ← need (profile.getD "platform" (.dict [])) "AttributeError"
  let suffix := "fc" ++ pyStr shown (← need (platform.get "version_id") "AttributeError")
  let tested ← need ((notes.index "tested_kernels").bind Value.asList)
    "support notes must list the tested kernels"
  require (tested ≠ []) "support notes must list the tested kernels"
  let _ ← tested.foldlM (testedKernel printable suffix low high) []
  let notSupported ← need ((notes.index "not_supported").bind Value.asList)
    "not_supported must be a list of short printable lines"
  require (notSupported.all (shortText printable) = true)
    "not_supported must be a list of short printable lines"
  return (tested, notSupported)

end

/-! ### Digits of every script -/

theorem decimal_lt {c : Char} {d : ℕ} (h : decimal c = some d) : d < 10 := by
  rw [decimal, Option.map_eq_some_iff] at h
  obtain ⟨start, hfind, rfl⟩ := h
  have hin := List.find?_some hfind
  simp only [Bool.and_eq_true, decide_eq_true_eq] at hin
  omega

theorem isNumber_iff {n : ℕ} {part : String} : isNumber n part = true ↔
    part ≠ "" ∧ Py.len part ≤ n ∧ ∀ c ∈ part.toList, (decimal c).isSome = true := by
  rw [isNumber, Bool.and_eq_true, Bool.and_eq_true, decide_eq_true_eq, decide_eq_true_eq, all_iff, and_assoc]

/-- Digits of no script are white space. -/
theorem isWhitespace_of_decimal {c : Char} (h : (decimal c).isSome = true) : isWhitespace c = false := by
  have hnone : ∀ n ∈ [9, 10, 11, 12, 13, 0x20, 0x85, 0xA0, 0x1680, 0x2000, 0x2001, 0x2002, 0x2003, 0x2004,
      0x2005, 0x2006, 0x2007, 0x2008, 0x2009, 0x200A, 0x2028, 0x2029, 0x202F, 0x205F, 0x3000],
      KernelWatch.DIGIT_ZEROS.find? (fun start => start ≤ n && n < start + 10) = none := by decide
  by_contra hwhite
  rw [Bool.not_eq_false] at hwhite
  have hmem : c.toNat ∈ [9, 10, 11, 12, 13, 0x20, 0x85, 0xA0, 0x1680, 0x2000, 0x2001, 0x2002, 0x2003, 0x2004,
      0x2005, 0x2006, 0x2007, 0x2008, 0x2009, 0x200A, 0x2028, 0x2029, 0x202F, 0x205F, 0x3000] := by
    simp only [isWhitespace, Bool.or_eq_true, Bool.and_eq_true, decide_eq_true_eq, List.contains_iff_mem,
      List.mem_cons, List.not_mem_nil, or_false] at hwhite ⊢
    omega
  rw [decimal, hnone _ hmem] at h
  cases h

/-- A number is below the power of ten of its length. -/
theorem int_lt (part : String) (h : ∀ c ∈ part.toList, (decimal c).isSome = true) :
    int part < 10 ^ Py.len part := by
  have hfold : ∀ (cs : List Char) (n k : ℕ), (∀ c ∈ cs, (decimal c).isSome = true) → n < 10 ^ k →
      cs.foldl (fun n c => 10 * n + (decimal c).getD 0) n < 10 ^ (k + cs.length) := by
    intro cs
    induction cs with
    | nil => intro n k _ hn; exact hn
    | cons c cs ih =>
      intro n k hcs hn
      obtain ⟨hc, hcs⟩ := List.forall_mem_cons.mp hcs
      obtain ⟨d, hd⟩ := Option.isSome_iff_exists.mp hc
      have hlt := decimal_lt hd
      have hstep : 10 * n + d < 10 ^ (k + 1) := by
        rw [pow_succ]
        omega
      have hrest := ih _ (k + 1) hcs hstep
      rw [List.foldl_cons, hd, Option.getD_some, List.length_cons]
      rwa [Nat.add_right_comm, Nat.add_assoc] at hrest
  have hbound := hfold part.toList 0 0 h Nat.one_pos
  rwa [Nat.zero_add] at hbound

/-- Short numbers in ASCII digits are numbers of the schema. -/
theorem decimal_of_isNumber {n : ℕ} (hn : n ≤ 4) {part : String} (h : isNumber n part = true)
    (hascii : ∀ c ∈ part.toList, c.isDigit = true) : Decimal part (int part) := by
  obtain ⟨hne, hlen, hdecimal⟩ := isNumber_iff.mp h
  refine KernelWatch.decimal_of_int ?_ ?_
  · rw [isDigits, Bool.and_eq_true, decide_eq_true_eq]
    exact ⟨hne, all_iff.mpr hascii⟩
  · have hlt : int part < 10 ^ 4 :=
      (int_lt part hdecimal).trans_le (Nat.pow_le_pow_right (by omega) (hlen.trans hn))
    rw [KernelWatch.U64_MAX]
    omega

theorem notMem_of_isNumber {n : ℕ} {part : String} {c : Char} (h : isNumber n part = true)
    (hc : decimal c = none) : c ∉ part.toList := by
  intro hmem
  have hsome := (isNumber_iff.mp h).2.2 c hmem
  rw [hc] at hsome
  cases hsome

theorem decimal_hyphen : decimal '-' = none := by decide

theorem decimal_dot : decimal '.' = none := by decide

/-! ### What the patterns match -/

theorem matchVersion_eq_some {text : String} {groups : List String} :
    matchVersion text = some groups ↔ ∃ major minor patch, groups = [major, minor, patch] ∧
      text = major ++ "." ++ minor ++ "." ++ patch ∧ isNumber 3 major = true ∧ isNumber 3 minor = true ∧
        isNumber 4 patch = true := by
  rw [matchVersion]
  constructor
  · intro h
    split at h
    · next major minor patch hsplit =>
      split at h
      · next hnumbers =>
        cases h
        rw [Bool.and_eq_true, Bool.and_eq_true] at hnumbers
        exact ⟨major, minor, patch, rfl, (split_dots_iff.mp hsplit).1, hnumbers.1.1, hnumbers.1.2, hnumbers.2⟩
      · cases h
    · cases h
  · rintro ⟨major, minor, patch, rfl, rfl, h₁, h₂, h₃⟩
    have hsplit : split '.' (major ++ "." ++ minor ++ "." ++ patch) = [major, minor, patch] :=
      split_dots_iff.mpr ⟨rfl, notMem_of_isNumber h₁ decimal_dot, notMem_of_isNumber h₂ decimal_dot,
        notMem_of_isNumber h₃ decimal_dot⟩
    simp [hsplit, h₁, h₂, h₃]

theorem matchTested_eq_some {suffix text : String} {groups : List String} :
    matchTested suffix text = some groups ↔ ∃ version build, matchVersion version = some groups ∧
      isNumber 4 build = true ∧ text = version ++ "-" ++ build ++ "." ++ suffix := by
  constructor
  · intro h
    simp only [matchTested, Option.bind_eq_bind, Option.bind_eq_some_iff] at h
    obtain ⟨front, hfront, ⟨version, build⟩, hsplit, h⟩ := h
    split at h
    · next hbuild =>
      refine ⟨version, build, h, hbuild, ?_⟩
      obtain ⟨hs, -⟩ := splitOnce_eq_some.mp hsplit
      have hjoin : front = version ++ "-" ++ build := by
        rw [← String.toList_inj, hs]
        simp
      rw [stripSuffix_eq_some.mp hfront, hjoin, ← String.append_assoc]
    · cases h
  · rintro ⟨version, build, hversion, hbuild, rfl⟩
    obtain ⟨major, minor, patch, -, rfl, h₁, h₂, h₃⟩ := matchVersion_eq_some.mp hversion
    have hfree : '-' ∉ (major ++ "." ++ minor ++ "." ++ patch).toList := by
      simp [notMem_of_isNumber h₁ decimal_hyphen, notMem_of_isNumber h₂ decimal_hyphen,
        notMem_of_isNumber h₃ decimal_hyphen]
    have hstrip : stripSuffix ("." ++ suffix)
        (major ++ "." ++ minor ++ "." ++ patch ++ "-" ++ build ++ "." ++ suffix) =
        some (major ++ "." ++ minor ++ "." ++ patch ++ "-" ++ build) :=
      stripSuffix_eq_some.mpr (by rw [← String.append_assoc])
    have hsplit : splitOnce '-' (major ++ "." ++ minor ++ "." ++ patch ++ "-" ++ build) =
        some (major ++ "." ++ minor ++ "." ++ patch, build) :=
      splitOnce_eq_some.mpr ⟨by simp, hfree⟩
    simp [matchTested, hstrip, hsplit, hbuild, hversion]

theorem kernelVersion_str {text : String} {pattern : String → Option (List String)} {version : List ℕ} :
    kernelVersion (.str text) pattern = .ok version ↔
      ∃ groups, pattern text = some groups ∧ groups.map int = version := by
  simp [kernelVersion, Value.asStr, except_bind_ok, pure, Except.pure]

/-! ### Both readings of a text -/

/-- The end of a window is the same three numbers to both. -/
theorem bound_agrees {text : String} {v : KernelVersion} {version : List ℕ} (hwrites : Writes text v)
    (h : kernelVersion (.str text) matchVersion = .ok version) : version = triple v := by
  obtain ⟨groups, hmatch, rfl⟩ := kernelVersion_str.mp h
  obtain ⟨a, b, c, rfl, htext, ha, hb, hc⟩ := matchVersion_eq_some.mp hmatch
  obtain ⟨major, minor, patch, tail, hmajor, hminor, hpatch, htail, heq⟩ := hwrites
  have hfree : '-' ∉ text.toList := by
    rw [htext]
    simp [notMem_of_isNumber ha decimal_hyphen, notMem_of_isNumber hb decimal_hyphen,
      notMem_of_isNumber hc decimal_hyphen]
  obtain rfl : tail = "" := by
    rcases htail with rfl | ⟨tag, -, -, rfl⟩
    · rfl
    · exact absurd (by simp [heq]) hfree
  have hsplit : split '.' text = [a, b, c] := split_dots_iff.mpr ⟨htext, notMem_of_isNumber ha decimal_dot,
    notMem_of_isNumber hb decimal_dot, notMem_of_isNumber hc decimal_dot⟩
  have hsplit' : split '.' text = [major, minor, patch] := split_dots_iff.mpr ⟨by simpa using heq,
    hmajor.notMem (by decide), hminor.notMem (by decide), hpatch.notMem (by decide)⟩
  rw [hsplit] at hsplit'
  cases hsplit'
  simp [triple, (KernelWatch.int_of_decimal hmajor).1, (KernelWatch.int_of_decimal hminor).1,
    (KernelWatch.int_of_decimal hpatch).1]

/-- The published line about later kernels names the gate's exclusive maximum. -/
theorem requalificationLine_eq {text : String} {v : KernelVersion} {version : List ℕ} (hwrites : Writes text v)
    (h : kernelVersion (.str text) matchVersion = .ok version) : requalificationLine text = .ok
      (if v.patch = 0 then
        "kernel " ++ v.major.repr ++ "." ++ v.minor.repr ++ " series and later: requires requalification"
      else "kernel " ++ text ++ " and later: requires requalification") := by
  obtain rfl := bound_agrees hwrites h
  rw [requalificationLine, h, except_ok_bind]
  obtain ⟨major, minor, patch⟩ := v
  cases patch with
  | zero => rfl
  | succ patch => rfl

/-- The numbers stand before the first hyphen, between dots. -/
theorem numericPart_tested {version build suffix : String} {groups : List String}
    (h : matchVersion version = some groups) :
    numericPart (version ++ "-" ++ build ++ "." ++ suffix) = version := by
  obtain ⟨major, minor, patch, -, rfl, h₁, h₂, h₃⟩ := matchVersion_eq_some.mp h
  have hfree : '-' ∉ (major ++ "." ++ minor ++ "." ++ patch).toList := by
    simp [notMem_of_isNumber h₁ decimal_hyphen, notMem_of_isNumber h₂ decimal_hyphen,
      notMem_of_isNumber h₃ decimal_hyphen]
  have hpart := KernelWatch.numericPart_append hfree (build ++ "." ++ suffix)
  simpa only [String.append_assoc] using hpart

/-- A tested release in ASCII digits, before a suffix without white space, writes its numbers, and so
    does the release followed by an architecture. -/
theorem writes_of_tested {suffix release : String} {version : List ℕ}
    (h : kernelVersion (.str release) (matchTested suffix) = .ok version)
    (hascii : ∀ c ∈ (numericPart release).toList, c.isDigit = true ∨ c = '.')
    (hsuffix : ∀ c ∈ suffix.toList, isWhitespace c = false) {after : String}
    (hafter : ∀ c ∈ after.toList, isWhitespace c = false) :
    ∃ v, Writes (release ++ after) v ∧ version = triple v := by
  obtain ⟨groups, hmatch, rfl⟩ := kernelVersion_str.mp h
  obtain ⟨numeric, build, hnumeric, hbuild, rfl⟩ := matchTested_eq_some.mp hmatch
  rw [numericPart_tested hnumeric] at hascii
  obtain ⟨major, minor, patch, rfl, rfl, h₁, h₂, h₃⟩ := matchVersion_eq_some.mp hnumeric
  have hdigits : ∀ {n : ℕ} {part : String}, isNumber n part = true →
      (∀ c ∈ part.toList, c ∈ (major ++ "." ++ minor ++ "." ++ patch).toList) →
      ∀ c ∈ part.toList, c.isDigit = true := by
    intro n part hpart hmem c hc
    rcases hascii c (hmem c hc) with hdigit | rfl
    · exact hdigit
    · exact absurd hc (notMem_of_isNumber hpart decimal_dot)
  refine ⟨⟨int major, int minor, int patch⟩, ⟨major, minor, patch, "-" ++ (build ++ "." ++ suffix ++ after),
    decimal_of_isNumber (by omega) h₁ (hdigits h₁ fun c hc => by simp [hc]),
    decimal_of_isNumber (by omega) h₂ (hdigits h₂ fun c hc => by simp [hc]),
    decimal_of_isNumber (by omega) h₃ (hdigits h₃ fun c hc => by simp [hc]),
    .inr ⟨_, ?_, fun c hc => ?_, rfl⟩, by simp only [String.append_assoc]⟩, rfl⟩
  · intro hempty
    have hlen := congrArg String.length hempty
    simp at hlen
  · simp only [String.toList_append, List.mem_append] at hc
    rcases hc with ((hc | hc) | hc) | hc
    · exact isWhitespace_of_decimal ((isNumber_iff.mp hbuild).2.2 c hc)
    · have hdot : c = '.' := by simpa using hc
      rw [hdot]
      decide
    · exact hsuffix c hc
    · exact hafter c hc

/-! ### Accepted notes -/

section
variable {printable : Char → Bool} {shown : Value → String}

/-- A listed kernel: its release, read inside the window. -/
def Listed (suffix : String) (low high : List ℕ) (entry : Value) : Prop :=
  ∃ release version, entry.index "release" = some (.str release) ∧
    kernelVersion (.str release) (matchTested suffix) = .ok version ∧ low ≤ version ∧ version < high

theorem testedKernel_ok {suffix : String} {low high : List ℕ} {releases releases' : List String} {entry : Value}
    (h : testedKernel printable suffix low high releases entry = .ok releases') :
    Listed suffix low high entry := by
  simp only [testedKernel, except_bind_ok, need_ok, require_ok] at h
  obtain ⟨_, _, _, _, release, hrelease, version, hversion, text, htext, _, hwindow, _⟩ := h
  cases release with
  | str release => exact ⟨release, version, hrelease, hversion, hwindow⟩
  | _ => cases htext

/-- Every entry that the loop passes is a listed kernel. -/
theorem testedKernels_ok {suffix : String} {low high : List ℕ} {entries : List Value} :
    ∀ {releases releases' : List String},
      entries.foldlM (testedKernel printable suffix low high) releases = .ok releases' →
      ∀ entry ∈ entries, Listed suffix low high entry := by
  induction entries with
  | nil => intro _ _ _ entry hentry; cases hentry
  | cons entry entries ih =>
    intro releases releases' h
    rw [List.foldlM_cons, except_bind_ok] at h
    obtain ⟨next, hentry, hrest⟩ := h
    exact List.forall_mem_cons.mpr ⟨testedKernel_ok hentry, ih hrest⟩

/-- The document the script reads is the profile the installer reads: the same texts at the places
    both look at. -/
structure ReadsProfile (document : Value) (p : Profile) : Prop where
  kernel : ∃ kernel, document.getD "kernel" (.dict []) = some kernel ∧
    kernel.get "min" = some (.str p.kernel.min) ∧ kernel.get "max_exclusive" = some (.str p.kernel.maxExclusive)
  platform : ∃ platform, document.getD "platform" (.dict []) = some platform ∧
    platform.get "version_id" = some (.str p.platform.versionId)

theorem supportNotes_ok {notes document release : Value} {p : Profile} {tested extra : List Value}
    (hreads : ReadsProfile document p)
    (h : supportNotes printable shown notes document release = .ok (tested, extra)) :
    tested ≠ [] ∧ ∃ low high, kernelVersion (.str p.kernel.min) matchVersion = .ok low ∧
      kernelVersion (.str p.kernel.maxExclusive) matchVersion = .ok high ∧
      ∀ entry ∈ tested, Listed ("fc" ++ p.platform.versionId) low high entry := by
  obtain ⟨kernel, hkernel, hmin, hmax⟩ := hreads.kernel
  obtain ⟨platform, hplatform, hversion⟩ := hreads.platform
  simp only [supportNotes, hkernel, hplatform, except_bind_ok, need_ok, require_ok, Option.some.injEq] at h
  obtain ⟨_, _, _, _, _, _, _, _, _, _, _, _, _, _, _, _, _, _, _, _, _, rfl, min', hmin', low, hlow, max',
    hmax', high, hhigh, _, rfl, version', hversion', tested', _, _, hne, _, hloop, _, _, _, _, h⟩ := h
  rw [hmin] at hmin'
  rw [hmax] at hmax'
  rw [hversion] at hversion'
  cases hmin'
  cases hmax'
  cases hversion'
  cases h
  exact ⟨hne, low, high, hlow, hhigh, testedKernels_ok hloop⟩

/-- A validated profile has releases at both ends of its window. -/
theorem window_of_validate {p : Profile} (h : p.validate = .ok ()) :
    ∃ minimum maximum, Writes p.kernel.min minimum ∧ Writes p.kernel.maxExclusive maximum := by
  simp only [Profile.validate, except_bind_ok] at h
  obtain ⟨_, -, _, -, _, -, _, -, _, -, _, -, _, -, _, -, _, -, _, -, _, -, _, -, _, -, minimum, hmin,
    maximum, hmax, -⟩ := h
  exact ⟨minimum, maximum, parseRelease_ok.mp hmin, parseRelease_ok.mp hmax⟩

/-! ### Published kernels and the gate -/

/-- The gate reads every listed release, alone or with an architecture, and admits it; both readers
    find the same numbers at the window's ends. -/
structure Admitted (p : Profile) (tested : List Value) : Prop where
  listed : ∀ entry ∈ tested, ∀ release, entry.index "release" = some (.str release) →
    ∀ after, (after = "" ∨ ∃ arch, (∀ c ∈ arch.toList, isWhitespace c = false) ∧ after = "." ++ arch) →
    ∃ v, KernelVersion.parseRelease (release ++ after) = .ok v ∧ kernelMatches p v = true
  bounds : ∃ minimum maximum, KernelVersion.parseRelease p.kernel.min = .ok minimum ∧
    KernelVersion.parseRelease p.kernel.maxExclusive = .ok maximum ∧
    kernelVersion (.str p.kernel.min) matchVersion = .ok (triple minimum) ∧
    kernelVersion (.str p.kernel.maxExclusive) matchVersion = .ok (triple maximum)

/-- The version of the distribution has no white space, and the numbers are in ASCII digits. -/
structure PlainlyWritten (p : Profile) (tested : List Value) : Prop where
  distribution : ∀ c ∈ p.platform.versionId.toList, isWhitespace c = false
  digits : ∀ entry ∈ tested, ∀ release, entry.index "release" = some (.str release) →
    ∀ c ∈ (numericPart release).toList, c.isDigit = true ∨ c = '.'

/-- What the gate reads of a listed release is plainly written. -/
theorem plain_of_writes {p : Profile} {low high : List ℕ} {entry : Value} {release : String} {v : KernelVersion}
    (hlisted : Listed ("fc" ++ p.platform.versionId) low high entry)
    (hrelease : entry.index "release" = some (.str release)) (hwrites : Writes release v) :
    (∀ c ∈ p.platform.versionId.toList, isWhitespace c = false) ∧
      ∀ c ∈ (numericPart release).toList, c.isDigit = true ∨ c = '.' := by
  obtain ⟨release', version, hrelease', hversion, -⟩ := hlisted
  rw [hrelease] at hrelease'
  cases hrelease'
  obtain ⟨groups, hmatch, -⟩ := kernelVersion_str.mp hversion
  obtain ⟨numeric, build, hnumeric, -, htext⟩ := matchTested_eq_some.mp hmatch
  constructor
  · intro c hc
    refine hwrites.graphic.2 c ?_
    simp [htext, hc]
  · obtain ⟨major, minor, patch, tail, hmajor, hminor, hpatch, htail, rfl⟩ := hwrites
    have hsplit := KernelWatch.split_numericPart hmajor hminor hpatch htail
    rw [(split_dots_iff.mp hsplit).1]
    exact numeric_chars hmajor hminor hpatch

/-- Published kernels are admitted exactly when they are plainly written. -/
theorem listed_admitted_iff {toml : String → Except String Profile} {input : String} {p : Profile}
    {notes document release : Value} {tested extra : List Value}
    (hp : Profile.parseToml toml input = .ok p) (hreads : ReadsProfile document p)
    (h : supportNotes printable shown notes document release = .ok (tested, extra)) :
    Admitted p tested ↔ PlainlyWritten p tested := by
  obtain ⟨minimum, maximum, hmin, hmax⟩ := window_of_validate (Profile.parseToml_ok.mp hp).2.2
  obtain ⟨hne, low, high, hlow, hhigh, hlisted⟩ := supportNotes_ok hreads h
  obtain rfl := bound_agrees hmin hlow
  obtain rfl := bound_agrees hmax hhigh
  constructor
  · intro hadmitted
    have hplain : ∀ entry ∈ tested, ∀ release, entry.index "release" = some (.str release) →
        (∀ c ∈ p.platform.versionId.toList, isWhitespace c = false) ∧
          ∀ c ∈ (numericPart release).toList, c.isDigit = true ∨ c = '.' := by
      intro entry hentry release hrelease
      obtain ⟨v, hparse, -⟩ := hadmitted.listed entry hentry release hrelease "" (.inl rfl)
      rw [String.append_empty] at hparse
      exact plain_of_writes (hlisted entry hentry) hrelease (parseRelease_ok.mp hparse)
    obtain ⟨entry, hentry⟩ := List.exists_mem_of_ne_nil tested hne
    obtain ⟨release, _, hrelease, -⟩ := hlisted entry hentry
    exact ⟨(hplain entry hentry release hrelease).1, fun entry hentry release hrelease =>
      (hplain entry hentry release hrelease).2⟩
  · intro hplain
    refine ⟨fun entry hentry release hrelease after hafter => ?_, minimum, maximum,
      parseRelease_ok.mpr hmin, parseRelease_ok.mpr hmax, hlow, hhigh⟩
    obtain ⟨release', version, hrelease', hversion, hge, hlt⟩ := hlisted entry hentry
    rw [hrelease] at hrelease'
    cases hrelease'
    have hafter' : ∀ c ∈ after.toList, isWhitespace c = false := by
      rcases hafter with rfl | ⟨arch, harch, rfl⟩
      · simp
      · intro c hc
        rw [String.toList_append, List.mem_append] at hc
        rcases hc with hc | hc
        · have hdot : c = '.' := by simpa using hc
          rw [hdot]
          decide
        · exact harch c hc
    have hsuffix : ∀ c ∈ ("fc" ++ p.platform.versionId).toList, isWhitespace c = false := by
      intro c hc
      rw [String.toList_append, List.mem_append] at hc
      rcases hc with hc | hc
      · have hfc : c = 'f' ∨ c = 'c' := by simpa using hc
        rcases hfc with rfl | rfl <;> decide
      · exact hplain.distribution c hc
    obtain ⟨v, hwrites, rfl⟩ := writes_of_tested hversion (hplain.digits entry hentry release hrelease)
      hsuffix hafter'
    refine ⟨v, parseRelease_ok.mpr hwrites, ?_⟩
    rw [KernelWatch.triple_lt] at hlt
    rw [← not_lt, KernelWatch.triple_lt] at hge
    simp [kernelMatches, parseRelease_ok.mpr hmin, parseRelease_ok.mpr hmax, kernelVersion_le_iff.mpr hge, hlt]

end

/-! ### A release for one kernel -/

def ZEROS : String := "0000000000000000000000000000000000000000000000000000000000000000"

def componentLines (name : String) : List String :=
  ["[components." ++ name ++ "]", "version = \"1.0\"", "source = \"https://example.org/npu\"",
   "sha256 = \"" ++ ZEROS ++ "\"", "[components." ++ name ++ ".provider]", "package = \"npu\"",
   "version = \"1.0-1\"", "activation = \"reboot\"", "[[components." ++ name ++ ".provider.files]]",
   "path = \"/usr/bin/npu\"", "sha256 = \"" ++ ZEROS ++ "\"", "[components." ++ name ++ ".license]",
   "expression = \"MIT\"", "redistribution = \"allowed\"", "evidence_sha256 = \"" ++ ZEROS ++ "\""]

def profileText : String := unlines
  (["schema_version = 1", "id = \"fedora-44\"", "stack_release = \"0.1.1\"", "status = \"candidate\"",
    "package_manager = \"rpm\"", "conflicts = []", "[platform]", "id = \"fedora\"", "version_id = \"44\"",
    "arch = \"x86_64\"", "[[hardware]]", "vendor = \"8086\"", "device = \"643e\"", "[kernel]",
    "min = \"7.2.5\"", "max_exclusive = \"7.3.0\"", "module = \"intel_vpu\""] ++
    REQUIRED_COMPONENTS.flatMap componentLines)

def component : ComponentRequirement where
  version := "1.0"
  source := "https://example.org/npu"
  sha256 := ZEROS
  provider := ⟨"npu", "1.0-1", .reboot, [⟨"/usr/bin/npu", ZEROS⟩]⟩
  license := ⟨"MIT", .allowed, ZEROS⟩

def lunarLake : Profile where
  schemaVersion := 1
  id := "fedora-44"
  stackRelease := "0.1.1"
  status := .candidate
  packageManager := .rpm
  conflicts := []
  platform := ⟨"fedora", "44", "x86_64"⟩
  hardware := [⟨"8086", "643e"⟩]
  kernel := ⟨"7.2.5", "7.3.0", "intel_vpu"⟩
  components := ⟨REQUIRED_COMPONENTS.map fun name => (name, component), by decide⟩
  qualification := none

def lunarLakeValue : Value := .dict [("id", .str "fedora-44"), ("platform", .dict [("version_id", .str "44")]),
  ("kernel", .dict [("min", .str "7.2.5"), ("max_exclusive", .str "7.3.0")])]

def testedEntry (release : String) : Value :=
  .dict [("release", .str release), ("tests", .list [.str "doctor"])]

def notesValue (release : String) : Value := .dict [("schema_version", .int 1), ("stack_release", .str "0.1.1"),
  ("profile_id", .str "fedora-44"), ("tested_kernels", .list [testedEntry release]), ("not_supported", .list [])]

def toml (text : String) : Except String Profile :=
  if text = profileText then .ok lunarLake else .error "unexpected text"

def asciiPrintable (c : Char) : Bool := 0x20 ≤ c.toNat && c.toNat ≤ 0x7E

theorem lunarLake_parses : Profile.parseToml toml profileText = .ok lunarLake :=
  Profile.parseToml_ok.mpr ⟨by decide +kernel, if_pos rfl, by rfl⟩

theorem lunarLakeValue_reads : ReadsProfile lunarLakeValue lunarLake :=
  ⟨⟨_, rfl, rfl, rfl⟩, _, rfl, rfl⟩

/-- The kernel of the published release is admitted. -/
theorem listed_admitted_fedora : Admitted lunarLake [testedEntry "7.2.5-200.fc44"] := by
  have hnotes : supportNotes asciiPrintable (fun _ => "None") (notesValue "7.2.5-200.fc44") lunarLakeValue
      (.dict [("stack_release", .str "0.1.1")]) = .ok ([testedEntry "7.2.5-200.fc44"], []) := by rfl
  refine (listed_admitted_iff lunarLake_parses lunarLakeValue_reads hnotes).mpr ⟨forall_chars (by decide), ?_⟩
  intro entry hentry release hrelease
  obtain rfl := List.mem_singleton.mp hentry
  cases hrelease
  exact forall_chars (by decide)

/-- An Arabic digit is published, and refused by the gate. -/
theorem arabic_digit_published : ¬ ∀ {toml : String → Except String Profile} {input : String} {p : Profile}
    {printable : Char → Bool} {shown : Value → String} {notes document release : Value}
    {tested extra : List Value},
    Profile.parseToml toml input = .ok p → ReadsProfile document p →
    supportNotes printable shown notes document release = .ok (tested, extra) → Admitted p tested := by
  intro h
  have hnotes : supportNotes asciiPrintable (fun _ => "None") (notesValue "7.2.٦-200.fc44") lunarLakeValue
      (.dict [("stack_release", .str "0.1.1")]) = .ok ([testedEntry "7.2.٦-200.fc44"], []) := by rfl
  have hadmitted := h lunarLake_parses lunarLakeValue_reads hnotes
  obtain ⟨v, hparse, -⟩ := hadmitted.listed _ (List.mem_singleton_self _) _ rfl "" (.inl rfl)
  have hnone : (KernelVersion.parseRelease ("7.2.٦-200.fc44" ++ "")).toOption = none := by decide
  rw [hparse] at hnone
  cases hnone

end NpuStack.Ci.SupportNotes
