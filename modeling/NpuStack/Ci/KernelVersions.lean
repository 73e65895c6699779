import NpuStack.Ci.KernelVerdicts
import NpuStack.Core.Matching
import NpuStack.Schema.Release

/-! Kernel releases as the watcher reads them, beside the schema's reader.

        text ──parseRelease──▶ major, minor, patch     any tag without white space, any digits
        text ──parseVersion──▶ [major, minor, patch]   no separator U+001C..U+001F, short numbers

    Both read three numbers below `2 ^ 64` and then compare them alike. The watcher's reader refuses
    some releases besides (`parseVersion_ok`), and those are the only texts on which the two differ
    (`versions_agree_iff`). -/

namespace NpuStack.Ci.KernelWatch
open Interaction Text Schema NpuStack.Core
open Py (Value)

/-- White space to Python only. -/
def isSeparator (c : Char) : Bool := 0x1C ≤ c.toNat && c.toNat ≤ 0x1F

/-- What is before the first hyphen. -/
def numericPart (text : String) : String := (Py.partition '-' text).1

/-- No separator anywhere, and numbers of at most 4300 digits. -/
structure PyReadable (text : String) : Prop where
  separators : ∀ c ∈ text.toList, isSeparator c = false
  digits : ∀ part ∈ split '.' (numericPart text), Py.len part ≤ MAX_STR_DIGITS

def triple (v : KernelVersion) : List ℕ := [v.major, v.minor, v.patch]

/-! ### White space -/

theorem isSpace_eq (c : Char) : Py.isSpace c = (isWhitespace c || isSeparator c) := rfl

/-- Text without white space is its own stripping. -/
theorem strip_of_graphic {s : String} (h : ∀ c ∈ s.toList, Py.isSpace c = false) : Py.strip s = s := by
  rw [Py.strip, rdropWhile_dropWhile h, String.ofList_toList]

theorem isSeparator_of_isDigit {c : Char} (h : c.isDigit = true) : isSeparator c = false := by
  have hrange : 48 ≤ c.toNat ∧ c.toNat ≤ 57 := by
    simpa [Char.isDigit, UInt32.le_iff_toNat_le] using h
  obtain ⟨hlow, hhigh⟩ := hrange
  simp [isSeparator]
  omega

/-! ### The numeric part -/

theorem numericPart_of_notMem {text : String} (h : '-' ∉ text.toList) : numericPart text = text := by
  have hnone : splitOnce '-' text = none := by
    cases hsplit : splitOnce '-' text with
    | none => rfl
    | some p =>
      obtain ⟨heq, -⟩ := splitOnce_eq_some.mp hsplit
      exact absurd (by simp [heq]) h
  rw [numericPart, Py.partition, hnone]
  rfl

theorem numericPart_append {numeric : String} (h : '-' ∉ numeric.toList) (tag : String) :
    numericPart (numeric ++ ("-" ++ tag)) = numeric := by
  have hsplit : splitOnce '-' (numeric ++ ("-" ++ tag)) = some (numeric, tag) :=
    splitOnce_eq_some.mpr ⟨by simp, h⟩
  rw [numericPart, Py.partition, hsplit]
  rfl

/-- The three numbers stand between the dots of the numeric part. -/
theorem split_numericPart {major minor patch tail : String} {v : KernelVersion}
    (hmajor : Decimal major v.major) (hminor : Decimal minor v.minor) (hpatch : Decimal patch v.patch)
    (htail : ReleaseTail tail) :
    split '.' (numericPart (major ++ "." ++ minor ++ "." ++ patch ++ tail)) = [major, minor, patch] := by
  have hhyphen : '-' ∉ (major ++ "." ++ minor ++ "." ++ patch).toList := by
    intro hmem
    rcases numeric_chars hmajor hminor hpatch _ hmem with h | h <;> simp at h
  have hpart : numericPart (major ++ "." ++ minor ++ "." ++ patch ++ tail) =
      major ++ "." ++ minor ++ "." ++ patch := by
    rcases htail with rfl | ⟨tag, -, -, rfl⟩
    · rw [String.append_empty]
      exact numericPart_of_notMem hhyphen
    · exact numericPart_append hhyphen tag
  rw [hpart]
  exact split_dots_iff.mpr ⟨rfl, hmajor.notMem (by decide), hminor.notMem (by decide),
    hpatch.notMem (by decide)⟩

/-- A number of 64 bits, as `int` reads it. -/
theorem decimal_of_int {part : String} (hdigits : isDigits part = true) (hmax : int part ≤ U64_MAX) :
    Decimal part (int part) := by
  refine ⟨hdigits, (int_of_isDigits hdigits).symm, ?_⟩
  rw [U64_MAX] at hmax
  omega

theorem int_of_decimal {part : String} {n : ℕ} (h : Decimal part n) : int part = n ∧ int part ≤ U64_MAX := by
  obtain ⟨hdigits, hvalue, hlt⟩ := h
  have hint : int part = n := (int_of_isDigits hdigits).trans hvalue
  refine ⟨hint, ?_⟩
  rw [hint, U64_MAX]
  omega

/-! ### The watcher's reader -/

/-- What the numeric part must be, and the triple that is read from it. -/
theorem numbers_iff {parts : List String} {version : List ℕ} :
    ((parts.length = 3 ∧ ∀ part ∈ parts, isDigits part = true) ∧
      (∀ part ∈ parts.map int, part ≤ U64_MAX) ∧ parts.map int = version) ↔
    ∃ major minor patch, ∃ v : KernelVersion, parts = [major, minor, patch] ∧ Decimal major v.major ∧
      Decimal minor v.minor ∧ Decimal patch v.patch ∧ version = triple v := by
  constructor
  · rintro ⟨⟨hlen, hdigits⟩, hmax, rfl⟩
    match parts, hlen with
    | [major, minor, patch], _ =>
      simp only [List.forall_mem_cons, List.map_cons, List.map_nil] at hdigits hmax
      obtain ⟨hd₁, hd₂, hd₃, -⟩ := hdigits
      obtain ⟨hm₁, hm₂, hm₃, -⟩ := hmax
      exact ⟨major, minor, patch, ⟨int major, int minor, int patch⟩, rfl, decimal_of_int hd₁ hm₁,
        decimal_of_int hd₂ hm₂, decimal_of_int hd₃ hm₃, rfl⟩
  · rintro ⟨major, minor, patch, v, rfl, hmajor, hminor, hpatch, rfl⟩
    obtain ⟨hi₁, hm₁⟩ := int_of_decimal hmajor
    obtain ⟨hi₂, hm₂⟩ := int_of_decimal hminor
    obtain ⟨hi₃, hm₃⟩ := int_of_decimal hpatch
    exact ⟨by simp [hmajor.1, hminor.1, hpatch.1], by simp [hm₁, hm₂, hm₃], by simp [triple, hi₁, hi₂, hi₃]⟩

/-- What the watcher lets follow the numbers. -/
def PyTail (text : String) : Prop :=
  text = "" ∨ ∃ tag, tag ≠ "" ∧ (∀ c ∈ tag.toList, Py.isSpace c = false) ∧ text = "-" ++ tag

/-- A release taken apart at its first hyphen. -/
theorem parseVersion_parts {text : String} {version : List ℕ} :
    parseVersion (.str text) = .ok version ↔ (text ≠ "" ∧ Py.strip text = text) ∧
      ∃ tail, text = numericPart text ++ tail ∧ PyTail tail ∧
        let parts := split '.' (numericPart text)
        (parts.length = 3 ∧ ∀ part ∈ parts, isDigits part = true) ∧
          (∀ part ∈ parts, Py.len part ≤ MAX_STR_DIGITS) ∧
          (∀ part ∈ parts.map int, part ≤ U64_MAX) ∧ parts.map int = version := by
  have hneed : ∀ e : String, need (Value.asStr (.str text)) e = .ok text := fun _ => rfl
  simp only [parseVersion, hneed, except_ok_bind]
  cases hsplit : splitOnce '-' text with
  | none =>
    rw [numericPart_of_notMem (notMem_of_splitOnce hsplit)]
    simp only [except_bind_ok, require_ok, exists_const, pure, Except.pure, Except.ok.injEq,
      exists_eq_left']
    constructor
    · rintro ⟨hstrip, hrest⟩
      exact ⟨hstrip, "", by simp, .inl rfl, hrest⟩
    · rintro ⟨hstrip, -, -, -, hrest⟩
      exact ⟨hstrip, hrest⟩
  | some p =>
    obtain ⟨numeric, tag⟩ := p
    obtain ⟨hs, hfree⟩ := splitOnce_eq_some.mp hsplit
    obtain rfl : text = numeric ++ ("-" ++ tag) := by
      rw [← String.toList_inj, hs]
      simp
    rw [numericPart_append hfree]
    simp only [except_bind_ok, require_ok, exists_const, pure, Except.pure, Except.ok.injEq, exists_eq_left',
      all_iff, Bool.not_eq_true']
    constructor
    · rintro ⟨hstrip, ⟨hne, hspace⟩, hrest⟩
      exact ⟨hstrip, _, rfl, .inr ⟨tag, hne, hspace, rfl⟩, hrest⟩
    · rintro ⟨hstrip, tail, htail, hcases, hrest⟩
      have heq : "-" ++ tag = tail := String.append_right_inj _ |>.mp htail
      rcases hcases with rfl | ⟨tag', hne, hspace, rfl⟩
      · simp at heq
      · obtain rfl : tag = tag' := String.append_right_inj _ |>.mp heq
        exact ⟨hstrip, ⟨hne, hspace⟩, hrest⟩

/-- Without separators both sides take the same tails. -/
theorem pyTail_iff {tail : String} :
    PyTail tail ↔ ReleaseTail tail ∧ ∀ c ∈ tail.toList, isSeparator c = false := by
  constructor
  · rintro (rfl | ⟨tag, hne, hspace, rfl⟩)
    · exact ⟨.inl rfl, by simp⟩
    · simp only [isSpace_eq, Bool.or_eq_false_iff] at hspace
      refine ⟨.inr ⟨tag, hne, fun c hc => (hspace c hc).1, rfl⟩, fun c hc => ?_⟩
      rw [String.toList_append, List.mem_append] at hc
      rcases hc with hc | hc
      · have hhyphen : c = '-' := by simpa using hc
        rw [hhyphen]
        decide
      · exact (hspace c hc).2
  · rintro ⟨rfl | ⟨tag, hne, hwhite, rfl⟩, hsep⟩
    · exact .inl rfl
    · refine .inr ⟨tag, hne, fun c hc => ?_, rfl⟩
      rw [isSpace_eq, hwhite c hc, hsep c (by simp [hc])]
      rfl

/-- The watcher reads exactly the releases it can, as the schema's numbers. -/
theorem parseVersion_ok {text : String} {version : List ℕ} :
    parseVersion (.str text) = .ok version ↔
      ∃ v, Writes text v ∧ PyReadable text ∧ version = triple v := by
  rw [parseVersion_parts]
  constructor
  · rintro ⟨-, tail, htext, htail, hshape, hlong, hmax, hversion⟩
    obtain ⟨major, minor, patch, v, hsplit, hmajor, hminor, hpatch, rfl⟩ :=
      numbers_iff.mp ⟨hshape, hmax, hversion⟩
    obtain ⟨hnumeric, -⟩ := split_dots_iff.mp hsplit
    obtain ⟨htail, hsep⟩ := pyTail_iff.mp htail
    refine ⟨v, ⟨major, minor, patch, tail, hmajor, hminor, hpatch, htail, hnumeric ▸ htext⟩,
      ⟨fun c hc => ?_, hlong⟩, rfl⟩
    rw [htext, hnumeric, String.toList_append, List.mem_append] at hc
    rcases hc with hc | hc
    · rcases numeric_chars hmajor hminor hpatch c hc with hdigit | rfl
      · exact isSeparator_of_isDigit hdigit
      · decide
    · exact hsep c hc
  · rintro ⟨v, hwrites, hreadable, rfl⟩
    obtain ⟨hne, hwhite⟩ := hwrites.graphic
    obtain ⟨major, minor, patch, tail, hmajor, hminor, hpatch, htail, rfl⟩ := hwrites
    have hsplit := split_numericPart hmajor hminor hpatch htail
    obtain ⟨hshape, hmax, hversion⟩ :=
      numbers_iff.mpr ⟨major, minor, patch, v, hsplit, hmajor, hminor, hpatch, rfl⟩
    have hnumeric := (split_dots_iff.mp hsplit).1
    refine ⟨⟨hne, strip_of_graphic fun c hc => ?_⟩, tail, by rw [hnumeric], pyTail_iff.mpr ⟨htail,
      fun c hc => hreadable.separators c ?_⟩, hshape, hreadable.digits, hmax, hversion⟩
    · rw [isSpace_eq, hwhite c hc, hreadable.separators c hc]
      rfl
    · rw [String.toList_append, List.mem_append]
      exact .inr hc

/-! ### The two readers -/

/-- The watcher reads the text exactly when the schema does, as the same three numbers. -/
def ReadsAlike (text : String) : Prop :=
  ∀ version, parseVersion (.str text) = .ok version ↔
    ∃ v, KernelVersion.parseRelease text = .ok v ∧ version = triple v

theorem triple_lt {a b : KernelVersion} : triple a < triple b ↔ a < b := by
  rw [kernelVersion_lt_iff, triple, triple]
  simp only [List.cons_lt_cons_iff, List.not_lt_nil, and_false, or_false]

/-- Without recorded outcomes, a probe is asked for inside the window. -/
theorem windowAction_probe {window : Window} {kernel : String} {version : List ℕ} :
    (∃ action, windowAction [] kernel version window = .ok (some action) ∧
      action.action = .probeRequired) ↔
    ∃ low high, parseVersion (.str window.min) = .ok low ∧
      parseVersion (.str window.maxExclusive) = .ok high ∧ ¬version < low ∧ ¬high ≤ version := by
  simp only [windowAction, List.lookup_nil]
  constructor
  · rintro ⟨action, h, haction⟩
    obtain ⟨low, hlow, h⟩ := except_bind_ok.mp h
    split at h
    · cases h
    · next hbelow =>
      obtain ⟨high, hhigh, h⟩ := except_bind_ok.mp h
      split at h
      · cases h
        cases haction
      · next habove => exact ⟨low, high, hlow, hhigh, hbelow, habove⟩
  · rintro ⟨low, high, hlow, hhigh, hbelow, habove⟩
    refine ⟨⟨window.id, "[" ++ window.min ++ ", " ++ window.maxExclusive ++ ")", .probeRequired⟩, ?_, rfl⟩
    rw [hlow, except_ok_bind, if_neg hbelow, hhigh, except_ok_bind, if_neg habove]
    rfl

/-- The watcher reads a text as the schema does, unless it is a release with a separator or with a
    number longer than 4300 digits. Where the ends of a window are read alike, the watcher asks for a
    probe of exactly the kernels the installer's gate admits, nothing being recorded yet. -/
theorem versions_agree_iff (text : String) :
    (ReadsAlike text ↔ ((∃ v, Writes text v) → PyReadable text)) ∧
    ∀ (profile : Profile) (window : Window), profile.kernel.min = window.min →
      profile.kernel.maxExclusive = window.maxExclusive → ReadsAlike window.min →
      ReadsAlike window.maxExclusive → ∀ (kernel : String) (v : KernelVersion),
      (∃ action, windowAction [] kernel (triple v) window = .ok (some action) ∧
        action.action = .probeRequired) ↔ kernelMatches profile v = true := by
  constructor
  · simp only [ReadsAlike, parseVersion_ok, parseRelease_ok]
    constructor
    · rintro h ⟨v, hwrites⟩
      obtain ⟨-, -, hreadable, -⟩ := (h _).mpr ⟨v, hwrites, rfl⟩
      exact hreadable
    · intro h version
      constructor
      · rintro ⟨v, hwrites, -, rfl⟩
        exact ⟨v, hwrites, rfl⟩
      · rintro ⟨v, hwrites, rfl⟩
        exact ⟨v, hwrites, h ⟨v, hwrites⟩, rfl⟩
  · intro profile window hmin hmax hlow hhigh kernel v
    rw [windowAction_probe, kernelMatches, hmin, hmax]
    constructor
    · rintro ⟨low, high, hparse, hparse', hbelow, habove⟩
      obtain ⟨a, ha, rfl⟩ := (hlow low).mp hparse
      obtain ⟨b, hb, rfl⟩ := (hhigh high).mp hparse'
      rw [triple_lt] at hbelow
      rw [← not_lt, not_not, triple_lt] at habove
      simp [ha, hb, habove, kernelVersion_le_iff.mpr hbelow]
    · intro h
      split at h
      · next a b ha hb =>
        simp only [Bool.and_eq_true, decide_eq_true_eq, kernelVersion_le_iff] at h
        refine ⟨_, _, (hlow _).mpr ⟨a, ha, rfl⟩, (hhigh _).mpr ⟨b, hb, rfl⟩, ?_, ?_⟩
        · rw [triple_lt]
          exact h.1
        · rw [← not_lt, not_not, triple_lt]
          exact h.2
      · cases h

/-- A release of the distribution is read alike. -/
theorem versions_agree_fedora : ReadsAlike "6.12.9-200.fc44" :=
  (versions_agree_iff "6.12.9-200.fc44").1.mpr fun _ =>
    ⟨forall_chars (by decide), by decide⟩

/-- A unit separator in the tag: a release to the schema, none to the watcher. -/
theorem separator_unread : ¬ ∀ text, ReadsAlike text := by
  intro h
  have hwrites : Writes "6.12.9-200\x1ffc44" ⟨6, 12, 9⟩ :=
    parseRelease_ok.mp (ok_of_toOption (by decide))
  obtain ⟨_, _, hreadable, _⟩ := parseVersion_ok.mp
    ((h "6.12.9-200\x1ffc44" [6, 12, 9]).mpr ⟨_, parseRelease_ok.mpr hwrites, rfl⟩)
  exact absurd (hreadable.separators (Char.ofNat 0x1F) (by decide)) (by decide)

end NpuStack.Ci.KernelWatch
