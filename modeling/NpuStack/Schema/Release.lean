import NpuStack.Schema.Kernel

/-! What a kernel release is, apart from how it is read.

        6.12.9-200.fc41        major `.` minor `.` patch, then nothing or `-` and a tag
        ^^^^^^                 only this part is compared, as three numbers

    `parseRelease` accepts exactly these texts and returns exactly their numbers, so the order of
    releases is that of their numeric parts. -/

namespace NpuStack.Schema
open Interaction Text

/-- Digits that write a 64-bit number. -/
def Decimal (text : String) (n : ℕ) : Prop :=
  isDigits text = true ∧ Nat.ofDigitChars 10 text.toList 0 = n ∧ n < 2 ^ 64

/-- What may follow the numbers: nothing, or a hyphen and a tag without white space. -/
def ReleaseTail (text : String) : Prop :=
  text = "" ∨ ∃ tag, tag ≠ "" ∧ (∀ c ∈ tag.toList, isWhitespace c = false) ∧ text = "-" ++ tag

/-- The text writes the version's three numbers, before the first hyphen. -/
def Writes (text : String) (v : KernelVersion) : Prop :=
  ∃ major minor patch tail, Decimal major v.major ∧ Decimal minor v.minor ∧ Decimal patch v.patch ∧
    ReleaseTail tail ∧ text = major ++ "." ++ minor ++ "." ++ patch ++ tail

theorem decimal_iff {text : String} {n : ℕ} :
    Decimal text n ↔ isDigits text = true ∧ parseUnsigned 64 text = some n := by
  constructor
  · rintro ⟨hdigits, rfl, hlt⟩
    rw [parseUnsigned_digits hdigits, if_pos hlt]
    exact ⟨hdigits, rfl⟩
  · rintro ⟨hdigits, h⟩
    rw [parseUnsigned_digits hdigits] at h
    split at h
    · next hlt =>
      cases h
      exact ⟨hdigits, rfl, hlt⟩
    · cases h

/-! ### The characters of a release -/

theorem isWhitespace_of_isDigit {c : Char} (h : c.isDigit = true) : isWhitespace c = false := by
  have hrange : 48 ≤ c.toNat ∧ c.toNat ≤ 57 := by
    simpa [Char.isDigit, UInt32.le_iff_toNat_le] using h
  obtain ⟨hlow, hhigh⟩ := hrange
  simp [isWhitespace]
  omega

theorem Decimal.isDigit {text : String} {n : ℕ} (h : Decimal text n) :
    ∀ c ∈ text.toList, c.isDigit = true := by
  obtain ⟨hdigits, _⟩ := h
  rw [isDigits, Bool.and_eq_true] at hdigits
  exact all_iff.mp hdigits.2

theorem Decimal.notMem {text : String} {n : ℕ} {c : Char} (h : Decimal text n)
    (hc : c.isDigit = false) : c ∉ text.toList := by
  intro hmem
  rw [h.isDigit c hmem] at hc
  cases hc

/-- Numbers and dots have neither a hyphen nor white space. -/
theorem numeric_chars {major minor patch : String} {v : KernelVersion} (hmajor : Decimal major v.major)
    (hminor : Decimal minor v.minor) (hpatch : Decimal patch v.patch) :
    ∀ c ∈ (major ++ "." ++ minor ++ "." ++ patch).toList, c.isDigit = true ∨ c = '.' := by
  intro c hc
  simp only [String.toList_append, List.mem_append] at hc
  have hdot : c ∈ ".".toList → c = '.' := by simp
  rcases hc with (((hc | hc) | hc) | hc) | hc
  · exact Or.inl (hmajor.isDigit c hc)
  · exact Or.inr (hdot hc)
  · exact Or.inl (hminor.isDigit c hc)
  · exact Or.inr (hdot hc)
  · exact Or.inl (hpatch.isDigit c hc)

/-- Text without white space is its own trimming. -/
theorem trim_of_graphic {s : String} (h : ∀ c ∈ s.toList, isWhitespace c = false) : trim s = s := by
  rw [trim, rdropWhile_dropWhile h, String.ofList_toList]

/-! ### The parser -/

theorem splitSuffix_ok {text numeric : String} {suffix : Option String} :
    splitSuffix text = .ok (numeric, suffix) ↔
      (suffix = none ∧ numeric = text ∧ '-' ∉ text.toList) ∨
        ∃ tag, suffix = some tag ∧ tag ≠ "" ∧ text = numeric ++ ("-" ++ tag) ∧
          '-' ∉ numeric.toList := by
  have hhyphen : "-".toList = ['-'] := by decide
  rw [splitSuffix]
  cases hsplit : splitOnce '-' text with
  | none =>
    have hfree : '-' ∉ text.toList := notMem_of_splitOnce hsplit
    constructor
    · intro h
      cases h
      exact Or.inl ⟨rfl, rfl, hfree⟩
    · rintro (⟨rfl, rfl, _⟩ | ⟨tag, _, _, rfl, _⟩)
      · rfl
      · exact absurd (by simp) hfree
  | some p =>
    obtain ⟨a, tag⟩ := p
    obtain ⟨hs, hfree⟩ := splitOnce_eq_some.mp hsplit
    have htext : text = a ++ ("-" ++ tag) := by
      rw [← String.toList_inj, hs]
      simp
    constructor
    · intro h
      dsimp only at h
      split at h
      · next hne =>
        cases h
        exact Or.inr ⟨tag, rfl, hne, htext, hfree⟩
      · cases h
    · rintro (⟨_, _, hno⟩ | ⟨tag', rfl, hne, htext', hfree'⟩)
      · exact absurd (by simp [hs]) hno
      · have hagain : splitOnce '-' text = some (numeric, tag') := by
          rw [splitOnce_eq_some, htext']
          exact ⟨by simp, hfree'⟩
        rw [hsplit] at hagain
        cases hagain
        dsimp only
        rw [if_pos hne]

/-- Three pieces between dots. -/
theorem split_dots_iff {numeric major minor patch : String} :
    split '.' numeric = [major, minor, patch] ↔
      numeric = major ++ "." ++ minor ++ "." ++ patch ∧ '.' ∉ major.toList ∧ '.' ∉ minor.toList ∧
        '.' ∉ patch.toList := by
  have hdot : ".".toList = ['.'] := by decide
  constructor
  · intro h
    have hfree : ∀ p ∈ [major, minor, patch], '.' ∉ p.toList := by
      intro p hp
      exact split_free (h ▸ hp)
    refine ⟨?_, hfree _ (by simp), hfree _ (by simp), hfree _ (by simp)⟩
    rw [← join_split '.' numeric, h, ← String.toList_inj, join]
    simp
  · rintro ⟨rfl, hmajor, hminor, hpatch⟩
    have hassoc : major ++ "." ++ minor ++ "." ++ patch = major ++ "." ++ (minor ++ "." ++ patch) := by
      simp only [String.append_assoc]
    rw [hassoc, split_append hdot hmajor, split_append hdot hminor, split_of_notMem hpatch]

/-- Three numbers between dots. -/
theorem components_iff {components : List String} {v : KernelVersion} {e : SchemaError} :
    (¬(components.length ≠ 3 ∨ components.any (fun c => !isDigits c) = true) ∧
      need (parseUnsigned 64 (components.getD 0 "")) e = .ok v.major ∧
      need (parseUnsigned 64 (components.getD 1 "")) e = .ok v.minor ∧
      need (parseUnsigned 64 (components.getD 2 "")) e = .ok v.patch) ↔
    ∃ major minor patch, components = [major, minor, patch] ∧ Decimal major v.major ∧
      Decimal minor v.minor ∧ Decimal patch v.patch := by
  simp only [need_ok, decimal_iff]
  constructor
  · rintro ⟨hshape, hmajor, hminor, hpatch⟩
    have hlen : components.length = 3 := by
      by_contra hne
      exact hshape (Or.inl hne)
    obtain ⟨major, minor, patch, rfl⟩ := List.length_eq_three.mp hlen
    have hdigits : ∀ c ∈ [major, minor, patch], isDigits c = true := by
      intro c hc
      by_contra hno
      exact hshape (Or.inr (List.any_eq_true.mpr ⟨c, hc, by simpa using hno⟩))
    exact ⟨major, minor, patch, rfl, ⟨hdigits _ (by simp), hmajor⟩, ⟨hdigits _ (by simp), hminor⟩,
      ⟨hdigits _ (by simp), hpatch⟩⟩
  · rintro ⟨major, minor, patch, rfl, ⟨hd₁, hmajor⟩, ⟨hd₂, hminor⟩, hd₃, hpatch⟩
    exact ⟨by simp [hd₁, hd₂, hd₃], hmajor, hminor, hpatch⟩

theorem releaseTail_iff {text numeric : String} {suffix : Option String}
    (hfree : ∀ c ∈ numeric.toList, c.isDigit = true ∨ c = '.') :
    (splitSuffix text = .ok (numeric, suffix) ∧ suffix.any (fun s => s.toList.any isWhitespace) = false) ↔
      ∃ tail, text = numeric ++ tail ∧ ((suffix = none ∧ tail = "") ∨ ∃ tag, suffix = some tag ∧
        tag ≠ "" ∧ (∀ c ∈ tag.toList, isWhitespace c = false) ∧ tail = "-" ++ tag) := by
  have hhyphen : '-' ∉ numeric.toList := by
    intro hmem
    rcases hfree '-' hmem with h | h <;> simp at h
  rw [splitSuffix_ok]
  constructor
  · rintro ⟨⟨rfl, rfl, _⟩ | ⟨tag, rfl, hne, htext, _⟩, hwhite⟩
    · exact ⟨"", by simp, Or.inl ⟨rfl, rfl⟩⟩
    · refine ⟨"-" ++ tag, htext, Or.inr ⟨tag, rfl, hne, ?_, rfl⟩⟩
      simpa using hwhite
  · rintro ⟨tail, rfl, ⟨rfl, rfl⟩ | ⟨tag, rfl, hne, hwhite, rfl⟩⟩
    · exact ⟨Or.inl ⟨rfl, by simp, by simpa using hhyphen⟩, rfl⟩
    · exact ⟨Or.inr ⟨tag, rfl, hne, rfl, hhyphen⟩, by simpa using hwhite⟩

theorem Writes.graphic {text : String} {v : KernelVersion} (h : Writes text v) :
    text ≠ "" ∧ ∀ c ∈ text.toList, isWhitespace c = false := by
  obtain ⟨major, minor, patch, tail, hmajor, hminor, hpatch, htail, rfl⟩ := h
  refine ⟨?_, ?_⟩
  · intro hempty
    have hlen := congrArg String.length hempty
    simp at hlen
  · intro c hc
    rw [String.toList_append, List.mem_append] at hc
    rcases hc with hc | hc
    · rcases numeric_chars hmajor hminor hpatch c hc with hdigit | rfl
      · exact isWhitespace_of_isDigit hdigit
      · decide
    · rcases htail with rfl | ⟨tag, _, hwhite, rfl⟩
      · simp at hc
      · rw [String.toList_append, List.mem_append] at hc
        rcases hc with hc | hc
        · have hhyphen : c = '-' := by simpa using hc
          rw [hhyphen]
          decide
        · exact hwhite c hc

/-- The parser reads exactly the releases, with exactly their numbers. -/
theorem parseRelease_ok {text : String} {v : KernelVersion} :
    KernelVersion.parseRelease text = .ok v ↔ Writes text v := by
  constructor
  · intro h
    simp only [KernelVersion.parseRelease, except_bind_ok, refuse_ok] at h
    obtain ⟨_, _, ⟨numeric, suffix⟩, hsuffix, _, hwhite, _, hshape, hparts⟩ := h
    obtain ⟨a, ha, b, hb, c, hc, h⟩ := hparts
    cases h
    obtain ⟨major, minor, patch, hsplit, hmajor, hminor, hpatch⟩ :=
      (components_iff (v := ⟨a, b, c⟩)).mp ⟨hshape, ha, hb, hc⟩
    obtain ⟨rfl, _⟩ := split_dots_iff.mp hsplit
    obtain ⟨tail, rfl, htail⟩ := (releaseTail_iff (numeric_chars hmajor hminor hpatch)).mp
      ⟨hsuffix, by simpa using hwhite⟩
    refine ⟨major, minor, patch, tail, hmajor, hminor, hpatch, ?_, rfl⟩
    rcases htail with ⟨_, rfl⟩ | ⟨tag, _, hne, htag, rfl⟩
    · exact Or.inl rfl
    · exact Or.inr ⟨tag, hne, htag, rfl⟩
  · intro h
    obtain ⟨hne, hgraphic⟩ := h.graphic
    obtain ⟨major, minor, patch, tail, hmajor, hminor, hpatch, htail, htext⟩ := h
    have hsuffix : ∃ suffix, splitSuffix text = .ok (major ++ "." ++ minor ++ "." ++ patch, suffix) ∧
        suffix.any (fun s => s.toList.any isWhitespace) = false := by
      rcases htail with rfl | ⟨tag, htag, hwhite, rfl⟩
      · exact ⟨none, (releaseTail_iff (numeric_chars hmajor hminor hpatch)).mpr
          ⟨"", htext, Or.inl ⟨rfl, rfl⟩⟩⟩
      · exact ⟨some tag, (releaseTail_iff (numeric_chars hmajor hminor hpatch)).mpr
          ⟨_, htext, Or.inr ⟨tag, rfl, htag, hwhite, rfl⟩⟩⟩
    obtain ⟨suffix, hsplit, hwhite⟩ := hsuffix
    have hdots : split '.' (major ++ "." ++ minor ++ "." ++ patch) = [major, minor, patch] :=
      split_dots_iff.mpr ⟨rfl, hmajor.notMem (by decide), hminor.notMem (by decide),
        hpatch.notMem (by decide)⟩
    obtain ⟨hshape, ha, hb, hc⟩ := (components_iff (e := invalidKernel text)).mpr
      ⟨major, minor, patch, hdots, hmajor, hminor, hpatch⟩
    simp only [KernelVersion.parseRelease, except_bind_ok, refuse_ok]
    refine ⟨(), ?_, _, hsplit, (), by simpa using hwhite, (), hshape, v.major, ha, v.minor, hb,
      v.patch, hc, rfl⟩
    rintro (hempty | htrim)
    · exact hne hempty
    · exact htrim (trim_of_graphic hgraphic)

/-! ### The order -/

/-- Releases compare as their three numbers do, the first difference deciding. -/
theorem kernelVersion_lt_iff {a b : KernelVersion} : a < b ↔ a.major < b.major ∨
    (a.major = b.major ∧ (a.minor < b.minor ∨ (a.minor = b.minor ∧ a.patch < b.patch))) := by
  change a.key < b.key ↔ _
  rw [KernelVersion.key, KernelVersion.key, Prod.Lex.toLex_lt_toLex, Prod.Lex.toLex_lt_toLex]

theorem kernelVersion_le_iff {a b : KernelVersion} : a ≤ b ↔ ¬b < a := by
  change a.key ≤ b.key ↔ ¬b.key < a.key
  exact not_lt.symm

end NpuStack.Schema
