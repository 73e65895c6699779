import NpuStack.Install.Selection
import NpuStack.Schemes.LineEdit

/-! Retargeting an unqualified candidate to one kernel patch, as an edit of its text.

        id = "old"                 id = "new"
        min = "7.2.0"       ─▶     min = "7.2.4"
        max_exclusive = "7.3.0"    max_exclusive = "7.2.5"

    Each line is found by its content and must be the only one. The edited lines begin with different
    keys, so none is taken for another, and the edits are updates of three places of the input. -/

namespace NpuStack.Xtask
open Interaction Text Schema LineEdit NpuStack.Core

/-- `SchemaError` as it is printed. -/
def display (error : SchemaError) : String := error.code ++ ": " ++ error.message

/-- Names that are safe in a file system. -/
def isSafeId (id : String) : Bool :=
  id ≠ "" && all (fun c => c.isAlphanum || "-_.".toList.contains c) id

/-- The line that assigns a string to a key. -/
def assignment (key value : String) : String := key ++ " = \"" ++ value ++ "\""

def numericRelease (major minor patch : ℕ) : String :=
  major.repr ++ "." ++ minor.repr ++ "." ++ patch.repr

/-- One replacement, of a line that must occur once. -/
def replaceLine (output : String) (replacement : String × String) : Except String String := do
  refuse (((split '\n' output).filter (· = replacement.1)).length ≠ 1)
    "candidate selector line is ambiguous or unexpectedly formatted"
  return join '\n' (substitute replacement.1 replacement.2 (split '\n' output))

/-- `checked_add(1)` on `u64`. -/
def checkedSucc (n : ℕ) : Option ℕ := if n + 1 < 2 ^ 64 then some (n + 1) else none

/-- The profile with the id and the bounds of another. -/
def restore (original restored : Profile) : Profile :=
  { restored with
    id := original.id
    kernel := { restored.kernel with
      min := original.kernel.min
      maxExclusive := original.kernel.maxExclusive } }

/-- Creates a separately identified candidate covering only one kernel patch. -/
def retarget (toml : String → Except String Profile) (input id kernelRelease : String) :
    Except String String := do
  let original ← (Profile.parseToml toml input).mapError display
  refuse (original.status ≠ .candidate ∨ original.qualification.isSome = true)
    "kernel retargeting requires an unqualified candidate"
  refuse (id = original.id ∨ isSafeId id = false)
    "a distinct, filesystem-safe candidate id is required"
  let kernel ← (KernelVersion.parseRelease kernelRelease).mapError display
  let next ← need (checkedSucc kernel.patch) "kernel patch overflow"
  let output ← [
    (assignment "id" original.id, assignment "id" id),
    (assignment "min" original.kernel.min,
      assignment "min" (numericRelease kernel.major kernel.minor kernel.patch)),
    (assignment "max_exclusive" original.kernel.maxExclusive,
      assignment "max_exclusive" (numericRelease kernel.major kernel.minor next))].foldlM
    replaceLine input
  let restored ← (Profile.parseToml toml output).mapError display
  refuse (restore original restored ≠ original)
    "kernel retargeting changed unrelated profile semantics"
  return output

/-! ### One replacement -/

/-- An updated list of lines is one of a text. -/
theorem split_set {text new : String} (hnew : '\n' ∉ new.toList) (i : ℕ) :
    split '\n' (join '\n' ((split '\n' text).set i new)) = (split '\n' text).set i new := by
  refine split_join ?_ ?_
  · intro l hl
    rcases List.mem_or_eq_of_mem_set hl with hl | rfl
    · exact split_free hl
    · exact hnew
  · intro h
    exact split_ne_nil '\n' text (by simpa using h)

/-- A replacement by a line updates the only place of what it replaces. -/
theorem replaceLine_ok {text text' old new : String} (hnew : '\n' ∉ new.toList) :
    replaceLine text (old, new) = .ok text' ↔
      ∃ i, Only (split '\n' text) old i ∧ split '\n' text' = (split '\n' text).set i new := by
  simp only [replaceLine, except_bind_ok, refuse_ok, not_not, length_filter_eq_one, pure, Except.pure,
    Except.ok.injEq]
  constructor
  · rintro ⟨_, ⟨i, honly⟩, rfl⟩
    refine ⟨i, honly, ?_⟩
    rw [substitute_eq_set honly, split_set hnew]
  · rintro ⟨i, honly, hlines⟩
    refine ⟨(), ⟨i, honly⟩, ?_⟩
    rw [substitute_eq_set honly, ← hlines, join_split]

/-! ### The lines of a candidate -/

/-- Lines that assign to different keys differ, whatever they assign. -/
theorem assignment_ne {key key' : String} (hkey : ' ' ∉ key.toList) (hkey' : ' ' ∉ key'.toList)
    (hne : key ≠ key') (value value' : String) : assignment key value ≠ assignment key' value' := by
  intro heq
  have hsplit : ∀ k : String, ' ' ∉ k.toList → ∀ v,
      splitOnce ' ' (assignment k v) = some (k, "= \"" ++ v ++ "\"") := by
    intro k hk v
    refine splitOnce_eq_some.mpr ⟨?_, hk⟩
    simp [assignment]
  have hboth := hsplit key hkey value
  rw [heq, hsplit key' hkey' value'] at hboth
  exact hne (Prod.mk.inj (Option.some.inj hboth)).1.symm

theorem newline_notMem_assignment {key value : String} (hkey : '\n' ∉ key.toList)
    (hvalue : '\n' ∉ value.toList) : '\n' ∉ (assignment key value).toList := by
  have hquote : " = \"".toList = [' ', '=', ' ', '"'] := by decide
  simp [assignment, hkey, hvalue, hquote]

theorem newline_notMem_safe {id : String} (h : isSafeId id = true) : '\n' ∉ id.toList := by
  intro hmem
  rw [isSafeId, Bool.and_eq_true] at h
  have hnewline := all_iff.mp h.2 '\n' hmem
  revert hnewline
  decide

theorem writes_numericRelease {v : KernelVersion} (hmajor : v.major < 2 ^ 64)
    (hminor : v.minor < 2 ^ 64) (hpatch : v.patch < 2 ^ 64) :
    Writes (numericRelease v.major v.minor v.patch) v := by
  have hdecimal : ∀ n < 2 ^ 64, Decimal n.repr n := by
    intro n hn
    exact decimal_iff.mpr ⟨isDigits_repr n, parseUnsigned_repr hn⟩
  refine ⟨v.major.repr, v.minor.repr, v.patch.repr, "", hdecimal _ hmajor, hdecimal _ hminor,
    hdecimal _ hpatch, Or.inl rfl, ?_⟩
  rw [numericRelease, String.append_empty]

theorem newline_notMem_numericRelease {v : KernelVersion} (hmajor : v.major < 2 ^ 64)
    (hminor : v.minor < 2 ^ 64) (hpatch : v.patch < 2 ^ 64) :
    '\n' ∉ (numericRelease v.major v.minor v.patch).toList := by
  intro hmem
  have hgraphic := (writes_numericRelease hmajor hminor hpatch).graphic.2 '\n' hmem
  revert hgraphic
  decide

/-- The three numbers of a release are machine numbers. -/
theorem Writes.lt {text : String} {v : KernelVersion} (h : Writes text v) :
    v.major < 2 ^ 64 ∧ v.minor < 2 ^ 64 ∧ v.patch < 2 ^ 64 := by
  obtain ⟨_, _, _, _, hmajor, hminor, hpatch, _⟩ := h
  exact ⟨hmajor.2.2, hminor.2.2, hpatch.2.2⟩

/-! ### The whole edit -/

/-- A text retargeted to the id and the kernel: three lines of the input replaced, each of which it
    holds once, and the result read back as the original but for what those lines assign. -/
structure Retargeted (toml : String → Except String Profile) (input id output : String)
    (original restored : Profile) (kernel : KernelVersion) (i j k : ℕ) : Prop where
  parsed : Profile.parseToml toml input = .ok original
  candidate : original.status = .candidate ∧ original.qualification = none
  fresh : isSafeId id = true ∧ id ≠ original.id
  patch : kernel.patch + 1 < 2 ^ 64
  idLine : Only (split '\n' input) (assignment "id" original.id) i
  minLine : Only (split '\n' input) (assignment "min" original.kernel.min) j
  maxLine : Only (split '\n' input) (assignment "max_exclusive" original.kernel.maxExclusive) k
  lines : split '\n' output =
    (((split '\n' input).set i (assignment "id" id)).set j
      (assignment "min" (numericRelease kernel.major kernel.minor kernel.patch))).set k
      (assignment "max_exclusive" (numericRelease kernel.major kernel.minor (kernel.patch + 1)))
  reparsed : Profile.parseToml toml output = .ok restored
  same : restore original restored = original

theorem checkedSucc_eq_some {n m : ℕ} : checkedSucc n = some m ↔ m = n + 1 ∧ n + 1 < 2 ^ 64 := by
  rw [checkedSucc]
  split
  · next h =>
    constructor
    · intro heq
      exact ⟨(Option.some.inj heq).symm, h⟩
    · rintro ⟨rfl, _⟩
      rfl
  · next h =>
    constructor
    · intro heq
      cases heq
    · rintro ⟨_, hlt⟩
      exact absurd hlt h

/-- The three replacements in turn are three updates of the input: an edited line is none of those
    still to be found, and a line to be found is not where an edited one stands. -/
theorem replacements_ok {input output idOld idNew minOld minNew maxOld maxNew : String}
    (hid : '\n' ∉ (assignment "id" idNew).toList) (hmin : '\n' ∉ (assignment "min" minNew).toList)
    (hmax : '\n' ∉ (assignment "max_exclusive" maxNew).toList) :
    [(assignment "id" idOld, assignment "id" idNew),
      (assignment "min" minOld, assignment "min" minNew),
      (assignment "max_exclusive" maxOld, assignment "max_exclusive" maxNew)].foldlM replaceLine input =
        .ok output ↔
      ∃ i j k, Only (split '\n' input) (assignment "id" idOld) i ∧
        Only (split '\n' input) (assignment "min" minOld) j ∧
        Only (split '\n' input) (assignment "max_exclusive" maxOld) k ∧
        split '\n' output = (((split '\n' input).set i (assignment "id" idNew)).set j
          (assignment "min" minNew)).set k (assignment "max_exclusive" maxNew) := by
  have hidmin : ∀ v v', assignment "id" v ≠ assignment "min" v' :=
    assignment_ne (by decide) (by decide) (by decide)
  have hidmax : ∀ v v', assignment "id" v ≠ assignment "max_exclusive" v' :=
    assignment_ne (by decide) (by decide) (by decide)
  have hminmax : ∀ v v', assignment "min" v ≠ assignment "max_exclusive" v' :=
    assignment_ne (by decide) (by decide) (by decide)
  -- a line found at `i` in one text is no other line there
  have hother : ∀ {lines : List String} {a b : String} {i : ℕ}, Only lines a i → a ≠ b →
      lines[i]? ≠ some b := by
    intro lines a b i honly hne h
    rw [(honly i).mpr rfl] at h
    exact hne (Option.some.inj h)
  simp only [List.foldlM_cons, List.foldlM_nil, except_bind_ok, replaceLine_ok hid,
    replaceLine_ok hmin, replaceLine_ok hmax, pure, Except.pure, Except.ok.injEq]
  constructor
  · rintro ⟨text, ⟨i, hi, htext⟩, text', ⟨j, hj, htext'⟩, _, ⟨k, hk, hout⟩, rfl⟩
    have hmax' : (split '\n' text)[j]? ≠ some (assignment "max_exclusive" maxOld) :=
      hother hj (hminmax _ _)
    rw [htext, only_set (hidmin _ _) (hother hi (hidmin _ _))] at hj
    rw [htext', only_set (hminmax _ _) hmax', htext,
      only_set (hidmax _ _) (hother hi (hidmax _ _))] at hk
    exact ⟨i, j, k, hi, hj, hk, by rw [hout, htext', htext]⟩
  · rintro ⟨i, j, k, hi, hj, hk, hout⟩
    have htext := @split_set input _ hid i
    have htext' := @split_set (join '\n' ((split '\n' input).set i (assignment "id" idNew))) _ hmin j
    have hj' := (only_set (hidmin idNew minOld) (hother hi (hidmin _ _))).mpr hj
    have hk' := (only_set (hidmax idNew maxOld) (hother hi (hidmax _ _))).mpr hk
    refine ⟨_, ⟨i, hi, htext⟩, _, ⟨j, by rwa [htext], htext'⟩, _, ⟨k, ?_, ?_⟩, rfl⟩
    · rw [htext', htext, only_set (hminmax _ _) (hother hj' (hminmax _ _))]
      exact hk'
    · rw [htext', htext]
      exact hout

/-- Retargeting succeeds on exactly the texts that can be edited so. -/
theorem retarget_ok {toml : String → Except String Profile} {input id kernelRelease output : String} :
    retarget toml input id kernelRelease = .ok output ↔ ∃ original restored kernel i j k,
      Writes kernelRelease kernel ∧
        Retargeted toml input id output original restored kernel i j k := by
  have hnumeric : ∀ {kernel : KernelVersion}, Writes kernelRelease kernel → kernel.patch + 1 < 2 ^ 64 →
      ∀ patch, patch = kernel.patch ∨ patch = kernel.patch + 1 →
        '\n' ∉ (numericRelease kernel.major kernel.minor patch).toList := by
    intro kernel hwrites hpatch patch hor
    obtain ⟨hmajor, hminor, _⟩ := Writes.lt hwrites
    refine newline_notMem_numericRelease (v := ⟨kernel.major, kernel.minor, patch⟩) hmajor hminor ?_
    rcases hor with rfl | rfl <;> dsimp only <;> omega
  constructor
  · intro h
    simp only [retarget, except_bind_ok, refuse_ok, mapError_ok, need_ok, checkedSucc_eq_some,
      parseRelease_ok, not_or, not_not, Bool.not_eq_true, Bool.not_eq_false, Option.isSome_eq_false_iff,
      Option.isNone_iff_eq_none, pure, Except.pure, Except.ok.injEq] at h
    obtain ⟨original, hparsed, _, hcandidate, _, ⟨hne, hsafe⟩, kernel, hwrites, _, ⟨rfl, hpatch⟩, text,
      hedit, restored, hreparsed, _, hsame, rfl⟩ := h
    rw [replacements_ok (newline_notMem_assignment (by decide) (newline_notMem_safe hsafe))
      (newline_notMem_assignment (by decide) (hnumeric hwrites hpatch _ (Or.inl rfl)))
      (newline_notMem_assignment (by decide) (hnumeric hwrites hpatch _ (Or.inr rfl)))] at hedit
    obtain ⟨i, j, k, hi, hj, hk, hlines⟩ := hedit
    exact ⟨original, restored, kernel, i, j, k, hwrites, hparsed, hcandidate, ⟨hsafe, hne⟩, hpatch, hi, hj,
      hk, hlines, hreparsed, hsame⟩
  · rintro ⟨original, restored, kernel, i, j, k, hwrites, h⟩
    have hedit := (replacements_ok
      (newline_notMem_assignment (by decide) (newline_notMem_safe h.fresh.1))
      (newline_notMem_assignment (by decide) (hnumeric hwrites h.patch _ (Or.inl rfl)))
      (newline_notMem_assignment (by decide) (hnumeric hwrites h.patch _ (Or.inr rfl)))).mpr
      ⟨i, j, k, h.idLine, h.minLine, h.maxLine, h.lines⟩
    simp only [retarget, except_bind_ok, refuse_ok, mapError_ok, need_ok, checkedSucc_eq_some,
      parseRelease_ok, not_or, not_not, Bool.not_eq_true, Bool.not_eq_false, Option.isSome_eq_false_iff,
      Option.isNone_iff_eq_none, pure, Except.pure, Except.ok.injEq]
    exact ⟨original, h.parsed, (), h.candidate, (), ⟨h.fresh.2, h.fresh.1⟩, kernel, hwrites, _,
      ⟨rfl, h.patch⟩, output, hedit, restored, h.reparsed, (), h.same, rfl⟩

/-! ### What the edit means -/

/-- The bounds that are written hold one version only. -/
theorem written_range {kernel : KernelVersion} {kernelRelease : String}
    (hwrites : Writes kernelRelease kernel) (hpatch : kernel.patch + 1 < 2 ^ 64) {profile : Profile}
    (hmin : profile.kernel.min = numericRelease kernel.major kernel.minor kernel.patch)
    (hmax : profile.kernel.maxExclusive = numericRelease kernel.major kernel.minor (kernel.patch + 1))
    (v : KernelVersion) : kernelMatches profile v = true ↔ v = kernel := by
  obtain ⟨hmajor, hminor, hlt⟩ := Writes.lt hwrites
  have hlow := parseRelease_ok.mpr (writes_numericRelease hmajor hminor hlt)
  have hhigh := parseRelease_ok.mpr
    (writes_numericRelease (v := ⟨kernel.major, kernel.minor, kernel.patch + 1⟩) hmajor hminor hpatch)
  simp only [kernelMatches, hmin, hmax, hlow, hhigh, Bool.and_eq_true, decide_eq_true_eq,
    kernelVersion_le_iff, kernelVersion_lt_iff]
  obtain ⟨major, minor, patch⟩ := kernel
  obtain ⟨major', minor', patch'⟩ := v
  simp only [KernelVersion.mk.injEq]
  omega

theorem restore_eq {original restored : Profile} (h : restore original restored = original) :
    restored = { original with
      id := restored.id
      kernel := { original.kernel with
        min := restored.kernel.min
        maxExclusive := restored.kernel.maxExclusive } } := by
  rw [← h]
  rfl

variable {toml : String → Except String Profile} {input id output : String}
  {original restored : Profile} {kernel : KernelVersion} {i j k : ℕ}

/-- The three lines stand at three places. -/
theorem Retargeted.distinct (h : Retargeted toml input id output original restored kernel i j k) :
    i ≠ j ∧ i ≠ k ∧ j ≠ k := by
  have hne : ∀ {a b : String} {m n : ℕ}, Only (split '\n' input) a m → Only (split '\n' input) b n →
      a ≠ b → m ≠ n := by
    intro a b m n ha hb hab hmn
    have hget := (ha m).mpr rfl
    rw [hmn, (hb n).mpr rfl] at hget
    exact hab (Option.some.inj hget).symm
  exact ⟨hne h.idLine h.minLine (assignment_ne (by decide) (by decide) (by decide) _ _),
    hne h.idLine h.maxLine (assignment_ne (by decide) (by decide) (by decide) _ _),
    hne h.minLine h.maxLine (assignment_ne (by decide) (by decide) (by decide) _ _)⟩

theorem Retargeted.frame (h : Retargeted toml input id output original restored kernel i j k) :
    SameBut [i, j, k] (split '\n' input) (split '\n' output) := by
  rw [h.lines]
  exact ((sameBut_set _ i _).trans (sameBut_set _ j _)).trans (sameBut_set _ k _)

/-- Retargeting edits three lines and nothing else, each where the original profile's own stands and
    none of them twice; what it gives reads back as the original but for the id and the bounds, and
    the bounds that are written hold the given release's numbers alone. Any other text is refused. -/
theorem retarget_exact (toml : String → Except String Profile) (input id kernelRelease : String) :
    (∀ output, retarget toml input id kernelRelease = .ok output →
      ∃ original restored kernel i j k, Writes kernelRelease kernel ∧
        Retargeted toml input id output original restored kernel i j k ∧
        (i ≠ j ∧ i ≠ k ∧ j ≠ k) ∧ SameBut [i, j, k] (split '\n' input) (split '\n' output) ∧
        (assignment "id" id ≠ assignment "min" original.kernel.min ∧
          assignment "id" id ≠ assignment "max_exclusive" original.kernel.maxExclusive ∧
          ∀ bound, assignment "min" bound ≠
            assignment "max_exclusive" original.kernel.maxExclusive) ∧
        restored = { original with
          id := restored.id
          kernel := { original.kernel with
            min := restored.kernel.min
            maxExclusive := restored.kernel.maxExclusive } } ∧
        ∀ profile : Profile,
          profile.kernel.min = numericRelease kernel.major kernel.minor kernel.patch →
          profile.kernel.maxExclusive =
            numericRelease kernel.major kernel.minor (kernel.patch + 1) →
          ∀ v, kernelMatches profile v = true ↔ v = kernel) ∧
    ((¬∃ output original restored kernel i j k, Writes kernelRelease kernel ∧
        Retargeted toml input id output original restored kernel i j k) →
      ∃ message, retarget toml input id kernelRelease = .error message) := by
  refine ⟨?_, ?_⟩
  · intro output hok
    obtain ⟨original, restored, kernel, i, j, k, hwrites, h⟩ := retarget_ok.mp hok
    refine ⟨original, restored, kernel, i, j, k, hwrites, h, h.distinct, h.frame, ⟨?_, ?_, ?_⟩,
      restore_eq h.same, ?_⟩
    · exact assignment_ne (by decide) (by decide) (by decide) _ _
    · exact assignment_ne (by decide) (by decide) (by decide) _ _
    · exact fun _ => assignment_ne (by decide) (by decide) (by decide) _ _
    · exact fun profile hmin hmax => written_range hwrites h.patch hmin hmax
  · intro hno
    cases hresult : retarget toml input id kernelRelease with
    | error message => exact ⟨message, rfl⟩
    | ok output =>
      obtain ⟨original, restored, kernel, i, j, k, h⟩ := retarget_ok.mp hresult
      exact absurd ⟨output, original, restored, kernel, i, j, k, h⟩ hno

end NpuStack.Xtask
