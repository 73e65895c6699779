import NpuStack.Schemes.Interaction
import NpuStack.Schemes.LineEdit
import NpuStack.Schemes.PyValue

/-! `generate-release-profile.py`: the release profile, an accepted candidate with signed digests.

        [components.x]      ◀─ header: x is current        line starts with `[`: none is current
        sha256 = "u…"       ──▶  sha256 = "s…"             once under a header
        provider = {…}

    The lines are scanned as text and the result is parsed again, but only its digests are compared.
    What the scan takes for a digest line may be text of a multi-line string, and is rewritten too;
    the rewriting is exact if and only if that does not happen (`rewrite_exact_iff`). -/

namespace NpuStack.Packaging.ReleaseProfile
open Interaction Text Py

/-- Why a profile is refused. -/
inductive Refusal where
  | message (text : String)
  /-- The text ends with the value as `str` writes it. -/
  | about (text : String) (value : Value)
  /-- An exception of Python's own. -/
  | raised

/-! ### The signed inventory -/

structure Entry where
  name : String
  nevr : String
  role : String
  unsignedSha256 : String
  signedSha256 : String
  deriving DecidableEq, Repr

/-- `[0-9a-f]{64}`, matched whole. -/
def isHex64 (value : String) : Bool := Py.len value = 64 && all isLowerHex value

/-- `digest(value)`: the pattern takes strings only, and a false value counts as an empty one. -/
def digest : Value → Except Refusal Bool
  | .str s => return isHex64 s
  | v => if v.truthy = true then .error .raised else return false

/-- A nonempty text. -/
def field (entry : Value) (key : String) : Except Refusal String :=
  need (((entry.index key).bind Value.asStr).filter (· ≠ "")) (.message "incomplete signed identity entry")

def loadEntry (byName : List (String × Entry)) (entry : Value) : Except Refusal (List (String × Entry)) := do
  refuse (entry.asDict = none) (.message "signed identity package entries must be objects")
  let name ← field entry "name"
  let nevr ← field entry "nevr"
  let role ← field entry "role"
  let unsignedSha256 ← field entry "unsigned_sha256"
  let signedSha256 ← field entry "signed_sha256"
  refuse (isHex64 unsignedSha256 = false ∨ isHex64 signedSha256 = false)
    (.message ("invalid signed identity digest for " ++ name))
  refuse (unsignedSha256 = signedSha256)
    (.message ("signed digest equals the unsigned digest for " ++ name))
  refuse (name ∈ byName.map Prod.fst) (.message "duplicate signed identity package")
  return byName ++ [(name, ⟨name, nevr, role, unsignedSha256, signedSha256⟩)]

/-- The identity, once parsed as JSON, with its packages by name. -/
def loadIdentity (identity : Value) : Except Refusal (Value × List (String × Entry)) := do
  refuse (identity.asDict = none) (.message "unexpected JSON shape")
  let is (key : String) (test : Value → Bool) : Bool := (identity.index key).any test
  refuse (!(is "passed" Value.isTrue && (is "test_only" Value.isTrue ||
      (is "test_only" Value.isFalse && is "production_ready" Value.isTrue))) = true)
    (.message "signed identity must be a passed test-only or production-ready record")
  let packages ← need (((identity.index "packages").bind Value.asList).filter (· ≠ []))
    (.message "signed identity lists no packages")
  let byName ← packages.foldlM loadEntry []
  return (identity, byName)

/-! ### The candidate -/

/-- A component's digest in the candidate, and its signed one. -/
structure Rewrite where
  component : String
  candidate : String
  signed : String
  deriving DecidableEq, Repr

/-- `d.get(key)`, where it raises on what has no `get`. -/
def get (v : Value) (key : String) : Except Refusal Value := need (v.get key) .raised

/-- `[0-9]+\.[0-9]+\.[0-9]+`, matched whole. -/
def isReleaseVersion (release : String) : Bool :=
  (split '.' release).length = 3 && (split '.' release).all isDigits

def checkDocument (document : Value) (expectedStatus : String) : Except Refusal Unit := do
  let schemaVersion ← get document "schema_version"
  refuse (schemaVersion.eq (.int 1) = false) (.message "unsupported candidate schema version")
  let status ← get document "status"
  refuse (status.eq (.str expectedStatus) = false)
    (.message ("profile status must be " ++ expectedStatus ++ " for this identity class"))
  if expectedStatus = "qualified" then
    let evidence ← get document "qualification"
    refuse (!(evidence.asDict.isSome && ((evidence.index "evidence_sha256").any Value.truthy)) = true)
      (.message "qualified profile requires its qualification evidence record")
  let packageManager ← get document "package_manager"
  refuse (packageManager.eq (.str "rpm") = false) (.message "candidate is not an rpm profile")
  let release ← get document "stack_release"
  refuse (!(release.asStr.any isReleaseVersion) = true)
    (.message "candidate stack_release must be a numeric triple")
  let profileId ← get document "id"
  refuse (!(profileId.asStr.any (· ≠ "")) = true) (.message "candidate has no profile id")

/-- The components, a table that is not empty. -/
def components (document : Value) : Option (List (String × Value)) :=
  ((document.index "components").bind Value.asDict).filter fun items => !items.isEmpty

def checkComponent (byName : List (String × Entry)) (item : String × Value) : Except Refusal Rewrite := do
  let (capability, component) := item
  refuse (component.asDict = none) (.message ("component is not a table: " ++ capability))
  let provider ← get component "provider"
  refuse (provider.asDict = none) (.message ("component lacks a provider: " ++ capability))
  let name ← get provider "package"
  let entry ← need (name.asStr.bind fun name => byName.lookup name)
    (.about "component provider is absent from the signed inventory: " name)
  refuse (entry.role ≠ "runtime") (.about "component provider is not a runtime package: " name)
  let version ← get provider "version"
  refuse (version.eq (.str entry.nevr) = false)
    (.message ("component provider NEVR does not match the signed inventory: " ++ capability))
  let candidate ← get component "sha256"
  let valid ← digest candidate
  refuse (valid = false) (.message ("component lacks a valid digest: " ++ capability))
  let candidate ← need candidate.asStr .raised
  refuse (candidate ≠ entry.unsignedSha256)
    (.message ("component digest does not bind the accepted unsigned provider build: " ++ capability))
  return ⟨capability, candidate, entry.signedSha256⟩

/-! ### The scan -/

def nameChar (c : Char) : Bool := c.isAlphanum || c = '_' || c = '-'

/-- `^\[components\.([A-Za-z0-9_-]+)\]$` -/
def componentHeader (line : String) : Option String := do
  let rest ← stripPrefix "[components." line
  let name ← stripSuffix "]" rest
  if name ≠ "" && all nameChar name then some name else none

def digestLine (sha256 : String) : String := "sha256 = \"" ++ sha256 ++ "\""

/-- `^sha256 = "([0-9a-f]{64})"$` -/
def digestOf (line : String) : Option String := do
  let rest ← stripPrefix "sha256 = \"" line
  let sha256 ← stripSuffix "\"" rest
  if isHex64 sha256 then some sha256 else none

/-- The rewritten lines and the components seen, with the current component and whether its digest
    line is behind. -/
def scan (rewrites : List Rewrite) : Option String → Bool → List String →
    Except Refusal (List String × List String)
  | _, _, [] => return ([], [])
  | current, consumed, line :: rest =>
    if startsWith "[" line = true then do
      let header := (componentHeader line).filter (· ∈ rewrites.map Rewrite.component)
      let (lines, seen) ← scan rewrites header false rest
      return (line :: lines, seen)
    else
      match current, digestOf line with
      | some component, some sha256 => do
        refuse (consumed = true)
          (.message ("multiple top-level digest lines for component: " ++ component))
        let rewrite ← need (rewrites.find? (·.component = component)) .raised
        refuse (sha256 ≠ rewrite.candidate)
          (.message ("component digest line does not match the parsed document: " ++ component))
        let (lines, seen) ← scan rewrites current true rest
        return (digestLine rewrite.signed :: lines, component :: seen)
      | _, _ => do
        let (lines, seen) ← scan rewrites current consumed rest
        return (line :: lines, seen)

def checkRewritten (byName : List (String × Entry)) (item : String × Value) : Except Refusal Unit := do
  let (capability, component) := item
  let provider ← get component "provider"
  refuse (provider.asDict = none) (.message ("rewritten component lacks a provider: " ++ capability))
  let name ← get provider "package"
  refuse (name.hashable = false) .raised
  let entry ← need (name.asStr.bind fun name => byName.lookup name)
    (.message ("rewritten provider left the inventory: " ++ capability))
  let sha256 ← get component "sha256"
  refuse (sha256.eq (.str entry.signedSha256) = false)
    (.message ("internal error: component digest rewrite failed for " ++ capability))

section
variable (loads : String → Except String Value)

/-- Sorted by name, as the components are. -/
def collect (byName : List (String × Entry)) (document : Value) : Except Refusal (List Rewrite) := do
  let items ← need (components document) (.message "candidate has no components")
  (items.mergeSort fun a b => a.1 ≤ b.1).mapM (checkComponent byName)

/-- What the rewritten text parses to is checked once more. -/
def recheck (byName : List (String × Entry)) (expectedStatus output : String) : Except Refusal Unit := do
  let rewritten ← (loads output).mapError fun e => .message ("rewritten profile is not valid TOML: " ++ e)
  let status ← get rewritten "status"
  refuse (status.eq (.str expectedStatus) = false) (.message "rewrite changed the profile status")
  let items ← need (components rewritten) (.message "rewritten profile lost its components")
  forM items (checkRewritten byName)

def rewrite (candidate : Bytes) (byName : List (String × Entry)) (expectedStatus : String) :
    Except Refusal (Bytes × Value × List Rewrite) := do
  let text ← need (fromUtf8 candidate) .raised
  let document ← (loads text).mapError fun e => .message ("candidate profile is not valid TOML: " ++ e)
  checkDocument document expectedStatus
  let rewrites ← collect byName document
  let (lines, seen) ← scan rewrites none false (split '\n' text)
  let missing := (rewrites.map Rewrite.component).filter fun component => component ∉ seen
  refuse (missing ≠ []) (.message
    ("component digest line not found or unexpectedly formatted for: " ++ join ',' missing))
  let output := join '\n' lines
  recheck loads byName expectedStatus output
  return (utf8 output, document, rewrites)

end

/-! ### What an exact rewriting is -/

/-- A digest line, of any digest. -/
def IsDigestLine (line : String) : Prop := ∃ sha256, digestOf line = some sha256

/-- The same lines but for the digests of digest lines. -/
def SameShape (ls ls' : List String) : Prop :=
  List.Forall₂ (fun l l' => l = l' ∨ IsDigestLine l ∧ IsDigestLine l') ls ls'

/-- Names of the components. -/
def names (document : Value) : List String := ((components document).getD []).map Prod.fst

/-- A value of a component's own table. -/
def fieldOf (document : Value) (component key : String) : Option Value :=
  ((document.index "components").bind (Value.index component)).bind (Value.index key)

/-- The document with these digests of its components, where there is one. -/
def withDigests (digests : String → Option String) : Value → Value :=
  Value.mapItems fun key value =>
    if key = "components" then
      Value.mapItems (fun component => Value.mapItems fun key value =>
        if key = "sha256" then ((digests component).map Value.str).getD value else value) value
    else value

/-- This digest of this component. -/
def single (component sha256 name : String) : Option String := if name = component then some sha256 else none

section
variable (loads : String → Except String Value)

/-- The digest line of the component's own table: whatever digests the text's digest lines hold, a new
    digest on this line is the component's, and changes nothing else in the document. -/
def Own (ls : List String) (i : ℕ) (component : String) : Prop :=
  (∃ line, ls[i]? = some line ∧ IsDigestLine line) ∧
    ∀ ls' document, SameShape ls ls' → loads (join '\n' ls') = .ok document → ∀ sha256,
      isHex64 sha256 = true → loads (join '\n' (ls'.set i (digestLine sha256))) =
        .ok (withDigests (single component sha256) document)

/-- The digest signed for the component's provider. -/
def SignedFor (byName : List (String × Entry)) (document : Value) (component sha256 : String) : Prop :=
  ∃ provider name entry, fieldOf document component "provider" = some provider ∧
    provider.index "package" = some (.str name) ∧ byName.lookup name = some entry ∧
    sha256 = entry.signedSha256

/-- One line for each component differs, its table's digest line, and of the document only the
    components' digests, which become the signed ones. -/
def Exact (byName : List (String × Entry)) (document : Value) (text output : String) : Prop :=
  ∃ (place : String → ℕ) (signed : String → Option String),
    LineEdit.SameBut ((names document).map place) (split '\n' text) (split '\n' output) ∧
      (∀ component ∈ names document, Own loads (split '\n' text) (place component) component ∧
        ∃ sha256, signed component = some sha256 ∧ SignedFor byName document component sha256 ∧
          (split '\n' output)[place component]? = some (digestLine sha256)) ∧
      loads output = .ok (withDigests signed document)

end

/-- The line reads as a digest line, and the last line above it that begins with a bracket reads as
    the header of the component. -/
def Taken (components : List String) (ls : List String) (i : ℕ) (component : String) : Prop :=
  (∃ line, ls[i]? = some line ∧ IsDigestLine line) ∧ ∃ h < i,
    (∃ header, ls[h]? = some header ∧ componentHeader header = some component ∧ component ∈ components) ∧
    ∀ k, h < k → k < i → ∀ line, ls[k]? = some line → startsWith "[" line = false

/-! ### Digest lines and headers -/

theorem digestOf_eq_some {line sha256 : String} :
    digestOf line = some sha256 ↔ line = digestLine sha256 ∧ isHex64 sha256 = true := by
  simp only [digestOf, bind, Option.bind_eq_some_iff, stripPrefix_eq_some, stripSuffix_eq_some,
    Option.ite_none_right_eq_some, Option.some.injEq]
  constructor
  · rintro ⟨rest, rfl, _, rfl, hhex, rfl⟩
    exact ⟨by rw [digestLine, String.append_assoc], hhex⟩
  · rintro ⟨rfl, hhex⟩
    exact ⟨_, by rw [digestLine, String.append_assoc], _, rfl, hhex, rfl⟩

theorem digestOf_digestLine {sha256 : String} (h : isHex64 sha256 = true) :
    digestOf (digestLine sha256) = some sha256 := digestOf_eq_some.mpr ⟨rfl, h⟩

theorem digestLine_inj {a b : String} (h : digestLine a = digestLine b) : a = b := by
  have hlist := congrArg String.toList h
  simpa [digestLine, String.toList_inj] using hlist

theorem digestLine_free {sha256 : String} (h : isHex64 sha256 = true) :
    '\n' ∉ (digestLine sha256).toList := by
  have hfree : '\n' ∉ sha256.toList := by
    intro hmem
    rw [isHex64, Bool.and_eq_true] at h
    have hhex := all_iff.mp h.2 _ hmem
    revert hhex
    decide
  simp [digestLine, hfree]

/-- A digest line does not begin with a bracket. -/
theorem IsDigestLine.not_bracket {line : String} (h : IsDigestLine line) : startsWith "[" line = false := by
  obtain ⟨sha256, h⟩ := h
  obtain ⟨rfl, -⟩ := digestOf_eq_some.mp h
  rw [← Bool.not_eq_true, startsWith_iff]
  rintro ⟨rest, hrest⟩
  have hlist := congrArg String.toList hrest
  simp [digestLine] at hlist

/-- A header begins with a bracket. -/
theorem bracket_of_header {line component : String} (h : componentHeader line = some component) :
    startsWith "[" line = true := by
  simp only [componentHeader, bind, Option.bind_eq_some_iff, stripPrefix_eq_some] at h
  obtain ⟨rest, rfl, -⟩ := h
  refine startsWith_iff.mpr ⟨"components." ++ rest, ?_⟩
  rw [← String.append_assoc]
  rfl

theorem SameShape.refl (ls : List String) : SameShape ls ls := by
  induction ls with
  | nil => exact .nil
  | cons l ls ih => exact .cons (.inl rfl) ih

/-- Another digest on a digest line. -/
theorem SameShape.set {ls ls' : List String} (h : SameShape ls ls') {i : ℕ} {line sha256 : String}
    (hline : ls[i]? = some line) (hdigest : IsDigestLine line) (hhex : isHex64 sha256 = true) :
    SameShape ls (ls'.set i (digestLine sha256)) := by
  induction h generalizing i with
  | nil => cases hline
  | @cons l l' ls ls' hl h ih =>
    cases i with
    | zero =>
      obtain rfl : l = line := Option.some.inj hline
      exact .cons (.inr ⟨hdigest, sha256, digestOf_digestLine hhex⟩) h
    | succ i => exact .cons hl (ih hline)

/-! ### What the scan takes -/

/-- The component that is current after the line. -/
def next (components : List String) (current : Option String) (line : String) : Option String :=
  if startsWith "[" line = true then (componentHeader line).filter (· ∈ components) else current

/-- `Taken`, or a digest line before any bracket while the component is current. -/
def TakenFrom (components : List String) (current : Option String) (ls : List String) (i : ℕ)
    (component : String) : Prop :=
  Taken components ls i component ∨ current = some component ∧
    (∃ line, ls[i]? = some line ∧ IsDigestLine line) ∧
    ∀ k < i, ∀ line, ls[k]? = some line → startsWith "[" line = false

theorem takenFrom_none {components ls : List String} {i : ℕ} {component : String} :
    TakenFrom components none ls i component ↔ Taken components ls i component := by
  constructor
  · rintro (h | ⟨h, -⟩)
    · exact h
    · cases h
  · exact .inl

theorem takenFrom_zero {components : List String} {current : Option String} {line : String}
    {rest : List String} {component : String} :
    TakenFrom components current (line :: rest) 0 component ↔
      current = some component ∧ IsDigestLine line := by
  constructor
  · rintro (⟨-, h, hlt, -⟩ | ⟨hcurrent, ⟨line', hline, hdigest⟩, -⟩)
    · omega
    · obtain rfl : line = line' := Option.some.inj hline
      exact ⟨hcurrent, hdigest⟩
  · rintro ⟨hcurrent, hdigest⟩
    refine .inr ⟨hcurrent, ⟨line, rfl, hdigest⟩, ?_⟩
    intro k hk
    omega

/-- A line further down is taken as it is after the first line. -/
theorem takenFrom_succ {components : List String} {current : Option String} {line : String}
    {rest : List String} {i : ℕ} {component : String} :
    TakenFrom components current (line :: rest) (i + 1) component ↔
      TakenFrom components (next components current line) rest i component := by
  constructor
  · rintro (⟨hdigest, h, hlt, ⟨header, hheader, hname, hmem⟩, hplain⟩ | ⟨hcurrent, hdigest, hplain⟩)
    · have hrest : ∀ k, h < k + 1 → k < i → ∀ l, rest[k]? = some l → startsWith "[" l = false :=
        fun k hk hki l hl => hplain (k + 1) hk (by omega) l hl
      cases h with
      | zero =>
        obtain rfl : line = header := Option.some.inj hheader
        refine .inr ⟨?_, hdigest, fun k hk => hrest k (by omega) hk⟩
        rw [next, if_pos (bracket_of_header hname), hname]
        simp [hmem]
      | succ h =>
        exact .inl ⟨hdigest, h, by omega, ⟨header, hheader, hname, hmem⟩,
          fun k hk => hrest k (by omega)⟩
    · have hline : startsWith "[" line = false := hplain 0 (by omega) line rfl
      refine .inr ⟨?_, hdigest, fun k hk l hl => hplain (k + 1) (by omega) l hl⟩
      rw [next, hline]
      exact hcurrent
  · rintro (⟨hdigest, h, hlt, hheader, hplain⟩ | ⟨hnext, hdigest, hplain⟩)
    · refine .inl ⟨hdigest, h + 1, by omega, hheader, ?_⟩
      intro k hk hki l hl
      obtain ⟨k, rfl⟩ : ∃ j, k = j + 1 := ⟨k - 1, by omega⟩
      exact hplain k (by omega) (by omega) l hl
    · rw [next] at hnext
      split at hnext
      · obtain ⟨hname, hmem⟩ := Option.filter_eq_some_iff.mp hnext
        refine .inl ⟨hdigest, 0, by omega, ⟨line, rfl, hname, by simpa using hmem⟩, ?_⟩
        intro k hk hki l hl
        obtain ⟨k, rfl⟩ : ∃ j, k = j + 1 := ⟨k - 1, by omega⟩
        exact hplain k (by omega) l hl
      · next hline =>
        refine .inr ⟨hnext, hdigest, ?_⟩
        intro k hk l hl
        cases k with
        | zero =>
          obtain rfl : line = l := Option.some.inj hl
          simpa using hline
        | succ k => exact hplain k (by omega) l hl

/-- What the scan does to one line. -/
def Rewritten (rewrites : List Rewrite) (current : Option String) (ls : List String) (i : ℕ)
    (line' : Option String) : Prop :=
  (∀ component, TakenFrom (rewrites.map Rewrite.component) current ls i component →
    ∃ r ∈ rewrites, r.component = component ∧ ls[i]? = some (digestLine r.candidate) ∧
      line' = some (digestLine r.signed)) ∧
  ((∀ component, ¬TakenFrom (rewrites.map Rewrite.component) current ls i component) → line' = ls[i]?)

theorem scan_ok {rewrites : List Rewrite} {ls : List String} : ∀ {current : Option String}
    {consumed : Bool} {lines seen : List String}, scan rewrites current consumed ls = .ok (lines, seen) →
    ls.length = lines.length ∧ ∀ i, Rewritten rewrites current ls i lines[i]? := by
  induction ls with
  | nil =>
    intro current consumed lines seen h
    cases h
    refine ⟨rfl, fun i => ⟨?_, fun _ => rfl⟩⟩
    rintro component (⟨⟨line, hline, -⟩, -⟩ | ⟨-, ⟨line, hline, -⟩, -⟩) <;> cases hline
  | cons line rest ih =>
    intro current consumed lines seen h
    have hcons : ∀ {lines' : List String} {line' : String} {consumed' : Bool} {seen' : List String},
        scan rewrites (next (rewrites.map Rewrite.component) current line) consumed' rest =
          .ok (lines', seen') → Rewritten rewrites current (line :: rest) 0 (some line') →
        (line :: rest).length = (line' :: lines').length ∧
          ∀ i, Rewritten rewrites current (line :: rest) i (line' :: lines')[i]? := by
      intro lines' line' consumed' seen' hrest hfirst
      obtain ⟨hlength, hrewritten⟩ := ih hrest
      refine ⟨congrArg (· + 1) hlength, fun i => ?_⟩
      cases i with
      | zero => exact hfirst
      | succ i =>
        refine ⟨fun component htaken => ?_, fun hnone => ?_⟩
        · exact (hrewritten i).1 component (takenFrom_succ.mp htaken)
        · exact (hrewritten i).2 fun component htaken => hnone component (takenFrom_succ.mpr htaken)
    have hkept : (∀ component, ¬(current = some component ∧ IsDigestLine line)) →
        Rewritten rewrites current (line :: rest) 0 (some line) := by
      intro hnone
      refine ⟨fun component htaken => ?_, fun _ => rfl⟩
      exact absurd (takenFrom_zero.mp htaken) (hnone component)
    rw [scan.eq_def] at h
    dsimp only at h
    split at h
    · next hbracket =>
      simp only [except_bind_ok, pure, Except.pure, Except.ok.injEq, Prod.mk.injEq] at h
      obtain ⟨⟨lines', seen'⟩, hrest, rfl, rfl⟩ := h
      refine @hcons _ _ false seen' ?_ (hkept ?_)
      · rw [next, if_pos hbracket]
        exact hrest
      · rintro component ⟨-, hdigest⟩
        rw [hdigest.not_bracket] at hbracket
        cases hbracket
    next hbracket =>
    have hnext : next (rewrites.map Rewrite.component) current line = current := by
      rw [next, if_neg hbracket]
    rw [hnext] at hcons
    split at h
    · next component sha256 hdigest =>
      simp only [except_bind_ok, refuse_ok, need_ok, not_not, pure, Except.pure, Except.ok.injEq,
        Prod.mk.injEq] at h
      obtain ⟨_, _, rewrite, hfind, _, rfl, ⟨lines', seen'⟩, hrest, rfl, rfl⟩ := h
      have hline := (digestOf_eq_some.mp hdigest).1
      have hname : rewrite.component = component := by simpa using List.find?_some hfind
      refine hcons hrest ⟨fun name htaken => ?_, fun hnone => ?_⟩
      · obtain ⟨hcurrent, -⟩ := takenFrom_zero.mp htaken
        refine ⟨rewrite, List.mem_of_find?_eq_some hfind, ?_, congrArg some hline, rfl⟩
        exact hname.trans (Option.some.inj hcurrent)
      · exact absurd (takenFrom_zero.mpr ⟨rfl, _, hdigest⟩) (hnone component)
    · next hother =>
      simp only [except_bind_ok, pure, Except.pure, Except.ok.injEq, Prod.mk.injEq] at h
      obtain ⟨⟨lines', seen'⟩, hrest, rfl, rfl⟩ := h
      refine hcons hrest (hkept ?_)
      rintro component ⟨rfl, sha256, hdigest⟩
      exact hother component sha256 rfl hdigest

/-! ### Documents -/

theorem fieldOf_withDigests (digests : String → Option String) (document : Value)
    (component key : String) :
    fieldOf (withDigests digests document) component key = (fieldOf document component key).map fun value =>
      if key = "sha256" then ((digests component).map Value.str).getD value else value := by
  rw [fieldOf, fieldOf, withDigests, Value.index_mapItems]
  cases document.index "components" with
  | none => rfl
  | some tables =>
    rw [Option.map_some, if_pos rfl, Option.bind_some, Option.bind_some, Value.index_mapItems]
    cases tables.index component with
    | none => rfl
    | some table => rw [Option.map_some, Option.bind_some, Option.bind_some, Value.index_mapItems]

theorem withDigests_withDigests (f g : String → Option String) (document : Value) :
    withDigests f (withDigests g document) = withDigests (fun c => (f c).or (g c)) document := by
  rw [withDigests, withDigests, withDigests, Value.mapItems_mapItems]
  congr 1
  funext key value
  split
  · rw [Value.mapItems_mapItems]
    congr 1
    funext component table
    rw [Value.mapItems_mapItems]
    congr 1
    funext key value
    split
    · cases f component <;> rfl
    · rfl
  · rfl

theorem withDigests_none (document : Value) : withDigests (fun _ => none) document = document := by
  refine Value.mapItems_id (fun key value => ?_) document
  split
  · refine Value.mapItems_id (fun component table => ?_) value
    refine Value.mapItems_id (fun key value => ?_) table
    split <;> rfl
  · rfl

/-- The components are those of the document, by name. -/
theorem components_eq_some {document : Value} {items : List (String × Value)}
    (h : components document = some items) : document.index "components" = some (.dict items) := by
  obtain ⟨h, -⟩ := Option.filter_eq_some_iff.mp h
  obtain ⟨tables, htables, hdict⟩ := Option.bind_eq_some_iff.mp h
  rw [htables]
  cases tables with
  | dict _ => exact congrArg some (congrArg Value.dict (Option.some.inj hdict))
  | _ => cases hdict

theorem names_withDigests (digests : String → Option String) (document : Value) :
    names (withDigests digests document) = names document := by
  rw [names, names, components, components, withDigests, Value.index_mapItems]
  cases document.index "components" with
  | none => rfl
  | some tables =>
    rw [Option.map_some, if_pos rfl, Option.bind_some, Option.bind_some]
    cases tables with
    | dict items => cases items <;> simp [Value.mapItems, Value.asDict, Option.filter]
    | _ => rfl

/-- A named component has a table among the items. -/
theorem exists_table {document : Value} {items : List (String × Value)} {component : String}
    (h : components document = some items) (hmem : component ∈ names document) :
    ∃ table, items.lookup component = some table ∧
      ∀ key, fieldOf document component key = table.index key := by
  rw [names, h, Option.getD_some] at hmem
  obtain ⟨item, hitem, rfl⟩ := List.mem_map.mp hmem
  obtain ⟨table, htable⟩ := Option.isSome_iff_exists.mp (Keyed.lookup_isSome hitem)
  refine ⟨table, htable, fun key => ?_⟩
  rw [fieldOf, components_eq_some h, Option.bind_some, Value.index, htable, Option.bind_some]

/-! ### The checks -/

theorem eq_str {v : Value} {s : String} (h : v.eq (.str s) = true) : v = .str s := by
  cases v with
  | str t =>
    rw [Value.eq, decide_eq_true_eq] at h
    rw [h]
  | float value => cases value <;> simp [Value.eq, Value.number] at h
  | _ => simp [Value.eq, Value.number] at h

/-- What `get` finds, when it is not the default. -/
theorem index_of_get {v value : Value} {key : String} (h : get v key = .ok value) (hne : value ≠ .none) :
    v.index key = some value := by
  rw [get, need_ok] at h
  cases v with
  | dict items =>
    rw [Value.get, Option.some.injEq] at h
    rw [Value.index]
    cases hlookup : items.lookup key with
    | none =>
      rw [hlookup, Option.getD_none] at h
      exact absurd h.symm hne
    | some found =>
      rw [hlookup, Option.getD_some] at h
      rw [h]
  | _ => cases h

theorem loadEntry_ok {byName byName' : List (String × Entry)} {entry : Value}
    (h : loadEntry byName entry = .ok byName') : ∃ name e, byName' = byName ++ [(name, e)] ∧
      isHex64 e.unsignedSha256 = true ∧ isHex64 e.signedSha256 = true ∧
      e.unsignedSha256 ≠ e.signedSha256 := by
  simp only [loadEntry, except_bind_ok, refuse_ok, not_or, Bool.not_eq_false, pure, Except.pure,
    Except.ok.injEq] at h
  obtain ⟨_, _, name, _, nevr, _, role, _, unsigned, _, signed, _, _, ⟨hunsigned, hsigned⟩, _, hne, _, _, rfl⟩ := h
  exact ⟨name, _, rfl, hunsigned, hsigned, hne⟩

/-- Every package of the inventory has two digests, and they differ. -/
theorem loadEntries_ok {entries : List Value} : ∀ {byName byName' : List (String × Entry)},
    entries.foldlM loadEntry byName = .ok byName' →
    (∀ item ∈ byName, isHex64 item.2.signedSha256 = true ∧ item.2.unsignedSha256 ≠ item.2.signedSha256) →
    ∀ item ∈ byName', isHex64 item.2.signedSha256 = true ∧ item.2.unsignedSha256 ≠ item.2.signedSha256 := by
  induction entries with
  | nil =>
    intro byName byName' h hbyName
    cases h
    exact hbyName
  | cons entry entries ih =>
    intro byName byName' h hbyName
    rw [List.foldlM_cons, except_bind_ok] at h
    obtain ⟨byName₁, hentry, hrest⟩ := h
    obtain ⟨name, e, rfl, -, hsigned, hne⟩ := loadEntry_ok hentry
    refine ih hrest ?_
    intro item hitem
    rcases List.mem_append.mp hitem with hitem | hitem
    · exact hbyName item hitem
    · obtain rfl := List.mem_singleton.mp hitem
      exact ⟨hsigned, hne⟩

theorem loadIdentity_ok {identity identity' : Value} {byName : List (String × Entry)}
    (h : loadIdentity identity = .ok (identity', byName)) {name : String} {entry : Entry}
    (hentry : byName.lookup name = some entry) :
    isHex64 entry.signedSha256 = true ∧ entry.unsignedSha256 ≠ entry.signedSha256 := by
  simp only [loadIdentity, except_bind_ok, pure, Except.pure, Except.ok.injEq, Prod.mk.injEq] at h
  obtain ⟨_, _, _, _, packages, _, byName', hfold, _, rfl⟩ := h
  exact loadEntries_ok hfold (fun item hitem => by cases hitem) _ (Keyed.mem_of_lookup hentry)

/-- The inventory's entry for the provider of a component's table. -/
def Signs (byName : List (String × Entry)) (table : Value) (entry : Entry) : Prop :=
  ∃ provider name, table.index "provider" = some provider ∧
    provider.index "package" = some (.str name) ∧ byName.lookup name = some entry

theorem checkComponent_ok {byName : List (String × Entry)} {item : String × Value} {r : Rewrite}
    (h : checkComponent byName item = .ok r) : ∃ entry, Signs byName item.2 entry ∧
      item.2.index "sha256" = some (.str entry.unsignedSha256) ∧
      r = ⟨item.1, entry.unsignedSha256, entry.signedSha256⟩ := by
  simp only [checkComponent, except_bind_ok, refuse_ok, need_ok, not_not, Bool.not_eq_false, pure,
    Except.pure, Except.ok.injEq] at h
  obtain ⟨_, _, provider, hprovider, _, hdict, package, hpackage, entry, hentry, _, _, version, _, _, _,
    candidate, hcandidate, valid, _, _, _, sha256, hsha256, _, rfl, rfl⟩ := h
  obtain ⟨name, hname, hlookup⟩ := Option.bind_eq_some_iff.mp hentry
  obtain rfl : package = .str name := by
    cases package <;> first | cases hname; rfl | cases hname
  obtain rfl : candidate = .str entry.unsignedSha256 := by
    cases candidate <;> first | cases hsha256; rfl | cases hsha256
  refine ⟨entry, ⟨provider, name, index_of_get hprovider ?_, index_of_get hpackage (by simp), hlookup⟩,
    index_of_get hcandidate (by simp), rfl⟩
  rintro rfl
  exact hdict rfl

theorem checkRewritten_ok {byName : List (String × Entry)} {item : String × Value}
    (h : checkRewritten byName item = .ok ()) : ∃ entry, Signs byName item.2 entry ∧
      item.2.index "sha256" = some (.str entry.signedSha256) := by
  simp only [checkRewritten, except_bind_ok, refuse_ok, need_ok, Bool.not_eq_false] at h
  obtain ⟨provider, hprovider, _, hdict, package, hpackage, _, _, entry, hentry, sha256, hsha256, heq⟩ := h
  obtain ⟨name, hname, hlookup⟩ := Option.bind_eq_some_iff.mp hentry
  obtain rfl : package = .str name := by
    cases package <;> first | cases hname; rfl | cases hname
  obtain rfl := eq_str heq
  refine ⟨entry, ⟨provider, name, index_of_get hprovider ?_, index_of_get hpackage (by simp), hlookup⟩,
    index_of_get hsha256 (by simp)⟩
  rintro rfl
  exact hdict rfl

/-- A table's provider has one entry. -/
theorem Signs.entry_eq {byName : List (String × Entry)} {table table' : Value} {entry entry' : Entry}
    (h : Signs byName table entry) (h' : Signs byName table' entry')
    (heq : table'.index "provider" = table.index "provider") : entry' = entry := by
  obtain ⟨provider, name, hprovider, hname, hentry⟩ := h
  obtain ⟨provider', name', hprovider', hname', hentry'⟩ := h'
  rw [heq, hprovider] at hprovider'
  cases hprovider'
  rw [hname] at hname'
  cases hname'
  exact Option.some.inj (hentry'.symm.trans hentry)

/-! ### Own lines -/

section
variable {loads : String → Except String Value}

/-- There is a digest other than the given one. -/
theorem exists_other (sha256 : String) : ∃ other, isHex64 other = true ∧ other ≠ sha256 := by
  have hhex : isHex64 (String.ofList (List.replicate 64 '0')) = true ∧
      isHex64 (String.ofList (List.replicate 64 '1')) = true := by decide
  by_cases h : String.ofList (List.replicate 64 '0') = sha256
  · refine ⟨String.ofList (List.replicate 64 '1'), hhex.2, ?_⟩
    rw [← h]
    decide
  · exact ⟨_, hhex.1, h⟩

/-- A component with a digest has one own line. -/
theorem Own.unique {ls : List String} {i j : ℕ} {component : String} (hi : Own loads ls i component)
    (hj : Own loads ls j component) {document value : Value} (hloads : loads (join '\n' ls) = .ok document)
    (hvalue : fieldOf document component "sha256" = some value) : i = j := by
  by_contra hne
  obtain ⟨⟨lineJ, hlineJ, shaJ, hshaJ⟩, hownJ⟩ := hj
  obtain ⟨⟨lineI, hlineI, hdigestI⟩, hownI⟩ := hi
  obtain ⟨rfl, hhexJ⟩ := digestOf_eq_some.mp hshaJ
  obtain ⟨other, hother, hotherNe⟩ := exists_other shaJ
  -- With another digest on line `i`, line `j` still holds its own: two digests of one component.
  have hshape : SameShape ls (ls.set i (digestLine other)) := (SameShape.refl ls).set hlineI hdigestI hother
  have hedited := hownI ls document (SameShape.refl ls) hloads other hother
  have hagain := hownJ _ _ hshape hedited shaJ hhexJ
  have hget : (ls.set i (digestLine other))[j]? = some (digestLine shaJ) := by
    rw [List.getElem?_set, if_neg hne]
    exact hlineJ
  have hset : (ls.set i (digestLine other)).set j (digestLine shaJ) = ls.set i (digestLine other) := by
    obtain ⟨hlt, hget⟩ := List.getElem?_eq_some_iff.mp hget
    rw [← hget, List.set_getElem_self]
  rw [hset, hedited] at hagain
  have hfields := congrArg (fun d => fieldOf d component "sha256") (Except.ok.inj hagain)
  simp only [fieldOf_withDigests, hvalue, single, if_true, Option.map_some, Option.getD_some,
    Option.some.injEq, Value.str.injEq] at hfields
  exact hotherNe hfields

/-- Where two texts differ at own lines only, their documents differ in these components' digests. -/
theorem loads_sameBut {ls lines : List String} {places : List ℕ} : ∀ {current : List String}
    {document : Value}, SameShape ls current → loads (join '\n' current) = .ok document →
    LineEdit.SameBut places current lines →
    (∀ i ∈ places, ∃ component sha256, Own loads ls i component ∧ isHex64 sha256 = true ∧
      lines[i]? = some (digestLine sha256)) →
    ∃ digests : String → Option String, loads (join '\n' lines) = .ok (withDigests digests document) ∧
      ∀ component sha256, digests component = some sha256 →
        ∃ i, Own loads ls i component ∧ lines[i]? = some (digestLine sha256) := by
  induction places with
  | nil =>
    intro current document _ hloads hsame _
    have heq : current = lines := List.ext_getElem? fun i => hsame.2 i List.not_mem_nil
    refine ⟨fun _ => none, ?_, fun _ _ h => by cases h⟩
    rw [withDigests_none, ← heq]
    exact hloads
  | cons i places ih =>
    intro current document hshape hloads hsame hown
    obtain ⟨component, sha256, hi, hhex, hline⟩ := hown i List.mem_cons_self
    obtain ⟨⟨line, hlineI, hdigest⟩, hedit⟩ := id hi
    have hsame' : LineEdit.SameBut places (current.set i (digestLine sha256)) lines := by
      refine ⟨by rw [List.length_set, hsame.1], fun j hj => ?_⟩
      rw [List.getElem?_set]
      split
      · next hij =>
        subst hij
        rw [hline, if_pos]
        rw [hsame.1]
        exact (List.getElem?_eq_some_iff.mp hline).1
      · next hij =>
        refine hsame.2 j fun hmem => ?_
        rcases List.mem_cons.mp hmem with rfl | hmem
        · exact hij rfl
        · exact hj hmem
    obtain ⟨digests, hloads', hdigests⟩ := ih (hshape.set hlineI hdigest hhex)
      (hedit current document hshape hloads sha256 hhex) hsame'
      fun j hj => hown j (List.mem_cons_of_mem _ hj)
    refine ⟨_, hloads'.trans (congrArg Except.ok (withDigests_withDigests _ _ _)), ?_⟩
    intro name other hname
    rcases Option.or_eq_some_iff.mp hname with h | ⟨-, h⟩
    · exact hdigests name other h
    · rw [single] at h
      split at h
      · next heq =>
        obtain rfl := heq
        obtain rfl : sha256 = other := Option.some.inj h
        exact ⟨i, hi, hline⟩
      · cases h

/-! ### The rewriting -/

theorem rewrite_ok {candidate bytes : Bytes} {byName : List (String × Entry)} {expectedStatus : String}
    {document : Value} {rewrites : List Rewrite} :
    rewrite loads candidate byName expectedStatus = .ok (bytes, document, rewrites) ↔
      ∃ text lines seen, candidate = utf8 text ∧ loads text = .ok document ∧
        checkDocument document expectedStatus = .ok () ∧ collect byName document = .ok rewrites ∧
        scan rewrites none false (split '\n' text) = .ok (lines, seen) ∧
        (rewrites.map Rewrite.component).filter (fun component => component ∉ seen) = [] ∧
        recheck loads byName expectedStatus (join '\n' lines) = .ok () ∧ bytes = utf8 (join '\n' lines) := by
  simp only [rewrite, except_bind_ok, need_ok, fromUtf8_eq_some, mapError_ok, refuse_ok, not_not, pure,
    Except.pure, Except.ok.injEq, Prod.mk.injEq]
  constructor
  · rintro ⟨text, hcandidate, document', hloads, _, hdocument, rewrites', hcollect, ⟨lines, seen⟩, hscan, _,
      hmissing, _, hrecheck, rfl, rfl, rfl⟩
    exact ⟨text, lines, seen, hcandidate, hloads, hdocument, hcollect, hscan, hmissing, hrecheck, rfl⟩
  · rintro ⟨text, lines, seen, hcandidate, hloads, hdocument, hcollect, hscan, hmissing, hrecheck, rfl⟩
    exact ⟨text, hcandidate, document, hloads, (), hdocument, rewrites, hcollect, (lines, seen), hscan, (),
      hmissing, (), hrecheck, rfl, rfl, rfl⟩

/-- The collected digests are the components', each with its provider's. -/
theorem collect_ok {byName : List (String × Entry)} {document : Value} {rewrites : List Rewrite}
    (h : collect byName document = .ok rewrites) : ∃ items, components document = some items ∧
      (∀ item ∈ items, ∃ entry, Signs byName item.2 entry ∧
        item.2.index "sha256" = some (.str entry.unsignedSha256)) ∧
      (∀ component, component ∈ rewrites.map Rewrite.component ↔ component ∈ names document) ∧
      ∀ r ∈ rewrites, ∃ name entry, byName.lookup name = some entry ∧
        r.candidate = entry.unsignedSha256 ∧ r.signed = entry.signedSha256 := by
  simp only [collect, except_bind_ok, need_ok, except_mapM_ok] at h
  obtain ⟨items, hitems, hall⟩ := h
  have hmem : ∀ item, item ∈ items.mergeSort (fun a b => a.1 ≤ b.1) ↔ item ∈ items :=
    fun item => List.mem_mergeSort
  have hkeys : rewrites.map Rewrite.component = (items.mergeSort fun a b => a.1 ≤ b.1).map Prod.fst := by
    refine (Keyed.map_eq_of_forall₂ (hall.imp fun item r hitem => ?_)).symm
    obtain ⟨entry, -, -, rfl⟩ := checkComponent_ok hitem
    rfl
  refine ⟨items, hitems, fun item hitem => ?_, fun component => ?_, fun r hr => ?_⟩
  · obtain ⟨r, -, hr⟩ := Keyed.exists_of_mem_left hall item ((hmem item).mpr hitem)
    obtain ⟨entry, hsigns, hsha256, -⟩ := checkComponent_ok hr
    exact ⟨entry, hsigns, hsha256⟩
  · rw [hkeys, names, hitems, Option.getD_some]
    exact ((List.mergeSort_perm items _).map Prod.fst).mem_iff
  · obtain ⟨item, -, hitem⟩ := Keyed.exists_of_mem_right hall r hr
    obtain ⟨entry, ⟨provider, name, -, -, hentry⟩, -, rfl⟩ := checkComponent_ok hitem
    exact ⟨name, entry, hentry, rfl, rfl⟩

theorem recheck_ok {byName : List (String × Entry)} {expectedStatus output : String}
    (h : recheck loads byName expectedStatus output = .ok ()) : ∃ document items,
      loads output = .ok document ∧ components document = some items ∧ ∀ item ∈ items, ∃ entry,
        Signs byName item.2 entry ∧ item.2.index "sha256" = some (.str entry.signedSha256) := by
  simp only [recheck, except_bind_ok, mapError_ok, need_ok, refuse_ok] at h
  obtain ⟨document, hloads, status, _, _, _, items, hitems, hall⟩ := h
  exact ⟨document, items, hloads, hitems, fun item hitem => checkRewritten_ok (except_forM_ok.mp hall item hitem)⟩

/-- A rewriting that succeeded, by what its two texts and documents are. -/
structure Succeeded (loads : String → Except String Value) (byName : List (String × Entry))
    (text : String) (document : Value) (lines : List String) : Prop where
  parses : loads text = .ok document
  splits : split '\n' (join '\n' lines) = lines
  length : (split '\n' text).length = lines.length
  taken : ∀ i component, Taken (names document) (split '\n' text) i component →
    ∃ candidate signed, (split '\n' text)[i]? = some (digestLine candidate) ∧ candidate ≠ signed ∧
      isHex64 signed = true ∧ lines[i]? = some (digestLine signed)
  kept : ∀ i, (∀ component, ¬Taken (names document) (split '\n' text) i component) →
    lines[i]? = (split '\n' text)[i]?
  candidate : ∀ component ∈ names document, ∃ entry table, Signs byName table entry ∧
    (∀ key, fieldOf document component key = table.index key) ∧
    entry.unsignedSha256 ≠ entry.signedSha256 ∧
    table.index "sha256" = some (.str entry.unsignedSha256)
  signed : ∃ document', loads (join '\n' lines) = .ok document' ∧
    ∀ component ∈ names document', ∃ entry table, Signs byName table entry ∧
      (∀ key, fieldOf document' component key = table.index key) ∧
      table.index "sha256" = some (.str entry.signedSha256)

theorem succeeded {identity identity' : Value} {byName : List (String × Entry)} {candidate bytes : Bytes}
    {expectedStatus : String} {document : Value} {rewrites : List Rewrite}
    (hload : loadIdentity identity = .ok (identity', byName))
    (h : rewrite loads candidate byName expectedStatus = .ok (bytes, document, rewrites)) :
    ∃ text lines, candidate = utf8 text ∧ bytes = utf8 (join '\n' lines) ∧
      Succeeded loads byName text document lines := by
  obtain ⟨text, lines, seen, hcandidate, hloads, -, hcollect, hscan, -, hrecheck, hbytes⟩ := rewrite_ok.mp h
  obtain ⟨items, hitems, hcomponents, hnames, hrewrites⟩ := collect_ok hcollect
  obtain ⟨document', items', hloads', hitems', hchecked⟩ := recheck_ok hrecheck
  obtain ⟨hlength, hrewritten⟩ := scan_ok hscan
  have htaken : ∀ i component, Taken (names document) (split '\n' text) i component ↔
      TakenFrom (rewrites.map Rewrite.component) none (split '\n' text) i component := by
    intro i component
    rw [takenFrom_none]
    simp only [Taken, hnames]
  have hedit : ∀ i component, Taken (names document) (split '\n' text) i component →
      ∃ candidate signed, (split '\n' text)[i]? = some (digestLine candidate) ∧ candidate ≠ signed ∧
        isHex64 signed = true ∧ lines[i]? = some (digestLine signed) := by
    intro i component hi
    obtain ⟨r, hr, -, hline, hline'⟩ := (hrewritten i).1 component ((htaken i component).mp hi)
    obtain ⟨name, entry, hentry, hcand, hsigned⟩ := hrewrites r hr
    obtain ⟨hhex, hne⟩ := loadIdentity_ok hload hentry
    refine ⟨r.candidate, r.signed, hline, ?_, ?_, hline'⟩
    · rw [hcand, hsigned]
      exact hne
    · rw [hsigned]
      exact hhex
  have hkept : ∀ i, (∀ component, ¬Taken (names document) (split '\n' text) i component) →
      lines[i]? = (split '\n' text)[i]? :=
    fun i hi => (hrewritten i).2 fun component hfrom => hi component ((htaken i component).mpr hfrom)
  refine ⟨text, lines, hcandidate, hbytes, hloads, ?_, hlength, hedit, hkept, ?_, document', hloads', ?_⟩
  · refine split_join (fun l hl => ?_) fun hnil => split_ne_nil '\n' text ?_
    · obtain ⟨i, hi⟩ := List.mem_iff_getElem?.mp hl
      by_cases hany : ∃ component, Taken (names document) (split '\n' text) i component
      · obtain ⟨component, hany⟩ := hany
        obtain ⟨_, signed, -, -, hhex, hline⟩ := hedit i component hany
        obtain rfl : digestLine signed = l := Option.some.inj (hline.symm.trans hi)
        exact digestLine_free hhex
      · rw [hkept i (not_exists.mp hany)] at hi
        exact split_free (List.mem_of_getElem? hi)
    · rw [← List.length_eq_zero_iff, hlength, hnil]
      rfl
  · intro component hmem
    obtain ⟨table, htable, hfields⟩ := exists_table hitems hmem
    obtain ⟨entry, hsigns, hsha256⟩ := hcomponents _ (Keyed.mem_of_lookup htable)
    obtain ⟨_, name, -, -, hentry⟩ := id hsigns
    exact ⟨entry, table, hsigns, hfields, (loadIdentity_ok hload hentry).2, hsha256⟩
  · intro component hmem
    obtain ⟨table, htable, hfields⟩ := exists_table hitems' hmem
    obtain ⟨entry, hsigns, hsha256⟩ := hchecked _ (Keyed.mem_of_lookup htable)
    exact ⟨entry, table, hsigns, hfields, hsha256⟩

/-- Where the scan takes own lines only, the rewriting is exact. -/
theorem Succeeded.exact {byName : List (String × Entry)} {text : String} {document : Value}
    {lines : List String} (h : Succeeded loads byName text document lines)
    (hown : ∀ i component, Taken (names document) (split '\n' text) i component →
      ∃ component' ∈ names document, Own loads (split '\n' text) i component') :
    Exact loads byName document text (join '\n' lines) := by
  have hparses : loads (join '\n' (split '\n' text)) = .ok document := by
    rw [join_split]
    exact h.parses
  -- The lines that differ are taken, so they are own lines.
  have hdiffers : ∀ i, (split '\n' text)[i]? ≠ lines[i]? →
      ∃ component' ∈ names document, Own loads (split '\n' text) i component' ∧
        ∃ sha256, isHex64 sha256 = true ∧ lines[i]? = some (digestLine sha256) := by
    intro i hne
    by_contra hnone
    refine hne (h.kept i fun component htaken => hnone ?_).symm
    obtain ⟨component', hmem, hi⟩ := hown i component htaken
    obtain ⟨_, signed, -, -, hhex, hline⟩ := h.taken i component htaken
    exact ⟨component', hmem, hi, signed, hhex, hline⟩
  have hplaces : LineEdit.SameBut
      ((List.range lines.length).filter fun i => (split '\n' text)[i]? ≠ lines[i]?) (split '\n' text) lines := by
    refine ⟨h.length, fun i hi => ?_⟩
    by_contra hne
    refine hi (List.mem_filter.mpr ⟨List.mem_range.mpr ?_, by simpa using hne⟩)
    obtain ⟨_, -, -, sha256, -, hline⟩ := hdiffers i hne
    exact (List.getElem?_eq_some_iff.mp hline).1
  obtain ⟨digests, hloads, hdigests⟩ := loads_sameBut (SameShape.refl _) hparses hplaces (by
    intro i hi
    obtain ⟨component', -, hi, sha256, hhex, hline⟩ :=
      hdiffers i (by simpa using (List.mem_filter.mp hi).2)
    exact ⟨component', sha256, hi, hhex, hline⟩)
  obtain ⟨document', hloads', hsigned⟩ := h.signed
  rw [hloads] at hloads'
  cases hloads'
  -- Each component's digest became the signed one, on its own line.
  have hplace : ∀ component ∈ names document, ∃ i sha256, Own loads (split '\n' text) i component ∧
      digests component = some sha256 ∧ SignedFor byName document component sha256 ∧
      lines[i]? = some (digestLine sha256) := by
    intro component hmem
    obtain ⟨entry, table, hsigns, hfields, hne, hsha256⟩ := h.candidate component hmem
    obtain ⟨entry', table', hsigns', hfields', hsha256'⟩ :=
      hsigned component (by rwa [names_withDigests])
    have hprovider : table'.index "provider" = table.index "provider" := by
      rw [← hfields, ← hfields', fieldOf_withDigests]
      cases fieldOf document component "provider" <;> rfl
    obtain rfl := hsigns.entry_eq hsigns' hprovider
    have hdigest : digests component = some entry'.signedSha256 := by
      rw [← hfields', fieldOf_withDigests, hfields, hsha256, Option.map_some, if_pos rfl] at hsha256'
      have hvalue := Option.some.inj hsha256'
      cases hcomponent : digests component with
      | none =>
        rw [hcomponent, Option.map_none, Option.getD_none, Value.str.injEq] at hvalue
        exact absurd hvalue hne
      | some sha256 =>
        rw [hcomponent, Option.map_some, Option.getD_some, Value.str.injEq] at hvalue
        rw [hvalue]
    obtain ⟨i, hi, hline⟩ := hdigests component _ hdigest
    obtain ⟨provider, name, hprovider, hname, hentry⟩ := hsigns
    refine ⟨i, _, hi, hdigest, ⟨provider, name, entry', ?_, hname, hentry, rfl⟩, hline⟩
    rw [hfields]
    exact hprovider
  choose! place hplace using hplace
  refine ⟨place, digests, ?_, ?_, hloads⟩
  · rw [h.splits]
    refine ⟨h.length, fun i hi => ?_⟩
    by_contra hne
    obtain ⟨component', hmem, hi', -⟩ := hdiffers i hne
    obtain ⟨_, hown', -⟩ := hplace component' hmem
    obtain ⟨entry, table, -, hfields, -, hsha256⟩ := h.candidate component' hmem
    have heq := hi'.unique hown' hparses ((hfields "sha256").trans hsha256)
    exact hi (List.mem_map.mpr ⟨component', hmem, heq.symm⟩)
  · intro component hmem
    obtain ⟨sha256, hi, hdigest, hsigned, hline⟩ := hplace component hmem
    refine ⟨hi, sha256, hdigest, hsigned, ?_⟩
    rw [h.splits]
    exact hline

/-- An exact rewriting takes own lines only. -/
theorem Succeeded.own_of_exact {byName : List (String × Entry)} {text : String} {document : Value}
    {lines : List String} (h : Succeeded loads byName text document lines)
    (hexact : Exact loads byName document text (join '\n' lines)) {i : ℕ} {component : String}
    (htaken : Taken (names document) (split '\n' text) i component) :
    ∃ component' ∈ names document, Own loads (split '\n' text) i component' := by
  obtain ⟨place, signed, hsame, hplaces, -⟩ := hexact
  obtain ⟨candidate, sha256, hline, hne, -, hline'⟩ := h.taken i component htaken
  have hmem : i ∈ (names document).map place := by
    by_contra hnone
    have heq := hsame.2 i hnone
    rw [h.splits, hline, hline'] at heq
    exact hne (digestLine_inj (Option.some.inj heq))
  obtain ⟨component', hcomponent, rfl⟩ := List.mem_map.mp hmem
  exact ⟨component', hcomponent, (hplaces component' hcomponent).1⟩

/-- A rewriting that succeeds is exact if and only if every line that reads as a digest line under a
    component's header is the digest line of a component's table. -/
theorem rewrite_exact_iff {identity identity' : Value} {byName : List (String × Entry)}
    {candidate bytes : Bytes} {expectedStatus : String} {document : Value} {rewrites : List Rewrite}
    (hload : loadIdentity identity = .ok (identity', byName))
    (h : rewrite loads candidate byName expectedStatus = .ok (bytes, document, rewrites)) :
    ∃ text output, candidate = utf8 text ∧ bytes = utf8 output ∧
      (Exact loads byName document text output ↔
        ∀ i component, Taken (names document) (split '\n' text) i component →
          ∃ component' ∈ names document, Own loads (split '\n' text) i component') := by
  obtain ⟨text, lines, hcandidate, hbytes, hsucceeded⟩ := succeeded hload h
  refine ⟨text, join '\n' lines, hcandidate, hbytes, ?_, hsucceeded.exact⟩
  intro hexact i component htaken
  exact hsucceeded.own_of_exact hexact htaken

end

/-! ### A note that quotes a component -/

def UNSIGNED : String := String.ofList (List.replicate 64 'a')

def SIGNED : String := String.ofList (List.replicate 64 'b')

/-- A candidate whose note holds the text of a component's table. -/
def noteLines (quoted own : String) : List String :=
  ["schema_version = 1", "status = \"candidate\"", "package_manager = \"rpm\"",
    "stack_release = \"0.1.0\"", "id = \"p\"", "note = \"\"\"", "[components.a]", digestLine quoted,
    "\"\"\"", "[components.a]", digestLine own, "provider = \x7b package = \"k\", version = \"v\" \x7d"]

def noteDocument (quoted own : String) : Value :=
  .dict [("schema_version", .int 1), ("status", .str "candidate"), ("package_manager", .str "rpm"),
    ("stack_release", .str "0.1.0"), ("id", .str "p"),
    ("note", .str ("[components.a]\n" ++ digestLine quoted ++ "\n")),
    ("components", .dict [("a", .dict [("sha256", .str own),
      ("provider", .dict [("package", .str "k"), ("version", .str "v")])])])]

/-- The parser, on these texts. -/
def noteLoads (text : String) : Except String Value :=
  let ls := split '\n' text
  match ls[7]?.bind digestOf, ls[10]?.bind digestOf with
  | some quoted, some own =>
    if ls = noteLines quoted own then .ok (noteDocument quoted own) else .error "another text"
  | _, _ => .error "another text"

def noteIdentity : Value :=
  .dict [("passed", .bool true), ("test_only", .bool true), ("packages", .list [.dict [("name", .str "k"),
    ("nevr", .str "v"), ("role", .str "runtime"), ("unsigned_sha256", .str UNSIGNED),
    ("signed_sha256", .str SIGNED)]])]

def noteByName : List (String × Entry) := [("k", ⟨"k", "v", "runtime", UNSIGNED, SIGNED⟩)]

theorem isHex64_digests : isHex64 UNSIGNED = true ∧ isHex64 SIGNED = true := by decide

theorem split_noteLines {quoted own : String} (hquoted : isHex64 quoted = true)
    (hown : isHex64 own = true) : split '\n' (join '\n' (noteLines quoted own)) = noteLines quoted own := by
  refine split_join ?_ (by simp [noteLines])
  have hq := digestLine_free hquoted
  have ho := digestLine_free hown
  simp only [noteLines, List.forall_mem_cons, List.not_mem_nil, false_imp_iff, implies_true, and_true]
  exact ⟨by decide, by decide, by decide, by decide, by decide, by decide, by decide, hq, by decide,
    by decide, ho, by decide⟩

theorem noteLoads_ok {quoted own : String} (hquoted : isHex64 quoted = true) (hown : isHex64 own = true) :
    noteLoads (join '\n' (noteLines quoted own)) = .ok (noteDocument quoted own) := by
  have hq : (noteLines quoted own)[7]?.bind digestOf = some quoted := digestOf_digestLine hquoted
  have ho : (noteLines quoted own)[10]?.bind digestOf = some own := digestOf_digestLine hown
  simp only [noteLoads, split_noteLines hquoted hown, hq, ho, if_true]

theorem noteIdentity_ok : loadIdentity noteIdentity = .ok (noteIdentity, noteByName) := by
  rfl

theorem note_scan : scan [⟨"a", UNSIGNED, SIGNED⟩] none false (noteLines UNSIGNED UNSIGNED) =
    .ok (noteLines SIGNED SIGNED, ["a", "a"]) := by
  rfl

theorem note_rewrite :
    rewrite noteLoads (utf8 (join '\n' (noteLines UNSIGNED UNSIGNED))) noteByName "candidate" =
      .ok (utf8 (join '\n' (noteLines SIGNED SIGNED)), noteDocument UNSIGNED UNSIGNED,
        [⟨"a", UNSIGNED, SIGNED⟩]) := by
  obtain ⟨hunsigned, hsigned⟩ := isHex64_digests
  refine rewrite_ok.mpr ⟨_, noteLines SIGNED SIGNED, ["a", "a"], rfl, noteLoads_ok hunsigned hunsigned,
    ?_, ?_, ?_, ?_, ?_, rfl⟩
  · rfl
  · refine except_bind_ok.mpr ⟨_, need_ok.mpr rfl, ?_⟩
    rw [List.mergeSort_singleton]
    rfl
  · rw [split_noteLines hunsigned hunsigned]
    exact note_scan
  · rfl
  · rw [recheck, noteLoads_ok hsigned hsigned]
    rfl

theorem note_exact_iff : ∃ text output,
    utf8 (join '\n' (noteLines UNSIGNED UNSIGNED)) = utf8 text ∧
      utf8 (join '\n' (noteLines SIGNED SIGNED)) = utf8 output ∧
      (Exact noteLoads noteByName (noteDocument UNSIGNED UNSIGNED) text output ↔
        ∀ i component, Taken (names (noteDocument UNSIGNED UNSIGNED)) (split '\n' text) i component →
          ∃ component' ∈ names (noteDocument UNSIGNED UNSIGNED), Own noteLoads (split '\n' text) i component') :=
  rewrite_exact_iff noteIdentity_ok note_rewrite

/-- The quoted digest is rewritten with the component's. -/
theorem note_not_exact : loadIdentity noteIdentity = .ok (noteIdentity, noteByName) ∧
    rewrite noteLoads (utf8 (join '\n' (noteLines UNSIGNED UNSIGNED))) noteByName "candidate" =
      .ok (utf8 (join '\n' (noteLines SIGNED SIGNED)), noteDocument UNSIGNED UNSIGNED,
        [⟨"a", UNSIGNED, SIGNED⟩]) ∧
    ¬Exact noteLoads noteByName (noteDocument UNSIGNED UNSIGNED) (join '\n' (noteLines UNSIGNED UNSIGNED))
      (join '\n' (noteLines SIGNED SIGNED)) := by
  refine ⟨noteIdentity_ok, note_rewrite, ?_⟩
  rintro ⟨place, signed, hsame, -⟩
  obtain ⟨hunsigned, hsigned⟩ := isHex64_digests
  rw [split_noteLines hunsigned hunsigned, split_noteLines hsigned hsigned] at hsame
  have hne : digestLine UNSIGNED ≠ digestLine SIGNED := fun h => absurd (digestLine_inj h) (by decide)
  -- One component has one place, and lines 7 and 10 differ.
  have hplace : ∀ i, i ≠ place "a" →
      (noteLines UNSIGNED UNSIGNED)[i]? = (noteLines SIGNED SIGNED)[i]? :=
    fun i hi => hsame.2 i fun hmem => hi (List.mem_singleton.mp hmem)
  have h7 : 7 = place "a" := by
    by_contra h
    exact hne (Option.some.inj (hplace 7 h))
  have h10 : 10 = place "a" := by
    by_contra h
    exact hne (Option.some.inj (hplace 10 h))
  omega

end NpuStack.Packaging.ReleaseProfile
