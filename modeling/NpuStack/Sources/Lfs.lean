import NpuStack.Schemes.Interaction
import NpuStack.Sources.TarCrate

/-! Materialising Git LFS objects. The raw archive is read once for pointers; without one it is
    copied, else every entry is appended again under its own header, pointers with their objects.

        raw ─┬─ no pointer ──copy────────────▶ raw
             └─ a pointer ───append, append…─▶ own headers, contents, objects

    What was folded into an entry is not written again (`materialize_preserves_iff`). -/

namespace NpuStack.Sources
open Interaction
open Text (Bytes utf8 fromUtf8 startsWith stripPrefix parseUnsigned isLowerHex)

def MAX_LFS_POINTER_BYTES : ℕ := 1024

structure SourceBundleError where
  code : String
  message : String
  deriving DecidableEq, Repr

def ioError (context error : String) : SourceBundleError :=
  ⟨"SOURCE_BUNDLE_IO", context ++ ": " ++ error⟩

/-! ### Pointers -/

structure LfsPointer where
  oid : String
  size : ℕ
  deriving DecidableEq, Repr

def LFS_VERSION : String := "version https://git-lfs.github.com/spec/v1\n"

def pointerInvalid (message : String) : SourceBundleError :=
  ⟨"SOURCE_BUNDLE_LFS_POINTER_INVALID", message⟩

def isLowerHexOf (value : String) (length : ℕ) : Bool :=
  Text.len value = length && Text.all isLowerHex value

/-- A pointer, none for other content, or what is wrong with one. -/
def parseLfsPointer (bytes : Bytes) : Except SourceBundleError (Option LfsPointer) :=
  if !(utf8 LFS_VERSION).isPrefixOf bytes then .ok none
  else do
    let text ← need (fromUtf8 bytes) (pointerInvalid "Git LFS pointer is not UTF-8")
    let lines := Text.lines text
    refuse (lines.length ≠ 3 ∨ !Text.endsWith "\n" text)
      (pointerInvalid "Git LFS pointer does not use the supported canonical form")
    let oid ← need (stripPrefix "oid sha256:" (lines.getD 1 ""))
      (pointerInvalid "Git LFS pointer has no SHA-256 object ID")
    let size ← need (stripPrefix "size " (lines.getD 2 "")) (pointerInvalid "Git LFS pointer has no object size")
    let size ← need (parseUnsigned 64 size) (pointerInvalid "Git LFS pointer size is invalid")
    refuse (!isLowerHexOf oid 64 ∨ size > MAX_LFS_OBJECT_BYTES)
      (pointerInvalid "Git LFS object identity or size is invalid")
    return some ⟨oid, size⟩

/-- The canonical pointer. -/
def pointerText (pointer : LfsPointer) : String :=
  Text.unlines ["version https://git-lfs.github.com/spec/v1", "oid sha256:" ++ pointer.oid,
    "size " ++ pointer.size.repr]

/-- Every canonical pointer of an admissible object is read back. -/
theorem parseLfsPointer_pointerText {pointer : LfsPointer} (hoid : isLowerHexOf pointer.oid 64 = true)
    (hsize : pointer.size ≤ MAX_LFS_OBJECT_BYTES) :
    parseLfsPointer (utf8 (pointerText pointer)) = .ok (some pointer) := by
  have hhex : ∀ c ∈ pointer.oid.toList, isLowerHex c = true :=
    Text.all_iff.mp ((Bool.and_eq_true _ _).mp hoid).2
  have hdigits : ∀ c ∈ pointer.size.repr.toList, c.isDigit = true :=
    Text.all_iff.mp (Bool.and_eq_true _ _ ▸ Text.isDigits_repr pointer.size).2
  have hfree : ∀ l ∈ ["version https://git-lfs.github.com/spec/v1", "oid sha256:" ++ pointer.oid,
      "size " ++ pointer.size.repr], '\n' ∉ l.toList ∧ '\r' ∉ l.toList := by
    have hnone : ∀ (p : Char → Bool) (c : Char) (cs : List Char), (∀ x ∈ cs, p x = true) → p c = false →
        c ∉ cs := fun p c cs hcs hc hmem => by rw [hcs c hmem] at hc; cases hc
    simp only [List.forall_mem_cons, List.not_mem_nil, false_imp_iff, implies_true, and_true,
      String.toList_append, List.mem_append, not_or]
    exact ⟨by decide, ⟨⟨by decide, hnone _ _ _ hhex (by decide)⟩, by decide, hnone _ _ _ hhex (by decide)⟩,
      ⟨by decide, hnone _ _ _ hdigits (by decide)⟩, by decide, hnone _ _ _ hdigits (by decide)⟩
  have hlines := Text.lines_unlines fun l hl => ⟨(hfree l hl).1, by
    by_contra hsome
    obtain ⟨r, hr⟩ := Option.ne_none_iff_exists'.mp hsome
    refine (hfree l hl).2 ?_
    rw [Text.stripSuffix_eq_some.mp hr]
    simp⟩
  have hversion : pointerText pointer = LFS_VERSION ++
      Text.unlines ["oid sha256:" ++ pointer.oid, "size " ++ pointer.size.repr] := by
    rw [pointerText, Text.unlines, LFS_VERSION]
    rfl
  have hpre : (utf8 LFS_VERSION).isPrefixOf (utf8 (pointerText pointer)) = true := by
    rw [hversion, Text.utf8_append, List.isPrefixOf_iff_prefix]
    exact List.prefix_append _ _
  have hends : Text.endsWith "\n" (pointerText pointer) = true := by
    have htext : pointerText pointer = "version https://git-lfs.github.com/spec/v1" ++ "\n" ++
        ("oid sha256:" ++ pointer.oid ++ "\n" ++ ("size " ++ pointer.size.repr)) ++ "\n" := by
      simp [pointerText, Text.unlines, String.append_assoc]
    rw [htext, Text.endsWith, List.isSuffixOf_iff_suffix, String.toList_append]
    exact List.suffix_append _ _
  have hcount : ¬ ((Text.lines (pointerText pointer)).length ≠ 3 ∨
      (!Text.endsWith "\n" (pointerText pointer)) = true) := by
    rw [pointerText, hlines] at *
    simp [hends]
  have hbound : ¬ ((!isLowerHexOf pointer.oid 64) = true ∨ pointer.size > MAX_LFS_OBJECT_BYTES) := by
    simp [hoid, not_lt.mpr hsize]
  rw [parseLfsPointer, hpre]
  refine except_bind_ok.mpr ⟨_, need_ok.mpr (Text.fromUtf8_utf8 _), ?_⟩
  refine except_bind_ok.mpr ⟨⟨⟩, refuse_ok.mpr hcount, ?_⟩
  rw [pointerText, hlines]
  refine except_bind_ok.mpr ⟨_, need_ok.mpr (Text.stripPrefix_append _ _), ?_⟩
  refine except_bind_ok.mpr ⟨_, need_ok.mpr (Text.stripPrefix_append _ _), ?_⟩
  have hrepr : parseUnsigned 64 pointer.size.repr = some pointer.size :=
    Text.parseUnsigned_repr (hsize.trans_lt (by decide))
  refine except_bind_ok.mpr ⟨_, need_ok.mpr hrepr, ?_⟩
  exact except_bind_ok.mpr ⟨⟨⟩, refuse_ok.mpr hbound, rfl⟩

/-! ### The files around it -/

/-- What the paths hold, and how the writes go. -/
structure Files where
  /-- The Git directory of the repository, inside it. -/
  gitDir : Except SourceBundleError Unit
  /-- Opening the raw archive. -/
  raw : Except String Bytes
  /-- The regular file at the object's path inside the Git directory, opened without links. -/
  object : String → Except SourceBundleError Bytes
  /-- Creating the draft, which must not exist. -/
  createDraft : Except SourceBundleError Unit
  /-- Writing and syncing the draft. -/
  writeDraft : Except String Unit
  /-- Renaming the draft to the output. -/
  publish : Except String Unit

section
variable (crate : Crate) (sha256 : Bytes → String) (files : Files)

abbrev Crate.Entry (crate : Crate) : Type := NpuStack.Sources.Entry crate.Header crate.Extensions

def ioResult {α : Type} (context : String) : Except String α → Except SourceBundleError α
  | .ok a => .ok a
  | .error error => .error (ioError context error)

/-- The object's bytes, when they have the pointer's size and digest. -/
def openVerifiedLfsObject (pointer : LfsPointer) : Except SourceBundleError Bytes := do
  let bytes ← files.object pointer.oid
  refuse (bytes.length ≠ pointer.size ∨ sha256 bytes ≠ pointer.oid)
    ⟨"SOURCE_BUNDLE_LFS_OBJECT_INVALID", "Git LFS object size or SHA-256 does not match its pointer"⟩
  return bytes

/-- `entry.header().entry_type().is_file()`. -/
def Crate.isFile (h : crate.Header) : Bool := (crate.attributes crate.none h).isFile

/-- The pointer a file of at most 1024 bytes holds, by its own header. -/
def entryPointer (e : crate.Entry) : Except SourceBundleError (Option LfsPointer) :=
  if crate.isFile e.header then do
    let size ← need (crate.size e.header) (ioError "read archive entry size" "numeric field was not a number")
    if size ≤ MAX_LFS_POINTER_BYTES then parseLfsPointer e.content else return none
  else return none

/-- Whether the read ended before the end. -/
def ended (context : String) : Option String → Except SourceBundleError Unit
  | some error => .error (ioError context error)
  | none => .ok ()

/-- The search for a pointer, which stops at the first. -/
def findPointer : List crate.Entry → Option String → Except SourceBundleError Bool
  | [], failure => do
    ended "read raw archive entry" failure
    return false
  | e :: rest, failure => do
    match ← entryPointer crate e with
    | some _ => return true
    | none => findPointer rest failure

def archiveHasLfsPointers (raw : Bytes) : Except SourceBundleError Bool :=
  findPointer crate (crate.entries raw).entries (crate.entries raw).failure

/-- The header and the data appended for an entry. -/
def materializeEntry (e : crate.Entry) : Except SourceBundleError (crate.Header × Bytes) := do
  match ← entryPointer crate e with
  | some pointer =>
    let object ← openVerifiedLfsObject sha256 files pointer
    return (crate.setCksum (crate.setSize e.header pointer.size), object)
  | none => return (e.header, e.content)

def materializeEntries (raw : Bytes) : Except SourceBundleError Bytes := do
  files.createDraft
  let written ← (crate.entries raw).entries.mapM (materializeEntry crate sha256 files)
  ended "read raw archive entry" (crate.entries raw).failure
  ioResult "append source archive entry" files.writeDraft
  return crate.build written

def copyRawArchive (raw : Bytes) : Except SourceBundleError Bytes := do
  files.createDraft
  ioResult "copy filter-free raw archive" files.writeDraft
  return raw

/-- The draft: appended entries when there are pointers, else a copy. -/
def writeDraft (raw : Bytes) : Bool → Except SourceBundleError Bytes
  | true => materializeEntries crate sha256 files raw
  | false => copyRawArchive files raw

/-- The output archive. -/
def materializeLfsArchive : Except SourceBundleError Bytes := do
  files.gitDir
  let raw ← ioResult "open raw archive" files.raw
  let pointers ← archiveHasLfsPointers crate raw
  let draft ← writeDraft crate sha256 files raw pointers
  ioResult "publish materialized archive" files.publish
  return draft

/-! ### What preserving an archive means -/

/-- The attributes of an entry, with what was folded into it. -/
def Crate.attributesOf (e : crate.Entry) : Attributes := crate.attributes e.extensions e.header

/-- A file of at most 1024 bytes that is a pointer. -/
def IsPointer (e : crate.Entry) : Prop := ∃ pointer, entryPointer crate e = .ok (some pointer)

/-- The content an entry is to have: of a pointer, the cached object of its size and digest. -/
def Content (e : crate.Entry) (content : Bytes) : Prop :=
  (¬ IsPointer crate e ∧ content = e.content) ∨
    ∃ pointer, entryPointer crate e = .ok (some pointer) ∧ files.object pointer.oid = .ok content ∧
      content.length = pointer.size ∧ sha256 content = pointer.oid

/-- The output has an entry for each entry, in order, with the same attributes and the content it is
    to have; without pointers it is the same archive. -/
structure Preserves (raw output : Bytes) : Prop where
  readable : (crate.entries output).failure = none
  entries : List.Forall₂ (fun e e' => crate.attributesOf e' = crate.attributesOf e ∧
    Content crate sha256 files e e'.content) (crate.entries raw).entries (crate.entries output).entries
  copied : (∀ e ∈ (crate.entries raw).entries, ¬ IsPointer crate e) → output = raw

/-- The entry's own header says what it is, and how long it is unless it is a pointer. -/
def OwnHeader (e : crate.Entry) : Prop :=
  crate.attributes crate.none e.header = crate.attributesOf e ∧
    (IsPointer crate e ∨ crate.size e.header = some e.content.length)

/-- No pointer, or nothing that only the folded records say. -/
def Rewritable (raw : Bytes) : Prop :=
  (∀ e ∈ (crate.entries raw).entries, ¬ IsPointer crate e) ∨
    ∀ e ∈ (crate.entries raw).entries, OwnHeader crate e

end

/-! ### The search and the rewriting -/

section
variable {crate : Crate} {sha256 : Bytes → String} {files : Files} {raw output : Bytes}

theorem ended_ok {context : String} {failure : Option String} :
    ended context failure = .ok ⟨⟩ ↔ failure = none := by
  cases failure with
  | none => exact ⟨fun _ => rfl, fun _ => rfl⟩
  | some error => exact ⟨nofun, nofun⟩

/-- Without a pointer the search has read all entries. -/
theorem findPointer_false : ∀ {es : List crate.Entry} {failure : Option String},
    findPointer crate es failure = .ok false → failure = none ∧ ∀ e ∈ es, ¬ IsPointer crate e
  | [], failure, h => by
    rw [findPointer, except_bind_ok] at h
    obtain ⟨_, hended, -⟩ := h
    exact ⟨ended_ok.mp hended, nofun⟩
  | e :: es, failure, h => by
    rw [findPointer, except_bind_ok] at h
    obtain ⟨found, hfound, h⟩ := h
    cases found with
    | some pointer => cases h
    | none =>
      obtain ⟨hfailure, hrest⟩ := findPointer_false h
      refine ⟨hfailure, List.forall_mem_cons.mpr ⟨?_, hrest⟩⟩
      rintro ⟨pointer, hpointer⟩
      rw [hfound] at hpointer
      cases hpointer

theorem findPointer_true : ∀ {es : List crate.Entry} {failure : Option String},
    findPointer crate es failure = .ok true → ∃ e ∈ es, IsPointer crate e
  | [], failure, h => by
    rw [findPointer, except_bind_ok] at h
    obtain ⟨_, -, h⟩ := h
    cases h
  | e :: es, failure, h => by
    rw [findPointer, except_bind_ok] at h
    obtain ⟨found, hfound, h⟩ := h
    cases found with
    | some pointer => exact ⟨e, List.mem_cons_self, pointer, hfound⟩
    | none =>
      obtain ⟨e', he', hpointer⟩ := findPointer_true h
      exact ⟨e', List.mem_cons_of_mem _ he', hpointer⟩

theorem parseLfsPointer_size {bytes : Bytes} {pointer : LfsPointer}
    (h : parseLfsPointer bytes = .ok (some pointer)) : pointer.size ≤ MAX_LFS_OBJECT_BYTES := by
  rw [parseLfsPointer] at h
  split at h
  · cases h
  · simp only [except_bind_ok, refuse_ok, not_or, pure, Except.pure, Except.ok.injEq,
      Option.some.injEq] at h
    obtain ⟨_, -, _, -, _, -, _, -, _, -, _, ⟨-, hsize⟩, rfl⟩ := h
    exact not_lt.mp hsize

theorem entryPointer_size {e : crate.Entry} {pointer : LfsPointer}
    (h : entryPointer crate e = .ok (some pointer)) : pointer.size ≤ MAX_LFS_OBJECT_BYTES := by
  rw [entryPointer] at h
  split at h
  · rw [except_bind_ok] at h
    obtain ⟨size, -, h⟩ := h
    split at h
    · exact parseLfsPointer_size h
    · cases h
  · cases h

/-- What is appended for an entry of the raw archive. -/
structure Appended (crate : Crate) (sha256 : Bytes → String) (files : Files) (e : crate.Entry)
    (h : crate.Header) (content : Bytes) : Prop where
  own : crate.Own h
  attributes : crate.attributes crate.none h = crate.attributes crate.none e.header
  meant : Content crate sha256 files e content
  /-- Its header tells its length exactly when the entry's own header does, or it is an object. -/
  size : crate.size h = some content.length ↔
    IsPointer crate e ∨ crate.size e.header = some e.content.length

theorem materializeEntry_ok (hcrate : crate.Documented) {e : crate.Entry} {h : crate.Header}
    {content : Bytes} (he : e ∈ (crate.entries raw).entries)
    (hok : materializeEntry crate sha256 files e = .ok (h, content)) :
    Appended crate sha256 files e h content := by
  rw [materializeEntry, except_bind_ok] at hok
  obtain ⟨found, hfound, hok⟩ := hok
  cases found with
  | some pointer =>
    simp only [openVerifiedLfsObject, except_bind_ok, refuse_ok, not_or, not_not, pure, Except.pure,
      Except.ok.injEq, Prod.mk.injEq] at hok
    obtain ⟨_, ⟨object, hobject, _, ⟨hlength, hdigest⟩, rfl⟩, rfl, rfl⟩ := hok
    have hsize := entryPointer_size hfound
    refine ⟨⟨raw, e, he, .inr ⟨_, hsize, rfl⟩⟩, hcrate.attributes_set raw e he _ _ hsize,
      .inr ⟨pointer, hfound, hobject, hlength, hdigest⟩, fun _ => .inl ⟨pointer, hfound⟩, fun _ => ?_⟩
    rw [hlength]
    exact hcrate.size_set raw e he _ hsize
  | none =>
    simp only [pure, Except.pure, Except.ok.injEq, Prod.mk.injEq] at hok
    obtain ⟨rfl, rfl⟩ := hok
    have hnot : ¬ IsPointer crate e := by
      rintro ⟨pointer, hpointer⟩
      rw [hfound] at hpointer
      cases hpointer
    refine ⟨⟨raw, e, he, .inl rfl⟩, rfl, .inl ⟨hnot, rfl⟩, .inr, ?_⟩
    rintro (hpointer | hsize)
    · exact absurd hpointer hnot
    · exact hsize

/-- Entries that were appended, and the archive built of them. -/
theorem mapM_materializeEntry (hcrate : crate.Documented) : ∀ {es : List crate.Entry}
    {written : List (crate.Header × Bytes)}, (∀ e ∈ es, e ∈ (crate.entries raw).entries) →
    es.mapM (materializeEntry crate sha256 files) = .ok written →
    List.Forall₂ (fun e w => Appended crate sha256 files e w.1 w.2) es written
  | [], written, _, h => by
    cases h
    exact .nil
  | e :: es, written, hes, h => by
    obtain ⟨he, hrest⟩ := List.forall_mem_cons.mp hes
    simp only [List.mapM_cons, except_bind_ok, pure, Except.pure, Except.ok.injEq] at h
    obtain ⟨⟨header, content⟩, hfirst, others, hothers, rfl⟩ := h
    exact .cons (materializeEntry_ok hcrate he hfirst) (mapM_materializeEntry hcrate hrest hothers)

/-- An entry read is the entry meant. -/
def Kept (crate : Crate) (sha256 : Bytes → String) (files : Files) (e e' : crate.Entry) : Prop :=
  crate.attributesOf e' = crate.attributesOf e ∧ Content crate sha256 files e e'.content

/-- Entries with headers of their own are read back as they are meant. -/
theorem entries_of_ownHeader (hcrate : crate.Documented) : ∀ {es : List crate.Entry}
    {written : List (crate.Header × Bytes)},
    List.Forall₂ (fun e w => Appended crate sha256 files e w.1 w.2) es written →
    (∀ e ∈ es, OwnHeader crate e) → (crate.entries (crate.build written)).failure = none ∧
      List.Forall₂ (Kept crate sha256 files) es (crate.entries (crate.build written)).entries
  | [], _, .nil, _ => by
    rw [hcrate.entries_nil]
    exact ⟨rfl, .nil⟩
  | e :: es, (h, content) :: written, .cons happended hothers, hown => by
    obtain ⟨he, hrest⟩ := List.forall_mem_cons.mp hown
    obtain ⟨hfailure, hentries⟩ := entries_of_ownHeader hcrate hothers hrest
    rw [hcrate.entries_cons h content written happended.own (happended.size.mpr he.2)]
    exact ⟨hfailure, .cons ⟨happended.attributes.trans he.1, happended.meant⟩ hentries⟩

/-- Entries that are read back as they are meant have headers of their own. -/
theorem ownHeader_of_entries (hcrate : crate.Documented) : ∀ {es : List crate.Entry}
    {written : List (crate.Header × Bytes)},
    List.Forall₂ (fun e w => Appended crate sha256 files e w.1 w.2) es written →
    (crate.entries (crate.build written)).failure = none →
    List.Forall₂ (Kept crate sha256 files) es (crate.entries (crate.build written)).entries →
    ∀ e ∈ es, OwnHeader crate e
  | [], _, .nil, _, _ => nofun
  | e :: es, (h, content) :: written, .cons happended hothers, hfailure, hentries => by
    obtain ⟨read, others, heq, hsize⟩ :=
      hcrate.entries_head h content written happended.own hfailure
    rw [heq] at hentries
    obtain ⟨hattributes, hcontent⟩ : Kept crate sha256 files e ⟨crate.none, h, read⟩ := by
      cases hentries with
      | cons hfirst _ => exact hfirst
    have hlength : IsPointer crate e ∨ crate.size e.header = some e.content.length := by
      rcases happended.meant with ⟨hnot, rfl⟩ | ⟨pointer, hpointer, -⟩
      · rcases hcontent with ⟨-, hread⟩ | ⟨pointer, hpointer, -⟩
        · refine happended.size.mp ?_
          rw [hsize]
          exact congrArg (fun bytes => some (List.length bytes)) hread
        · exact .inl ⟨pointer, hpointer⟩
      · exact .inl ⟨pointer, hpointer⟩
    have hcons := hcrate.entries_cons h content written happended.own (happended.size.mpr hlength)
    rw [hcons] at hfailure heq
    have hrest : List.Forall₂ (Kept crate sha256 files) es
        (crate.entries (crate.build written)).entries := by
      have htail : (crate.entries (crate.build written)).entries = others := (List.cons.inj heq).2
      rw [htail]
      cases hentries with
      | cons _ hrest => exact hrest
    exact List.forall_mem_cons.mpr ⟨⟨happended.attributes.symm.trans hattributes, hlength⟩,
      ownHeader_of_entries hcrate hothers hfailure hrest⟩

/-- A run that succeeded copied an archive without pointers, or appended every entry. -/
theorem materializeLfsArchive_ok (h : materializeLfsArchive crate sha256 files = .ok output) :
    ∃ raw, files.raw = .ok raw ∧ (crate.entries raw).failure = none ∧
      (((∀ e ∈ (crate.entries raw).entries, ¬ IsPointer crate e) ∧ output = raw) ∨
        (∃ e ∈ (crate.entries raw).entries, IsPointer crate e) ∧ ∃ written,
          (crate.entries raw).entries.mapM (materializeEntry crate sha256 files) = .ok written ∧
            output = crate.build written) := by
  simp only [materializeLfsArchive, except_bind_ok, pure, Except.pure, Except.ok.injEq] at h
  obtain ⟨_, -, raw, hraw, pointers, hpointers, draft, hdraft, _, -, rfl⟩ := h
  have hopen : files.raw = .ok raw := by
    cases hfile : files.raw with
    | ok bytes =>
      rw [hfile] at hraw
      cases hraw
      rfl
    | error error =>
      rw [hfile] at hraw
      cases hraw
  refine ⟨raw, hopen, ?_⟩
  cases pointers with
  | false =>
    obtain ⟨hfailure, hnone⟩ := findPointer_false hpointers
    simp only [writeDraft, copyRawArchive, except_bind_ok, pure, Except.pure,
      Except.ok.injEq] at hdraft
    obtain ⟨_, -, _, -, rfl⟩ := hdraft
    exact ⟨hfailure, .inl ⟨hnone, rfl⟩⟩
  | true =>
    simp only [writeDraft, materializeEntries, except_bind_ok, pure, Except.pure, Except.ok.injEq] at hdraft
    obtain ⟨_, -, written, hwritten, _, hended, _, -, rfl⟩ := hdraft
    exact ⟨ended_ok.mp hended, .inr ⟨findPointer_true hpointers, written, hwritten, rfl⟩⟩

/-- What was materialised preserves the raw archive only when it can be rewritten. -/
theorem rewritable_of_preserves (hcrate : crate.Documented) (hraw : files.raw = .ok raw)
    (h : materializeLfsArchive crate sha256 files = .ok output)
    (hpreserves : Preserves crate sha256 files raw output) : Rewritable crate raw := by
  obtain ⟨raw', hraw', -, hcase⟩ := materializeLfsArchive_ok h
  obtain rfl : raw = raw' := Except.ok.inj (hraw.symm.trans hraw')
  rcases hcase with ⟨hnone, -⟩ | ⟨-, written, hwritten, rfl⟩
  · exact .inl hnone
  · exact .inr (ownHeader_of_entries hcrate (mapM_materializeEntry hcrate (fun _ => id) hwritten)
      hpreserves.readable hpreserves.entries)

theorem preserves_of_rewritable (hcrate : crate.Documented) (hraw : files.raw = .ok raw)
    (h : materializeLfsArchive crate sha256 files = .ok output) (hrewritable : Rewritable crate raw) :
    Preserves crate sha256 files raw output := by
  obtain ⟨raw', hraw', hfailure, hcase⟩ := materializeLfsArchive_ok h
  obtain rfl : raw = raw' := Except.ok.inj (hraw.symm.trans hraw')
  rcases hcase with ⟨hnone, rfl⟩ | ⟨⟨e, he, hpointer⟩, written, hwritten, rfl⟩
  · refine ⟨hfailure, ?_, fun _ => rfl⟩
    exact List.forall₂_same.mpr fun e he => ⟨rfl, .inl ⟨hnone e he, rfl⟩⟩
  · have happended := mapM_materializeEntry hcrate (fun _ => id) hwritten
    rcases hrewritable with hnone | hown
    · exact absurd hpointer (hnone e he)
    · obtain ⟨hreadable, hentries⟩ := entries_of_ownHeader hcrate happended hown
      exact ⟨hreadable, hentries, fun hnone => absurd hpointer (hnone e he)⟩

/-- Materialising preserves an archive exactly when it holds no pointer or each entry's own header
    says what it is. -/
theorem materialize_preserves_iff (hcrate : crate.Documented) (hraw : files.raw = .ok raw)
    (h : materializeLfsArchive crate sha256 files = .ok output) :
    Preserves crate sha256 files raw output ↔ Rewritable crate raw :=
  ⟨rewritable_of_preserves hcrate hraw h, preserves_of_rewritable hcrate hraw h⟩

end

/-! ### A path that does not fit its field -/

section
open Ustar

/-- A header with a name, a type and a size. -/
def sampleHeader (name : Bytes) (type : UInt8) (size : ℕ) : Bytes :=
  Reader.setCksum (Reader.setSize (put 257 (utf8 "ustar\x0000") (put 156 [type] (put 100 (utf8 "0000664\x00")
    (put 0 name (List.replicate BLOCK 0))))) size)

/-- The empty object. -/
def emptyObject : LfsPointer :=
  ⟨"e3b0c44298fc1c149afbf4c8996fb92427ae41e4649b934ca495991b7852b855", 0⟩

/-- The pointer of the empty object. -/
def emptyPointer : Bytes := utf8 (pointerText emptyObject)

/-- The digest of the empty object. -/
def sampleSha256 (bytes : Bytes) : String :=
  if bytes = [] then emptyObject.oid else ""

def sampleFiles (raw : Bytes) : Files where
  gitDir := .ok ⟨⟩
  raw := .ok raw
  object _ := .ok []
  createDraft := .ok ⟨⟩
  writeDraft := .ok ⟨⟩
  publish := .ok ⟨⟩

/-- An archive of a file and the empty object's pointer is materialised. -/
theorem materialize_sampleFiles {e e' : reader.Entry} (hentries : reader.entries raw = ⟨[e, e'], none⟩)
    (he : entryPointer reader e = .ok none) (he' : entryPointer reader e' = .ok (some emptyObject)) :
    ∃ output, materializeLfsArchive reader sampleSha256 (sampleFiles raw) = .ok output := by
  have hsearch : archiveHasLfsPointers reader raw = .ok true := by
    rw [archiveHasLfsPointers, hentries]
    exact except_bind_ok.mpr ⟨_, he, except_bind_ok.mpr ⟨_, he', rfl⟩⟩
  have hfile : materializeEntry reader sampleSha256 (sampleFiles raw) e = .ok (e.header, e.content) :=
    except_bind_ok.mpr ⟨_, he, rfl⟩
  have hobject : openVerifiedLfsObject sampleSha256 (sampleFiles raw) emptyObject = .ok [] := by
    refine except_bind_ok.mpr ⟨[], rfl, except_bind_ok.mpr ⟨⟨⟩, refuse_ok.mpr ?_, rfl⟩⟩
    simp [sampleSha256, emptyObject]
  have hpointer : materializeEntry reader sampleSha256 (sampleFiles raw) e' =
      .ok (reader.setCksum (reader.setSize e'.header 0), []) :=
    except_bind_ok.mpr ⟨_, he', except_bind_ok.mpr ⟨_, hobject, rfl⟩⟩
  let draft := reader.build [(e.header, e.content), (reader.setCksum (reader.setSize e'.header 0), [])]
  have hdraft : materializeEntries reader sampleSha256 (sampleFiles raw) raw = .ok draft := by
    refine except_bind_ok.mpr ⟨⟨⟩, rfl, ?_⟩
    rw [hentries]
    exact except_bind_ok.mpr ⟨_, except_mapM_ok.mpr (.cons hfile (.cons hpointer .nil)), rfl⟩
  refine ⟨draft, except_bind_ok.mpr ⟨⟨⟩, rfl, except_bind_ok.mpr ⟨raw, rfl, ?_⟩⟩⟩
  exact except_bind_ok.mpr ⟨true, hsearch, except_bind_ok.mpr ⟨_, hdraft, rfl⟩⟩

def sampleFile : Bytes × Bytes := (sampleHeader (utf8 "s/a") 0x30 1, [0x61])

def samplePointer : Bytes × Bytes :=
  (sampleHeader (utf8 "s/asset.bin") 0x30 emptyPointer.length, emptyPointer)

/-- A file and a pointer. -/
def sampleArchive : Bytes := Reader.build [sampleFile, samplePointer]

/-- The path of 120 bytes is in a pax record only. -/
def longPathArchive : Bytes :=
  let path := utf8 "130 path=" ++ List.replicate 120 0x61 ++ [0x0a]
  Reader.build [(sampleHeader (utf8 "0123.paxheader") 0x78 path.length, path), sampleFile, samplePointer]

theorem sampleHeader_spec : ∀ m ∈ [sampleFile, samplePointer], reader.isFile m.1 = true ∧
    Reader.isHeader m.1 = true ∧ Reader.isExtension m.1 = false ∧ Reader.size m.1 = some m.2.length ∧
      m.2.length ≤ MAX_LFS_POINTER_BYTES := by
  decide +kernel

/-- The pointers found do not depend on what was folded in. -/
theorem entryPointer_sample (extensions : Reader.Extensions) :
    entryPointer reader ⟨extensions, sampleFile.1, sampleFile.2⟩ = .ok none ∧
      entryPointer reader ⟨extensions, samplePointer.1, samplePointer.2⟩ = .ok (some emptyObject) := by
  have hparse : ∀ m ∈ [sampleFile, samplePointer],
      entryPointer reader ⟨extensions, m.1, m.2⟩ = parseLfsPointer m.2 := by
    intro m hm
    obtain ⟨hfile, -, -, hsize, hsmall⟩ := sampleHeader_spec m hm
    have hneed : need (reader.size m.1) (ioError "read archive entry size" "numeric field was not a number") =
        .ok m.2.length := need_ok.mpr hsize
    rw [entryPointer, if_pos hfile, hneed, except_ok_bind, if_pos hsmall]
  have hfile : parseLfsPointer sampleFile.2 = .ok none := by
    rw [parseLfsPointer, if_pos (by decide +kernel)]
  have hpointer : parseLfsPointer samplePointer.2 = .ok (some emptyObject) := by
    have hcontent : samplePointer.2 = emptyPointer := by rw [samplePointer]
    rw [hcontent, emptyPointer]
    exact parseLfsPointer_pointerText (by decide +kernel) (by decide)
  exact ⟨(hparse _ (.head _)).trans hfile, (hparse _ (.tail _ (.head _))).trans hpointer⟩

theorem entries_sample : reader.entries sampleArchive =
    ⟨[⟨Reader.noExtensions, sampleFile.1, sampleFile.2⟩,
      ⟨Reader.noExtensions, samplePointer.1, samplePointer.2⟩], none⟩ := by
  obtain ⟨-, hheader, hextension, hsize, -⟩ := sampleHeader_spec sampleFile (.head _)
  obtain ⟨-, hheader', hextension', hsize', -⟩ := sampleHeader_spec samplePointer (.tail _ (.head _))
  rw [reader_entries, sampleArchive,
    Reader.entries_build [samplePointer] ⟨hheader, hextension, _, hsize⟩ hsize,
    Reader.entries_build [] ⟨hheader', hextension', _, hsize'⟩ hsize', Reader.entries_zeros]
  rfl

theorem ownHeader_sample {h content : Bytes} (hsize : Reader.size h = some content.length) :
    OwnHeader reader ⟨Reader.noExtensions, h, content⟩ :=
  ⟨rfl, .inr hsize⟩

/-- An archive of short paths is preserved. -/
theorem materialize_sample : ∃ output,
    materializeLfsArchive reader sampleSha256 (sampleFiles sampleArchive) = .ok output ∧
      Preserves reader sampleSha256 (sampleFiles sampleArchive) sampleArchive output := by
  obtain ⟨hfile, hpointer⟩ := entryPointer_sample Reader.noExtensions
  obtain ⟨output, houtput⟩ := materialize_sampleFiles entries_sample hfile hpointer
  refine ⟨output, houtput, (materialize_preserves_iff reader_documented rfl houtput).mpr (.inr ?_)⟩
  rw [entries_sample]
  have hsize := fun m hm => (sampleHeader_spec m hm).2.2.2.1
  exact List.forall_mem_cons.mpr ⟨ownHeader_sample (hsize sampleFile (.head _)),
    List.forall_mem_cons.mpr ⟨ownHeader_sample (hsize samplePointer (.tail _ (.head _))), nofun⟩⟩

/-- The record of the long path. -/
def longPath : Reader.Extensions := ⟨none, none, some [(utf8 "path", List.replicate 120 0x61)]⟩

/-- With a pointer in the archive, the path in the record is lost. -/
theorem materialize_loses_path : ∃ output,
    materializeLfsArchive reader sampleSha256 (sampleFiles longPathArchive) = .ok output ∧
      ¬ Preserves reader sampleSha256 (sampleFiles longPathArchive) longPathArchive output := by
  have hread : Reader.entries longPathArchive = ⟨[⟨longPath, sampleFile.1, sampleFile.2⟩,
      ⟨Reader.noExtensions, samplePointer.1, samplePointer.2⟩], none⟩ := by decide +kernel
  have hentries := (reader_entries longPathArchive).trans hread
  have hpath : Reader.attributes Reader.noExtensions sampleFile.1 ≠
      Reader.attributes longPath sampleFile.1 := by decide +kernel
  have hfile := (entryPointer_sample longPath).1
  have hpointer := (entryPointer_sample Reader.noExtensions).2
  obtain ⟨output, houtput⟩ := materialize_sampleFiles hentries hfile hpointer
  refine ⟨output, houtput, fun hpreserves => ?_⟩
  have hrewritable := rewritable_of_preserves reader_documented rfl houtput hpreserves
  rw [Rewritable, hentries] at hrewritable
  rcases hrewritable with hnone | hown
  · exact hnone _ (.tail _ (.head _)) ⟨_, hpointer⟩
  · exact hpath (hown _ (.head _)).1

end

end NpuStack.Sources
