import NpuStack.Schemes.Ustar

/-! The `tar` crate, which the repository does not hold: what its reader and builder are taken to do.
    A reader folds long names, long links and pax records into the entry behind them, a builder
    writes exactly the headers and data it is given.

        archive ──entries──▶ (extensions, header, content) …        (header, data) … ──build──▶ archive

    `Documented` states what is relied on. `reader` is one crate of the kind, over the bytes of the
    format, and has it (`reader_documented`). -/

namespace NpuStack.Sources
open Text (Bytes utf8)

/-- The largest object that may be written for an entry. -/
def MAX_LFS_OBJECT_BYTES : ℕ := 1073741824

/-- What an entry is, apart from its content. -/
structure Attributes where
  path : Bytes
  entryType : UInt8
  linkName : Bytes
  mode : Option ℕ
  uid : Option ℕ
  gid : Option ℕ
  userName : Bytes
  groupName : Bytes
  mtime : Option ℕ
  deriving DecidableEq, Repr

/-- `EntryType::is_file`. -/
def Attributes.isFile (a : Attributes) : Bool := a.entryType = 0x30 || a.entryType = 0

/-- An entry: the records folded into it, its own header, and its content. -/
structure Entry (H E : Type) where
  extensions : E
  header : H
  content : Bytes
  deriving DecidableEq

/-- The entries read, and why reading stopped before the end. -/
structure Stream (H E : Type) where
  entries : List (Entry H E)
  failure : Option String
  deriving DecidableEq

def Stream.cons {H E : Type} (entry : Entry H E) (s : Stream H E) : Stream H E :=
  ⟨entry :: s.entries, s.failure⟩

structure Crate where
  Header : Type
  Extensions : Type
  /-- No record was folded in. -/
  none : Extensions
  attributes : Extensions → Header → Attributes
  size : Header → Option ℕ
  setSize : Header → ℕ → Header
  setCksum : Header → Header
  entries : Bytes → Stream Header Extensions
  build : List (Header × Bytes) → Bytes

namespace Crate

variable (crate : Crate)

/-- A header that was read, or one whose size was changed to that of an object. -/
def Own (h : crate.Header) : Prop :=
  ∃ archive, ∃ e ∈ (crate.entries archive).entries,
    h = e.header ∨ ∃ n ≤ MAX_LFS_OBJECT_BYTES, h = crate.setCksum (crate.setSize e.header n)

/-- What is relied on. -/
structure Documented : Prop where
  /-- Size and checksum are no attributes. -/
  attributes_set : ∀ archive, ∀ e ∈ (crate.entries archive).entries, ∀ extensions,
    ∀ n ≤ MAX_LFS_OBJECT_BYTES, crate.attributes extensions (crate.setCksum (crate.setSize e.header n)) =
      crate.attributes extensions e.header
  /-- The size that was set is the size. -/
  size_set : ∀ archive, ∀ e ∈ (crate.entries archive).entries, ∀ n ≤ MAX_LFS_OBJECT_BYTES,
    crate.size (crate.setCksum (crate.setSize e.header n)) = some n
  /-- An archive built of nothing has no entries. -/
  entries_nil : crate.entries (crate.build []) = ⟨[], Option.none⟩
  /-- A header written with as much data as it says is read back with the data. -/
  entries_cons : ∀ h content rest, crate.Own h → crate.size h = some content.length →
    crate.entries (crate.build ((h, content) :: rest)) =
      (crate.entries (crate.build rest)).cons ⟨crate.none, h, content⟩
  /-- The first header written is the first one read, and its content is as long as it says. -/
  entries_head : ∀ h content rest, crate.Own h →
    (crate.entries (crate.build ((h, content) :: rest))).failure = Option.none →
    ∃ read others, (crate.entries (crate.build ((h, content) :: rest))).entries =
      ⟨crate.none, h, read⟩ :: others ∧ crate.size h = some read.length

end Crate

/-! ### A crate over the bytes of the format -/

namespace Reader
open Ustar

/-- ASCII white space around a number. -/
def isSpace (b : UInt8) : Bool := b = 0x20 || (0x09 ≤ b && b ≤ 0x0d)

/-- `octal_from`: digits up to a zero byte, in white space. -/
def octalFrom (bytes : Bytes) : Option ℕ :=
  let digits := ((bytes.takeWhile (· ≠ 0)).dropWhile isSpace).rdropWhile isSpace
  if digits ≠ [] ∧ digits.all isOctal ∧ octalValue digits < 2 ^ 64 then some (octalValue digits)
  else none

/-- `num_field_wrapper_from`: octal, or big-endian binary behind a set high bit. -/
def numberFrom (bytes : Bytes) : Option ℕ :=
  match bytes with
  | first :: rest =>
    if first < 0x80 then octalFrom bytes
    else
      let binary := if bytes.length = 8 then (first ^^^ 0x80) :: rest else bytes.drop (bytes.length - 8)
      some (binary.foldl (fun n b => n * 256 + b.toNat) 0)
  | [] => none

/-- The bytes of a text field. -/
def textFrom (bytes : Bytes) : Bytes := bytes.takeWhile (· ≠ 0)

def name (h : Bytes) : Bytes := textFrom (field 0 100 h)

def prefixName (h : Bytes) : Bytes := textFrom (field 345 155 h)

def isUstar (h : Bytes) : Bool := field 257 6 h = utf8 "ustar\x00"

def size (h : Bytes) : Option ℕ := numberFrom (field 124 12 h)

def typeOf (h : Bytes) : UInt8 := (field 156 1 h).headD 0

/-- `path_bytes` of a header. -/
def ownPath (h : Bytes) : Bytes :=
  if isUstar h && prefixName h ≠ [] then prefixName h ++ 0x2f :: name h else name h

/-- The records read before an entry. -/
structure Extensions where
  longName : Option Bytes
  longLink : Option Bytes
  pax : Option (List (Bytes × Bytes))
  deriving DecidableEq

def noExtensions : Extensions := ⟨none, none, none⟩

/-- One pax record, with its length in front. -/
def paxRecord (line : Bytes) : Option (Bytes × Bytes) :=
  let digits := line.takeWhile (· ≠ 0x20)
  let record := (line.dropWhile (· ≠ 0x20)).drop 1
  if record.contains 0x3d ∧ digits.all (fun b => 48 ≤ b && b ≤ 57) ∧
      digits.foldl (fun n b => n * 10 + (b.toNat - 48)) 0 = line.length + 1 then
    some (record.takeWhile (· ≠ 0x3d), (record.dropWhile (· ≠ 0x3d)).drop 1)
  else none

/-- The well-formed records among the lines. -/
def paxRecords (data : Bytes) : List (Bytes × Bytes) := (data.splitOn 0x0a).filterMap paxRecord

def Extensions.get (e : Extensions) (key : String) : Option Bytes :=
  e.pax.bind fun records => records.lookup (utf8 key)

/-- A decimal number among the pax records. -/
def Extensions.getNumber (e : Extensions) (key : String) : Option ℕ :=
  (e.get key).bind fun value =>
    if value ≠ [] ∧ value.all (fun b => 48 ≤ b && b ≤ 57) then
      some (value.foldl (fun n b => n * 10 + (b.toNat - 48)) 0)
    else none

/-- A long name without its zero byte. -/
def stripZero (bytes : Bytes) : Bytes := if bytes.getLast? = some 0 then bytes.dropLast else bytes

def attributes (e : Extensions) (h : Bytes) : Attributes where
  path := ((e.longName.map stripZero).orElse fun _ => e.get "path").getD (ownPath h)
  entryType := typeOf h
  linkName := ((e.longLink.map stripZero).orElse fun _ => e.get "linkpath").getD
    (textFrom (field 157 100 h))
  mode := octalFrom (field 100 8 h)
  uid := ((e.getNumber "uid").map some).getD (numberFrom (field 108 8 h))
  gid := ((e.getNumber "gid").map some).getD (numberFrom (field 116 8 h))
  userName := (e.get "uname").getD (textFrom (field 265 32 h))
  groupName := (e.get "gname").getD (textFrom (field 297 32 h))
  mtime := ((e.getNumber "mtime").map some).getD (numberFrom (field 136 12 h))

/-- `octal_into` of the size, below 8 GiB. -/
def setSize (h : Bytes) (n : ℕ) : Bytes := put 124 (octalDigits 11 n ++ [0]) h

def setCksum (h : Bytes) : Bytes := put 148 (octalDigits 7 (checksum h) ++ [0]) h

/-- A header of the format: a whole block, not of zeros only, with its checksum. -/
def isHeader (h : Bytes) : Bool :=
  h.length = BLOCK && h.any (· ≠ 0) && octalFrom (field 148 8 h) = some (checksum h)

/-- `L`, `K` and `x`. -/
def isExtension (h : Bytes) : Bool := [0x4c, 0x4b, 0x78].contains (typeOf h)

/-- The records with one more read. -/
def Extensions.fold (e : Extensions) (h content : Bytes) : Option Extensions :=
  if typeOf h = 0x4c then if e.longName = none then some { e with longName := some content } else none
  else if typeOf h = 0x4b then
    if e.longLink = none then some { e with longLink := some content } else none
  else if e.pax = none then some { e with pax := some (paxRecords content) } else none

/-- The size of an entry's content: a pax record overrides the header. -/
def contentSize (e : Extensions) (n : ℕ) : ℕ := (e.getNumber "size").getD n

def failed (message : String) : Stream Bytes Extensions := ⟨[], some message⟩

/-- Reads from a header on, at most `fuel` headers. -/
def readFrom : ℕ → Extensions → Bytes → Stream Bytes Extensions
  | 0, _, _ => failed "too many headers"
  | fuel + 1, e, archive =>
    let h := archive.take BLOCK
    if 0 < h.length ∧ h.length < BLOCK then failed "failed to read entire block"
    else if h.all (· = 0) then
      if e = noExtensions then ⟨[], none⟩
      else failed "members found describing a future member but no future member found"
    else if !isHeader h then failed "archive header checksum mismatch"
    else
      match size h with
      | none => failed "numeric field was not a number"
      | some n =>
        let length := contentSize e n
        let content := (archive.drop BLOCK).take length
        let rest := archive.drop (BLOCK + stored length)
        if isExtension h then
          match e.fold h content with
          | some e => readFrom fuel e rest
          | none => failed "two entries describing the same member"
        else if content.length < length then ⟨[⟨e, h, content⟩], some "unexpected EOF during skip"⟩
        else (readFrom fuel noExtensions rest).cons ⟨e, h, content⟩

def entries (archive : Bytes) : Stream Bytes Extensions :=
  readFrom (archive.length + 1) noExtensions archive

/-- Header, data and padding of each entry, then two blocks of zeros. -/
def build : List (Bytes × Bytes) → Bytes
  | [] => List.replicate (2 * BLOCK) 0
  | (h, content) :: rest => h ++ content ++ padding content.length ++ build rest

/-! Headers that can be written again. -/

/-- A header of an entry, with its size. -/
structure Good (h : Bytes) : Prop where
  header : isHeader h = true
  entry : isExtension h = false
  sized : ∃ n, size h = some n

theorem good_of_read : ∀ {fuel : ℕ} {e : Extensions} {archive : Bytes},
    ∀ x ∈ (readFrom fuel e archive).entries, Good x.header
  | 0, _, _, x, hx => by cases hx
  | fuel + 1, e, archive, x, hx => by
    rw [readFrom] at hx
    dsimp only at hx
    split at hx
    · cases hx
    split at hx
    · split at hx <;> cases hx
    split at hx
    · cases hx
    next hheader =>
    split at hx
    · cases hx
    next n hn =>
    have hgood : isExtension (archive.take BLOCK) = false → Good (archive.take BLOCK) := fun hentry =>
      ⟨by simpa using hheader, hentry, n, hn⟩
    split at hx
    · split at hx
      · exact good_of_read x hx
      · cases hx
    next hentry =>
    rw [Bool.not_eq_true] at hentry
    split at hx
    · obtain rfl := List.mem_singleton.mp hx
      exact hgood hentry
    · rcases List.mem_cons.mp hx with rfl | hx
      · exact hgood hentry
      · exact good_of_read x hx

/-- Zero-terminated octal digits are read as their number. -/
theorem octalFrom_octalDigits {width n : ℕ} (hwidth : 0 < width) (h : n < 8 ^ width) (hn : n < 2 ^ 64) :
    octalFrom (octalDigits width n ++ [0]) = some n := by
  have hall : ∀ b ∈ octalDigits width n, isOctal b = true := isOctal_octalDigits
  have hdigit : ∀ b : UInt8, isOctal b = true → b ≠ 0 ∧ isSpace b = false := by
    intro b hb
    simp only [isOctal, Bool.and_eq_true, decide_eq_true_eq, UInt8.le_iff_toNat_le] at hb
    have hlow : 48 ≤ b.toNat := hb.1
    refine ⟨?_, ?_⟩
    · rintro rfl
      exact absurd hlow (by decide)
    · have hspace : b ≠ 0x20 := by
        rintro rfl
        exact absurd hlow (by decide)
      have hctl : ¬ b ≤ 0x0d := fun hle => by
        rw [UInt8.le_iff_toNat_le] at hle
        exact absurd (hlow.trans hle) (by decide)
      simp [isSpace, hspace, hctl]
  have hne : octalDigits width n ≠ [] := by
    intro hnil
    have := length_octalDigits width n
    rw [hnil] at this
    exact absurd this.symm hwidth.ne'
  have htake : (octalDigits width n ++ [0]).takeWhile (· ≠ 0) = octalDigits width n := by
    rw [List.takeWhile_append_of_pos fun b hb => by simpa using (hdigit b (hall b hb)).1]
    simp
  have hdrop : (octalDigits width n).dropWhile isSpace = octalDigits width n := by
    rw [List.dropWhile_eq_self_iff]
    intro hpos
    simpa using (hdigit _ (hall _ (List.getElem_mem hpos))).2
  have hrdrop : (octalDigits width n).rdropWhile isSpace = octalDigits width n := by
    rw [List.rdropWhile_eq_self_iff]
    intro hnonempty
    simpa using (hdigit _ (hall _ (List.getLast_mem hnonempty))).2
  have hvalue : octalValue (octalDigits width n) = n := octalValue_octalDigits h
  rw [octalFrom, htake, hdrop, hrdrop, hvalue, if_pos ⟨hne, List.all_eq_true.mpr hall, hn⟩]

theorem length_of_isHeader {h : Bytes} (hh : isHeader h = true) : h.length = BLOCK := by
  simp only [isHeader, Bool.and_eq_true, decide_eq_true_eq] at hh
  exact hh.1.1

section
variable {h : Bytes} {n : ℕ}

theorem length_sizeField : (octalDigits 11 n ++ [0]).length = 12 := by
  rw [List.length_append, length_octalDigits]
  rfl

theorem length_cksumField : (octalDigits 7 n ++ [0]).length = 8 := by
  rw [List.length_append, length_octalDigits]
  rfl

theorem length_setSize (hlength : h.length = BLOCK) : (setSize h n).length = BLOCK := by
  rw [setSize, length_put (by rw [length_sizeField, hlength]; decide), hlength]

theorem length_setCksum (hlength : h.length = BLOCK) : (setCksum h).length = BLOCK := by
  rw [setCksum, length_put (by rw [length_cksumField, hlength]; decide), hlength]

/-- A field apart from the size and the checksum. -/
theorem field_set {offset width : ℕ} (hlength : h.length = BLOCK)
    (hfield : offset + width ≤ 124 ∨ 136 ≤ offset ∧ offset + width ≤ 148 ∨ 156 ≤ offset) :
    field offset width (setCksum (setSize h n)) = field offset width h := by
  have hsized := length_setSize (n := n) hlength
  have hblock : BLOCK = 512 := rfl
  have hcksum : field offset width (setCksum (setSize h n)) = field offset width (setSize h n) := by
    rcases hfield with hbefore | ⟨-, hbefore⟩ | hafter
    · exact field_put_before (by omega) (by rw [hsized, hblock]; omega)
    · exact field_put_before (by omega) (by rw [hsized, hblock]; omega)
    · exact field_put_after (by rw [length_cksumField]; omega) (by rw [hsized, hblock]; omega)
  rw [hcksum]
  rcases hfield with hbefore | ⟨hafter, -⟩ | hafter
  · exact field_put_before (by omega) (by rw [hlength, hblock]; omega)
  · exact field_put_after (by rw [length_sizeField]; omega) (by rw [hlength, hblock]; omega)
  · exact field_put_after (by rw [length_sizeField]; omega) (by rw [hlength, hblock]; omega)

theorem size_set (hlength : h.length = BLOCK) (hn : n ≤ MAX_LFS_OBJECT_BYTES) :
    size (setCksum (setSize h n)) = some n := by
  have hsized := length_setSize (n := n) hlength
  have hblock : BLOCK = 512 := rfl
  have hfield : field 124 12 (setCksum (setSize h n)) = octalDigits 11 n ++ [0] := by
    have hbefore : field 124 12 (setCksum (setSize h n)) = field 124 12 (setSize h n) :=
      field_put_before (by omega) (by rw [hsized, hblock]; omega)
    have hself : field 124 (octalDigits 11 n ++ [0]).length (setSize h n) = octalDigits 11 n ++ [0] :=
      field_put_self (by rw [hlength, hblock]; omega)
    rw [length_sizeField] at hself
    rw [hbefore, hself]
  have hmax : MAX_LFS_OBJECT_BYTES < 8 ^ 11 := by decide
  have hwide : MAX_LFS_OBJECT_BYTES < 2 ^ 64 := by decide
  have hoctal := octalFrom_octalDigits (show 0 < 11 by decide) (hn.trans_lt hmax) (hn.trans_lt hwide)
  rw [size, hfield]
  cases hdigits : octalDigits 11 n with
  | nil =>
    have := length_octalDigits 11 n
    rw [hdigits] at this
    cases this
  | cons first rest =>
    have hfirst := @isOctal_octalDigits 11 n first (by rw [hdigits]; simp)
    simp only [isOctal, Bool.and_eq_true, decide_eq_true_eq] at hfirst
    have hlow : first < 0x80 := by
      have hle : first.toNat ≤ 55 := hfirst.2
      exact UInt8.lt_iff_toNat_lt.mpr (hle.trans_lt (by decide))
    rw [hdigits] at hoctal
    rw [List.cons_append] at hoctal ⊢
    rw [numberFrom, if_pos hlow, hoctal]

theorem attributes_set (e : Extensions) (hlength : h.length = BLOCK) :
    attributes e (setCksum (setSize h n)) = attributes e h := by
  have hfield : ∀ offset width, offset + width ≤ 124 ∨ 136 ≤ offset ∧ offset + width ≤ 148 ∨
      156 ≤ offset → field offset width (setCksum (setSize h n)) = field offset width h :=
    fun _ _ => field_set hlength
  have hpath : ownPath (setCksum (setSize h n)) = ownPath h := by
    rw [ownPath, isUstar, prefixName, name, hfield 257 6 (by decide), hfield 345 155 (by decide),
      hfield 0 100 (by decide)]
    rfl
  simp only [attributes, hpath, typeOf, hfield 100 8 (by decide), hfield 108 8 (by decide),
    hfield 116 8 (by decide), hfield 136 12 (by decide), hfield 156 1 (by decide),
    hfield 157 100 (by decide), hfield 265 32 (by decide), hfield 297 32 (by decide)]

theorem isHeader_setCksum (hlength : h.length = BLOCK) : isHeader (setCksum h) = true := by
  have hblock : BLOCK = 512 := rfl
  have hfield : field 148 8 (setCksum h) = octalDigits 7 (checksum h) ++ [0] := by
    have hself : field 148 (octalDigits 7 (checksum h) ++ [0]).length (setCksum h) =
        octalDigits 7 (checksum h) ++ [0] := field_put_self (by rw [hlength, hblock]; omega)
    rwa [length_cksumField] at hself
  have hsum : checksum (setCksum h) = checksum h :=
    checksum_put length_cksumField (by rw [hlength, hblock]; omega)
  have hlt := checksum_lt hlength
  have hoctal := octalFrom_octalDigits (show 0 < 7 by decide)
    (hlt.trans (show 8 ^ 6 < 8 ^ 7 by decide)) (hlt.trans (show 8 ^ 6 < 2 ^ 64 by decide))
  have hnonzero : (setCksum h).any (· ≠ 0) = true := by
    cases hdigits : octalDigits 7 (checksum h) with
    | nil =>
      have := length_octalDigits 7 (checksum h)
      rw [hdigits] at this
      cases this
    | cons first rest =>
      have hfirst := @isOctal_octalDigits 7 (checksum h) first (by rw [hdigits]; simp)
      refine List.any_eq_true.mpr ⟨first, ?_, ?_⟩
      · simp [setCksum, put, hdigits]
      · rw [decide_eq_true_eq]
        rintro rfl
        exact absurd hfirst (by decide)
  simp only [isHeader, Bool.and_eq_true, decide_eq_true_eq]
  exact ⟨⟨length_setCksum hlength, hnonzero⟩, by rw [hfield, hoctal, hsum]⟩

theorem good_set (hgood : Good h) (hn : n ≤ MAX_LFS_OBJECT_BYTES) : Good (setCksum (setSize h n)) := by
  have hlength := length_of_isHeader hgood.header
  refine ⟨isHeader_setCksum (length_setSize hlength), ?_, n, size_set hlength hn⟩
  have htype : typeOf (setCksum (setSize h n)) = typeOf h := by
    rw [typeOf, field_set hlength (by decide), typeOf]
  rw [isExtension, htype]
  exact hgood.entry

end

/-! Reading what was built. -/

theorem stored_le (length : ℕ) : length ≤ stored length := by
  rw [stored]
  omega

/-- More fuel than the archive is long reads it whole. -/
theorem readFrom_fuel : ∀ {fuel fuel' : ℕ} {e : Extensions} {archive : Bytes}, archive.length < fuel →
    archive.length < fuel' → readFrom fuel e archive = readFrom fuel' e archive
  | 0, _, _, _, h, _ => absurd h (Nat.not_lt_zero _)
  | _, 0, _, _, _, h => absurd h (Nat.not_lt_zero _)
  | fuel + 1, fuel' + 1, e, archive, h, h' => by
    rw [readFrom, readFrom]
    dsimp only
    split
    · rfl
    split
    · rfl
    next hzero =>
    have hlength : 0 < archive.length := by
      by_contra hempty
      obtain rfl := List.length_eq_zero_iff.mp (Nat.eq_zero_of_not_pos hempty)
      exact hzero rfl
    have hrest : ∀ e n, readFrom fuel e (archive.drop (BLOCK + stored n)) =
        readFrom fuel' e (archive.drop (BLOCK + stored n)) := fun e n => by
      have hblock : BLOCK = 512 := rfl
      refine readFrom_fuel ?_ ?_ <;> (rw [List.length_drop]; omega)
    simp only [hrest]

theorem contentSize_none (n : ℕ) : contentSize noExtensions n = n := rfl

theorem length_padding (length : ℕ) : length + (padding length).length = stored length := by
  rw [padding, List.length_replicate, stored, BLOCK]
  omega

/-- A good header at the front, followed by anything. -/
theorem entries_good {h rest : Bytes} {n : ℕ} (hgood : Good h) (hn : size h = some n) :
    entries (h ++ rest) =
      if (rest.take n).length < n then ⟨[⟨noExtensions, h, rest.take n⟩], some "unexpected EOF during skip"⟩
      else (entries (rest.drop (stored n))).cons ⟨noExtensions, h, rest.take n⟩ := by
  have hlength := length_of_isHeader hgood.header
  have hblock : BLOCK = 512 := rfl
  have htake : (h ++ rest).take BLOCK = h := by rw [← hlength, List.take_left]
  have hdrop : ∀ k, (h ++ rest).drop (BLOCK + k) = rest.drop k := fun k => by
    rw [← hlength, List.drop_append]
    simp
  have hshort : ¬ (0 < h.length ∧ h.length < BLOCK) := by rw [hlength]; simp
  have hnonzero : ¬ (h.all (· = 0) = true) := by
    have := hgood.header
    simp only [isHeader, Bool.and_eq_true, List.any_eq_true] at this
    obtain ⟨⟨-, b, hb, hne⟩, -⟩ := this
    rw [List.all_eq_true]
    intro hall
    exact absurd (hall b hb) (by simpa using hne)
  have hheader : ¬ ((!isHeader h) = true) := by rw [hgood.header]; decide
  have hentry : ¬ (isExtension h = true) := by rw [hgood.entry]; decide
  rw [entries, readFrom]
  simp only [htake, hn, contentSize_none]
  rw [if_neg hshort, if_neg hnonzero, if_neg hheader, if_neg hentry]
  have hcontent : ((h ++ rest).drop BLOCK).take n = rest.take n := by
    have := hdrop 0
    rw [Nat.add_zero, List.drop_zero] at this
    rw [this]
  rw [hcontent, hdrop]
  split
  · rfl
  · congr 1
    refine readFrom_fuel ?_ (Nat.lt_succ_self _)
    rw [List.length_drop, List.length_append]
    omega

theorem entries_zeros : entries (build []) = ⟨[], none⟩ := by
  have htake : (build []).take BLOCK = List.replicate BLOCK 0 := by
    rw [build, List.take_replicate, Nat.min_eq_left (by omega)]
  have hshort : ¬ (0 < (List.replicate BLOCK (0 : UInt8)).length ∧
      (List.replicate BLOCK (0 : UInt8)).length < BLOCK) := by
    rw [List.length_replicate]
    omega
  have hzero : (List.replicate BLOCK (0 : UInt8)).all (· = 0) = true := by
    rw [List.all_eq_true]
    intro b hb
    simpa using (List.mem_replicate.mp hb).2
  rw [entries, readFrom]
  dsimp only
  rw [htake, if_neg hshort, if_pos hzero, if_pos rfl]

theorem entries_build {h content : Bytes} (rest : List (Bytes × Bytes)) (hgood : Good h)
    (hn : size h = some content.length) : entries (build ((h, content) :: rest)) =
      (entries (build rest)).cons ⟨noExtensions, h, content⟩ := by
  have hassoc : build ((h, content) :: rest) =
      h ++ (content ++ (padding content.length ++ build rest)) := by
    rw [build, List.append_assoc, List.append_assoc]
  have hdrop : (content ++ (padding content.length ++ build rest)).drop (stored content.length) =
      build rest := by
    rw [← length_padding, ← List.append_assoc]
    have hsum : content.length + (padding content.length).length =
        (content ++ padding content.length).length := by rw [List.length_append]
    rw [hsum, List.drop_left]
  rw [hassoc, entries_good hgood hn, List.take_left, if_neg (lt_irrefl _), hdrop]

theorem entries_build_head {h content : Bytes} {rest : List (Bytes × Bytes)} (hgood : Good h)
    (hfailure : (entries (build ((h, content) :: rest))).failure = none) :
    ∃ read others, (entries (build ((h, content) :: rest))).entries =
      ⟨noExtensions, h, read⟩ :: others ∧ size h = some read.length := by
  obtain ⟨n, hn⟩ := hgood.sized
  rw [build, List.append_assoc, List.append_assoc, entries_good hgood hn] at hfailure ⊢
  split at hfailure
  · cases hfailure
  next hlong =>
  rw [if_neg hlong]
  refine ⟨_, _, rfl, ?_⟩
  have := List.length_take_le n (content ++ (padding content.length ++ build rest))
  rw [hn]
  exact congrArg some (Nat.le_antisymm (not_lt.mp hlong) this)

end Reader

def reader : Crate where
  Header := Bytes
  Extensions := Reader.Extensions
  none := Reader.noExtensions
  attributes := Reader.attributes
  size := Reader.size
  setSize := Reader.setSize
  setCksum := Reader.setCksum
  entries := Reader.entries
  build := Reader.build

theorem reader_entries (archive : Bytes) : reader.entries archive = Reader.entries archive := rfl

theorem reader_own {h : Bytes} (hown : reader.Own h) : Reader.Good h := by
  obtain ⟨archive, e, he, heq⟩ := hown
  have hgood : Reader.Good e.header := Reader.good_of_read e he
  rcases heq with rfl | ⟨n, hn, rfl⟩
  · exact hgood
  · exact Reader.good_set hgood hn

theorem reader_documented : reader.Documented where
  attributes_set _ e he extensions _ _ :=
    Reader.attributes_set extensions (Reader.length_of_isHeader (Reader.good_of_read e he).header)
  size_set _ e he _ hn := Reader.size_set (Reader.length_of_isHeader (Reader.good_of_read e he).header) hn
  entries_nil := by simp only [reader, Reader.entries_zeros]
  entries_cons _ _ rest hown hsize := Reader.entries_build rest (reader_own hown) hsize
  entries_head _ _ _ hown hfailure := Reader.entries_build_head (reader_own hown) hfailure

end NpuStack.Sources
