import NpuStack.Schemes.Interaction
import NpuStack.Schemes.Text

/-! `release_tar.py`: the raw headers of a tar archive, read before `tarfile` reads the archive.

        offset ─▶ header ─┬─ extension ─▶ data is read, pax records checked
          ▲               ├─ regular ───▶ data is passed over
          │               └─ directory ─▶ no data
          └───────────────┘

    `scan` and the reader are two loops over one stream. A step of an accepted scan is a step of the
    reader to the same offset (`step_agrees`), so the two loops read the same headers. -/

namespace NpuStack.Ci.Tar
open Interaction
open Text (Bytes utf8)

/-! ### Headers -/

def BLOCK : ℕ := 512

def REGTYPE : UInt8 := 48
def AREGTYPE : UInt8 := 0
def LNKTYPE : UInt8 := 49
def SYMTYPE : UInt8 := 50
def CHRTYPE : UInt8 := 51
def BLKTYPE : UInt8 := 52
def DIRTYPE : UInt8 := 53
def FIFOTYPE : UInt8 := 54
def CONTTYPE : UInt8 := 55
def GNUTYPE_LONGNAME : UInt8 := 76
def GNUTYPE_LONGLINK : UInt8 := 75
def GNUTYPE_SPARSE : UInt8 := 83
def XHDTYPE : UInt8 := 120
def XGLTYPE : UInt8 := 103
def SOLARIS_XHDTYPE : UInt8 := 88

def REGULAR_TYPES : List UInt8 := [REGTYPE, AREGTYPE, CONTTYPE, GNUTYPE_SPARSE]

def SUPPORTED_TYPES : List UInt8 :=
  [REGTYPE, AREGTYPE, LNKTYPE, SYMTYPE, DIRTYPE, FIFOTYPE, CONTTYPE, CHRTYPE, BLKTYPE, GNUTYPE_LONGNAME,
    GNUTYPE_LONGLINK, GNUTYPE_SPARSE]

def EXTENSIONS : List UInt8 :=
  [GNUTYPE_LONGNAME, GNUTYPE_LONGLINK, XHDTYPE, XGLTYPE, SOLARIS_XHDTYPE]

def PAX : List UInt8 := [XHDTYPE, XGLTYPE, SOLARIS_XHDTYPE]

def RELEASE_TYPES : List UInt8 := [REGTYPE, GNUTYPE_LONGNAME]

def INPUT_TYPES : List UInt8 := [REGTYPE, AREGTYPE, DIRTYPE, GNUTYPE_LONGNAME, XHDTYPE, XGLTYPE]

def MAX_EXTENSION : ℕ := 2 ^ 16
def MAX_EXTENSION_TOTAL : ℕ := 2 ^ 20
def MAX_GLOBAL : ℕ := 2 ^ 10
def MAX_RUN : ℕ := 4

/-- What a header says of its data. -/
structure Info where
  type : UInt8
  size : ℤ
  deriving DecidableEq, Repr

/-- `stream.read(amount)` at an offset. -/
def readAt (data : Bytes) (offset amount : ℕ) : Bytes := (data.drop offset).take amount

/-- A short block, or one of zeros only. -/
def isEnd (block : Bytes) : Bool := block.length < BLOCK || block.all (· = 0)

/-- A size in whole blocks. -/
def stored (size : ℤ) : ℕ := (-(-size / 512) * 512).toNat

/-- The type byte of a header. -/
def rawType (block : Bytes) : UInt8 := block.getD 156 0

/-- A header that was read, and where reading goes on. -/
structure Header where
  offset : ℕ
  type : UInt8
  next : ℕ
  deriving DecidableEq, Repr

/-! ### Pax records -/

def isDigit (b : UInt8) : Bool := 48 ≤ b && b ≤ 57

/-- `int` of a run of digits. -/
def int (digits : Bytes) : ℕ := digits.foldl (fun value b => 10 * value + (b.toNat - 48)) 0

/-- The start of a record: its length's digits, its key and the bytes behind the `=`. -/
structure Prefix where
  digits : Bytes
  key : Bytes
  rest : Bytes

/-- `(\d+) (key)=`, where the key is a run of the given bytes. -/
def matchPrefix (isKey : UInt8 → Bool) (data : Bytes) : Option Prefix :=
  let digits := data.takeWhile isDigit
  match data.dropWhile isDigit with
  | 32 :: behind =>
    match behind.dropWhile isKey with
    | 61 :: rest =>
      if digits ≠ [] && behind.takeWhile isKey ≠ [] then some ⟨digits, behind.takeWhile isKey, rest⟩
      else none
    | _ => none
  | _ => none

/-- `PAX_RECORD`: at most nine digits without a leading zero, and a key without `=` and newline. -/
def matchRecord (data : Bytes) : Option Prefix :=
  (matchPrefix (fun b => b ≠ 61 && b ≠ 10) data).filter fun record =>
    record.digits.length ≤ 9 && record.digits.head? ≠ some 48

/-- Bytes of the whole match. -/
def Prefix.length (record : Prefix) : ℕ := record.digits.length + 1 + record.key.length + 1

/-- Bytes of the whole record, as it says. -/
def Prefix.total (record : Prefix) : ℕ := int record.digits

/-- The bytes from the match to the last of the record. -/
def Prefix.value (record : Prefix) (data : Bytes) : Bytes :=
    (data.take (record.total - 1)).drop record.length

/-- The record's last byte is its only newline behind the match. -/
def terminated (data : Bytes) (record : Prefix) : Bool :=
  (data.drop (record.total - 1)).take 1 = [10] && !(record.value data).contains 10

theorem matchPrefix_ne_nil {isKey : UInt8 → Bool} {data : Bytes} {record : Prefix}
    (h : matchPrefix isKey data = some record) : data ≠ [] := by
  rintro rfl
  cases h

theorem le_foldl_int : ∀ (digits : Bytes) (value : ℕ),
    value ≤ digits.foldl (fun value b => 10 * value + (b.toNat - 48)) value
  | [], _ => le_rfl
  | b :: digits, value => by
    rw [List.foldl_cons]
    have := le_foldl_int digits (10 * value + (b.toNat - 48))
    omega

/-- A run of digits without a leading zero is a positive number. -/
theorem int_pos {b : UInt8} {digits : Bytes} (hb : isDigit b = true) (hzero : b ≠ 48) :
    0 < int (b :: digits) := by
  rw [int, List.foldl_cons]
  have hle := le_foldl_int digits (10 * 0 + (b.toNat - 48))
  simp only [isDigit, Bool.and_eq_true, decide_eq_true_eq, UInt8.le_iff_toNat_le] at hb
  have hne : b.toNat ≠ 48 := fun h => hzero (UInt8.toNat_inj.mp h)
  have h48 : (48 : UInt8).toNat = 48 := rfl
  omega

theorem matchPrefix_spec {isKey : UInt8 → Bool} {data : Bytes} {record : Prefix}
    (h : matchPrefix isKey data = some record) :
    data = record.digits ++ 32 :: (record.key ++ 61 :: record.rest) ∧ record.digits ≠ [] ∧
      (∀ b ∈ record.digits, isDigit b = true) ∧ record.key ≠ [] ∧ ∀ b ∈ record.key, isKey b = true := by
  simp only [matchPrefix] at h
  split at h
  next behind hbehind =>
    split at h
    next rest hrest =>
      split at h
      next hne =>
        cases h
        simp only [ne_eq, Bool.and_eq_true, decide_eq_true_eq] at hne
        refine ⟨?_, hne.1, fun b hb => List.mem_takeWhile_imp hb, hne.2,
          fun b hb => List.mem_takeWhile_imp hb⟩
        rw [← hrest, List.takeWhile_append_dropWhile, ← hbehind, List.takeWhile_append_dropWhile]
      next => cases h
    next => cases h
  next => cases h

theorem matchRecord_spec {data : Bytes} {record : Prefix} (h : matchRecord data = some record) :
    matchPrefix (fun b => b ≠ 61 && b ≠ 10) data = some record ∧ record.digits.head? ≠ some 48 := by
  rw [matchRecord, Option.filter_eq_some_iff] at h
  refine ⟨h.1, ?_⟩
  simp only [Bool.and_eq_true, decide_eq_true_eq] at h
  exact h.2.2

theorem matchRecord_pos {data : Bytes} {record : Prefix} (h : matchRecord data = some record) :
    0 < record.total := by
  obtain ⟨hpre, hhead⟩ := matchRecord_spec h
  obtain ⟨-, hne, hdigits, -⟩ := matchPrefix_spec hpre
  cases hd : record.digits with
  | nil => exact absurd hd hne
  | cons b digits =>
    rw [Prefix.total, hd]
    rw [hd] at hdigits hhead
    exact int_pos (hdigits b List.mem_cons_self) fun hb => hhead (congrArg some hb)

/-- What is wrong with an archive. -/
inductive Refusal where
  | tooManyMembers (limit : ℕ)
  | unreadable (header : ℕ)
  | notAllowed (type : UInt8)
  | namedLikeDirectory (header : ℕ)
  | negativeSize (header : ℕ)
  | extensionRun
  | extensionSize (size : ℤ)
  | extensionTotal
  | globalPax
  | endsInExtension
  | paxPadding
  | malformedPax
  | paxRecord (key : Bytes)
  | memberBytes (maxBytes : ℕ)
  deriving DecidableEq, Repr

/-- `pax_keys`: the keys of records that are exactly as long as they say. -/
def paxKeys (data : Bytes) : Except Refusal (List Bytes) :=
  if data = [] then .ok []
  else match _hmatch : matchRecord data with
    | none => .error .malformedPax
    | some record =>
      if terminated data record then do
        let keys ← paxKeys (data.drop record.total)
        return record.key :: keys
      else .error .malformedPax
termination_by data.length
decreasing_by
  have hpos := matchRecord_pos _hmatch
  have hlen := List.length_pos_iff.mpr ‹data ≠ []›
  rw [List.length_drop]
  omega

/-! ### The scan -/

/-- The local variables of `scan`. -/
structure Counters where
  headers : ℕ
  run : ℕ
  total : ℕ
  extension : ℕ
  globalPax : ℕ
  deriving DecidableEq, Repr

/-- A read or seek of the stream. -/
inductive Access where
  | header (offset : ℕ)
  | extension (offset : ℕ) (info : Info)
  | member (offset : ℕ) (info : Info)
  deriving DecidableEq, Repr

/-- Where an accepted header leads. -/
structure Next where
  header : Header
  counters : Counters
  deriving DecidableEq, Repr

/-- What one round of the loop does to the stream, and what comes of it. -/
structure Step where
  accesses : List Access
  outcome : Except Refusal (Option Next)
  deriving DecidableEq

section
variable (frombuf : Bytes → Option Info) (data : Bytes) (limit : ℕ) (types : List UInt8)
variable (maxBytes : Option ℕ)

def checkHeader (counters : Counters) (block : Bytes) : Except Refusal Info := do
  require (counters.headers + 1 ≤ limit) (.tooManyMembers limit)
  let info ← need (frombuf block) (.unreadable (counters.headers + 1))
  require (info.type ∈ types) (.notAllowed info.type)
  require (info.type = rawType block) (.namedLikeDirectory (counters.headers + 1))
  require (0 ≤ info.size) (.negativeSize (counters.headers + 1))
  return info

/-- The counters behind an extension header, from its declared size. -/
def countExtension (counters : Counters) (info : Info) : Except Refusal Counters := do
  require (counters.run + 1 ≤ MAX_RUN) .extensionRun
  require (info.size ≤ MAX_EXTENSION) (.extensionSize info.size)
  let extension := counters.extension + info.size.toNat
  require (extension ≤ MAX_EXTENSION_TOTAL) .extensionTotal
  let globalPax := counters.globalPax + if info.type = XGLTYPE then info.size.toNat else 0
  require (globalPax ≤ MAX_GLOBAL) .globalPax
  return ⟨counters.headers + 1, counters.run + 1, counters.total, extension, globalPax⟩

/-- Keys of records that change where the next header is. -/
def isResizing (key : Bytes) : Bool := key = utf8 "size" || (utf8 "GNU.sparse").isPrefixOf key

def checkExtension (info : Info) (body : Bytes) : Except Refusal Unit := do
  require (body.length = stored info.size) .endsInExtension
  if info.type ∈ PAX then do
    require ((body.drop info.size.toNat).all (· = 0) = true) .paxPadding
    let keys ← paxKeys (body.take info.size.toNat)
    forM keys fun key => require (isResizing key = false) (.paxRecord key)
  else return ()

def countMember (counters : Counters) (info : Info) : Except Refusal Counters := do
  let total := counters.total + info.size.toNat
  require (∀ bound ∈ maxBytes, total ≤ bound) (.memberBytes (maxBytes.getD 0))
  return { counters with headers := counters.headers + 1, run := 0, total := total }

/-- One round of the loop of `scan`. -/
def scanStep (offset : ℕ) (counters : Counters) : Step :=
  let block := readAt data offset BLOCK
  let behind := offset + BLOCK
  if isEnd block then ⟨[.header offset], .ok none⟩
  else match checkHeader frombuf limit types counters block with
    | .error refusal => ⟨[.header offset], .error refusal⟩
    | .ok info =>
      let next := behind + stored info.size
      if info.type ∈ EXTENSIONS then
        match countExtension counters info with
        | .error refusal => ⟨[.header offset], .error refusal⟩
        | .ok counted =>
          ⟨[.header offset, .extension behind info],
            (checkExtension info (readAt data behind (stored info.size))).map fun _ =>
              some ⟨⟨offset, info.type, next⟩, counted⟩⟩
      else if info.type ∈ REGULAR_TYPES then
        match countMember maxBytes counters info with
        | .error refusal => ⟨[.header offset], .error refusal⟩
        | .ok counted =>
          ⟨[.header offset, .member behind info], .ok (some ⟨⟨offset, info.type, next⟩, counted⟩)⟩
      else
        let counted := { counters with headers := counters.headers + 1, run := 0 }
        ⟨[.header offset], .ok (some ⟨⟨offset, info.type, behind⟩, counted⟩)⟩

/-- Headers and stream operations of a run, and its result. -/
structure Scanned where
  headers : List Header
  accesses : List Access
  result : Except Refusal ℕ

/-- A run that starts with one more header. -/
def Scanned.behind (rest : Scanned) (header : Header) (accesses : List Access) : Scanned :=
  ⟨header :: rest.headers, accesses ++ rest.accesses, rest.result⟩

/-- What a round does that goes on to another header. -/
inductive Continues (offset : ℕ) (counters : Counters) (info : Info) : List Access → Next → Prop where
  | extension {counted : Counters} (htype : info.type ∈ EXTENSIONS)
      (hcount : countExtension counters info = .ok counted)
      (hbody : checkExtension info (readAt data (offset + BLOCK) (stored info.size)) = .ok ()) :
      Continues offset counters info [.header offset, .extension (offset + BLOCK) info]
        ⟨⟨offset, info.type, offset + BLOCK + stored info.size⟩, counted⟩
  | member {counted : Counters} (hext : info.type ∉ EXTENSIONS) (htype : info.type ∈ REGULAR_TYPES)
      (hcount : countMember maxBytes counters info = .ok counted) :
      Continues offset counters info [.header offset, .member (offset + BLOCK) info]
        ⟨⟨offset, info.type, offset + BLOCK + stored info.size⟩, counted⟩
  | other (hext : info.type ∉ EXTENSIONS) (htype : info.type ∉ REGULAR_TYPES) :
      Continues offset counters info [.header offset]
        ⟨⟨offset, info.type, offset + BLOCK⟩,
          { counters with headers := counters.headers + 1, run := 0 }⟩

variable {frombuf data limit types maxBytes}

theorem scanStep_next {offset : ℕ} {counters : Counters} {accesses : List Access} {next : Next}
    (h : scanStep frombuf data limit types maxBytes offset counters = ⟨accesses, .ok (some next)⟩) :
    isEnd (readAt data offset BLOCK) = false ∧ ∃ info,
      checkHeader frombuf limit types counters (readAt data offset BLOCK) = .ok info ∧
      Continues data maxBytes offset counters info accesses next := by
  simp only [scanStep] at h
  split at h
  next => cases h
  next hend =>
    refine ⟨Bool.eq_false_of_not_eq_true hend, ?_⟩
    split at h
    next => cases h
    next info hinfo =>
      refine ⟨info, hinfo, ?_⟩
      split at h
      next hext =>
        split at h
        next => cases h
        next counted hcounted =>
          obtain ⟨rfl, hbody⟩ := Step.mk.inj h
          cases hc : checkExtension info (readAt data (offset + BLOCK) (stored info.size)) with
          | error refusal =>
            rw [hc] at hbody
            cases hbody
          | ok u =>
            rw [hc] at hbody
            cases hbody
            exact .extension hext hcounted hc
      next hext =>
        split at h
        next hregular =>
          split at h
          next => cases h
          next counted hcounted =>
            cases h
            exact .member hext hregular hcounted
        next hregular =>
          cases h
          exact .other hext hregular

theorem length_of_not_isEnd {offset : ℕ} (h : isEnd (readAt data offset BLOCK) = false) :
    offset + BLOCK ≤ data.length := by
  simp only [isEnd, readAt, List.length_take, List.length_drop, Bool.or_eq_false_iff,
    decide_eq_false_iff_not, BLOCK] at h ⊢
  omega

theorem Continues.le {offset : ℕ} {counters : Counters} {info : Info} {accesses : List Access}
    {next : Next} (h : Continues data maxBytes offset counters info accesses next) :
    offset + BLOCK ≤ next.header.next := by
  cases h with
  | extension => exact Nat.le_add_right _ _
  | member => exact Nat.le_add_right _ _
  | other => exact le_rfl

variable (frombuf data limit types maxBytes)

/-- The loop of `scan`, which ends because every round goes on behind its header. -/
def scanFrom (offset : ℕ) (counters : Counters) : Scanned :=
  match _hstep : scanStep frombuf data limit types maxBytes offset counters with
  | ⟨accesses, .error refusal⟩ => ⟨[], accesses, .error refusal⟩
  | ⟨accesses, .ok none⟩ => ⟨[], accesses, .ok counters.headers⟩
  | ⟨accesses, .ok (some next)⟩ =>
    (scanFrom next.header.next next.counters).behind next.header accesses
termination_by data.length - offset
decreasing_by
  obtain ⟨hend, info, -, hcontinues⟩ := scanStep_next _hstep
  have hlen := length_of_not_isEnd hend
  have hle := hcontinues.le
  have hblock : BLOCK = 512 := rfl
  omega

def scan : Scanned := scanFrom frombuf data limit types maxBytes 0 ⟨0, 0, 0, 0, 0⟩

end

/-! ### The reader -/

/-- A key and its value. -/
abbrev Record := Bytes × Bytes

/-- Why reading stops. -/
inductive Stop where
  | ended
  | unreadable
  | invalid
  | truncated
  deriving DecidableEq, Repr

/-- The records of a pax header as `tarfile` reads them: up to the first mismatch, padding included. -/
def laxRecords (data : Bytes) : Except Stop (List Record) :=
  match _hmatch : matchPrefix (fun b => b ≠ 61) data with
  | none => .ok []
  | some record =>
    if record.total = 0 then .error .invalid
    else do
      let records ← laxRecords (data.drop record.total)
      return (record.key, record.value data) :: records
termination_by data.length
decreasing_by
  have hlen := List.length_pos_iff.mpr (matchPrefix_ne_nil _hmatch)
  rw [List.length_drop]
  omega

/-- What is left open about `tarfile`: whether a header behind an extension header keeps its raw type,
    and where the next header is under records that change the size and behind a sparse header. -/
structure Rules where
  rawAfterExtension : Bool
  resized : List Record → List Record → ℕ → Info → ℕ
  behindSparse : ℕ → Info → ℕ

/-- Where the reader is: its global records, and those of the extension headers just read. -/
structure Reader where
  offset : ℕ
  globals : List Record
  pending : Option (List Record)

section
variable (rules : Rules) (frombuf : Bytes → Option Info) (data : Bytes)

/-- Data of an extension header, as much as there is. -/
def readExtension (offset : ℕ) (info : Info) : Except Stop Bytes := do
  require (0 ≤ info.size) .invalid
  return readAt data (offset + BLOCK) (stored info.size)

/-- The offset behind a header that is no extension. -/
def behindMember (offset : ℕ) (info : Info) : Except Stop ℕ := do
  if info.type = GNUTYPE_SPARSE then return rules.behindSparse offset info
  else if info.type ∈ REGULAR_TYPES ∨ info.type ∉ SUPPORTED_TYPES then do
    require (0 ≤ info.size) .invalid
    return offset + BLOCK + stored info.size
  else return offset + BLOCK

def readHeader (reader : Reader) : Except Stop Info := do
  require (reader.pending.isSome = true ∨ reader.offset ≤ data.length) .truncated
  let block := readAt data reader.offset BLOCK
  require (isEnd block = false) .ended
  let info ← need (frombuf block) .unreadable
  if (reader.pending.isSome && rules.rawAfterExtension) = true then return ⟨rawType block, info.size⟩
  else return info

def extensionRecords (info : Info) (body : Bytes) : Except Stop (List Record) :=
  if info.type ∈ PAX then laxRecords body else .ok []

/-- The reader behind an extension header with these records. -/
def behindExtension (reader : Reader) (info : Info) (next : ℕ) (records : List Record) : Reader :=
  let pending := reader.pending.getD []
  if info.type = XGLTYPE then ⟨next, reader.globals ++ records, some pending⟩
  else ⟨next, reader.globals, some (pending ++ records)⟩

/-- The reader behind a member. -/
def behindData (reader : Reader) (info : Info) (next : ℕ) : Reader :=
  let pending := reader.pending.getD []
  if (reader.globals ++ pending).any (fun record => isResizing record.1) then
    ⟨rules.resized reader.globals pending reader.offset info, reader.globals, none⟩
  else ⟨next, reader.globals, none⟩

/-- Where the reader goes on behind a header. -/
def readData (reader : Reader) (info : Info) : Except Stop Reader := do
  if info.type ∈ EXTENSIONS then do
    let body ← readExtension data reader.offset info
    let records ← extensionRecords info body
    return behindExtension reader info (reader.offset + BLOCK + body.length) records
  else do
    let next ← behindMember rules reader.offset info
    return behindData rules reader info next

/-- Read one header, and what comes before the next one. -/
def readStep (reader : Reader) : Except Stop (Header × Reader) := do
  let info ← readHeader rules frombuf data reader
  let next ← readData rules data reader info
  return (⟨reader.offset, info.type, next.offset⟩, next)

/-- The headers the reader reads, and why it stops, unless it is still reading after `fuel` headers. -/
def readFrom : ℕ → Reader → Option (List Header × Stop)
  | 0, _ => none
  | fuel + 1, reader =>
    match readStep rules frombuf data reader with
    | .error stop => some ([], stop)
    | .ok (header, next) => (readFrom fuel next).map fun (headers, stop) => (header :: headers, stop)

def read (fuel : ℕ) : Option (List Header × Stop) := readFrom rules frombuf data fuel ⟨0, [], none⟩

end

/-! ### Pax records, read strictly and laxly -/

theorem matchPrefix_of {isKey : UInt8 → Bool} {digits key rest : Bytes} (hdigits : digits ≠ [])
    (hdigit : ∀ b ∈ digits, isDigit b = true) (hkey : key ≠ []) (hkeys : ∀ b ∈ key, isKey b = true)
    (hequals : isKey 61 = false) :
    matchPrefix isKey (digits ++ 32 :: (key ++ 61 :: rest)) = some ⟨digits, key, rest⟩ := by
  have hspace : isDigit 32 = false := by decide
  have htake : (digits ++ 32 :: (key ++ 61 :: rest)).takeWhile isDigit = digits := by
    rw [List.takeWhile_append_of_pos hdigit, List.takeWhile_cons_of_neg (by simp [hspace]),
      List.append_nil]
  have hdrop : (digits ++ 32 :: (key ++ 61 :: rest)).dropWhile isDigit = 32 :: (key ++ 61 :: rest) := by
    rw [List.dropWhile_append_of_pos hdigit, List.dropWhile_cons_of_neg (by simp [hspace])]
  have htake' : (key ++ 61 :: rest).takeWhile isKey = key := by
    rw [List.takeWhile_append_of_pos hkeys, List.takeWhile_cons_of_neg (by simp [hequals]),
      List.append_nil]
  have hdrop' : (key ++ 61 :: rest).dropWhile isKey = 61 :: rest := by
    rw [List.dropWhile_append_of_pos hkeys, List.dropWhile_cons_of_neg (by simp [hequals])]
  simp only [matchPrefix, hdrop, htake, hdrop', htake']
  simp [hdigits, hkey]

/-- A strict record is a lax one, with the same key, whatever follows. -/
theorem matchPrefix_of_matchRecord {data : Bytes} {record : Prefix} (h : matchRecord data = some record)
    (behind : Bytes) : matchPrefix (fun b => b ≠ 61) (data ++ behind) =
      some ⟨record.digits, record.key, record.rest ++ behind⟩ := by
  obtain ⟨hdata, hdigits, hdigit, hkey, hkeys⟩ := matchPrefix_spec (matchRecord_spec h).1
  have hshape : data ++ behind =
      record.digits ++ 32 :: (record.key ++ 61 :: (record.rest ++ behind)) := by
    conv_lhs => rw [hdata]
    simp
  rw [hshape]
  refine matchPrefix_of hdigits hdigit hkey (fun b hb => ?_) (by decide)
  have := hkeys b hb
  simp only [Bool.and_eq_true] at this
  exact this.1

theorem laxRecords_zeros {zeros : Bytes} (h : ∀ b ∈ zeros, b = 0) : laxRecords zeros = .ok [] := by
  have hnone : matchPrefix (fun b => b ≠ 61) zeros = none := by
    cases zeros with
    | nil => rfl
    | cons b zeros =>
      obtain rfl := h b List.mem_cons_self
      rfl
  rw [laxRecords]
  split
  next => rfl
  next record hrecord =>
    rw [hnone] at hrecord
    cases hrecord

/-- What the strict parser accepts, the lax one reads alike, and it stops in the padding. -/
theorem laxRecords_of_paxKeys {zeros : Bytes} (hzeros : ∀ b ∈ zeros, b = 0) (data : Bytes) :
    ∀ {keys : List Bytes}, paxKeys data = .ok keys →
      ∃ records, laxRecords (data ++ zeros) = .ok records ∧ records.map Prod.fst = keys := by
  fun_induction paxKeys data with
  | case1 =>
    intro keys h
    cases h
    exact ⟨[], by rw [List.nil_append, laxRecords_zeros hzeros], rfl⟩
  | case2 => nofun
  | case3 data hne record hmatch hends ih =>
    intro keys h
    rw [except_bind_ok] at h
    obtain ⟨rest, hrest, h⟩ := h
    cases h
    obtain ⟨records, hrecords, hkeys⟩ := ih hrest
    have hle : record.total ≤ data.length := by
      simp only [terminated, Bool.and_eq_true, decide_eq_true_eq] at hends
      have := congrArg List.length hends.1
      rw [List.length_take, List.length_drop, List.length_singleton] at this
      omega
    have hlax := matchPrefix_of_matchRecord hmatch zeros
    refine ⟨(record.key,
      Prefix.value ⟨record.digits, record.key, record.rest ++ zeros⟩ (data ++ zeros)) :: records, ?_,
      by rw [List.map_cons, hkeys]⟩
    rw [laxRecords]
    split
    next hnone =>
      rw [hlax] at hnone
      cases hnone
    next found hfound =>
      rw [hlax] at hfound
      cases hfound
      have htotal : Prefix.total ⟨record.digits, record.key, record.rest ++ zeros⟩ = record.total := rfl
      rw [htotal, if_neg (Nat.ne_of_gt (matchRecord_pos hmatch)), List.drop_append_of_le_length hle,
        hrecords]
      rfl
  | case4 => nofun

/-! ### One step of the scan is one of the reader -/

section
variable {frombuf : Bytes → Option Info} {data : Bytes} {limit : ℕ} {types : List UInt8}
  {maxBytes : Option ℕ}

/-- No sparse headers, and no types whose data `tarfile` would pass over and `scan` would not. -/
def Plain (types : List UInt8) : Prop :=
  ∀ type ∈ types, type ≠ GNUTYPE_SPARSE ∧ (type ∈ EXTENSIONS ∨ type ∈ SUPPORTED_TYPES)

instance (types : List UInt8) : Decidable (Plain types) :=
  List.decidableBAll _ types

/-- The reader has read no record that moves the next header. -/
def Clean (reader : Reader) : Prop :=
  ∀ record ∈ reader.globals ++ reader.pending.getD [], isResizing record.1 = false

theorem checkHeader_ok {counters : Counters} {block : Bytes} {info : Info}
    (h : checkHeader frombuf limit types counters block = .ok info) :
    frombuf block = some info ∧ info.type ∈ types ∧ info.type = rawType block ∧ 0 ≤ info.size ∧
      counters.headers + 1 ≤ limit := by
  simp only [checkHeader, except_bind_ok, need_ok, require_ok] at h
  obtain ⟨_, hlimit, info', hparsed, _, htype, _, hraw, _, hsize, h⟩ := h
  cases h
  exact ⟨hparsed, htype, hraw, hsize, hlimit⟩

theorem checkExtension_length {info : Info} {body : Bytes} (h : checkExtension info body = .ok ()) :
    body.length = stored info.size := by
  simp only [checkExtension, except_bind_ok, require_ok] at h
  obtain ⟨_, hlength, -⟩ := h
  exact hlength

/-- The records the reader finds in accepted data move nothing. -/
theorem extensionRecords_clean {info : Info} {body : Bytes} (h : checkExtension info body = .ok ()) :
    ∃ records, extensionRecords info body = .ok records ∧
      ∀ record ∈ records, isResizing record.1 = false := by
  by_cases hpax : info.type ∈ PAX
  · simp only [checkExtension, if_pos hpax, except_bind_ok, except_forM_ok, require_ok, List.all_eq_true,
      decide_eq_true_eq] at h
    obtain ⟨_, -, _, hzeros, keys, hkeys, hclean⟩ := h
    obtain ⟨records, hrecords, hfst⟩ := laxRecords_of_paxKeys hzeros _ hkeys
    rw [List.take_append_drop] at hrecords
    refine ⟨records, by rw [extensionRecords, if_pos hpax, hrecords],
      fun record hrecord => hclean record.1 ?_⟩
    rw [← hfst]
    exact List.mem_map_of_mem hrecord
  · exact ⟨[], by rw [extensionRecords, if_neg hpax], by simp⟩

theorem behindExtension_offset (reader : Reader) (info : Info) (next : ℕ) (records : List Record) :
    (behindExtension reader info next records).offset = next := by
  rw [behindExtension]
  split
  · rfl
  · rfl

theorem behindExtension_clean {reader : Reader} {info : Info} {next : ℕ} {records : List Record}
    (hclean : Clean reader) (hrecords : ∀ record ∈ records, isResizing record.1 = false) :
    Clean (behindExtension reader info next records) := by
  intro record hmem
  rw [behindExtension] at hmem
  have hcases : record ∈ reader.globals ++ reader.pending.getD [] ∨ record ∈ records := by
    split at hmem
    · simp only [Option.getD_some, List.mem_append] at hmem ⊢
      tauto
    · simp only [Option.getD_some, List.mem_append] at hmem ⊢
      tauto
  exact hcases.elim (hclean record) (hrecords record)

theorem Clean.rest {reader : Reader} (hclean : Clean reader) {next : ℕ} :
    Clean ⟨next, reader.globals, none⟩ := by
  intro record hmem
  refine hclean record (List.mem_append_left _ ?_)
  simpa using hmem

theorem behindData_clean {rules : Rules} {reader : Reader} (hclean : Clean reader) {info : Info}
    {next : ℕ} :
    behindData rules reader info next = ⟨next, reader.globals, none⟩ := by
  rw [behindData, if_neg]
  intro hany
  obtain ⟨record, hmem, hresizing⟩ := List.any_eq_true.mp hany
  rw [hclean record hmem] at hresizing
  cases hresizing

theorem step_agrees (rules : Rules) (hplain : Plain types) {offset : ℕ} {counters : Counters}
    {accesses : List Access} {next : Next}
    (hstep : scanStep frombuf data limit types maxBytes offset counters = ⟨accesses, .ok (some next)⟩)
    {reader : Reader} (hoffset : reader.offset = offset) (hclean : Clean reader) :
    ∃ reader', readStep rules frombuf data reader = .ok (next.header, reader') ∧
      reader'.offset = next.header.next ∧ Clean reader' := by
  obtain ⟨hend, info, hinfo, hcontinues⟩ := scanStep_next hstep
  obtain ⟨hparsed, htype, hraw, hsize, -⟩ := checkHeader_ok hinfo
  have hlen := length_of_not_isEnd hend
  have hwhole : reader.pending.isSome = true ∨ reader.offset ≤ data.length := by
    rw [hoffset]
    exact .inr (by omega)
  have hheader : readHeader rules frombuf data reader = .ok info := by
    simp only [readHeader, except_bind_ok, require_ok, need_ok, hoffset]
    refine ⟨(), hoffset ▸ hwhole, (), hend, info, hparsed, ?_⟩
    rw [← hraw, ite_self]
    rfl
  obtain ⟨reader', hdata, hnext, hclean'⟩ : ∃ reader', readData rules data reader info = .ok reader' ∧
      reader'.offset = next.header.next ∧ Clean reader' := by
    obtain ⟨hsparse, hsupported⟩ := hplain info.type htype
    cases hcontinues with
    | extension hext hcount hbody =>
      obtain ⟨records, hrecords, hrecordsClean⟩ := extensionRecords_clean hbody
      have hread : readExtension data reader.offset info =
          .ok (readAt data (offset + BLOCK) (stored info.size)) := by
        rw [readExtension, require, if_pos hsize, hoffset]
        rfl
      refine ⟨_, by rw [readData, if_pos hext, hread, except_ok_bind, hrecords, except_ok_bind]; rfl, ?_,
        behindExtension_clean hclean hrecordsClean⟩
      rw [behindExtension_offset, checkExtension_length hbody, hoffset]
    | member hext hregular hcount =>
      have hbehind : behindMember rules reader.offset info =
          .ok (offset + BLOCK + stored info.size) := by
        rw [behindMember, if_neg hsparse, if_pos (.inl hregular), require, if_pos hsize, hoffset]
        rfl
      refine ⟨_, by rw [readData, if_neg hext, hbehind, except_ok_bind]; rfl, ?_⟩
      rw [behindData_clean hclean]
      exact ⟨rfl, Clean.rest hclean⟩
    | other hext hregular =>
      have hbehind : behindMember rules reader.offset info = .ok (offset + BLOCK) := by
        rw [behindMember, if_neg hsparse, if_neg, hoffset]
        · rfl
        · exact not_or.mpr ⟨hregular, not_not.mpr (hsupported.resolve_left hext)⟩
      refine ⟨_, by rw [readData, if_neg hext, hbehind, except_ok_bind]; rfl, ?_⟩
      rw [behindData_clean hclean]
      exact ⟨rfl, Clean.rest hclean⟩
  have hfields : next.header.offset = offset ∧ next.header.type = info.type := by
    cases hcontinues with
    | extension => exact ⟨rfl, rfl⟩
    | member => exact ⟨rfl, rfl⟩
    | other => exact ⟨rfl, rfl⟩
  refine ⟨reader', ?_, hnext, hclean'⟩
  rw [readStep, hheader, except_ok_bind, hdata, except_ok_bind, hnext, hoffset, ← hfields.1, ← hfields.2]
  rfl

/-! ### The whole run -/

theorem scanStep_end {offset : ℕ} {counters : Counters} {accesses : List Access}
    (h : scanStep frombuf data limit types maxBytes offset counters = ⟨accesses, .ok none⟩) :
    isEnd (readAt data offset BLOCK) = true := by
  simp only [scanStep] at h
  split at h
  next hend => exact hend
  next =>
    split at h
    next => cases h
    next info _ =>
      split at h
      next =>
        split at h
        next => cases h
        next counted _ =>
          cases hc : checkExtension info (readAt data (offset + BLOCK) (stored info.size)) with
          | error refusal =>
            rw [hc] at h
            cases h
          | ok u =>
            rw [hc] at h
            cases h
      next =>
        split at h
        next =>
          split at h
          next => cases h
          next => cases h
        next => cases h

/-- Where the scan finds its end, the reader stops. -/
theorem readStep_end (rules : Rules) {reader : Reader}
    (hend : isEnd (readAt data reader.offset BLOCK) = true) :
    ∃ stop, readStep rules frombuf data reader = .error stop := by
  cases h : readStep rules frombuf data reader with
  | error stop => exact ⟨stop, rfl⟩
  | ok next =>
    simp only [readStep, readHeader, except_bind_ok, require_ok] at h
    obtain ⟨_, ⟨_, -, _, hnot, -⟩, -⟩ := h
    rw [hend] at hnot
    cases hnot

theorem countExtension_ok {counters counted : Counters} {info : Info}
    (h : countExtension counters info = .ok counted) :
    counted.headers = counters.headers + 1 ∧ counted.total = counters.total ∧
      counted.extension = counters.extension + info.size.toNat ∧
      counted.extension ≤ MAX_EXTENSION_TOTAL ∧
      counted.globalPax = counters.globalPax + (if info.type = XGLTYPE then info.size.toNat else 0) ∧
      counted.globalPax ≤ MAX_GLOBAL ∧ info.size ≤ MAX_EXTENSION := by
  simp only [countExtension, except_bind_ok, require_ok] at h
  obtain ⟨_, -, _, hsize, _, htotal, _, hglobal, h⟩ := h
  cases h
  exact ⟨rfl, rfl, rfl, htotal, rfl, hglobal, hsize⟩

theorem countMember_ok {counters counted : Counters} {info : Info}
    (h : countMember maxBytes counters info = .ok counted) :
    counted.headers = counters.headers + 1 ∧ counted.extension = counters.extension ∧
      counted.globalPax = counters.globalPax ∧ counted.total = counters.total + info.size.toNat ∧
      ∀ bound ∈ maxBytes, counted.total ≤ bound := by
  simp only [countMember, except_bind_ok, require_ok] at h
  obtain ⟨_, htotal, h⟩ := h
  cases h
  exact ⟨rfl, rfl, rfl, rfl, htotal⟩

theorem Continues.headers {offset : ℕ} {counters : Counters} {info : Info} {accesses : List Access}
    {next : Next} (h : Continues data maxBytes offset counters info accesses next) :
    next.counters.headers = counters.headers + 1 := by
  cases h with
  | extension _ hcount => exact (countExtension_ok hcount).1
  | member _ _ hcount => exact (countMember_ok hcount).1
  | other => rfl

/-- The headers of an accepted scan are those the reader reads. -/
theorem run_agrees (rules : Rules) (hplain : Plain types) (offset : ℕ) (counters : Counters) :
    ∀ {n : ℕ}, (scanFrom frombuf data limit types maxBytes offset counters).result = .ok n →
    ∀ {reader : Reader}, reader.offset = offset → Clean reader →
      n = counters.headers +
        (scanFrom frombuf data limit types maxBytes offset counters).headers.length ∧
      ∃ stop, ∀ fuel > (scanFrom frombuf data limit types maxBytes offset counters).headers.length,
        readFrom rules frombuf data fuel reader =
          some ((scanFrom frombuf data limit types maxBytes offset counters).headers, stop) := by
  fun_induction scanFrom frombuf data limit types maxBytes offset counters with
  | case1 => nofun
  | case2 offset counters accesses hstep =>
    rintro n h reader rfl -
    cases h
    obtain ⟨stop, hstop⟩ := readStep_end rules (scanStep_end hstep)
    refine ⟨rfl, stop, fun fuel hfuel => ?_⟩
    cases fuel with
    | zero => exact absurd hfuel (Nat.lt_irrefl 0)
    | succ fuel => rw [readFrom, hstop]
  | case3 offset counters accesses next hstep ih =>
    intro n h reader hoffset hclean
    obtain ⟨reader', hread, hnext, hclean'⟩ := step_agrees rules hplain hstep hoffset hclean
    obtain ⟨hcount, stop, hrest⟩ := ih h hnext hclean'
    obtain ⟨-, info, -, hcontinues⟩ := scanStep_next hstep
    have hheaders := hcontinues.headers
    refine ⟨?_, stop, fun fuel hfuel => ?_⟩
    · rw [hcount, hheaders, Scanned.behind, List.length_cons]
      omega
    · rw [Scanned.behind, List.length_cons] at hfuel
      cases fuel with
      | zero => omega
      | succ fuel =>
        rw [readFrom, hread]
        simp only [hrest fuel (by omega), Option.map_some, Scanned.behind]

/-! ### What a scan reads and passes over, refused or not -/

namespace Access

def offset : Access → ℕ
  | header offset => offset
  | extension offset _ => offset
  | member offset _ => offset

/-- Bytes read or passed over. -/
def amount : Access → ℕ
  | header _ => BLOCK
  | extension _ info => stored info.size
  | member _ info => stored info.size

/-- Bytes declared, before padding. -/
def declared : Access → ℕ
  | header _ => BLOCK
  | extension _ info => info.size.toNat
  | member _ info => info.size.toNat

def extensionBytes : Access → ℕ
  | extension _ info => info.size.toNat
  | _ => 0

def globalBytes : Access → ℕ
  | extension _ info => if info.type = XGLTYPE then info.size.toNat else 0
  | _ => 0

def memberBytes : Access → ℕ
  | member _ info => info.size.toNat
  | _ => 0

end Access

/-- Each operation starts where the one before it ended. -/
def Contiguous : ℕ → List Access → Prop
  | _, [] => True
  | offset, access :: accesses => access.offset = offset ∧ Contiguous (offset + access.amount) accesses

theorem contiguous_append : ∀ {a b : List Access} {offset : ℕ},
    Contiguous offset (a ++ b) ↔ Contiguous offset a ∧ Contiguous (offset + (a.map Access.amount).sum) b
  | [], b, offset => by simp [Contiguous]
  | access :: a, b, offset => by
    rw [List.cons_append, Contiguous, Contiguous, contiguous_append, List.map_cons, List.sum_cons,
      and_assoc, Nat.add_assoc]

/-- The counted bytes are within the bounds. -/
structure Counters.Within (maxBytes : Option ℕ) (counters : Counters) : Prop where
  extension : counters.extension ≤ MAX_EXTENSION_TOTAL
  globalPax : counters.globalPax ≤ MAX_GLOBAL
  total : ∀ bound ∈ maxBytes, counters.total ≤ bound

/-- Operations from one offset on, and what they add to the counters. -/
structure Accounted (offset : ℕ) (counters : Counters) (accesses : List Access) (counted : Counters) :
    Prop where
  forward : Contiguous offset accesses
  small : ∀ access ∈ accesses, access.extensionBytes ≤ MAX_EXTENSION
  padded : ∀ access ∈ accesses, access.declared ≤ access.amount ∧ access.amount < access.declared + BLOCK
  extension : counted.extension = counters.extension + (accesses.map Access.extensionBytes).sum
  globalPax : counted.globalPax = counters.globalPax + (accesses.map Access.globalBytes).sum
  total : counted.total = counters.total + (accesses.map Access.memberBytes).sum

theorem stored_le {size : ℤ} (h : 0 ≤ size) : size.toNat ≤ stored size ∧
    stored size < size.toNat + BLOCK := by
  rw [stored, BLOCK]
  omega

theorem accounted_header {offset : ℕ} {counters counted : Counters}
    (hextension : counted.extension = counters.extension)
    (hglobal : counted.globalPax = counters.globalPax)
    (htotal : counted.total = counters.total) : Accounted offset counters [.header offset] counted := by
  constructor <;> simp [Contiguous, Access.offset, Access.amount, Access.declared, Access.extensionBytes,
    Access.globalBytes, Access.memberBytes, hextension, hglobal, htotal, BLOCK]

theorem accounted_extension {offset : ℕ} {counters counted : Counters} {info : Info}
    (hsize : 0 ≤ info.size)
    (hcount : countExtension counters info = .ok counted) :
    Accounted offset counters [.header offset, .extension (offset + BLOCK) info] counted := by
  obtain ⟨-, htotal, hextension, -, hglobal, -, hmax⟩ := countExtension_ok hcount
  have hstored := stored_le hsize
  constructor
  · simp [Contiguous, Access.offset, Access.amount]
  · simp only [List.forall_mem_cons, Access.extensionBytes]
    refine ⟨Nat.zero_le _, ?_, by simp⟩
    omega
  · simp only [List.forall_mem_cons, Access.declared, Access.amount]
    refine ⟨?_, hstored, by simp⟩
    rw [BLOCK]
    omega
  · simp [Access.extensionBytes, hextension]
  · simp [Access.globalBytes, hglobal]
  · simp [Access.memberBytes, htotal]

theorem accounted_member {offset : ℕ} {counters counted : Counters} {info : Info} (hsize : 0 ≤ info.size)
    (hcount : countMember maxBytes counters info = .ok counted) :
    Accounted offset counters [.header offset, .member (offset + BLOCK) info] counted := by
  obtain ⟨-, hextension, hglobal, htotal, -⟩ := countMember_ok hcount
  have hstored := stored_le hsize
  constructor
  · simp [Contiguous, Access.offset, Access.amount]
  · simp [Access.extensionBytes]
  · simp only [List.forall_mem_cons, Access.declared, Access.amount]
    refine ⟨?_, hstored, by simp⟩
    rw [BLOCK]
    omega
  · simp [Access.extensionBytes, hextension]
  · simp [Access.globalBytes, hglobal]
  · simp [Access.memberBytes, htotal]

/-- A round that reads no more than a header. -/
theorem accounted_refused {offset : ℕ} {counters : Counters} (hwithin : counters.Within maxBytes)
    {outcome : Except Refusal (Option Next)} (houtcome : ∀ next, outcome ≠ .ok (some next)) :
    ∃ counted, Accounted offset counters [.header offset] counted ∧ counted.Within maxBytes ∧
      ∀ next, outcome = .ok (some next) → next.counters = counted ∧
        next.header.next = offset + ([Access.header offset].map Access.amount).sum :=
  ⟨counters, accounted_header rfl rfl rfl, hwithin, fun next h => absurd h (houtcome next)⟩

theorem scanStep_accounted {offset : ℕ} {counters : Counters} (hwithin : counters.Within maxBytes)
    {accesses : List Access} {outcome : Except Refusal (Option Next)}
    (h : scanStep frombuf data limit types maxBytes offset counters = ⟨accesses, outcome⟩) :
    ∃ counted, Accounted offset counters accesses counted ∧ counted.Within maxBytes ∧
      ∀ next, outcome = .ok (some next) → next.counters = counted ∧
        next.header.next = offset + (accesses.map Access.amount).sum := by
  simp only [scanStep] at h
  split at h
  next =>
    cases h
    exact accounted_refused hwithin nofun
  next =>
    split at h
    next =>
      cases h
      exact accounted_refused hwithin nofun
    next info hinfo =>
      obtain ⟨-, -, -, hsize, -⟩ := checkHeader_ok hinfo
      split at h
      next =>
        split at h
        next =>
          cases h
          exact accounted_refused hwithin nofun
        next counted hcounted =>
          obtain ⟨rfl, rfl⟩ := Step.mk.inj h
          have hspec := countExtension_ok hcounted
          refine ⟨counted, accounted_extension hsize hcounted,
            ⟨hspec.2.2.2.1, hspec.2.2.2.2.2.1, ?_⟩, ?_⟩
          · rw [hspec.2.1]
            exact hwithin.total
          · intro next hnext
            cases hc : checkExtension info (readAt data (offset + BLOCK) (stored info.size)) with
            | error refusal =>
              rw [hc] at hnext
              cases hnext
            | ok u =>
              rw [hc] at hnext
              cases hnext
              exact ⟨rfl, by simp [Access.amount, Nat.add_assoc]⟩
      next =>
        split at h
        next =>
          split at h
          next =>
            cases h
            exact accounted_refused hwithin nofun
          next counted hcounted =>
            cases h
            have hspec := countMember_ok hcounted
            refine ⟨counted, accounted_member hsize hcounted, ⟨?_, ?_, hspec.2.2.2.2⟩, ?_⟩
            · rw [hspec.2.1]
              exact hwithin.extension
            · rw [hspec.2.2.1]
              exact hwithin.globalPax
            · intro next hnext
              cases hnext
              exact ⟨rfl, by simp [Access.amount, Nat.add_assoc]⟩
        next =>
          cases h
          refine ⟨{ counters with headers := counters.headers + 1, run := 0 },
            accounted_header rfl rfl rfl, ⟨hwithin.extension, hwithin.globalPax, hwithin.total⟩, ?_⟩
          intro next hnext
          cases hnext
          exact ⟨rfl, by simp [Access.amount]⟩

theorem Accounted.append {offset behind : ℕ} {counters middle counted : Counters} {a b : List Access}
    (ha : Accounted offset counters a middle) (hbehind : behind = offset + (a.map Access.amount).sum)
    (hb : Accounted behind middle b counted) : Accounted offset counters (a ++ b) counted := by
  subst hbehind
  refine ⟨contiguous_append.mpr ⟨ha.forward, hb.forward⟩,
    List.forall_mem_append.mpr ⟨ha.small, hb.small⟩,
    List.forall_mem_append.mpr ⟨ha.padded, hb.padded⟩, ?_, ?_, ?_⟩
  · rw [hb.extension, ha.extension, List.map_append, List.sum_append, Nat.add_assoc]
  · rw [hb.globalPax, ha.globalPax, List.map_append, List.sum_append, Nat.add_assoc]
  · rw [hb.total, ha.total, List.map_append, List.sum_append, Nat.add_assoc]

/-- Every run goes forward and stays within the bounds, whatever its result. -/
theorem run_accounted (offset : ℕ) (counters : Counters) : counters.Within maxBytes →
    ∃ counted, Accounted offset counters
      (scanFrom frombuf data limit types maxBytes offset counters).accesses counted ∧
        counted.Within maxBytes := by
  fun_induction scanFrom frombuf data limit types maxBytes offset counters with
  | case1 offset counters accesses refusal hstep =>
    intro hwithin
    obtain ⟨counted, haccounted, hcounted, -⟩ := scanStep_accounted hwithin hstep
    exact ⟨counted, haccounted, hcounted⟩
  | case2 offset counters accesses hstep =>
    intro hwithin
    obtain ⟨counted, haccounted, hcounted, -⟩ := scanStep_accounted hwithin hstep
    exact ⟨counted, haccounted, hcounted⟩
  | case3 offset counters accesses next hstep ih =>
    intro hwithin
    obtain ⟨middle, haccounted, hmiddle, hnext⟩ := scanStep_accounted hwithin hstep
    obtain ⟨rfl, hoffset⟩ := hnext next rfl
    obtain ⟨counted, hrest, hcounted⟩ := ih hmiddle
    exact ⟨counted, haccounted.append hoffset hrest, hcounted⟩

/-- Every header is a block of the archive, behind the one before it. -/
theorem run_headers (offset : ℕ) (counters : Counters) :
    BLOCK * (scanFrom frombuf data limit types maxBytes offset counters).headers.length ≤
      data.length - offset := by
  fun_induction scanFrom frombuf data limit types maxBytes offset counters with
  | case1 => exact Nat.zero_le _
  | case2 => exact Nat.zero_le _
  | case3 offset counters accesses next hstep ih =>
    obtain ⟨hend, info, -, hcontinues⟩ := scanStep_next hstep
    have hlen := length_of_not_isEnd hend
    have hle := hcontinues.le
    rw [Scanned.behind, List.length_cons, Nat.mul_succ]
    omega

/-- Every header parses, is of an allowed type and declares no negative size. -/
theorem run_parsed (offset : ℕ) (counters : Counters) :
    ∀ header ∈ (scanFrom frombuf data limit types maxBytes offset counters).headers, ∃ info,
      frombuf (readAt data header.offset BLOCK) = some info ∧ info.type = header.type ∧ info.type ∈ types ∧
        0 ≤ info.size := by
  fun_induction scanFrom frombuf data limit types maxBytes offset counters with
  | case1 => nofun
  | case2 => nofun
  | case3 offset counters accesses next hstep ih =>
    obtain ⟨-, info, hinfo, hcontinues⟩ := scanStep_next hstep
    obtain ⟨hparsed, htype, -, hsize, -⟩ := checkHeader_ok hinfo
    intro header hheader
    rcases List.mem_cons.mp hheader with rfl | hheader
    · cases hcontinues with
      | extension => exact ⟨info, hparsed, rfl, htype, hsize⟩
      | member => exact ⟨info, hparsed, rfl, htype, hsize⟩
      | other => exact ⟨info, hparsed, rfl, htype, hsize⟩
    · exact ih header hheader

/-- What holds of the headers and the stream operations of every scan. -/
structure Bounded (data : Bytes) (maxBytes : Option ℕ) (scanned : Scanned) : Prop where
  rounds : BLOCK * scanned.headers.length ≤ data.length
  forward : Contiguous 0 scanned.accesses
  padded : ∀ access ∈ scanned.accesses,
    access.declared ≤ access.amount ∧ access.amount < access.declared + BLOCK
  extension : ∀ access ∈ scanned.accesses, access.extensionBytes ≤ MAX_EXTENSION
  extensions : (scanned.accesses.map Access.extensionBytes).sum ≤ MAX_EXTENSION_TOTAL
  globals : (scanned.accesses.map Access.globalBytes).sum ≤ MAX_GLOBAL
  members : ∀ bound ∈ maxBytes, (scanned.accesses.map Access.memberBytes).sum ≤ bound

theorem scan_bounded : Bounded data maxBytes (scan frombuf data limit types maxBytes) := by
  have hstart : Counters.Within maxBytes ⟨0, 0, 0, 0, 0⟩ :=
      ⟨Nat.zero_le _, Nat.zero_le _, fun _ _ => Nat.zero_le _⟩
  obtain ⟨counted, haccounted, hcounted⟩ := @run_accounted frombuf data limit types maxBytes 0 _ hstart
  have hextension := hcounted.extension
  have hglobal := hcounted.globalPax
  rw [haccounted.extension, Nat.zero_add] at hextension
  rw [haccounted.globalPax, Nat.zero_add] at hglobal
  refine ⟨run_headers 0 _, haccounted.forward, haccounted.padded, haccounted.small, hextension,
    hglobal, ?_⟩
  intro bound hbound
  have htotal := hcounted.total bound hbound
  rwa [haccounted.total, Nat.zero_add] at htotal

/-- An accepted scan and the reader read the same headers. Any scan ends, goes forward only, and stays
    within the bounds, which count what headers declare: data is read and passed over in whole blocks. -/
theorem scan_lockstep (rules : Rules) (htypes : types = RELEASE_TYPES ∨ types = INPUT_TYPES) :
    (∀ n, (scan frombuf data limit types maxBytes).result = .ok n →
      (scan frombuf data limit types maxBytes).headers.length = n ∧
      ∃ stop, ∀ fuel > n, read rules frombuf data fuel =
        some ((scan frombuf data limit types maxBytes).headers, stop)) ∧
    Bounded data maxBytes (scan frombuf data limit types maxBytes) := by
  have hplain : Plain types := by
    rcases htypes with rfl | rfl
    · decide +kernel
    · decide +kernel
  refine ⟨fun n h => ?_, scan_bounded⟩
  have hclean : Clean ⟨0, [], none⟩ := by simp [Clean]
  obtain ⟨hcount, stop, hread⟩ := run_agrees rules hplain 0 _ h rfl hclean
  rw [Nat.zero_add] at hcount
  exact ⟨hcount.symm, stop, fun fuel hfuel => hread fuel (hcount ▸ hfuel)⟩

end

/-! ### `tarfile.TarInfo.frombuf`, and an archive of one long name and one byte -/

/-- `int(text, 8)`, of text without surrounding space. -/
def octal (text : Bytes) : Option ℤ :=
  let negative := text.head? = some 45
  let unsigned := if text.head? = some 45 ∨ text.head? = some 43 then text.drop 1 else text
  let bare := if unsigned.take 2 ∈ [utf8 "0o", utf8 "0O"] then
      if (unsigned.drop 2).head? = some 95 then unsigned.drop 3 else unsigned.drop 2
    else unsigned
  let groups := bare.splitOn 95
  if groups.all (fun group => group ≠ [] && group.all fun b => 48 ≤ b && b ≤ 55) then
    let value := groups.flatten.foldl (fun value b => 8 * value + ((b.toNat : ℤ) - 48)) 0
    some (if negative then -value else value)
  else none

def isSpace (b : UInt8) : Bool := b = 32 || (9 ≤ b && b ≤ 13) || (28 ≤ b && b ≤ 31)

/-- A number field: base 256, or octal up to the first NUL. -/
def nti (field : Bytes) : Option ℤ :=
  let number : ℤ := (field.drop 1).foldl (fun value b => 256 * value + (b.toNat : ℤ)) 0
  if field.head? = some 128 then some number
  else if field.head? = some 255 then some (number - 256 ^ (field.length - 1))
  else
    let text := ((field.takeWhile (· ≠ 0)).dropWhile isSpace).rdropWhile isSpace
    octal (if text = [] then utf8 "0" else text)

/-- The sum of a header's bytes, its checksum field read as spaces. -/
def calcChksums (block : Bytes) : List ℤ :=
  let bytes := block.take 148 ++ block.drop 156
  [256 + (bytes.map fun b => (b.toNat : ℤ)).sum,
   256 + (bytes.map fun b => if b < 128 then (b.toNat : ℤ) else b.toNat - 256).sum]

/-- `frombuf` of a whole block that is not all zeros. -/
def frombuf (block : Bytes) : Option Info := do
  let chksum ← nti (readAt block 148 8)
  if chksum ∉ calcChksums block then none
  else do
    for field in [(100, 8), (108, 8), (116, 8), (136, 12), (329, 8), (337, 8)] do
      let _ ← nti (readAt block field.1 field.2)
    let size ← nti (readAt block 124 12)
    let directory := rawType block = AREGTYPE ∧ ((block.take 100).takeWhile (· ≠ 0)).getLast? = some 47
    if rawType block = GNUTYPE_SPARSE then do
      for field in [386, 398, 410, 422, 434, 446, 458, 470, 483] do
        let _ ← nti (readAt block field 12)
    return ⟨if directory then DIRTYPE else rawType block, size⟩

def field (length : ℕ) (text : String) : Bytes := utf8 text ++ List.replicate (length - text.length) 0

/-- A header as GNU tar writes it. -/
def ustar (name : String) (type : UInt8) (size chksum : String) : Bytes :=
  field 100 name ++ field 8 "0000644" ++ field 8 "0000000" ++ field 8 "0000000" ++ field 12 size ++
    field 12 "00000000000" ++ field 7 chksum ++ [32, type] ++ field 100 "" ++ field 8 "ustar  " ++
    field 247 ""

/-- One byte under the long name `a`. -/
def archive : Bytes :=
  ustar "././@LongLink" GNUTYPE_LONGNAME "00000000002" "007763" ++ field BLOCK "a" ++
  ustar "a" REGTYPE "00000000001" "006037" ++ field BLOCK "x" ++ List.replicate 1024 0

section
variable {frombuf : Bytes → Option Info} {data : Bytes} {limit : ℕ} {types : List UInt8}
  {maxBytes : Option ℕ}

theorem scanFrom_next {offset : ℕ} {counters : Counters} {accesses : List Access} {next : Next}
    (h : scanStep frombuf data limit types maxBytes offset counters = ⟨accesses, .ok (some next)⟩) :
    scanFrom frombuf data limit types maxBytes offset counters =
      (scanFrom frombuf data limit types maxBytes next.header.next next.counters).behind
        next.header accesses := by
  rw [scanFrom]
  split
  next heq =>
    rw [h] at heq
    cases heq
  next heq =>
    rw [h] at heq
    cases heq
  next heq =>
    rw [h] at heq
    cases heq
    rfl

theorem scanFrom_end {offset : ℕ} {counters : Counters} (h : isEnd (readAt data offset BLOCK) = true) :
    scanFrom frombuf data limit types maxBytes offset counters =
    ⟨[], [.header offset], .ok counters.headers⟩ := by
  have hstep : scanStep frombuf data limit types maxBytes offset counters =
      ⟨[.header offset], .ok none⟩ := by
    rw [scanStep, if_pos h]
  rw [scanFrom]
  split
  next heq =>
    rw [hstep] at heq
    cases heq
  next heq =>
    rw [hstep] at heq
    cases heq
    rfl
  next heq =>
    rw [hstep] at heq
    cases heq

end

theorem step_longname : scanStep frombuf archive 2 RELEASE_TYPES (some 1) 0 ⟨0, 0, 0, 0, 0⟩ =
    ⟨[.header 0, .extension 512 ⟨GNUTYPE_LONGNAME, 2⟩],
      .ok (some ⟨⟨0, GNUTYPE_LONGNAME, 1024⟩, ⟨1, 1, 0, 2, 0⟩⟩)⟩ := by
  decide +kernel

theorem step_member : scanStep frombuf archive 2 RELEASE_TYPES (some 1) 1024 ⟨1, 1, 0, 2, 0⟩ =
    ⟨[.header 1024, .member 1536 ⟨REGTYPE, 1⟩],
      .ok (some ⟨⟨1024, REGTYPE, 2048⟩, ⟨2, 0, 1, 2, 0⟩⟩)⟩ := by
  decide +kernel

theorem scan_archive : scan frombuf archive 2 RELEASE_TYPES (some 1) =
    ⟨[⟨0, GNUTYPE_LONGNAME, 1024⟩, ⟨1024, REGTYPE, 2048⟩],
      [.header 0, .extension 512 ⟨GNUTYPE_LONGNAME, 2⟩, .header 1024, .member 1536 ⟨REGTYPE, 1⟩,
      .header 2048],
      .ok 2⟩ := by
  have hend : isEnd (readAt archive 2048 BLOCK) = true := by decide +kernel
  rw [scan, scanFrom_next step_longname, scanFrom_next step_member, scanFrom_end hend]
  rfl

/-- A `tarfile` that keeps raw types and takes no notice of size records. -/
def plainRules : Rules where
  rawAfterExtension := true
  resized := fun _ _ offset info => offset + BLOCK + stored info.size
  behindSparse := fun offset info => offset + BLOCK + stored info.size

/-- The archive's two headers are read by `tarfile` at the same offsets. -/
theorem scan_lockstep_archive : ∃ stop, ∀ fuel > 2, read plainRules frombuf archive fuel =
    some ([⟨0, GNUTYPE_LONGNAME, 1024⟩, ⟨1024, REGTYPE, 2048⟩], stop) := by
  have haccepted := (@scan_lockstep frombuf archive 2 RELEASE_TYPES (some 1) plainRules (.inl rfl)).1 2
  rw [scan_archive] at haccepted
  exact (haccepted rfl).2

/-- A member of one byte is within a budget of one byte, and a whole block is passed over. -/
theorem padding_passes_budget :
    (scan frombuf archive 2 RELEASE_TYPES (some 1)).result = .ok 2 ∧
    ∃ access ∈ (scan frombuf archive 2 RELEASE_TYPES (some 1)).accesses,
      access = .member 1536 ⟨REGTYPE, 1⟩ ∧ access.amount = 512 := by
  rw [scan_archive]
  exact ⟨rfl, .member 1536 ⟨REGTYPE, 1⟩, by simp, rfl, rfl⟩

end NpuStack.Ci.Tar
