import NpuStack.Ci.ReleaseTar
import NpuStack.Schemes.Gather
import NpuStack.Schemes.Ustar

/-! Python's `tarfile`: the archive it writes in GNU format, and the members it reads back.

        members ──addfile──▶ [long name] header, content, zeros … ──close──▶ zeros to 10240
        archive ──next──▶ name, type, content …

    The reader is the one behind `scan`: regular members and long names are all it meets. What was
    written is scanned within the bounds of its names (`scan_writeTar`) and read back member by
    member (`readMembers_writeTar`). -/

namespace NpuStack.Ci.Tar
open Interaction
open Text (Bytes utf8)
open Ustar (octalDigits bigEndian put)

/-! ### Writing -/

/-- A member's header fields. -/
structure TarInfo where
  name : Bytes
  mode : ℕ
  uid : ℕ
  gid : ℕ
  size : ℕ
  mtime : ℕ
  type : UInt8
  linkname : Bytes
  uname : Bytes
  gname : Bytes

/-- A text field, cut or filled with NULs. -/
def stn (text : Bytes) (length : ℕ) : Bytes :=
  text.take length ++ List.replicate (length - text.length) 0

/-- A number field: octal where it fits, else base 256 in the GNU format. -/
def itn (gnu : Bool) (n digits : ℕ) : Option Bytes :=
  if n < 8 ^ (digits - 1) then some (octalDigits (digits - 1) n ++ [0])
  else if gnu = true ∧ n < 256 ^ (digits - 1) then some (128 :: bigEndian (digits - 1) n)
  else none

def LENGTH_NAME : ℕ := 100

def RECORDSIZE : ℕ := 10240

def GNU_MAGIC : Bytes := utf8 "ustar  " ++ [0]

/-- The fields of the header of a member that is no device. -/
def headerParts (info : TarInfo) (mode uid gid size mtime chksum : Bytes) : List Bytes :=
  [stn info.name LENGTH_NAME, mode, uid, gid, size, mtime, chksum, [info.type],
    stn info.linkname 100, GNU_MAGIC, stn info.uname 32, stn info.gname 32, stn [] 8,
    stn [] 8, stn [] 155]

/-- `struct.pack` of a block. -/
def pack (data : Bytes) : Bytes := data.take BLOCK ++ List.replicate (BLOCK - data.length) 0

/-- `_create_header`: the block, with its checksum in place of spaces. -/
def createHeader (gnu : Bool) (info : TarInfo) : Option Bytes := do
  let mode ← itn gnu (info.mode % 4096) 8
  let uid ← itn gnu info.uid 8
  let gid ← itn gnu info.gid 8
  let size ← itn gnu info.size 12
  let mtime ← itn gnu info.mtime 12
  let block := pack (headerParts info mode uid gid size mtime (List.replicate 8 32)).flatten
  let chksum := (calcChksums block).headD 0
  return put 148 (octalDigits 6 chksum.toNat ++ [0]) block

/-- `_create_payload`: up to a whole block. -/
def createPayload (payload : Bytes) : Bytes := payload ++ Ustar.padding payload.length

/-- The fields of an extension header in front of so many bytes. -/
def longInfo (length : ℕ) (type : UInt8) : TarInfo :=
  ⟨utf8 "././@LongLink", 0, 0, 0, length, 0, type, [], [], []⟩

theorem longInfo_type (length : ℕ) (type : UInt8) : (longInfo length type).type = type := rfl

theorem longInfo_size (length : ℕ) (type : UInt8) : (longInfo length type).size = length := rfl

/-- `_create_gnu_long_header`. -/
def createLongHeader (name : Bytes) (type : UInt8) : Option Bytes := do
  let header ← createHeader false (longInfo (name ++ [0]).length type)
  return header ++ createPayload (name ++ [0])

/-- `create_gnu_header`. -/
def createGnuHeader (info : TarInfo) : Option Bytes := do
  let longlink ← (if LENGTH_NAME < info.linkname.length then createLongHeader info.linkname
    GNUTYPE_LONGLINK else some [])
  let longname ← (if LENGTH_NAME < info.name.length then createLongHeader info.name GNUTYPE_LONGNAME
    else some [])
  let header ← createHeader true info
  return longlink ++ (longname ++ header)

def addfile (info : TarInfo) (content : Bytes) : Option Bytes := do
  let header ← createGnuHeader info
  return header ++ createPayload content

/-- What `close` writes behind so many bytes. -/
def closing (offset : ℕ) : Bytes :=
  List.replicate (2 * BLOCK) 0 ++
    List.replicate ((RECORDSIZE - (offset + 2 * BLOCK) % RECORDSIZE) % RECORDSIZE) 0

/-- An archive opened for writing, its members added, and closed. -/
def writeTar (members : List (TarInfo × Bytes)) : Option Bytes := do
  let written ← members.mapM fun member => addfile member.1 member.2
  return written.flatten ++ closing written.flatten.length

/-! ### Reading -/

/-- A member as it is read. -/
structure TarMember where
  name : Bytes
  type : UInt8
  content : Bytes
  deriving DecidableEq, Repr

/-- A text field, up to its first NUL. -/
def nts (field : Bytes) : Bytes := field.takeWhile (· ≠ 0)

/-- The name in the header of a regular member. -/
def headerName (block : Bytes) : Bytes :=
  let folder := nts (readAt block 345 155)
  if folder = [] then nts (readAt block 0 100) else folder ++ (47 :: nts (readAt block 0 100))

theorem length_of_block {rest : Bytes} (h : isEnd (rest.take BLOCK) = false) :
    BLOCK ≤ rest.length := by
  simp only [isEnd, List.length_take, Bool.or_eq_false_iff, decide_eq_false_iff_not, BLOCK] at h ⊢
  omega

/-- `getmembers` on what is left of an archive: at its start or not, behind a long name or not. The
    scan has left no types but regular members and long names. -/
def readMembers (first : Bool) (longname : Option Bytes) (rest : Bytes) :
    Except String (List TarMember) :=
  if _hend : isEnd (rest.take BLOCK) = true then
    if longname.isSome = true ∨ (first = true ∧ rest.length < BLOCK) then .error
      "truncated header" else .ok []
  else match frombuf (rest.take BLOCK) with
    | none => if longname.isSome = true ∨ first = true then .error "invalid header" else .ok []
    | some info =>
      let behind := (rest.drop BLOCK).drop (stored info.size)
      let data := (rest.drop BLOCK).take (stored info.size)
      if info.type = GNUTYPE_LONGNAME then readMembers first
        (some (longname.getD (nts data))) behind
      else if data.length < stored info.size then .error "unexpected end of data"
      else do
        let members ← readMembers false none behind
        return ⟨longname.getD (headerName (rest.take BLOCK)), info.type,
          data.take info.size.toNat⟩ :: members
termination_by rest.length
decreasing_by
  all_goals
    have hlength := length_of_block (Bool.eq_false_of_not_eq_true _hend)
    rw [List.length_drop, List.length_drop]
    rw [BLOCK] at hlength ⊢
    omega

/-! ### Number fields -/

theorem ne_of_isOctal {b c : UInt8} (hb : Ustar.isOctal b = true) (hc : Ustar.isOctal c = false) :
    b ≠ c := by
  rintro rfl
  rw [hb] at hc
  cases hc

theorem isSpace_of_isOctal {b : UInt8} (hb : Ustar.isOctal b = true) : isSpace b = false := by
  simp only [Ustar.isOctal, Bool.and_eq_true, decide_eq_true_eq, UInt8.le_iff_toNat_le] at hb
  have hlow : 48 ≤ b.toNat := hb.1
  have hbound : ∀ c : UInt8, c.toNat < 48 → ¬ b ≤ c := fun c hc hle => by
    rw [UInt8.le_iff_toNat_le] at hle
    omega
  have hspace : b ≠ 32 := by
    rintro rfl
    exact absurd hlow (by decide)
  simp [isSpace, hspace, hbound 13 (by decide), hbound 31 (by decide)]

/-- The digits of a number as the two readers see them. -/
theorem foldl_octal : ∀ {digits : Bytes} {value : ℕ}, (∀ b ∈ digits, Ustar.isOctal b = true) →
    digits.foldl (fun value b => 8 * value + ((b.toNat : ℤ) - 48)) (value : ℤ) =
      ((digits.foldl (fun value b => 8 * value + (b.toNat - 48)) value : ℕ) : ℤ)
  | [], _, _ => rfl
  | b :: digits, value, h => by
    have hb := h b List.mem_cons_self
    simp only [Ustar.isOctal, Bool.and_eq_true, decide_eq_true_eq, UInt8.le_iff_toNat_le] at hb
    have hlow : 48 ≤ b.toNat := hb.1
    have hstep : 8 * (value : ℤ) + ((b.toNat : ℤ) - 48) =
      ((8 * value + (b.toNat - 48) : ℕ) : ℤ) := by omega
    rw [List.foldl_cons, List.foldl_cons, hstep]
    exact foldl_octal fun b hb => h b (List.mem_cons_of_mem _ hb)

theorem octal_octalDigits {width n : ℕ} (hwidth : 0 < width) (h : n < 8 ^ width) :
    octal (octalDigits width n) = some (n : ℤ) := by
  have hall : ∀ b ∈ octalDigits width n, Ustar.isOctal b = true := Ustar.isOctal_octalDigits
  have hlength := Ustar.length_octalDigits width n
  have hvalue : Ustar.octalValue (octalDigits width n) = n := Ustar.octalValue_octalDigits h
  generalize octalDigits width n = digits at hall hlength hvalue
  obtain ⟨first, rest, rfl⟩ := List.exists_cons_of_ne_nil
    (List.length_pos_iff.mp (hlength ▸ hwidth))
  have hfirst := hall first List.mem_cons_self
  have hsign : ∀ c : UInt8, Ustar.isOctal c = false → (first :: rest).head? ≠ some c :=
      fun c hc heq =>
    ne_of_isOctal hfirst hc (Option.some.inj heq)
  have hradix : (first :: rest).take 2 ∉ [utf8 "0o", utf8 "0O"] := by
    rw [List.mem_cons, List.mem_singleton, not_or]
    constructor
    all_goals
      cases rest with
      | nil => exact nofun
      | cons second rest =>
        have hsecond := hall second (List.mem_cons_of_mem _ List.mem_cons_self)
        intro heq
        exact ne_of_isOctal hsecond (by decide) (List.cons.inj (List.cons.inj heq).2).1
  have hgroups : (first :: rest).splitOn 95 = [first :: rest] :=
    List.splitOn_eq_singleton fun hmem => ne_of_isOctal (hall 95 hmem) (by decide) rfl
  rw [octal]
  dsimp only
  rw [if_neg (not_or.mpr ⟨hsign 45 (by decide), hsign 43 (by decide)⟩), if_neg hradix, hgroups]
  have hdigits : [first :: rest].all (fun group => group ≠ [] && group.all fun b =>
      48 ≤ b && b ≤ 55) = true := by
    rw [List.all_cons, List.all_nil, Bool.and_true, Bool.and_eq_true]
    exact ⟨by simp, List.all_eq_true.mpr hall⟩
  rw [if_pos hdigits, List.flatten_singleton, if_neg (by simpa using hsign 45 (by decide))]
  have hfold := @foldl_octal _ 0 hall
  rw [← hvalue]
  exact congrArg some hfold

/-- Octal digits up to a NUL are read as their number. -/
theorem nti_octal {width n : ℕ} (hwidth : 0 < width) (h : n < 8 ^ width) (rest : Bytes) :
    nti (octalDigits width n ++ 0 :: rest) = some (n : ℤ) := by
  have hoctal := octal_octalDigits hwidth h
  have hall : ∀ b ∈ octalDigits width n, Ustar.isOctal b = true := Ustar.isOctal_octalDigits
  have hlength := Ustar.length_octalDigits width n
  generalize octalDigits width n = digits at hall hlength hoctal
  have hne : digits ≠ [] := List.length_pos_iff.mp (hlength ▸ hwidth)
  have hhead : ∀ c : UInt8, Ustar.isOctal c = false → (digits ++ 0 :: rest).head? ≠ some c := by
    intro c hc heq
    rw [List.head?_append_of_ne_nil _ hne] at heq
    exact ne_of_isOctal (hall c (List.mem_of_mem_head? heq)) hc rfl
  have htake : (digits ++ 0 :: rest).takeWhile (· ≠ 0) = digits := by
    rw [List.takeWhile_append_of_pos fun b hb => by
        simpa using ne_of_isOctal (hall b hb) (by decide)]
    simp
  have hdrop : digits.dropWhile isSpace = digits := by
    rw [List.dropWhile_eq_self_iff]
    intro hpos
    simpa using isSpace_of_isOctal (hall _ (List.getElem_mem hpos))
  have hrdrop : digits.rdropWhile isSpace = digits := by
    rw [List.rdropWhile_eq_self_iff]
    intro hnonempty
    simpa using isSpace_of_isOctal (hall _ (List.getLast_mem hnonempty))
  rw [nti]
  dsimp only
  rw [if_neg (hhead 128 (by decide)), if_neg (hhead 255 (by decide)), htake, hdrop, hrdrop,
    if_neg hne, hoctal]

theorem foldl_bigEndian : ∀ {bytes : Bytes} {value : ℕ},
    bytes.foldl (fun value b => 256 * value + (b.toNat : ℤ)) (value : ℤ) =
      ((bytes.foldl (fun value b => 256 * value + b.toNat) value : ℕ) : ℤ)
  | [], _ => rfl
  | b :: bytes, value => by
    have hstep : 256 * (value : ℤ) + (b.toNat : ℤ) = ((256 * value + b.toNat : ℕ) : ℤ) := by omega
    rw [List.foldl_cons, List.foldl_cons, hstep]
    exact foldl_bigEndian

section
variable {gnu : Bool} {n digits : ℕ} {field : Bytes}

theorem length_itn (hdigits : 0 < digits) (h : itn gnu n digits = some field) :
    field.length = digits := by
  rw [itn] at h
  split at h
  next =>
    cases h
    rw [List.length_append, Ustar.length_octalDigits, List.length_singleton]
    omega
  next =>
    split at h
    next =>
      cases h
      rw [List.length_cons, Ustar.length_bigEndian]
      omega
    next => cases h

/-- A number field is read as the number it was written for. -/
theorem nti_itn (hdigits : 1 < digits) (h : itn gnu n digits = some field) :
    nti field = some (n : ℤ) := by
  rw [itn] at h
  split at h
  next hoctal =>
    cases h
    exact nti_octal (by omega) hoctal []
  next =>
    split at h
    next hbig =>
      cases h
      have hvalue := Ustar.value_bigEndian hbig.2
      have hfold := @foldl_bigEndian (bigEndian (digits - 1) n) 0
      rw [nti]
      dsimp only
      rw [List.head?_cons, if_pos rfl, List.drop_one, List.tail_cons]
      exact congrArg some (hfold.trans (congrArg Nat.cast hvalue))
    next => cases h

end

/-! ### Headers -/

theorem length_stn (text : Bytes) (length : ℕ) : (stn text length).length = length := by
  rw [stn, List.length_append, List.length_take, List.length_replicate]
  omega

theorem nts_stn {text : Bytes} {length : ℕ} (hzero : 0 ∉ text) (hlength : text.length ≤ length) :
    nts (stn text length) = text := by
  rw [nts, stn, List.take_of_length_le hlength, List.takeWhile_append_of_pos fun b hb => by
    simpa using fun hb0 : b = 0 => hzero (hb0 ▸ hb)]
  have hzeros : (List.replicate (length - text.length) (0 : UInt8)).takeWhile (· ≠ 0) = [] := by
    cases length - text.length with
    | zero => rfl
    | succ k => rfl
  rw [hzeros, List.append_nil]

theorem sum_bytes : ∀ bytes : Bytes, 0 ≤ (bytes.map fun b => (b.toNat : ℤ)).sum ∧
    (bytes.map fun b => (b.toNat : ℤ)).sum ≤ 255 * bytes.length
  | [] => by simp
  | b :: bytes => by
    have hrest := sum_bytes bytes
    have hb := b.toNat_lt
    rw [List.map_cons, List.sum_cons, List.length_cons]
    omega

/-- The checksum does not depend on what stands in its field. -/
theorem calcChksums_eq {before chksum after : Bytes} (hbefore : before.length = 148)
    (hchksum : chksum.length = 8) : calcChksums (before ++ (chksum ++ after)) =
      [256 + ((before ++ after).map fun b => (b.toNat : ℤ)).sum,
        256 + ((before ++ after).map fun b =>
          if b < 128 then (b.toNat : ℤ) else b.toNat - 256).sum] := by
  have htake : (before ++ (chksum ++ after)).take 148 = before := by rw [← hbefore, List.take_left]
  have hdrop : (before ++ (chksum ++ after)).drop 156 = after := by
    rw [← List.append_assoc, show 156 = (before ++ chksum).length by
        rw [List.length_append, hbefore, hchksum],
      List.drop_left]
  rw [calcChksums, htake, hdrop]

/-- A whole block with a right checksum and numbers in its number fields is a header. -/
theorem frombuf_eq {block : Bytes} {chksum size : ℤ}
    (hchksum : nti (readAt block 148 8) = some chksum) (hmember : chksum ∈ calcChksums block)
    (hnumbers : ∀ field ∈ [(100, 8), (108, 8), (116, 8), (136, 12), (329, 8), (337, 8)],
      ∃ n, nti (readAt block field.1 field.2) = some n)
    (hsize : nti (readAt block 124 12) = some size) (haregular : rawType block ≠ AREGTYPE)
    (hsparse : rawType block ≠ GNUTYPE_SPARSE) : frombuf block = some ⟨rawType block, size⟩ := by
  obtain ⟨_, h100⟩ := hnumbers (100, 8) (by simp)
  obtain ⟨_, h108⟩ := hnumbers (108, 8) (by simp)
  obtain ⟨_, h116⟩ := hnumbers (116, 8) (by simp)
  obtain ⟨_, h136⟩ := hnumbers (136, 12) (by simp)
  obtain ⟨_, h329⟩ := hnumbers (329, 8) (by simp)
  obtain ⟨_, h337⟩ := hnumbers (337, 8) (by simp)
  simp [frombuf, hchksum, hmember, h100, h108, h116, h136, h329, h337, hsize, haregular, hsparse]

/-- What a header that was written says to its readers. -/
structure Written (info : TarInfo) (block : Bytes) : Prop where
  length : block.length = BLOCK
  raw : rawType block = info.type
  parsed : frombuf block = some ⟨info.type, info.size⟩
  name : readAt block 0 100 = stn info.name LENGTH_NAME
  folder : readAt block 345 155 = stn [] 155

/-- The parts of a header, the rest of its block included, are as long as the format has them. -/
def WIDTHS : List ℕ := [100, 8, 8, 8, 12, 12, 8, 1, 100, 8, 32, 32, 8, 8, 155, 12]

theorem createHeader_written {gnu : Bool} {info : TarInfo} {block : Bytes}
    (h : createHeader gnu info = some block) (haregular : info.type ≠ AREGTYPE)
    (hsparse : info.type ≠ GNUTYPE_SPARSE) : Written info block := by
  simp only [createHeader, Option.bind_eq_bind, Option.bind_eq_some_iff, Option.pure_def,
    Option.some.injEq] at h
  obtain ⟨mode, hmode, uid, huid, gid, hgid, size, hsize, mtime, hmtime, h⟩ := h
  have hlengths : mode.length = 8 ∧ uid.length = 8 ∧ gid.length = 8 ∧ size.length = 12 ∧
      mtime.length = 12 :=
    ⟨length_itn (by decide) hmode, length_itn (by decide) huid, length_itn (by decide) hgid,
      length_itn (by decide) hsize, length_itn (by decide) hmtime⟩
  obtain ⟨hm, hu, hg, hs, ht⟩ := hlengths
  -- The block before and behind the checksum.
  have hparts : ∀ chksum : Bytes, chksum.length = 8 →
      (headerParts info mode uid gid size mtime chksum ++ [List.replicate 12 0]).map List.length =
        WIDTHS := by
    intro chksum hc
    simp [headerParts, WIDTHS, length_stn, LENGTH_NAME, hm, hu, hg, hs, ht, hc]
    rfl
  obtain ⟨before, behind, hbefore, hflatten⟩ : ∃ before behind : Bytes,
    before.length = 148 ∧ ∀ chksum,
      (headerParts info mode uid gid size mtime chksum ++ [List.replicate 12 0]).flatten =
        before ++ (chksum ++ behind) := by
    refine ⟨[stn info.name LENGTH_NAME, mode, uid, gid, size, mtime].flatten,
      ((headerParts info mode uid gid size mtime []).drop 7 ++ [List.replicate 12 0]).flatten,
        ?_, fun chksum => ?_⟩
    · simp [length_stn, LENGTH_NAME, hm, hu, hg, hs, ht]
    · simp [headerParts]
  have hpack : pack (headerParts info mode uid gid size mtime (List.replicate 8 32)).flatten =
      before ++ (List.replicate 8 32 ++ behind) := by
    have hlength := congrArg List.sum (hparts (List.replicate 8 32) rfl)
    rw [← List.length_flatten, List.flatten_append, List.length_append] at hlength
    have hlen : (headerParts info mode uid gid size mtime (List.replicate 8 32)).flatten.length =
        500 :=
      Nat.add_right_cancel hlength
    rw [← hflatten, pack, hlen, List.take_of_length_le (by rw [hlen]; decide), List.flatten_append]
    rfl
  have hbehind : behind.length = 356 := by
    have hlength := congrArg List.sum (hparts (List.replicate 8 32) rfl)
    rw [← List.length_flatten, hflatten, List.length_append, List.length_append, hbefore] at hlength
    have : 148 + (8 + behind.length) = 512 := hlength
    omega
  -- The checksum fits its digits, and is the same once it stands in the block.
  have hsum := sum_bytes (before ++ behind)
  rw [List.length_append, hbefore, hbehind] at hsum
  rw [hpack, calcChksums_eq hbefore rfl, List.headD_cons] at h
  obtain ⟨chksum, hchksum⟩ : ∃ chksum : ℕ,
      256 + ((before ++ behind).map fun b => (b.toNat : ℤ)).sum = (chksum : ℤ) :=
        ⟨_, (Int.toNat_of_nonneg (by omega)).symm⟩
  rw [hchksum, Int.toNat_natCast] at h
  have hfits : chksum < 8 ^ 6 := by omega
  have hdigits : (octalDigits 6 chksum ++ [0]).length = 7 := by
    rw [List.length_append, Ustar.length_octalDigits]
    rfl
  have hblock : block = (headerParts info mode uid gid size mtime
    (octalDigits 6 chksum ++ [0, 32]) ++
      [List.replicate 12 0]).flatten := by
    have hspaces : before ++ (List.replicate 8 (32 : UInt8) ++ behind) =
        before ++ (List.replicate 7 32 ++ (32 :: behind)) := rfl
    rw [← h, Ustar.put_of_eq hspaces hbefore (by rw [hdigits]; rfl), hflatten]
    simp
  have hfield : (octalDigits 6 chksum ++ [0, 32]).length = 8 := by
    rw [List.length_append, Ustar.length_octalDigits]
    rfl
  have hwidths := hparts _ hfield
  have hread := Ustar.field_flatten hwidths
  rw [← hblock] at hread
  have hraw : rawType block = info.type := by
    have htype : (block.drop 156).take 1 = [info.type] := hread 7
    have hhead := congrArg List.head? htype
    rw [List.head?_take, if_neg (by decide), List.head?_drop] at hhead
    rw [rawType, List.getD_eq_getElem?_getD, hhead]
    rfl
  refine ⟨?_, hraw, ?_, hread 0, hread 14⟩
  · have hlength := congrArg List.sum hwidths
    rwa [← List.length_flatten, ← hblock] at hlength
  · rw [← hraw] at haregular hsparse ⊢
    refine @frombuf_eq _ chksum _ ?_ ?_ ?_ ?_ haregular hsparse
    · have hnumber : readAt block 148 8 = octalDigits 6 chksum ++ [0, 32] := hread 6
      rw [hnumber]
      exact nti_octal (by decide) hfits [32]
    · rw [hblock, hflatten, calcChksums_eq hbefore hfield, hchksum]
      exact List.mem_cons_self
    · intro field hfield
      have hzeros : nti (stn [] 8) = some 0 := by decide
      simp only [List.mem_cons, List.not_mem_nil, or_false] at hfield
      rcases hfield with rfl | rfl | rfl | rfl | rfl | rfl
      · exact ⟨_, (congrArg nti (hread 1)).trans (nti_itn (by decide) hmode)⟩
      · exact ⟨_, (congrArg nti (hread 2)).trans (nti_itn (by decide) huid)⟩
      · exact ⟨_, (congrArg nti (hread 3)).trans (nti_itn (by decide) hgid)⟩
      · exact ⟨_, (congrArg nti (hread 5)).trans (nti_itn (by decide) hmtime)⟩
      · exact ⟨_, (congrArg nti (hread 12)).trans hzeros⟩
      · exact ⟨_, (congrArg nti (hread 13)).trans hzeros⟩
    · exact (congrArg nti (hread 4)).trans (nti_itn (by decide) hsize)

theorem Written.not_end {info : TarInfo} {block : Bytes} (h : Written info block)
    (haregular : info.type ≠ AREGTYPE) : isEnd block = false := by
  rw [isEnd, h.length, Bool.or_eq_false_iff]
  refine ⟨by simp, ?_⟩
  rw [Bool.eq_false_iff]
  intro hall
  have hlt : 156 < block.length := by rw [h.length]; decide
  have hzero : block[156] = 0 := by simpa using List.all_eq_true.mp hall _ (List.getElem_mem hlt)
  apply haregular
  rw [← h.raw, rawType, List.getD_eq_getElem?_getD, List.getElem?_eq_getElem hlt, hzero]
  rfl

/-! ### Reading what was written -/

section
variable {info : TarInfo} {block body rest : Bytes} {first : Bool} {longname : Option Bytes}

theorem readMembers_block (h : Written info block) (haregular : info.type ≠ AREGTYPE)
    (hbody : body.length = stored info.size) :
    readMembers first longname (block ++ (body ++ rest)) =
      if info.type = GNUTYPE_LONGNAME then readMembers first (some (longname.getD (nts body))) rest
      else (readMembers false none rest).map fun members =>
        ⟨longname.getD (headerName block), info.type, body.take info.size⟩ :: members := by
  have htake : (block ++ (body ++ rest)).take BLOCK = block := by rw [← h.length, List.take_left]
  have hdrop : (block ++ (body ++ rest)).drop BLOCK = body ++ rest := by
    rw [← h.length, List.drop_left]
  have hend := h.not_end haregular
  rw [readMembers]
  simp only [htake, hdrop, hend, h.parsed, ← hbody, List.take_left, List.drop_left,
    Nat.lt_irrefl, if_false, Bool.false_eq_true, dite_false, Int.toNat_natCast]
  split
  · rfl
  · cases readMembers false none rest <;> rfl

theorem readMembers_zeros {n : ℕ} (h : BLOCK ≤ n) :
    readMembers first none (List.replicate n 0) = .ok [] := by
  have htake : (List.replicate n (0 : UInt8)).take BLOCK = List.replicate BLOCK 0 := by
    rw [List.take_replicate, Nat.min_eq_left h]
  have hend : isEnd (List.replicate BLOCK (0 : UInt8)) = true := by
    rw [isEnd, Bool.or_eq_true]
    exact .inr (List.all_eq_true.mpr fun b hb => by simpa using (List.mem_replicate.mp hb).2)
  rw [readMembers]
  simp only [htake, hend, List.length_replicate, Nat.not_lt.mpr h, and_false, or_false,
    Option.isSome_none, Bool.false_eq_true, if_false, dite_true]

end

/-- A regular member with this name and content, as `addfile` takes it: no link, and its own
    size. -/
structure Regular (info : TarInfo) (content : Bytes) : Prop where
  type : info.type = REGTYPE
  link : info.linkname = []
  size : info.size = content.length
  name : 0 ∉ info.name

theorem stored_natCast (n : ℕ) : stored (n : ℤ) = Ustar.stored n := by
  rw [stored, Ustar.stored]
  omega

/-- The pieces of a written member: a long name or none, its header, and its padded content. -/
theorem addfile_pieces {info : TarInfo} {content entry : Bytes}
    (h : addfile info content = some entry)
    (hregular : Regular info content) : ∃ header, Written info header ∧
      if LENGTH_NAME < info.name.length then
        ∃ long, Written (longInfo (info.name.length + 1) GNUTYPE_LONGNAME) long ∧
          entry = long ++ (createPayload (info.name ++ [0]) ++ (header ++ createPayload content))
      else entry = header ++ createPayload content := by
  simp only [addfile, createGnuHeader, Option.bind_eq_bind, Option.bind_eq_some_iff,
    Option.pure_def,
    Option.some.injEq, hregular.link, List.length_nil, Nat.not_lt_zero, if_false] at h
  obtain ⟨written, ⟨longlink, hlink, longname, hlong, header, hheader, hwritten⟩, hentry⟩ := h
  refine ⟨header, createHeader_written hheader (by rw [hregular.type]; decide)
    (by rw [hregular.type]; decide), ?_⟩
  cases hlink
  split at hlong
  next hlt =>
    rw [if_pos hlt]
    simp only [createLongHeader, Option.bind_eq_bind, Option.bind_eq_some_iff, Option.pure_def,
      Option.some.injEq] at hlong
    obtain ⟨long, hlong, hname⟩ := hlong
    rw [List.length_append] at hlong
    refine ⟨long, createHeader_written hlong (show GNUTYPE_LONGNAME ≠ AREGTYPE by decide)
      (show GNUTYPE_LONGNAME ≠ GNUTYPE_SPARSE by decide), ?_⟩
    simp only [← hentry, ← hwritten, ← hname, List.nil_append, List.append_assoc]
  next hlt =>
    rw [if_neg hlt]
    cases hlong
    rw [← hentry, ← hwritten]
    rfl

/-- A written member is the next one to be read, with its name and content. -/
theorem readMembers_addfile {info : TarInfo} {content entry rest : Bytes} {first : Bool}
    (h : addfile info content = some entry) (hregular : Regular info content) :
    readMembers first none (entry ++ rest) =
      (readMembers false none rest).map fun members =>
        ⟨info.name, REGTYPE, content⟩ :: members := by
  obtain ⟨header, hheader, hpieces⟩ := addfile_pieces h hregular
  have haregular : info.type ≠ AREGTYPE := by rw [hregular.type]; decide
  have hlongname : info.type ≠ GNUTYPE_LONGNAME := by rw [hregular.type]; decide
  have hcontent : (createPayload content).length = stored info.size := by
    rw [createPayload, hregular.size, stored_natCast, Ustar.data_padded]
  have htake : (createPayload content).take info.size = content := by
    rw [createPayload, hregular.size, List.take_left]
  split at hpieces
  next hlt =>
    obtain ⟨long, hlong, rfl⟩ := hpieces
    have hname : (createPayload (info.name ++ [0])).length = stored
        ((info.name.length + 1 : ℕ) : ℤ) := by
      rw [createPayload, stored_natCast, Ustar.data_padded, List.length_append,
        List.length_singleton]
    have hnts : nts (createPayload (info.name ++ [0])) = info.name := by
      rw [nts, createPayload, List.append_assoc, List.takeWhile_append_of_pos fun b hb => by
        simpa using fun hb0 : b = 0 => hregular.name (hb0 ▸ hb)]
      simp
    rw [List.append_assoc, List.append_assoc, List.append_assoc,
      readMembers_block hlong (show GNUTYPE_LONGNAME ≠ AREGTYPE by decide) hname,
        if_pos (longInfo_type _ _),
      readMembers_block hheader haregular hcontent, if_neg hlongname, htake, hnts, hregular.type]
    rfl
  next hlt =>
    subst hpieces
    have hname : headerName header = info.name := by
      rw [headerName, hheader.folder, hheader.name, nts_stn hregular.name (not_lt.mp hlt)]
      rfl
    rw [List.append_assoc, readMembers_block hheader haregular hcontent, if_neg hlongname, htake,
      hname, hregular.type]
    rfl

/-! ### Scanning what was written -/

section
variable {data : Bytes} {limit n offset : ℕ} {types : List UInt8} {maxBytes : Option ℕ}
  {counters : Counters}

theorem scanStep_outcome : (scanStep frombuf data limit types maxBytes offset counters).outcome =
    if isEnd (readAt data offset BLOCK) = true then .ok none
    else do
      let info ← checkHeader frombuf limit types counters (readAt data offset BLOCK)
      if info.type ∈ EXTENSIONS then do
        let counted ← countExtension counters info
        checkExtension info (readAt data (offset + BLOCK) (stored info.size))
        return some ⟨⟨offset, info.type, offset + BLOCK + stored info.size⟩, counted⟩
      else if info.type ∈ REGULAR_TYPES then do
        let counted ← countMember maxBytes counters info
        return some ⟨⟨offset, info.type, offset + BLOCK + stored info.size⟩, counted⟩
      else return some ⟨⟨offset, info.type, offset + BLOCK⟩,
        { counters with headers := counters.headers + 1, run := 0 }⟩ := by
  rw [scanStep]
  dsimp only
  split
  · rfl
  · cases checkHeader frombuf limit types counters (readAt data offset BLOCK) with
    | error refusal => rfl
    | ok info =>
      rw [except_ok_bind]
      dsimp only
      split
      · cases countExtension counters info with
        | error refusal => rfl
        | ok counted =>
          rw [except_ok_bind]
          dsimp only
          cases checkExtension info (readAt data (offset + BLOCK) (stored info.size)) <;> rfl
      · split
        · cases countMember maxBytes counters info <;> rfl
        · rfl

theorem scanFrom_ok : (scanFrom frombuf data limit types maxBytes offset counters).result = .ok n ↔
    ((scanStep frombuf data limit types maxBytes offset counters).outcome = .ok none ∧
      counters.headers = n) ∨
    ∃ next, (scanStep frombuf data limit types maxBytes offset counters).outcome = .ok (some next) ∧
      (scanFrom frombuf data limit types maxBytes next.header.next next.counters).result =
        .ok n := by
  rw [scanFrom]
  split
  next heq => simp [heq]
  next heq => simp [heq]
  next next heq =>
    rw [heq]
    simp [Scanned.behind]

end

/-- Where a written header and its data stand in an archive. -/
structure At (data : Bytes) (offset : ℕ) (block body : Bytes) : Prop where
  block : readAt data offset BLOCK = block
  body : readAt data (offset + BLOCK) body.length = body

theorem at_append {before block body rest : Bytes} (hblock : block.length = BLOCK) :
    At (before ++ (block ++ (body ++ rest))) before.length block body := by
  constructor
  · rw [readAt, List.drop_left, ← hblock, List.take_left]
  · rw [readAt, ← List.drop_drop, List.drop_left, ← hblock, List.drop_left, List.take_left]

section
variable {data block body : Bytes} {limit n offset : ℕ} {counters : Counters} {info : TarInfo}

/-- A written header is scanned to the end of its data if there is room for one more header, and for
    its data where it is a long name. -/
theorem scanFrom_written (h : Written info block) (htype : info.type ∈ RELEASE_TYPES)
    (hat : At data offset block body)
    (hbody : body.length = stored info.size) (hpax : counters.globalPax = 0) :
    (scanFrom frombuf data limit RELEASE_TYPES none offset counters).result = .ok n ↔
      counters.headers + 1 ≤ limit ∧
      if info.type = GNUTYPE_LONGNAME then
        counters.run + 1 ≤ MAX_RUN ∧ info.size ≤ MAX_EXTENSION ∧
          counters.extension + info.size ≤ MAX_EXTENSION_TOTAL ∧
        (scanFrom frombuf data limit RELEASE_TYPES none (offset + BLOCK + body.length)
          ⟨counters.headers + 1, counters.run + 1, counters.total, counters.extension + info.size,
            0⟩).result = .ok n
      else (scanFrom frombuf data limit RELEASE_TYPES none (offset + BLOCK + body.length)
        ⟨counters.headers + 1, 0, counters.total + info.size, counters.extension, 0⟩).result =
          .ok n := by
  have haregular : info.type ≠ AREGTYPE := by
    rintro heq
    rw [heq] at htype
    exact absurd htype (by decide)
  have hread : readAt data (offset + BLOCK) (stored info.size) = body := by
    rw [← hbody]; exact hat.body
  have hchecked : ∀ info', checkHeader frombuf limit RELEASE_TYPES counters block = .ok info' ↔
      counters.headers + 1 ≤ limit ∧ info' = ⟨info.type, info.size⟩ := by
    intro info'
    simp only [checkHeader, except_bind_ok, require_ok, need_ok, h.parsed, h.raw, Option.some.injEq]
    constructor
    · rintro ⟨_, hlimit, _, rfl, _, -, _, -, _, -, hpure⟩
      exact ⟨hlimit, (Except.ok.inj hpure).symm⟩
    · rintro ⟨hlimit, rfl⟩
      exact ⟨(), hlimit, _, rfl, (), htype, (), rfl, (), Int.natCast_nonneg _, rfl⟩
  rw [scanFrom_ok, scanStep_outcome, hat.block, h.not_end haregular]
  simp only [Bool.false_eq_true, if_false, except_bind_ok, hchecked]
  have hcases : info.type = GNUTYPE_LONGNAME ∨ info.type = REGTYPE := by
    simpa [RELEASE_TYPES, or_comm] using htype
  rcases hcases with hlong | hregular
  · rw [if_pos hlong]
    have hext : info.type ∈ EXTENSIONS := by rw [hlong]; decide
    have hpaxtype : info.type ∉ PAX := by rw [hlong]; decide
    have hglobal : info.type ≠ XGLTYPE := by rw [hlong]; decide
    constructor
    · rintro (⟨⟨_, ⟨-, rfl⟩, hnone⟩, -⟩ | ⟨next, ⟨_, ⟨hlimit, rfl⟩, hnext⟩, hrest⟩)
      · rw [if_pos hext] at hnone
        simp only [except_bind_ok] at hnone
        obtain ⟨_, -, _, -, habs⟩ := hnone
        cases habs
      · rw [if_pos hext] at hnext
        simp only [except_bind_ok, countExtension, require_ok, Int.toNat_natCast, if_neg hglobal,
          hpax] at hnext
        obtain ⟨counted, ⟨_, hrun, _, hsize, _, htotal, _, -, hcounted⟩, _, -, hpure⟩ := hnext
        cases hcounted
        cases hpure
        rw [← hbody] at hrest
        exact ⟨hlimit, hrun, by exact_mod_cast hsize, htotal, hrest⟩
    · rintro ⟨hlimit, hrun, hsize, htotal, hrest⟩
      refine .inr ⟨⟨⟨offset, info.type, offset + BLOCK + stored info.size⟩,
        ⟨counters.headers + 1, counters.run + 1, counters.total, counters.extension + info.size,
        0⟩⟩, ⟨_, ⟨hlimit, rfl⟩, ?_⟩, by rwa [← hbody]⟩
      have hextension : checkExtension ⟨info.type, info.size⟩ body = .ok () := by
        simp only [checkExtension, except_bind_ok, require_ok, if_neg hpaxtype]
        exact ⟨(), hbody, rfl⟩
      rw [if_pos hext]
      simp only [except_bind_ok, countExtension, require_ok, Int.toNat_natCast, if_neg hglobal,
        hpax, hread, hextension]
      exact ⟨_, ⟨(), hrun, (), by exact_mod_cast hsize, (), htotal, (), by decide, rfl⟩,
        (), trivial, rfl⟩
  · have hlong : info.type ≠ GNUTYPE_LONGNAME := by rw [hregular]; decide
    have hext : info.type ∉ EXTENSIONS := by rw [hregular]; decide
    have htypes : info.type ∈ REGULAR_TYPES := by rw [hregular]; decide
    rw [if_neg hlong]
    constructor
    · rintro (⟨⟨_, ⟨-, rfl⟩, hnone⟩, -⟩ | ⟨next, ⟨_, ⟨hlimit, rfl⟩, hnext⟩, hrest⟩)
      · rw [if_neg hext, if_pos htypes] at hnone
        simp only [except_bind_ok] at hnone
        obtain ⟨_, -, habs⟩ := hnone
        cases habs
      · rw [if_neg hext, if_pos htypes] at hnext
        simp only [except_bind_ok, countMember, require_ok, Int.toNat_natCast, hpax] at hnext
        obtain ⟨counted, ⟨_, -, hcounted⟩, hpure⟩ := hnext
        cases hcounted
        cases hpure
        rw [← hbody] at hrest
        exact ⟨hlimit, hrest⟩
    · rintro ⟨hlimit, hrest⟩
      refine .inr ⟨⟨⟨offset, info.type, offset + BLOCK + stored info.size⟩,
        ⟨counters.headers + 1, 0, counters.total + info.size, counters.extension, 0⟩⟩,
        ⟨_, ⟨hlimit, rfl⟩, ?_⟩, by rwa [← hbody]⟩
      rw [if_neg hext, if_pos htypes]
      simp only [except_bind_ok, countMember, require_ok, Int.toNat_natCast, hpax]
      exact ⟨_, ⟨(), fun _ habs => absurd habs (Option.not_mem_none _), rfl⟩, rfl⟩

end

/-- How many headers a member with this name has. -/
def headersOf (name : Bytes) : ℕ := if LENGTH_NAME < name.length then 2 else 1

/-- How much extension data a member with this name has. -/
def longBytes (name : Bytes) : ℕ := if LENGTH_NAME < name.length then name.length + 1 else 0

section
variable {data before entry rest content : Bytes} {limit n : ℕ} {counters : Counters}
  {info : TarInfo}

/-- Between two members the scan has no extension header behind it and is within its bounds. -/
structure Counters.Between (limit : ℕ) (counters : Counters) : Prop where
  run : counters.run = 0
  pax : counters.globalPax = 0
  headers : counters.headers ≤ limit
  extension : counters.extension ≤ MAX_EXTENSION_TOTAL

def Counters.member (counters : Counters) (info : TarInfo) : Counters :=
  ⟨counters.headers + headersOf info.name, 0, counters.total + info.size,
    counters.extension + longBytes info.name, 0⟩

theorem scanFrom_addfile (h : addfile info content = some entry) (hregular : Regular info content)
    (hbetween : counters.Between limit) (hdata : data = before ++ (entry ++ rest)) :
    (scanFrom frombuf data limit RELEASE_TYPES none before.length counters).result = .ok n ↔
      (counters.member info).Between limit ∧ longBytes info.name ≤ MAX_EXTENSION ∧
      (scanFrom frombuf data limit RELEASE_TYPES none (before ++ entry).length
        (counters.member info)).result = .ok n := by
  obtain ⟨header, hheader, hpieces⟩ := addfile_pieces h hregular
  have htype : info.type ∈ RELEASE_TYPES := by rw [hregular.type]; decide
  have hlongname : info.type ≠ GNUTYPE_LONGNAME := by rw [hregular.type]; decide
  have hcontent : (createPayload content).length = stored info.size := by
    rw [createPayload, hregular.size, stored_natCast, Ustar.data_padded]
  split at hpieces
  next hlt =>
    obtain ⟨long, hlong, rfl⟩ := hpieces
    have hname : (createPayload (info.name ++ [0])).length = stored
        ((info.name.length + 1 : ℕ) : ℤ) := by
      rw [createPayload, stored_natCast, Ustar.data_padded, List.length_append,
        List.length_singleton]
    have hfirst : At data before.length long (createPayload (info.name ++ [0])) := by
      rw [hdata, List.append_assoc, List.append_assoc]
      exact at_append hlong.length
    have hsecond : At data
      (before.length + BLOCK + (createPayload (info.name ++ [0])).length) header
        (createPayload content) := by
      rw [hdata, ← hlong.length, ← List.length_append, ← List.length_append,
        show before ++ ((long ++
          (createPayload (info.name ++ [0]) ++ (header ++ createPayload content))) ++ rest) =
          (before ++ long ++ createPayload (info.name ++ [0])) ++
            (header ++ (createPayload content ++ rest)) by
          simp only [List.append_assoc]]
      exact at_append hheader.length
    have hend : (before ++
      (long ++ (createPayload (info.name ++ [0]) ++ (header ++ createPayload content)))).length =
        before.length + BLOCK + (createPayload (info.name ++ [0])).length + BLOCK +
          (createPayload content).length := by
      simp only [List.length_append, hlong.length, hheader.length]
      omega
    have hmember : counters.member info = ⟨counters.headers + 1 + 1, 0, counters.total + info.size,
        counters.extension + (info.name.length + 1), 0⟩ := by
      rw [Counters.member, headersOf, longBytes, if_pos hlt, if_pos hlt]
    rw [scanFrom_written hlong (by rw [longInfo_type]; decide) hfirst hname hbetween.pax,
      if_pos (longInfo_type _ _),
      longInfo_size, scanFrom_written hheader htype hsecond hcontent rfl, if_neg hlongname, hend,
        hmember, longBytes,
      if_pos hlt, hbetween.run]
    have hrun : 0 + 1 ≤ MAX_RUN := by decide
    constructor
    · rintro ⟨-, -, hsize, htotal, hlimit, hrest⟩
      exact ⟨⟨rfl, rfl, hlimit, htotal⟩, hsize, hrest⟩
    · rintro ⟨hnext, hsize, hrest⟩
      exact ⟨(Nat.le_succ _).trans hnext.headers, hrun, hsize, hnext.extension,
        hnext.headers, hrest⟩
  next hlt =>
    subst hpieces
    have hfirst : At data before.length header (createPayload content) := by
      rw [hdata, List.append_assoc]
      exact at_append hheader.length
    have hend : (before ++ (header ++ createPayload content)).length =
        before.length + BLOCK + (createPayload content).length := by
      simp only [List.length_append, hheader.length]
      omega
    have hmember : counters.member info = ⟨counters.headers + 1, 0, counters.total + info.size,
        counters.extension, 0⟩ := by
      rw [Counters.member, headersOf, longBytes, if_neg hlt, if_neg hlt]
      rfl
    rw [scanFrom_written hheader htype hfirst hcontent hbetween.pax, if_neg hlongname, hend,
      hmember, longBytes, if_neg hlt]
    constructor
    · rintro ⟨hlimit, hrest⟩
      exact ⟨⟨rfl, rfl, hlimit, hbetween.extension⟩, Nat.zero_le _, hrest⟩
    · rintro ⟨hnext, -, hrest⟩
      exact ⟨hnext.headers, hrest⟩

end

/-! ### A whole archive -/

/-- The members of an archive fit the bounds of the scan. -/
structure Fits (limit : ℕ) (names : List Bytes) : Prop where
  headers : (names.map headersOf).sum ≤ limit
  extension : ∀ name ∈ names, longBytes name ≤ MAX_EXTENSION
  total : (names.map longBytes).sum ≤ MAX_EXTENSION_TOTAL

/-- Names that need no extension fit as many as there may be. -/
theorem fits_of_short {limit : ℕ} {names : List Bytes} (hshort : ∀ name ∈ names,
    name.length ≤ LENGTH_NAME) (hmany : names.length ≤ limit) : Fits limit names := by
  have hone : ∀ name ∈ names, headersOf name = 1 ∧ longBytes name = 0 :=
    fun name hname => ⟨if_neg (not_lt.mpr (hshort name hname)),
      if_neg (not_lt.mpr (hshort name hname))⟩
  constructor
  · rw [List.map_congr_left fun name hname => (hone name hname).1]
    simpa using hmany
  · exact fun name hname => (hone name hname).2 ▸ Nat.zero_le _
  · rw [List.map_congr_left fun name hname => (hone name hname).2]
    simp

theorem Fits.perm {limit : ℕ} {names names' : List Bytes} (hperm : names.Perm names') :
    Fits limit names ↔ Fits limit names' := by
  have hheaders := (hperm.map headersOf).sum_nat
  have htotal := (hperm.map longBytes).sum_nat
  constructor
  · rintro ⟨hh, hlong, ht⟩
    exact ⟨hheaders ▸ hh, fun name hname => hlong name (hperm.mem_iff.mpr hname), htotal ▸ ht⟩
  · rintro ⟨hh, hlong, ht⟩
    exact ⟨hheaders ▸ hh, fun name hname => hlong name (hperm.mem_iff.mp hname), htotal ▸ ht⟩

section
variable {limit n : ℕ}

theorem isEnd_zeros {before : Bytes} {k : ℕ} :
    isEnd (readAt (before ++ List.replicate k 0) before.length BLOCK) = true := by
  rw [readAt, List.drop_left, isEnd, Bool.or_eq_true]
  refine .inr (List.all_eq_true.mpr fun b hb => ?_)
  simpa using (List.mem_replicate.mp (List.mem_of_mem_take hb)).2

theorem scanFrom_members :
    ∀ {members : List (TarInfo × Bytes)} {written : List Bytes} {before : Bytes} {k : ℕ}
    {counters : Counters}, members.mapM (fun member => addfile member.1 member.2) = some written →
    (∀ member ∈ members, Regular member.1 member.2) → counters.Between limit →
    ((scanFrom frombuf (before ++ (written.flatten ++ List.replicate k 0)) limit RELEASE_TYPES
      none before.length
        counters).result = .ok n ↔
      counters.headers + (members.map fun member => headersOf member.1.name).sum ≤ limit ∧
      (∀ member ∈ members, longBytes member.1.name ≤ MAX_EXTENSION) ∧
      counters.extension + (members.map fun member => longBytes member.1.name).sum ≤
        MAX_EXTENSION_TOTAL ∧
      counters.headers + (members.map fun member => headersOf member.1.name).sum = n)
  | [], written, before, k, counters, hwritten, _, hbetween => by
    cases hwritten
    rw [show ([].reverse : List Bytes).flatten = [] from rfl, List.nil_append, scanFrom_ok,
      scanStep_outcome, isEnd_zeros, if_pos rfl]
    constructor
    · rintro (⟨-, hn⟩ | ⟨_, habs, -⟩)
      · exact ⟨hbetween.headers, nofun, hbetween.extension, hn⟩
      · cases habs
    · rintro ⟨-, -, -, hn⟩
      exact .inl ⟨rfl, hn⟩
  | member :: members, written, before, k, counters, hwritten, hregular, hbetween => by
    rw [List.mapM_cons] at hwritten
    obtain ⟨entry, hentry, hwritten⟩ := Option.bind_eq_some_iff.mp hwritten
    obtain ⟨entries, hentries, hwritten⟩ := Option.bind_eq_some_iff.mp hwritten
    cases hwritten
    obtain ⟨hmember, hmembers⟩ := List.forall_mem_cons.mp hregular
    rw [List.flatten_cons, List.append_assoc, scanFrom_addfile hentry hmember hbetween rfl]
    have hrest := fun hnext => @scanFrom_members members entries (before ++ entry) k
      (counters.member member.1) hentries hmembers hnext
    rw [List.append_assoc] at hrest
    simp only [List.map_cons, List.sum_cons, List.forall_mem_cons]
    constructor
    · rintro ⟨hnext, hlong, hscan⟩
      obtain ⟨hheaders, hlongs, htotal, hn⟩ := (hrest hnext).mp hscan
      simp only [Counters.member, Nat.add_assoc] at hheaders htotal hn
      exact ⟨hheaders, ⟨hlong, hlongs⟩, htotal, hn⟩
    · rintro ⟨hheaders, ⟨hlong, hlongs⟩, htotal, hn⟩
      rw [← Nat.add_assoc] at hheaders htotal hn
      have hnext : (counters.member member.1).Between limit :=
        ⟨rfl, rfl, (Nat.le_add_right _ _).trans hheaders, (Nat.le_add_right _ _).trans htotal⟩
      exact ⟨hnext, hlong, (hrest hnext).mpr ⟨hheaders, hlongs, htotal, hn⟩⟩

theorem closing_zeros (offset : ℕ) : ∃ k, BLOCK ≤ k ∧ closing offset = List.replicate k 0 := by
  refine ⟨_, ?_, List.replicate_append_replicate⟩
  rw [BLOCK]
  omega

/-- The scan passes a written archive exactly if its names fit, whatever its contents. -/
theorem scan_writeTar {members : List (TarInfo × Bytes)} {archive : Bytes}
    (h : writeTar members = some archive)
    (hregular : ∀ member ∈ members, Regular member.1 member.2) :
    (∃ n, (scan frombuf archive limit RELEASE_TYPES none).result = .ok n) ↔
      Fits limit (members.map fun member => member.1.name) := by
  obtain ⟨written, hwritten, harchive⟩ := Option.bind_eq_some_iff.mp h
  cases harchive
  obtain ⟨k, -, hzeros⟩ := closing_zeros written.flatten.length
  have hscan := fun n => @scanFrom_members limit n members written [] k
    ⟨0, 0, 0, 0, 0⟩ hwritten hregular ⟨rfl, rfl, Nat.zero_le _, Nat.zero_le _⟩
  simp only [List.nil_append, List.length_nil, Nat.zero_add, ← hzeros] at hscan
  simp only [scan, hscan, exists_and_left, exists_eq', and_true]
  constructor
  · rintro ⟨hheaders, hlongs, htotal⟩
    exact ⟨by rwa [List.map_map], List.forall_mem_map.mpr hlongs, by rwa [List.map_map]⟩
  · rintro ⟨hheaders, hlongs, htotal⟩
    rw [List.map_map] at hheaders htotal
    exact ⟨hheaders, List.forall_mem_map.mp hlongs, htotal⟩

theorem readMembers_entries : ∀ {members : List (TarInfo × Bytes)} {written : List Bytes}
    {first : Bool} {k : ℕ},
    BLOCK ≤ k → members.mapM (fun member => addfile member.1 member.2) = some written →
    (∀ member ∈ members, Regular member.1 member.2) →
    readMembers first none (written.flatten ++ List.replicate k 0) =
      .ok (members.map fun member => ⟨member.1.name, REGTYPE, member.2⟩)
  | [], written, _, k, hk, hwritten, _ => by
    cases hwritten
    exact readMembers_zeros hk
  | member :: members, written, _, k, hk, hwritten, hregular => by
    rw [List.mapM_cons] at hwritten
    obtain ⟨entry, hentry, hwritten⟩ := Option.bind_eq_some_iff.mp hwritten
    obtain ⟨entries, hentries, hwritten⟩ := Option.bind_eq_some_iff.mp hwritten
    cases hwritten
    obtain ⟨hmember, hmembers⟩ := List.forall_mem_cons.mp hregular
    rw [List.flatten_cons, List.append_assoc, readMembers_addfile hentry hmember,
      readMembers_entries hk hentries hmembers]
    rfl

/-- Reading a written archive gives its members in order. -/
theorem readMembers_writeTar {members : List (TarInfo × Bytes)} {archive : Bytes}
    (h : writeTar members = some archive)
    (hregular : ∀ member ∈ members, Regular member.1 member.2) :
    readMembers true none archive = .ok (members.map fun member =>
      ⟨member.1.name, REGTYPE, member.2⟩) := by
  obtain ⟨written, hwritten, harchive⟩ := Option.bind_eq_some_iff.mp h
  cases harchive
  obtain ⟨k, hk, hzeros⟩ := closing_zeros written.flatten.length
  rw [hzeros]
  exact readMembers_entries hk hwritten hregular

theorem exists_header (gnu : Bool) {info : TarInfo} (huid : info.uid < 8 ^ 7)
    (hgid : info.gid < 8 ^ 7) (hsize : info.size < 8 ^ 11) (hmtime : info.mtime < 8 ^ 11) :
    ∃ block, createHeader gnu info = some block := by
  have hmode : info.mode % 4096 < 8 ^ 7 := (Nat.mod_lt _ (by decide)).trans (by decide)
  rw [createHeader, itn, if_pos hmode, itn, if_pos huid, itn, if_pos hgid, itn, if_pos hsize,
    itn, if_pos hmtime]
  exact ⟨_, rfl⟩

/-- An archive is written of members whose numbers fit octal fields. -/
theorem exists_writeTar {members : List (TarInfo × Bytes)} (hregular : ∀ member ∈ members,
    Regular member.1 member.2) (hnumbers : ∀ member ∈ members, member.1.uid < 8 ^ 7 ∧
    member.1.gid < 8 ^ 7 ∧ member.1.mtime < 8 ^ 11)
    (hsizes : ∀ member ∈ members, member.2.length < 8 ^ 11 ∧ member.1.name.length + 1 < 8 ^ 11) :
    ∃ archive, writeTar members = some archive := by
  have hwritten : ∃ written, members.mapM (fun member => addfile member.1 member.2) =
      some written := by
    rw [← Option.isSome_iff_exists, Option.isSome_iff_ne_none, Ne, Gather.mapM_none]
    rintro ⟨member, hmember, hnone⟩
    obtain ⟨huid, hgid, hmtime⟩ := hnumbers member hmember
    obtain ⟨hsize, hname⟩ := hsizes member hmember
    have hr := hregular member hmember
    obtain ⟨header, hheader⟩ := exists_header true huid hgid (by rwa [hr.size]) hmtime
    have hinfo : (longInfo (member.1.name ++ [0]).length GNUTYPE_LONGNAME).size < 8 ^ 11 := by
      rwa [longInfo_size, List.length_append]
    obtain ⟨long, hlong⟩ := exists_header false (show (longInfo _ GNUTYPE_LONGNAME).uid < 8 ^ 7 from
      Nat.pow_pos (by decide)) (Nat.pow_pos (by decide)) hinfo (Nat.pow_pos (by decide))
    rw [addfile, createGnuHeader, hr.link, if_neg (show ¬ LENGTH_NAME < ([] : Bytes).length by
        decide), createLongHeader, hlong, hheader] at hnone
    split at hnone <;> cases hnone
  obtain ⟨written, hwritten⟩ := hwritten
  exact ⟨_, by rw [writeTar, hwritten]; rfl⟩

end

end NpuStack.Ci.Tar
