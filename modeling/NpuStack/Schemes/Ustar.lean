import Mathlib.Data.List.Basic
import NpuStack.Schemes.Text

/-! Blocks of a tar archive: a header is 512 bytes of fields at fixed offsets, numbers are octal
    digits, and a checksum counts its own field as spaces.

        header:  name 0 … size 124 · mtime 136 · checksum 148 · type 156 …

    A field that was put is read back, the other fields stay (`field_put_self`, `field_put_before`,
    `field_put_after`), and putting the checksum does not change it (`checksum_put`). -/

namespace Ustar
open Text (Bytes)

def BLOCK : ℕ := 512

/-- The bytes of a field. -/
def field (offset width : ℕ) (block : Bytes) : Bytes := (block.drop offset).take width

/-- The block with other bytes at the offset. -/
def put (offset : ℕ) (value block : Bytes) : Bytes :=
  block.take offset ++ value ++ block.drop (offset + value.length)

/-- Zeros up to a whole number of blocks. -/
def padding (length : ℕ) : Bytes := List.replicate ((BLOCK - length % BLOCK) % BLOCK) 0

/-- A length in whole blocks. -/
def stored (length : ℕ) : ℕ := (length + 511) / 512 * 512

/-! ### Octal numbers -/

def isOctal (b : UInt8) : Bool := 48 ≤ b && b ≤ 55

/-- So many octal digits of a number, the last ones. -/
def octalDigits : ℕ → ℕ → Bytes
  | 0, _ => []
  | width + 1, n => octalDigits width (n / 8) ++ [48 + (n % 8).toUInt8]

/-- The value of octal digits. -/
def octalValue (digits : Bytes) : ℕ := digits.foldl (fun value b => 8 * value + (b.toNat - 48)) 0

theorem length_octalDigits : ∀ width n : ℕ, (octalDigits width n).length = width
  | 0, _ => rfl
  | width + 1, n => by rw [octalDigits, List.length_append, length_octalDigits]; rfl

theorem octalDigit_spec : ∀ n < 8, isOctal (48 + n.toUInt8) = true ∧ (48 + n.toUInt8).toNat - 48 = n := by
  decide

theorem isOctal_octalDigits : ∀ {width n : ℕ}, ∀ b ∈ octalDigits width n, isOctal b = true
  | 0, _, b, hb => by cases hb
  | width + 1, n, b, hb => by
    rw [octalDigits, List.mem_append, List.mem_singleton] at hb
    rcases hb with hb | rfl
    · exact isOctal_octalDigits b hb
    · exact (octalDigit_spec (n % 8) (Nat.mod_lt _ (by decide))).1

/-- Enough digits write the number. -/
theorem octalValue_octalDigits : ∀ {width n : ℕ}, n < 8 ^ width → octalValue (octalDigits width n) = n
  | 0, n, h => by
    rw [Nat.pow_zero, Nat.lt_one_iff] at h
    exact h.symm
  | width + 1, n, h => by
    have hhigh : n / 8 < 8 ^ width := Nat.div_lt_of_lt_mul (by rwa [← Nat.pow_succ'])
    have hlow := (octalDigit_spec (n % 8) (Nat.mod_lt _ (by decide))).2
    rw [octalDigits, octalValue, List.foldl_append]
    have hvalue : (octalDigits width (n / 8)).foldl (fun value b => 8 * value + (b.toNat - 48)) 0 =
        n / 8 := octalValue_octalDigits hhigh
    rw [hvalue, List.foldl_cons, List.foldl_nil, hlow]
    omega

/-! ### Fields -/

variable {offset width start : ℕ} {value block : Bytes}

theorem length_put (h : offset + value.length ≤ block.length) :
    (put offset value block).length = block.length := by
  simp only [put, List.length_append, List.length_take, List.length_drop]
  omega

theorem field_put_self (h : offset ≤ block.length) :
    field offset value.length (put offset value block) = value := by
  have hlength : (block.take offset).length = offset := by rw [List.length_take]; omega
  rw [field, put, List.append_assoc, List.drop_append_of_le_length hlength.ge,
    List.drop_eq_nil_of_le hlength.le, List.nil_append, List.take_left]

theorem field_put_before (hbefore : offset + width ≤ start) (h : start ≤ block.length) :
    field offset width (put start value block) = field offset width block := by
  have hlength : (block.take start).length = start := by rw [List.length_take]; omega
  rw [field, put, field, List.append_assoc, List.drop_append_of_le_length (by omega),
    List.take_append_of_le_length (by rw [List.length_drop]; omega), List.drop_take,
    List.take_take, Nat.min_eq_left (by omega)]

theorem field_put_after (hafter : start + value.length ≤ offset) (h : start ≤ block.length) :
    field offset width (put start value block) = field offset width block := by
  have hlength : (block.take start ++ value).length = start + value.length := by
    rw [List.length_append, List.length_take]
    omega
  rw [field, put, field, List.drop_append, hlength, List.drop_eq_nil_of_le (by omega),
    List.nil_append, List.drop_drop]
  congr 2
  omega

theorem put_put (other : Bytes) (hlength : other.length = value.length) (h : offset ≤ block.length) :
    put offset other (put offset value block) = put offset other block := by
  have htake : (block.take offset).length = offset := by rw [List.length_take]; omega
  rw [put, put, put, hlength, List.append_assoc (block.take offset) value,
    List.take_append_of_le_length htake.ge, List.take_take, Nat.min_self,
    ← List.append_assoc (block.take offset) value, List.drop_append_of_le_length
      (by rw [List.length_append, htake]), List.drop_eq_nil_of_le (by rw [List.length_append, htake]),
    List.nil_append]

/-! ### Checksums -/

/-- The sum of a header's bytes, its checksum field taken as spaces. -/
def checksum (block : Bytes) : ℕ :=
  ((put 148 (List.replicate 8 32) block).map UInt8.toNat).sum

theorem checksum_put (hvalue : value.length = 8) (h : 148 ≤ block.length) :
    checksum (put 148 value block) = checksum block := by
  rw [checksum, checksum, put_put _ (by rw [hvalue]; rfl) h]

theorem sum_toNat_le : ∀ bytes : Bytes, (bytes.map UInt8.toNat).sum ≤ 255 * bytes.length
  | [] => Nat.le_refl _
  | b :: bytes => by
    have hrest := sum_toNat_le bytes
    have hb := b.toNat_lt
    rw [List.map_cons, List.sum_cons, List.length_cons]
    omega

theorem checksum_lt (h : block.length = BLOCK) : checksum block < 8 ^ 6 := by
  have hsum := sum_toNat_le (put 148 (List.replicate 8 32) block)
  rw [length_put (by rw [h]; decide), h] at hsum
  exact hsum.trans_lt (by decide)

/-! ### Fields of a concatenation -/

/-- The parts of a concatenation are its fields. -/
theorem field_flatten :
    ∀ {parts : List Bytes} {widths : List ℕ}, parts.map List.length = widths → ∀ i,
    field (widths.take i).sum (widths.getD i 0) parts.flatten = parts.getD i []
  | [], _, rfl, i => by cases i <;> simp [field]
  | part :: parts, _, rfl, 0 => by simp [field]
  | part :: parts, _, rfl, i + 1 => by
    have hrest := @field_flatten parts _ rfl i
    rw [List.flatten_cons, List.getD_cons_succ, ← hrest, List.map_cons, List.take_succ_cons,
      List.sum_cons, List.getD_cons_succ, field, field, ← List.drop_drop, List.drop_left]

theorem put_of_eq {before old after : Bytes} (hblock : block = before ++ (old ++ after))
    (hoffset : before.length = offset) (hlength : old.length = value.length) :
    put offset value block = before ++ (value ++ after) := by
  rw [put, hblock, ← hoffset, List.take_left, ← hlength, ← List.append_assoc before old,
    ← List.length_append, List.drop_left, List.append_assoc]

theorem data_padded (content : Bytes) : (content ++ padding content.length).length =
    stored content.length := by
  rw [List.length_append, padding, List.length_replicate, stored, BLOCK]
  omega

/-! ### Numbers in base 256 -/

/-- So many bytes of a number, the highest first. -/
def bigEndian : ℕ → ℕ → Bytes
  | 0, _ => []
  | width + 1, n => bigEndian width (n / 256) ++ [(n % 256).toUInt8]

theorem length_bigEndian : ∀ width n : ℕ, (bigEndian width n).length = width
  | 0, _ => rfl
  | width + 1, n => by rw [bigEndian, List.length_append, length_bigEndian]; rfl

theorem value_bigEndian : ∀ {width n : ℕ}, n < 256 ^ width →
    (bigEndian width n).foldl (fun value b => 256 * value + b.toNat) 0 = n
  | 0, n, h => by
    rw [Nat.pow_zero, Nat.lt_one_iff] at h
    exact h.symm
  | width + 1, n, h => by
    have hhigh : n / 256 < 256 ^ width := Nat.div_lt_of_lt_mul (by rwa [← Nat.pow_succ'])
    have hlow : (n % 256).toUInt8.toNat = n % 256 := by
      rw [Nat.toUInt8, UInt8.toNat_ofNat']
      omega
    rw [bigEndian, List.foldl_append, value_bigEndian hhigh, List.foldl_cons, List.foldl_nil, hlow]
    omega

end Ustar
