import Mathlib.Data.List.Perm.Basic
import NpuStack.Install.Signature
import NpuStack.Schemes.Gather

/-! The status policy as a condition on the records alone. The scan keeps three pieces of state; what
    it accepts is one start, one good and one valid record, and else only informational ones.

        NEWSIG     GOODSIG key user…     VALIDSIG full … primary     KEY_CONSIDERED, TRUST_…, SIG_ID
           1              1                        1                          any number
                          └──── full ends with key ┘

    The condition does not mention positions (`verifySignatureStatus_iff_within`), so neither does
    the verdict: records may be reordered, informational ones inserted, and nothing else. -/

namespace NpuStack.Install
open Interaction Text

/-! ### Records -/

/-- Sixteen upper-case hexadecimal digits. -/
def isKeyId (value : String) : Bool := len value = 16 && all isUpperHex value

def IsNewsig (record : List String) : Prop := record.head? = some "NEWSIG"

/-- A `GOODSIG` record names the key and its user. -/
def IsGoodsig (record : List String) : Prop :=
  record.head? = some "GOODSIG" ∧ 3 ≤ record.length ∧ isKeyId (record.getD 1 "") = true

def IsValidsig (primary : String) (record : List String) : Prop :=
  record.head? = some "VALIDSIG" ∧ record.length = 11 ∧ validRecordOf primary record = true

def IsInformational (record : List String) : Prop :=
  ∃ word ∈ IGNORED_RECORDS, record.head? = some word

instance (record : List String) : Decidable (IsNewsig record) := inferInstanceAs (Decidable (_ = _))

instance (record : List String) : Decidable (IsGoodsig record) := inferInstanceAs (Decidable (_ ∧ _))

instance (primary : String) (record : List String) : Decidable (IsValidsig primary record) :=
  inferInstanceAs (Decidable (_ ∧ _))

instance (record : List String) : Decidable (IsInformational record) :=
  inferInstanceAs (Decidable (∃ word ∈ IGNORED_RECORDS, _))

/-- One start, one good and one valid record that belong together, and informational ones. -/
def Shown (isGood isValid : List String → Prop) (records : List (List String)) : Prop :=
  ∃ newsig good valid others, records.Perm (newsig :: good :: valid :: others) ∧
    IsNewsig newsig ∧ isGood good ∧ isValid valid ∧
    endsWith (good.getD 1 "") (valid.getD 1 "") = true ∧ ∀ record ∈ others, IsInformational record

/-- What the policy demands of the records. -/
def WithinPolicy (primary : String) : List (List String) → Prop :=
  Shown IsGoodsig (IsValidsig primary)

/-- What the policy demands of the bytes. -/
def AcceptableStatus (primary : String) (status : Bytes) : Prop :=
  fingerprint primary = true ∧ status.length ≤ 65536 ∧ ∃ text records, status = utf8 text ∧
    (lines text).mapM statusFields = some records ∧ WithinPolicy primary records

/-! ### What one record counts as -/

inductive RecordKind where
  | newsig
  | goodsig (key : String)
  | validsig (full : String)
  | informational
  | refused
  deriving DecidableEq, Repr

def recordKind (primary : String) (record : List String) : RecordKind :=
  if IsNewsig record then .newsig
  else if IsGoodsig record then .goodsig (record.getD 1 "")
  else if IsValidsig primary record then .validsig (record.getD 1 "")
  else if IsInformational record then .informational
  else .refused

namespace RecordKind

def start : RecordKind → Option Unit
  | newsig => some ()
  | _ => none

def key : RecordKind → Option String
  | goodsig key => some key
  | _ => none

def full : RecordKind → Option String
  | validsig full => some full
  | _ => none

end RecordKind

section
variable {primary : String} {record : List String}

end

/-! ### The scan -/

/-- What the records of a status add up to. -/
def newsigs (primary : String) (records : List (List String)) : List Unit :=
  records.filterMap fun record => (recordKind primary record).start

def goodKeys (primary : String) (records : List (List String)) : List String :=
  records.filterMap fun record => (recordKind primary record).key

def validKeys (primary : String) (records : List (List String)) : List String :=
  records.filterMap fun record => (recordKind primary record).full

section
variable {primary : String} {record : List String} {records records' : List (List String)}

end

/-- The scan of some records, as sums: it takes no refused one and at most one key of either sort. -/
structure Scanned (primary : String) (records : List (List String)) (scan scan' : StatusScan) : Prop where
  allowed : ∀ record ∈ records, recordKind primary record ≠ .refused
  starts : scan'.starts = scan.starts + (newsigs primary records).length
  good : scan'.goodKey.toList = scan.goodKey.toList ++ goodKeys primary records
  valid : scan'.validKey.toList = scan.validKey.toList ++ validKeys primary records

theorem toList_inj {α : Type} {o o' : Option α} (h : o.toList = o'.toList) : o = o' := by
  cases o <;> cases o' <;> simp_all

/-- The sums of accepted records. -/
structure Balanced (primary : String) (records : List (List String)) : Prop where
  allowed : ∀ record ∈ records, recordKind primary record ≠ .refused
  starts : newsigs primary records = [()]
  keys : ∃ key full, goodKeys primary records = [key] ∧ validKeys primary records = [full] ∧
    endsWith key full = true

theorem Balanced.perm {primary : String} {records records' : List (List String)}
    (h : Balanced primary records) (hperm : records'.Perm records) : Balanced primary records' := by
  obtain ⟨hallowed, hstarts, key, full, hgood, hvalid, hends⟩ := h
  refine ⟨fun r hr => hallowed r (hperm.mem_iff.mp hr), ?_, key, full, ?_, ?_, hends⟩
  · exact List.perm_singleton.mp (hstarts ▸ hperm.filterMap _)
  · exact List.perm_singleton.mp (hgood ▸ hperm.filterMap _)
  · exact List.perm_singleton.mp (hvalid ▸ hperm.filterMap _)

namespace Unnamed

def primary : String := "0123456789ABCDEF0123456789ABCDEF01234567"

/-- A start, a good record with the key alone, and a valid record. -/
def records : List (List String) :=
  [["NEWSIG"], ["GOODSIG", "89ABCDEF01234567"],
    ["VALIDSIG", primary, "2024-01-01", "1704067200", "0", "4", "0", "22", "10", "00", primary]]

def text : String := unlines (records.map fun record => "[GNUPG:] " ++ unwords record)

theorem records_fields : ∀ fields ∈ records, ∀ w ∈ fields, isStatusField w = true := by
  simp only [records, primary, List.forall_mem_cons, List.not_mem_nil, false_implies, implies_true, and_true]
  refine ⟨?_, ⟨?_, ?_⟩, ?_, ?_, ?_, ?_, ?_, ?_, ?_, ?_, ?_, ?_, ?_⟩ <;> exact isStatusField_chars (by decide)

theorem text_records : (lines text).mapM statusFields = some records := by
  have hlines : lines text = records.map statusRecord := lines_statusRecords records_fields
  rw [hlines, Gather.mapM_some, List.forall₂_map_left_iff, List.forall₂_same]
  exact fun fields hfields => statusFields_statusRecord (records_fields fields hfields)

/-- A good record with a key of sixteen digits, whatever follows. -/
def HasKey (record : List String) : Prop :=
  record.head? = some "GOODSIG" ∧ isKeyId (record.getD 1 "") = true

theorem shown : Shown HasKey (IsValidsig primary) records := by
  refine ⟨_, _, _, [], .refl _, rfl, ⟨rfl, by decide⟩, ⟨rfl, rfl, by decide⟩, by decide, nofun⟩

theorem refused : ¬ AcceptableStatus primary (utf8 text) := by
  rintro ⟨-, -, text', records', htext, hrecords, newsig, good, valid, others, hperm, -, hgood, -⟩
  obtain rfl := utf8_injective htext
  obtain rfl := Option.some.inj (text_records.symm.trans hrecords)
  have hmem : good ∈ records := hperm.mem_iff.mpr (by simp)
  obtain ⟨hhead, hlength, -⟩ := hgood
  simp only [records, List.mem_cons, List.not_mem_nil, or_false] at hmem
  rcases hmem with rfl | rfl | rfl
  · exact absurd (Option.some.inj hhead) (by decide)
  · exact absurd hlength (by decide)
  · exact absurd (Option.some.inj hhead) (by decide)

end Unnamed

end NpuStack.Install
