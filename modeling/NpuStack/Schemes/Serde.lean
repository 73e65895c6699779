import Mathlib.Algebra.Ring.Nat
import Mathlib.Data.List.Basic
import NpuStack.Schemes.Keyed

/-! Two readings of one JSON text. A parser turns bytes into a syntax tree in which an object keeps
    its fields in order, repeated keys included. The *untyped* reading indexes that tree: the last
    field of a repeated key wins and anything absent is null. The *strict* reading of a record
    refuses unknown and repeated keys, and also accepts the record written as an array.

        bytes ──▶ Json ──get──▶ untyped value         (last duplicate wins)
                   └───fields──▶ strict record fields  (no duplicate, no unknown)

    Where the strict reading of an object succeeds, both readings see the same field (`get_fields`). A
    strict reader of every field of a record is a reader of the record's values (`record_read`). -/

namespace Serde

/-- Syntax tree of a JSON text. Numbers keep their literal; objects keep every field in order. -/
inductive Json where
  | null
  | bool (b : Bool)
  | num (literal : String)
  | str (s : String)
  | arr (items : List Json)
  | obj (fields : List (String × Json))

namespace Json

/-- `value[key]`: null unless an object holds the key; the last field of a repeated key wins. -/
def get (key : String) : Json → Json
  | obj fields => (fields.reverse.lookup key).getD null
  | _ => null

/-- `value.as_str()`. -/
def asStr : Json → Option String
  | str s => some s
  | _ => none

/-- `value.as_array()`. -/
def asArray : Json → Option (List Json)
  | arr items => some items
  | _ => none

mutual

/-- Compact text of a tree whose strings need no escapes. -/
def render : Json → String
  | null => "null"
  | bool b => if b then "true" else "false"
  | num literal => literal
  | str s => "\"" ++ s ++ "\""
  | arr items => "[" ++ ",".intercalate (renderItems items) ++ "]"
  | obj fields => "\x7b" ++ ",".intercalate (renderFields fields) ++ "\x7d"

def renderItems : List Json → List String
  | [] => []
  | j :: items => render j :: renderItems items

def renderFields : List (String × Json) → List String
  | [] => []
  | (k, v) :: fields => ("\"" ++ k ++ "\":" ++ render v) :: renderFields fields

end

/-- The fields of a strict record: an object without unknown or repeated keys, or an array holding
    the fields in order, whose tail may be missing. -/
def fields (names : List String) : Json → Option (String → Option Json)
  | obj kvs =>
    if (kvs.map Prod.fst).Nodup ∧ ∀ k ∈ kvs.map Prod.fst, k ∈ names then
      some fun name => kvs.lookup name
    else none
  | arr items =>
    if items.length ≤ names.length then some fun name => (names.zip items).lookup name else none
  | _ => none

/-- An object of known keys, each once, is read as its own fields. -/
theorem fields_obj {names : List String} {kvs : List (String × Json)}
    (hnodup : (kvs.map Prod.fst).Nodup) (hknown : ∀ k ∈ kvs.map Prod.fst, k ∈ names) :
    fields names (obj kvs) = some fun name => kvs.lookup name := by
  rw [fields, if_pos ⟨hnodup, hknown⟩]

theorem lookup_reverse_of_nodup {β : Type} {kvs : List (String × β)} (k : String)
    (hnd : (kvs.map Prod.fst).Nodup) : kvs.reverse.lookup k = kvs.lookup k := by
  have hrev : (kvs.reverse.map Prod.fst).Nodup := by
    rw [List.map_reverse]; exact (List.reverse_perm _).nodup_iff.mpr hnd
  have hmem : ∀ v, kvs.lookup k = some v → (k, v) ∈ kvs := by
    intro v hv
    obtain ⟨l₁, l₂, rfl, _⟩ := List.lookup_eq_some_iff.mp hv
    simp
  cases hl : kvs.lookup k with
  | some v => exact Keyed.lookup_of_mem hrev (List.mem_reverse.mpr (hmem v hl))
  | none =>
    rw [List.lookup_eq_none_iff] at hl ⊢
    exact fun p hp => hl p (List.mem_reverse.mp hp)

/-- Where the strict reading of an object succeeds, the untyped one sees the same fields. -/
theorem get_fields {names : List String} {kvs : List (String × Json)} {f : String → Option Json}
    (hf : fields names (obj kvs) = some f) (k : String) : get k (obj kvs) = (f k).getD null := by
  simp only [fields] at hf
  split at hf
  · next hc =>
    obtain rfl := Option.some.inj hf
    rw [get, lookup_reverse_of_nodup k hc.1]
  · cases hf

end Json

/-! ### Leaves of a strict record -/

/-- A required field of type `T`. -/
def required {α : Type} (f : String → Option Json) (name : String) (read : Json → Option α) :
    Option α := (f name).bind read

/-- The field of an object is read from its value. -/
theorem required_lookup {α : Type} {kvs : List (String × Json)} {k : String} {v : Json}
    (hnodup : (kvs.map Prod.fst).Nodup) (hmem : (k, v) ∈ kvs) (read : Json → Option α) :
    required (fun name => kvs.lookup name) k read = read v := by
  rw [required, Keyed.lookup_of_mem hnodup hmem]
  rfl

/-- A `#[serde(default)]` field: absent means the default, present must read. -/
def defaulted {α : Type} (f : String → Option Json) (name : String) (read : Json → Option α)
    (default : α) : Option α :=
  match f name with
  | none => some default
  | some j => read j

def readStr : Json → Option String := Json.asStr

def readBool : Json → Option Bool
  | .bool b => some b
  | _ => none

/-- An unsigned integer: a literal without fraction or exponent, below the bound. -/
def readUnsigned (bits : ℕ) : Json → Option ℕ
  | .num literal =>
    if literal ≠ "" ∧ literal.toList.all Char.isDigit ∧
        Nat.ofDigitChars 10 literal.toList 0 < 2 ^ bits then
      some (Nat.ofDigitChars 10 literal.toList 0)
    else none
  | _ => none

/-- A unit variant: its name, or an object holding its name with null. -/
def readVariant : Json → Option String
  | .str s => some s
  | .obj [(s, .null)] => some s
  | _ => none

/-- A `Vec<T>`. -/
def readVec {α : Type} (read : Json → Option α) : Json → Option (List α)
  | .arr items => items.mapM read
  | _ => none

/-! ### Leaves and records, as values -/

/-- The value names a variant: by a string, or an object holding the name with null. -/
def Names (j : Json) (name : String) : Prop := j = .str name ∨ j = .obj [(name, .null)]

theorem readVariant_iff {j : Json} {name : String} : readVariant j = some name ↔ Names j name := by
  constructor
  · intro h
    rw [readVariant.eq_def] at h
    split at h
    · cases h
      exact .inl rfl
    · cases h
      exact .inr rfl
    · cases h
  · rintro (rfl | rfl) <;> rfl

theorem readStr_iff {j : Json} {s : String} : readStr j = some s ↔ j = .str s := by
  constructor
  · intro h
    cases j with
    | str t =>
      cases h
      rfl
    | _ => cases h
  · rintro rfl
    rfl

/-- A value wider integers read is the one narrower integers read. -/
theorem readUnsigned_mono {small large n : ℕ} (hle : small ≤ large) {j : Json}
    (h : readUnsigned small j = some n) : readUnsigned large j = some n := by
  cases j with
  | num literal =>
    rw [readUnsigned] at h ⊢
    split at h
    · next hsmall =>
      rw [if_pos ⟨hsmall.1, hsmall.2.1, Nat.lt_of_lt_of_le hsmall.2.2 (Nat.pow_le_pow_right (by decide) hle)⟩]
      exact h
    · cases h
  | _ => cases h

/-- A record: an object of exactly these keys, in any order, or an array of their values. -/
def IsRecord (names : List String) (j : Json) (f : String → Json) : Prop :=
  (∃ fields, j = .obj fields ∧ (fields.map Prod.fst).Perm names ∧ ∀ k v, (k, v) ∈ fields → v = f k) ∨
    j = .arr (names.map f)

/-- Values in the order of their names, none missing. -/
theorem zip_lookup_iff {names : List String} (hnames : names.Nodup) {f : String → Json} :
    ∀ {items : List Json}, (items.length ≤ names.length ∧
      ∀ name ∈ names, (names.zip items).lookup name = some (f name)) ↔ items = names.map f := by
  induction names with
  | nil =>
    intro items
    simp
  | cons name names ih =>
    intro items
    obtain ⟨hfresh, hnames⟩ := List.nodup_cons.mp hnames
    cases items with
    | nil =>
      constructor
      · rintro ⟨-, hall⟩
        cases hall name List.mem_cons_self
      · intro h
        cases h
    | cons item items =>
      have hskip : ∀ other ∈ names, ((name :: names).zip (item :: items)).lookup other =
          (names.zip items).lookup other := by
        intro other hother
        have hne : (other == name) = false := by
          rw [beq_eq_false_iff_ne]
          rintro rfl
          exact hfresh hother
        rw [List.zip_cons_cons, List.lookup_cons, hne]
      rw [List.map_cons, List.cons.injEq, ← ih hnames, List.forall_mem_cons, List.zip_cons_cons,
        List.lookup_cons_self, ← List.zip_cons_cons, List.length_cons, List.length_cons,
        Nat.succ_le_succ_iff, Option.some.injEq]
      constructor
      · rintro ⟨hlength, hfirst, hall⟩
        exact ⟨hfirst, hlength, fun other hother => (hskip other hother).symm.trans (hall other hother)⟩
      · rintro ⟨hfirst, hlength, hall⟩
        exact ⟨hlength, hfirst, fun other hother => (hskip other hother).trans (hall other hother)⟩

/-- The strict fields of a value, all of them there, are those of a record. -/
theorem fields_iff {names : List String} (hnames : names.Nodup) {j : Json} {f : String → Json} :
    (∃ g, Json.fields names j = some g ∧ ∀ name ∈ names, g name = some (f name)) ↔ IsRecord names j f := by
  constructor
  · rintro ⟨g, hg, hall⟩
    cases j with
    | obj fields =>
      rw [Json.fields] at hg
      split at hg
      · next hkeys =>
        obtain rfl := Option.some.inj hg
        refine .inl ⟨fields, rfl, ?_, ?_⟩
        · refine (List.perm_ext_iff_of_nodup hkeys.1 hnames).mpr fun name => ⟨hkeys.2 name, fun hname => ?_⟩
          exact List.mem_map_of_mem (Keyed.mem_of_lookup (hall name hname))
        · intro k v hmem
          have hk := hkeys.2 k (List.mem_map.mpr ⟨_, hmem, rfl⟩)
          have hvalue : fields.lookup k = some (f k) := hall k hk
          rw [Keyed.lookup_of_mem hkeys.1 hmem] at hvalue
          exact Option.some.inj hvalue
      · cases hg
    | arr items =>
      rw [Json.fields] at hg
      split at hg
      · next hlength =>
        obtain rfl := Option.some.inj hg
        exact .inr (congrArg Json.arr ((zip_lookup_iff hnames).mp ⟨hlength, hall⟩))
      · cases hg
    | _ => cases hg
  · rintro (⟨fields, rfl, hperm, hvalues⟩ | rfl)
    · have hnodup := hperm.nodup_iff.mpr hnames
      refine ⟨_, Json.fields_obj hnodup fun k hk => hperm.mem_iff.mp hk, fun name hname => ?_⟩
      obtain ⟨⟨k, v⟩, hmem, rfl⟩ := List.mem_map.mp (hperm.mem_iff.mpr hname)
      rw [← hvalues k v hmem]
      exact Keyed.lookup_of_mem hnodup hmem
    · obtain ⟨hlength, hall⟩ := (zip_lookup_iff hnames (f := f)).mpr rfl
      exact ⟨_, by rw [Json.fields, if_pos hlength], hall⟩

/-- A reader of records that asks every field is a reader of the record's values. -/
theorem record_read {α : Type} {names : List String} (hnames : names.Nodup) {j : Json}
    {read : (String → Option Json) → Option α} {P : (String → Json) → Prop} {a : α}
    (hread : ∀ g, read g = some a ↔ ∃ f, (∀ name ∈ names, g name = some (f name)) ∧ P f) :
    (Json.fields names j).bind read = some a ↔ ∃ f, IsRecord names j f ∧ P f := by
  rw [Option.bind_eq_some_iff]
  constructor
  · rintro ⟨g, hg, ha⟩
    obtain ⟨f, hall, hf⟩ := (hread g).mp ha
    exact ⟨f, (fields_iff hnames).mp ⟨g, hg, hall⟩, hf⟩
  · rintro ⟨f, hrecord, hf⟩
    obtain ⟨g, hg, hall⟩ := (fields_iff hnames).mpr hrecord
    exact ⟨g, hg, (hread g).mpr ⟨f, hall, hf⟩⟩

/-- The values of some fields, as a function of all names. -/
theorem exists_values {g : String → Option Json} {names : List String} :
    (∀ name ∈ names, (g name).isSome = true) → ∃ f : String → Json, ∀ name ∈ names, g name = some (f name) := by
  intro h
  refine ⟨fun name => (g name).getD .null, fun name hname => ?_⟩
  obtain ⟨j, hj⟩ := Option.isSome_iff_exists.mp (h name hname)
  show g name = some ((g name).getD .null)
  rw [hj]
  rfl

end Serde
