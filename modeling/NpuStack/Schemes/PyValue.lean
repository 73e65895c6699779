import Mathlib.Data.List.Nodup
import Mathlib.Data.Rat.Defs
import NpuStack.Schemes.Keyed
import NpuStack.Schemes.Python

/-! Values as `json.loads` and `tomllib.loads` build them, and the operations the scripts use on them.

        text ──loads──▶ Value ──get, items, ==──▶ checks

    Equality is Python's: `True == 1 == 1.0`, and dictionaries ignore the order of their keys. An
    operation on a value of the wrong kind raises, which is `none` here. -/

namespace Py
open Text

/-- The value of a float. -/
inductive FloatValue where
  | finite (q : ℚ)
  | infinite (negative : Bool)
  | nan

inductive Value where
  | none
  | bool (b : Bool)
  | int (n : ℤ)
  | float (value : FloatValue)
  | str (s : String)
  | list (items : List Value)
  | dict (items : List (String × Value))
  /-- A TOML date or time, by its text. -/
  | time (text : String)

namespace Value

/-- The number a value compares as. -/
def number : Value → Option ℚ
  | bool b => some (if b then 1 else 0)
  | int n => some n
  | float (.finite q) => some q
  | _ => Option.none

mutual

/-- `a == b`. -/
def eq : Value → Value → Bool
  | none, none => true
  | str s, str t => s = t
  | time s, time t => s = t
  | list a, list b => eqList a b
  | dict a, dict b => a.length = b.length && eqItems a b
  | bool a, b => b.number = some (if a then 1 else 0)
  | int a, b => b.number = some a
  | float (.finite a), b => b.number = some a
  | float (.infinite a), float (.infinite b) => a = b
  | _, _ => false

def eqList : List Value → List Value → Bool
  | [], [] => true
  | a :: as, b :: bs => eq a b && eqList as bs
  | _, _ => false

/-- Every item of the first dictionary is one of the second. -/
def eqItems : List (String × Value) → List (String × Value) → Bool
  | [], _ => true
  | (key, value) :: items, other =>
    (match other.lookup key with
      | some value' => eq value value'
      | Option.none => false) && eqItems items other

end

/-- `d.get(key)` of a dictionary; other values have no `get`. -/
def get (key : String) : Value → Option Value
  | dict items => some ((items.lookup key).getD none)
  | _ => Option.none

/-- `d.get(key, default)`. -/
def getD : Value → String → Value → Option Value
  | dict items, key, default => some ((items.lookup key).getD default)
  | _, _, _ => Option.none

/-- `d[key]`. -/
def index (key : String) : Value → Option Value
  | dict items => items.lookup key
  | _ => Option.none

/-- `d[key] = value`. -/
def setItem : Value → String → Value → Option Value
  | dict items, key, value =>
    if (items.lookup key).isSome then
      some (dict (items.map fun item => if item.1 = key then (key, value) else item))
    else some (dict (items ++ [(key, value)]))
  | _, _, _ => Option.none

def asStr : Value → Option String
  | str s => some s
  | _ => Option.none

def asList : Value → Option (List Value)
  | list items => some items
  | _ => Option.none

def asDict : Value → Option (List (String × Value))
  | dict items => some items
  | _ => Option.none

/-- Values a dictionary key can be. -/
def hashable : Value → Bool
  | list _ => false
  | dict _ => false
  | _ => true

/-- `bool(v)`. -/
def truthy : Value → Bool
  | none => false
  | bool b => b
  | int n => n ≠ 0
  | float (.finite q) => q ≠ 0
  | float _ => true
  | str s => s ≠ ""
  | list items => !items.isEmpty
  | dict items => !items.isEmpty
  | time _ => true

/-- `v is True`. -/
def isTrue : Value → Bool
  | bool b => b
  | _ => false

/-- `v is False`. -/
def isFalse : Value → Bool
  | bool b => !b
  | _ => false

/-! ### Changing values under their keys -/

/-- Each value of a dictionary changed, its key known; other values stay. -/
def mapItems (f : String → Value → Value) : Value → Value
  | dict items => dict (items.map fun item => (item.1, f item.1 item.2))
  | v => v

theorem mapItems_mapItems (f g : String → Value → Value) (v : Value) :
    mapItems f (mapItems g v) = mapItems (fun key value => f key (g key value)) v := by
  cases v with
  | dict items =>
    rw [mapItems, mapItems, List.map_map]
    rfl
  | _ => rfl

theorem lookup_mapItems (f : String → Value → Value) (items : List (String × Value)) (key : String) :
    (items.map fun item => (item.1, f item.1 item.2)).lookup key = (items.lookup key).map (f key) := by
  induction items with
  | nil => rfl
  | cons item items ih =>
    rw [List.map_cons]
    by_cases hkey : key = item.1
    · subst hkey
      rw [List.lookup_cons_self, List.lookup_cons_self, Option.map_some]
    · have hbeq : (key == item.1) = false := by simpa using hkey
      rw [List.lookup_cons, List.lookup_cons, hbeq]
      exact ih

theorem index_mapItems (f : String → Value → Value) (key : String) (v : Value) :
    (mapItems f v).index key = (v.index key).map (f key) := by
  cases v with
  | dict items => exact lookup_mapItems f items key
  | _ => rfl

theorem mapItems_id {f : String → Value → Value} (h : ∀ key value, f key value = value) (v : Value) :
    mapItems f v = v := by
  cases v with
  | dict items =>
    have hmap : (items.map fun item => (item.1, f item.1 item.2)) = items := by
      refine (List.map_congr_left fun item _ => ?_).trans (List.map_id items)
      rw [h]
      rfl
    exact congrArg dict hmap
  | _ => rfl

end Value

/-! ### Dictionaries with other keys -/

section
variable {κ α : Type} [DecidableEq κ]

/-- `d[key] = value`: the value of a key already there is replaced in its place. -/
def insertItem (items : List (κ × α)) (item : κ × α) : List (κ × α) :=
  if item.1 ∈ items.map Prod.fst then items.map fun old => if old.1 = item.1 then item else old
  else items ++ [item]

theorem mem_insertItem {items : List (κ × α)} {item x : κ × α} (h : x ∈ insertItem items item) :
    x ∈ items ∨ x = item := by
  rw [insertItem] at h
  split at h
  · obtain ⟨old, hold, rfl⟩ := List.mem_map.mp h
    split
    · exact .inr rfl
    · exact .inl hold
  · rcases List.mem_append.mp h with h | h
    · exact .inl h
    · exact .inr (List.mem_singleton.mp h)

theorem mem_foldl_insertItem {x : κ × α} : ∀ {l items : List (κ × α)},
    x ∈ l.foldl insertItem items → x ∈ items ∨ x ∈ l
  | [], _, h => .inl h
  | item :: l, items, h => by
    rw [List.foldl_cons] at h
    rcases mem_foldl_insertItem h with hmem | hmem
    · rcases mem_insertItem hmem with hmem | rfl
      · exact .inl hmem
      · exact .inr List.mem_cons_self
    · exact .inr (List.mem_cons_of_mem _ hmem)

/-- Replacing an item keeps the keys; adding one appends its key. -/
theorem keys_insertItem (items : List (κ × α)) (item : κ × α) :
    (insertItem items item).map Prod.fst =
      if item.1 ∈ items.map Prod.fst then items.map Prod.fst else items.map Prod.fst ++ [item.1] := by
  rw [insertItem]
  split
  · rw [List.map_map]
    refine List.map_congr_left fun old _ => ?_
    simp only [Function.comp_apply]
    split
    next h => exact h.symm
    next => rfl
  · rw [List.map_append, List.map_singleton]

theorem mem_keys_insertItem {items : List (κ × α)} {item : κ × α} {key : κ} :
    key ∈ (insertItem items item).map Prod.fst ↔ key ∈ items.map Prod.fst ∨ key = item.1 := by
  rw [keys_insertItem]
  split
  next h =>
    refine Iff.intro .inl ?_
    rintro (hmem | rfl)
    · exact hmem
    · exact h
  next => rw [List.mem_append, List.mem_singleton]

theorem nodup_insertItem {items : List (κ × α)} {item : κ × α} (h : (items.map Prod.fst).Nodup) :
    ((insertItem items item).map Prod.fst).Nodup := by
  rw [keys_insertItem]
  split
  next => exact h
  next hfresh =>
    rw [← List.concat_eq_append]
    exact h.concat hfresh

end

/-- `path.read_text()`: UTF-8, with `\r\n` and `\r` read as `\n`. -/
def universalNewlines : List Char → List Char
  | '\r' :: '\n' :: cs => '\n' :: universalNewlines cs
  | '\r' :: cs => '\n' :: universalNewlines cs
  | c :: cs => c :: universalNewlines cs
  | [] => []

def readText (content : Bytes) : Option String :=
  (fromUtf8 content).map fun s => String.ofList (universalNewlines s.toList)

theorem universalNewlines_of_notMem : ∀ {cs : List Char}, '\r' ∉ cs → universalNewlines cs = cs
  | [], _ => rfl
  | c :: cs, h => by
    obtain ⟨hc, hcs⟩ := not_or.mp (mt List.mem_cons.mpr h)
    rw [universalNewlines, universalNewlines_of_notMem hcs]
    · rintro _ rfl
      exact absurd rfl hc
    · rintro rfl
      exact absurd rfl hc

/-- Text without carriage returns reads as it was written. -/
theorem readText_utf8 {s : String} (h : '\r' ∉ s.toList) : readText (utf8 s) = some s := by
  rw [readText, fromUtf8_utf8, Option.map_some, universalNewlines_of_notMem h, String.ofList_toList]

end Py
