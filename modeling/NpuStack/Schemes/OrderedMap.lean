import Mathlib.Data.String.Basic
import Mathlib.Data.List.Pairwise
import Mathlib.Data.List.Sort

/-! A map from strings kept in increasing key order (`BTreeMap<String, β>`): the list of its entries
    with the order as a field, so that no key occurs twice and iteration order is determined by the
    contents. Two strictly increasing lists with the same members are equal (`eq_of_mem_iff`). -/

/-- Entries in strictly increasing key order. -/
structure OrderedMap (β : Type) where
  entries : List (String × β)
  increasing : entries.Pairwise fun a b => a.1 < b.1

namespace OrderedMap

variable {β : Type}

def keys (m : OrderedMap β) : List String := m.entries.map Prod.fst

def values (m : OrderedMap β) : List β := m.entries.map Prod.snd

instance [DecidableEq β] : DecidableEq (OrderedMap β) := fun a b =>
  decidable_of_iff (a.entries = b.entries)
    ⟨fun h => by cases a; cases b; cases h; rfl, fun h => h ▸ rfl⟩

theorem keys_increasing (m : OrderedMap β) : m.keys.Pairwise (· < ·) :=
  List.pairwise_map.mpr m.increasing

/-- A strictly increasing list is determined by its members. -/
theorem eq_of_mem_iff {α : Type} [LinearOrder α] {l l' : List α} (hl : l.Pairwise (· < ·))
    (hl' : l'.Pairwise (· < ·)) (hmem : ∀ a, a ∈ l ↔ a ∈ l') : l = l' := by
  have hnd : l.Nodup := hl.imp fun h => h.ne
  have hnd' : l'.Nodup := hl'.imp fun h => h.ne
  have hperm : l.Perm l' := (List.perm_ext_iff_of_nodup hnd hnd').mpr hmem
  exact hperm.eq_of_pairwise (fun a b _ _ hab hba => absurd (hab.trans hba) (lt_irrefl a)) hl hl'

/-- Two entries of one map under the same key are the same entry. -/
theorem eq_of_key_eq (m : OrderedMap β) {a b : String × β} (ha : a ∈ m.entries)
    (hb : b ∈ m.entries) (hk : a.1 = b.1) : a = b :=
  List.inj_on_of_nodup_map (m.keys_increasing.imp fun h => h.ne) ha hb hk

end OrderedMap
