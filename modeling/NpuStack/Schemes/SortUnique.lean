import Mathlib.Data.List.Sort
import NpuStack.Schemes.OrderedMap

/-! Sorting and dropping adjacent duplicates. For an order that a key decides, and a key that tells
    elements apart, the result is strictly increasing and depends only on which elements occur.

        [b, a, b]  ──sort──▶  [a, b, b]  ──unique──▶  [a, b] -/

namespace SortUnique

variable {α κ : Type} [DecidableEq α] [LinearOrder κ]

/-- Keep one of each run of equal elements. -/
def unique : List α → List α
  | a :: b :: rest => if a = b then unique (b :: rest) else a :: unique (b :: rest)
  | rest => rest

def sortUnique (less : α → α → Bool) (l : List α) : List α :=
  unique (l.mergeSort fun a b => !less b a)

theorem mem_unique {x : α} : ∀ {l : List α}, x ∈ unique l ↔ x ∈ l
  | [] => Iff.rfl
  | [_] => Iff.rfl
  | a :: b :: rest => by
    rw [unique]
    split
    · next heq =>
      subst heq
      rw [mem_unique]
      simp
    · have hrest := mem_unique (x := x) (l := b :: rest)
      simp only [List.mem_cons, hrest]

variable {key : α → κ}

/-- A sorted list becomes strictly sorted. -/
theorem pairwise_unique (hkey : Function.Injective key) : ∀ {l : List α},
    l.Pairwise (fun a b => key a ≤ key b) → (unique l).Pairwise fun a b => key a < key b
  | [], _ => .nil
  | [_], _ => List.pairwise_singleton _ _
  | a :: b :: rest, h => by
    obtain ⟨ha, hrest⟩ := List.pairwise_cons.mp h
    rw [unique]
    split
    · exact pairwise_unique hkey hrest
    · next hne =>
      refine List.pairwise_cons.mpr ⟨fun c hc => ?_, pairwise_unique hkey hrest⟩
      have hab : key a < key b := lt_of_le_of_ne (ha b (by simp)) fun heq => hne (hkey heq)
      rcases List.mem_cons.mp (mem_unique.mp hc) with rfl | hc
      · exact hab
      · exact hab.trans_le ((List.pairwise_cons.mp hrest).1 c hc)

variable {less : α → α → Bool}

theorem mem_sortUnique {x : α} {l : List α} : x ∈ sortUnique less l ↔ x ∈ l := by
  rw [sortUnique, mem_unique, List.mem_mergeSort]

theorem pairwise_sortUnique (hkey : Function.Injective key)
    (hless : ∀ a b, less a b = true ↔ key a < key b) (l : List α) :
    (sortUnique less l).Pairwise fun a b => key a < key b := by
  have hle : ∀ a b, (!less b a) = true ↔ key a ≤ key b := fun a b => by
    rw [Bool.not_eq_true', ← Bool.not_eq_true, hless, not_lt]
  refine pairwise_unique hkey ?_
  refine (List.pairwise_mergeSort ?_ ?_ l).imp fun h => (hle _ _).mp h
  · intro a b c hab hbc
    exact (hle a c).mpr (((hle a b).mp hab).trans ((hle b c).mp hbc))
  · intro a b
    rw [Bool.or_eq_true, hle, hle]
    exact le_total _ _

/-- The result depends only on which elements occur. -/
theorem sortUnique_congr (hkey : Function.Injective key)
    (hless : ∀ a b, less a b = true ↔ key a < key b) {l l' : List α}
    (hmem : ∀ x, x ∈ l ↔ x ∈ l') : sortUnique less l = sortUnique less l' := by
  have hl := List.pairwise_map.mpr (pairwise_sortUnique hkey hless l)
  have hl' := List.pairwise_map.mpr (pairwise_sortUnique hkey hless l')
  refine List.map_injective_iff.mpr hkey (OrderedMap.eq_of_mem_iff hl hl' fun k => ?_)
  simp only [List.mem_map, mem_sortUnique, hmem]

theorem length_unique_le : ∀ l : List α, (unique l).length ≤ l.length
  | [] => Nat.le_refl _
  | [_] => Nat.le_refl _
  | a :: b :: rest => by
    rw [unique]
    have := length_unique_le (b :: rest)
    split
    · exact this.trans (Nat.le_succ _)
    · exact Nat.succ_le_succ this

end SortUnique
