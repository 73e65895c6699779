import Mathlib.Data.List.Basic

/-! Edits of a list that find their place by content. Something that stands at one place only can be
    substituted everywhere at once, which is then an update of that place:

        [.., a, ..]  ──every a becomes b──▶  [.., b, ..]       = set i b

    and an element that is neither removed nor brought in by an edit stays where it was. -/

namespace LineEdit

variable {α : Type} {l : List α} {a b : α} {i j : ℕ}

/-- The element stands at the place and at no other. -/
def Only (l : List α) (a : α) (i : ℕ) : Prop := ∀ j, l[j]? = some a ↔ j = i

/-- Every occurrence of `a` becomes `b`. -/
def substitute [DecidableEq α] (a b : α) (l : List α) : List α := l.map fun x => if x = a then b else x

/-- Equally long, and the same at every place but the given ones. -/
def SameBut (places : List ℕ) (l l' : List α) : Prop :=
  l.length = l'.length ∧ ∀ i, i ∉ places → l[i]? = l'[i]?

theorem only_cons_self : Only (a :: l) a 0 ↔ a ∉ l := by
  constructor
  · intro h hmem
    obtain ⟨j, hj⟩ := List.mem_iff_getElem?.mp hmem
    have hzero : j + 1 = 0 := (h (j + 1)).mp hj
    omega
  · intro h j
    cases j with
    | zero => simp
    | succ j =>
      rw [List.getElem?_cons_succ]
      constructor
      · intro hj
        exact absurd (List.mem_of_getElem? hj) h
      · intro hj
        omega

theorem only_cons_of_ne {x : α} (hne : x ≠ a) :
    Only (x :: l) a i ↔ ∃ k, i = k + 1 ∧ Only l a k := by
  constructor
  · intro h
    cases i with
    | zero =>
      have hzero := (h 0).mpr rfl
      exact absurd (by simpa using hzero) hne
    | succ k =>
      refine ⟨k, rfl, ?_⟩
      intro j
      have hj := h (j + 1)
      rw [List.getElem?_cons_succ] at hj
      rw [hj]
      omega
  · rintro ⟨k, rfl, h⟩ j
    cases j with
    | zero => simp [hne]
    | succ j =>
      rw [List.getElem?_cons_succ, h j]
      omega

/-- Counting finds out whether there is only one. -/
theorem length_filter_eq_one [DecidableEq α] : (l.filter (· = a)).length = 1 ↔ ∃ i, Only l a i := by
  induction l with
  | nil => simp [Only]
  | cons x l ih =>
    by_cases hx : x = a
    · subst hx
      rw [List.filter_cons_of_pos (by simp), List.length_cons]
      constructor
      · intro h
        refine ⟨0, only_cons_self.mpr ?_⟩
        intro hmem
        have hpos : 0 < (l.filter (· = x)).length :=
          List.length_pos_of_mem (List.mem_filter.mpr ⟨hmem, by simp⟩)
        omega
      · rintro ⟨i, h⟩
        have hi : i = 0 := ((h 0).mp (by simp)).symm
        subst hi
        have hnone : l.filter (· = x) = [] := by
          rw [List.filter_eq_nil_iff]
          intro y hy
          rw [decide_eq_true_eq]
          rintro rfl
          exact only_cons_self.mp h hy
        rw [hnone]
        rfl
    · rw [List.filter_cons_of_neg (by simpa using hx), ih]
      simp only [only_cons_of_ne hx]
      constructor
      · rintro ⟨k, h⟩
        exact ⟨k + 1, k, rfl, h⟩
      · rintro ⟨_, k, _, h⟩
        exact ⟨k, h⟩

/-- Substituting what stands at one place only updates that place. -/
theorem substitute_eq_set [DecidableEq α] (h : Only l a i) (b : α) : substitute a b l = l.set i b := by
  refine List.ext_getElem? ?_
  intro j
  rw [substitute, List.getElem?_map, List.getElem?_set]
  by_cases hij : i = j
  · subst hij
    have hget : l[i]? = some a := (h i).mpr rfl
    obtain ⟨hlt, hget⟩ := List.getElem?_eq_some_iff.mp hget
    simp [hget, hlt]
  · rw [if_neg hij]
    cases hj : l[j]? with
    | none => rfl
    | some x =>
      have hx : x ≠ a := by
        rintro rfl
        exact hij ((h j).mp hj).symm
      simp [hx]

/-- An update elsewhere that brings in something else leaves the only place what it was. -/
theorem only_set (hb : b ≠ a) (hj : l[j]? ≠ some a) : Only (l.set j b) a i ↔ Only l a i := by
  have hget : ∀ k : ℕ, (l.set j b)[k]? = some a ↔ l[k]? = some a := by
    intro k
    rw [List.getElem?_set]
    by_cases hjk : j = k
    · subst hjk
      rw [if_pos rfl]
      constructor
      · intro h
        split at h
        · exact absurd (Option.some.inj h) hb
        · cases h
      · intro h
        exact absurd h hj
    · rw [if_neg hjk]
  simp only [Only, hget]

theorem sameBut_set (l : List α) (i : ℕ) (b : α) : SameBut [i] l (l.set i b) := by
  refine ⟨(List.length_set ..).symm, ?_⟩
  intro j hj
  rw [List.getElem?_set, if_neg]
  rintro rfl
  exact hj (List.mem_singleton.mpr rfl)

theorem SameBut.trans {places places' : List ℕ} {l l' l'' : List α} (h : SameBut places l l')
    (h' : SameBut places' l' l'') : SameBut (places ++ places') l l'' := by
  refine ⟨h.1.trans h'.1, ?_⟩
  intro i hi
  rw [List.mem_append, not_or] at hi
  rw [h.2 i hi.1, h'.2 i hi.2]

end LineEdit
