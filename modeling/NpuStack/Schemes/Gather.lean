import Mathlib.Data.List.Forall2
import Mathlib.Data.List.Pairwise
import Mathlib.Data.List.Perm.Basic

/-! A loop that reads every item on its own and refuses items that clash with earlier ones.

        state s, gathered ys ──item x──▶ y = read x, no z ∈ ys clashes ──▶ state s', gathered ys ++ [y]

    Such a loop succeeds exactly when every item reads and no two of them clash (`foldlM_ok`,
    `foldlM_total`), so whether it succeeds does not depend on the order of the items, and what it has
    gathered is the same up to order (`foldlM_perm`). Where items never clash the loop is a map, and
    the same holds of it (`mapM_some`, `mapM_perm`). -/

namespace Gather

variable {ε α β σ : Type}

/-- One step reads its item and refuses it exactly when it clashes; `I` ties the state to the items. -/
structure Steps (step : σ → α → Except ε σ) (read : α → Except ε β) (fits : β → β → Prop)
    (I : σ → List β → Prop) : Prop where
  ok : ∀ {s ys x s'}, I s ys → step s x = .ok s' →
    ∃ y, read x = .ok y ∧ (∀ z ∈ ys, fits z y) ∧ I s' (ys ++ [y])
  total : ∀ {s ys x y}, I s ys → read x = .ok y → (∀ z ∈ ys, fits z y) → ∃ s', step s x = .ok s'

variable {step : σ → α → Except ε σ} {read : α → Except ε β} {fits : β → β → Prop}
  {I : σ → List β → Prop}

/-- What a successful loop has gathered. -/
theorem foldlM_ok (h : Steps step read fits I) : ∀ {xs : List α} {s s' : σ} {ys : List β}, I s ys →
    ys.Pairwise fits → xs.foldlM step s = .ok s' →
      ∃ zs, List.Forall₂ (fun x z => read x = .ok z) xs zs ∧ (ys ++ zs).Pairwise fits ∧ I s' (ys ++ zs)
  | [], s, s', ys, hI, hys, hrun => by
    cases hrun
    exact ⟨[], .nil, by simpa using hys, by simpa using hI⟩
  | x :: xs, s, s', ys, hI, hys, hrun => by
    rw [List.foldlM_cons] at hrun
    cases hx : step s x with
    | error e =>
      rw [hx] at hrun
      cases hrun
    | ok s₁ =>
      rw [hx] at hrun
      obtain ⟨y, hread, hfits, hI₁⟩ := h.ok hI hx
      have hys₁ : (ys ++ [y]).Pairwise fits :=
        List.pairwise_append.mpr ⟨hys, List.pairwise_singleton _ _, by simpa using hfits⟩
      obtain ⟨zs, hzs, hpair, hI'⟩ := foldlM_ok h hI₁ hys₁ hrun
      rw [List.append_assoc, List.singleton_append] at hpair hI'
      exact ⟨y :: zs, .cons hread hzs, hpair, hI'⟩

/-- Items that read and do not clash are gathered. -/
theorem foldlM_total (h : Steps step read fits I) : ∀ {xs : List α} {s : σ} {ys zs : List β}, I s ys →
    List.Forall₂ (fun x z => read x = .ok z) xs zs → (ys ++ zs).Pairwise fits →
      ∃ s', xs.foldlM step s = .ok s' ∧ I s' (ys ++ zs)
  | [], s, ys, _, hI, .nil, _ => ⟨s, rfl, by simpa using hI⟩
  | x :: xs, s, ys, z :: zs, hI, .cons hread hzs, hpair => by
    have hfits : ∀ y ∈ ys, fits y z :=
      fun y hy => (List.pairwise_append.mp hpair).2.2 y hy z List.mem_cons_self
    obtain ⟨s₁, hx⟩ := h.total hI hread hfits
    obtain ⟨y, hread', -, hI₁⟩ := h.ok hI hx
    obtain rfl : z = y := Except.ok.inj (hread.symm.trans hread')
    obtain ⟨s', hrest, hI'⟩ := foldlM_total h hI₁ hzs (by simpa using hpair)
    refine ⟨s', ?_, by simpa using hI'⟩
    rw [List.foldlM_cons, hx]
    exact hrest

/-- Reading a list in another order gathers the same in that order. -/
theorem forall₂_perm {R : α → β → Prop} : ∀ {xs xs' : List α}, xs.Perm xs' → ∀ {zs : List β},
    List.Forall₂ R xs zs → ∃ zs', List.Forall₂ R xs' zs' ∧ zs.Perm zs'
  | _, _, .nil, zs, h => ⟨zs, h, .refl _⟩
  | _, _, .cons x hp, _, .cons hx h => by
    obtain ⟨zs', hzs', hperm⟩ := forall₂_perm hp h
    exact ⟨_ :: zs', .cons hx hzs', hperm.cons _⟩
  | _, _, .swap x y xs, _, .cons hy (.cons hx h) => ⟨_ :: _ :: _, .cons hx (.cons hy h), .swap _ _ _⟩
  | _, _, .trans hp hq, _, h => by
    obtain ⟨zs', hzs', hperm⟩ := forall₂_perm hp h
    obtain ⟨zs'', hzs'', hperm'⟩ := forall₂_perm hq hzs'
    exact ⟨zs'', hzs'', hperm.trans hperm'⟩

/-- A loop from an empty state succeeds on its items in any order, and gathers the same. -/
theorem foldlM_perm (h : Steps step read fits I) (hsymm : ∀ a b, fits a b → fits b a) {s s' : σ}
    (hI : I s []) {xs xs' : List α} (hperm : xs.Perm xs') (hrun : xs.foldlM step s = .ok s') :
    ∃ zs zs' t, xs'.foldlM step s = .ok t ∧ I s' zs ∧ I t zs' ∧ zs.Perm zs' := by
  obtain ⟨zs, hzs, hpair, hI'⟩ := foldlM_ok h hI .nil hrun
  obtain ⟨zs', hzs', hp⟩ := forall₂_perm hperm hzs
  rw [List.nil_append] at hpair hI'
  have hpair' : zs'.Pairwise fits := hpair.perm hp (fun hab => hsymm _ _ hab)
  obtain ⟨t, ht, hIt⟩ := foldlM_total h hI hzs' (by simpa using hpair')
  rw [List.nil_append] at hIt
  exact ⟨zs, zs', t, ht, hI', hIt, hp⟩

/-! ### Reading every item of a list -/

theorem mapM_cons_some {read : α → Option β} {x : α} {xs : List α} {ys : List β} :
    (x :: xs).mapM read = some ys ↔
      ∃ y rest, read x = some y ∧ xs.mapM read = some rest ∧ ys = y :: rest := by
  simp only [List.mapM_cons, Option.bind_eq_bind, Option.bind_eq_some_iff, Option.pure_def,
    Option.some.injEq]
  constructor
  · rintro ⟨y, hy, rest, hrest, rfl⟩
    exact ⟨y, rest, hy, hrest, rfl⟩
  · rintro ⟨y, rest, hy, hrest, rfl⟩
    exact ⟨y, hy, rest, hrest, rfl⟩

/-- A list reads exactly when every item does, and what is read stands in the same order. -/
theorem mapM_some {read : α → Option β} {xs : List α} : ∀ {ys : List β},
    xs.mapM read = some ys ↔ List.Forall₂ (fun x y => read x = some y) xs ys := by
  induction xs with
  | nil =>
    intro ys
    simp [eq_comm]
  | cons x xs ih =>
    intro ys
    rw [mapM_cons_some]
    constructor
    · rintro ⟨y, rest, hy, hrest, rfl⟩
      exact .cons hy (ih.mp hrest)
    · intro h
      cases h with
      | cons hy hrest => exact ⟨_, _, hy, ih.mpr hrest, rfl⟩

theorem mapM_none {read : α → Option β} {xs : List α} :
    xs.mapM read = none ↔ ∃ x ∈ xs, read x = none := by
  induction xs with
  | nil => simp
  | cons x xs ih =>
    simp only [List.mapM_cons, Option.bind_eq_bind, Option.bind_eq_none_iff, Option.pure_def,
      List.exists_mem_cons_iff, ← ih]
    cases hx : read x with
    | none => simp
    | some y => cases hxs : xs.mapM read <;> simp

theorem mem_mapM {read : α → Option β} {y : β} {xs : List α} : ∀ {ys : List β},
    xs.mapM read = some ys → (y ∈ ys ↔ ∃ x ∈ xs, read x = some y) := by
  induction xs with
  | nil =>
    intro ys h
    cases h
    simp
  | cons x xs ih =>
    intro ys h
    obtain ⟨z, rest, hz, hrest, rfl⟩ := mapM_cons_some.mp h
    rw [List.mem_cons, ih hrest, List.exists_mem_cons_iff, hz, Option.some.injEq, eq_comm]

end Gather
