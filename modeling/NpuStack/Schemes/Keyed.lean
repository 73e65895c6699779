import Mathlib.Data.List.Nodup
import Mathlib.Data.List.Perm.Basic
import Mathlib.Data.List.Forall2

/-! A table of entries with distinct keys, consumed one key at a time. Walking a list of rows and
    removing each row's entry from the table succeeds with an empty table exactly when the rows and
    the entries correspond one to one, whatever the order of either:

        table  [k₁ ↦ v₁, k₂ ↦ v₂, …]  ──row kᵢ──▶  entry vᵢ, table without kᵢ

    The facts are about lists up to permutation, so the table's own order never matters. -/

namespace Keyed

variable {κ β γ : Type} [DecidableEq κ]

def keys (m : List (κ × β)) : List κ := m.map Prod.fst

def find (k : κ) (m : List (κ × β)) : Option β := (m.find? fun e => e.1 = k).map Prod.snd

def erase (k : κ) (m : List (κ × β)) : List (κ × β) := m.filter fun e => e.1 ≠ k

/-- Insert an entry, replacing one under the same key. -/
def insert (k : κ) (v : β) (m : List (κ × β)) : List (κ × β) := (k, v) :: erase k m

theorem erase_of_fresh {k : κ} {m : List (κ × β)} (h : k ∉ keys m) : erase k m = m := by
  refine List.filter_eq_self.mpr fun e he => ?_
  simp only [decide_eq_true_eq]
  rintro rfl
  exact h (List.mem_map_of_mem he)

theorem insert_of_fresh {k : κ} {v : β} {m : List (κ × β)} (h : k ∉ keys m) :
    insert k v m = (k, v) :: m := by
  rw [insert, erase_of_fresh h]

theorem mem_of_find {k : κ} {v : β} {m : List (κ × β)} (h : find k m = some v) : (k, v) ∈ m := by
  simp only [find, Option.map_eq_some_iff] at h
  obtain ⟨⟨k', v'⟩, he, rfl⟩ := h
  obtain rfl : k' = k := by simpa using List.find?_some he
  exact List.mem_of_find?_eq_some he

/-- Taking a key out of a table leaves the other entries. -/
theorem perm_of_find : ∀ {m : List (κ × β)} {k : κ} {v : β}, (keys m).Nodup → find k m = some v →
    m.Perm ((k, v) :: erase k m)
  | [], _, _, _, h => by simp [find] at h
  | (k', v') :: m, k, v, hnd, h => by
    obtain ⟨hfresh, hnd⟩ := List.nodup_cons.mp hnd
    by_cases hk : k' = k
    · subst hk
      obtain rfl : v' = v := by simpa [find] using h
      have : erase k' ((k', v') :: m) = m := by
        rw [erase, List.filter_cons_of_neg (by simp)]
        exact erase_of_fresh hfresh
      rw [this]
    · have hfind : find k m = some v := by simpa [find, hk] using h
      have herase : erase k ((k', v') :: m) = (k', v') :: erase k m := by
        rw [erase, List.filter_cons_of_pos (by simpa using hk)]
        rfl
      rw [herase]
      exact ((perm_of_find hnd hfind).cons _).trans (.swap ..)

theorem keys_erase_nodup {m : List (κ × β)} (k : κ) (h : (keys m).Nodup) : (keys (erase k m)).Nodup :=
  h.sublist (List.filter_sublist.map _)

/-- A table that holds an entry finds it, and keeps the others. -/
theorem find_of_perm {m rest : List (κ × β)} {k : κ} {v : β} (hnd : (keys m).Nodup)
    (h : m.Perm ((k, v) :: rest)) : find k m = some v ∧ (erase k m).Perm rest := by
  have hmem : (k, v) ∈ m := h.mem_iff.mpr List.mem_cons_self
  have hfind : find k m = some v := by
    cases hf : find k m with
    | none =>
      simp only [find, Option.map_eq_none_iff, List.find?_eq_none] at hf
      exact absurd (decide_eq_true rfl) (hf _ hmem)
    | some w =>
      have := List.inj_on_of_nodup_map hnd (mem_of_find hf) hmem rfl
      rw [(Prod.mk.inj this).2]
  exact ⟨hfind, ((perm_of_find hnd hfind).symm.trans h).cons_inv⟩

/-- What a correspondence says of every element of its second list. -/
theorem forall_mem_right {R : β → γ → Prop} {P : γ → Prop} (hP : ∀ b c, R b c → P c) :
    ∀ {l : List β} {m : List γ}, List.Forall₂ R l m → ∀ c ∈ m, P c
  | _, _, .nil => by simp
  | _, _, .cons hbc h => List.forall_mem_cons.mpr ⟨hP _ _ hbc, forall_mem_right hP h⟩

/-- Every element of the second list corresponds to one of the first. -/
theorem exists_of_mem_right {R : β → γ → Prop} : ∀ {l : List β} {m : List γ}, List.Forall₂ R l m →
    ∀ c ∈ m, ∃ b ∈ l, R b c
  | _, _, .nil => by simp
  | _, _, .cons hbc h => by
    intro c hc
    rcases List.mem_cons.mp hc with rfl | hc
    · exact ⟨_, List.mem_cons_self, hbc⟩
    · obtain ⟨b, hb, hrel⟩ := exists_of_mem_right h c hc
      exact ⟨b, List.mem_cons_of_mem _ hb, hrel⟩

/-- Every element of the first list corresponds to one of the second. -/
theorem exists_of_mem_left {R : β → γ → Prop} : ∀ {l : List β} {m : List γ}, List.Forall₂ R l m →
    ∀ b ∈ l, ∃ c ∈ m, R b c
  | _, _, .nil => by simp
  | _, _, .cons hbc h => by
    intro b hb
    rcases List.mem_cons.mp hb with rfl | hb
    · exact ⟨_, List.mem_cons_self, hbc⟩
    · obtain ⟨c, hc, hrel⟩ := exists_of_mem_left h b hb
      exact ⟨c, List.mem_cons_of_mem _ hc, hrel⟩

/-- Corresponding elements of equal images have equal lists of images. -/
theorem map_eq_of_forall₂ {α : Type} {f : β → α} {g : γ → α} : ∀ {l : List β} {m : List γ},
    List.Forall₂ (fun b c => f b = g c) l m → l.map f = m.map g
  | _, _, .nil => rfl
  | _, _, .cons hbc h => by rw [List.map_cons, List.map_cons, hbc, map_eq_of_forall₂ h]

/-- Where every element corresponds to something, the lists do. -/
theorem exists_forall₂ {R : β → γ → Prop} : ∀ {l : List β}, (∀ b ∈ l, ∃ c, R b c) →
    ∃ m, List.Forall₂ R l m
  | [], _ => ⟨[], .nil⟩
  | b :: l, h => by
    obtain ⟨hb, hl⟩ := List.forall_mem_cons.mp h
    obtain ⟨c, hc⟩ := hb
    obtain ⟨m, hm⟩ := exists_forall₂ hl
    exact ⟨c :: m, .cons hc hm⟩

/-! ### Looking up in an association list -/

section
variable {κ β : Type} [BEq κ] [LawfulBEq κ]

theorem mem_of_lookup {key : κ} {value : β} : ∀ {items : List (κ × β)},
    items.lookup key = some value → (key, value) ∈ items
  | [], h => by cases h
  | (k, v) :: items, h => by
    rw [List.lookup_cons] at h
    split at h
    next heq =>
      rw [beq_iff_eq] at heq
      cases h
      rw [heq]
      exact List.mem_cons_self
    next => exact List.mem_cons_of_mem _ (mem_of_lookup h)

theorem lookup_isSome {items : List (κ × β)} {item : κ × β} (h : item ∈ items) :
    (items.lookup item.1).isSome = true := by
  rw [Option.isSome_iff_ne_none, Ne, List.lookup_eq_none_iff]
  exact fun hall => absurd (hall item h) (by simp)

/-- Where keys are distinct every item is found under its key. -/
theorem lookup_of_mem {key : κ} {value : β} : ∀ {items : List (κ × β)}, (items.map Prod.fst).Nodup →
    (key, value) ∈ items → items.lookup key = some value
  | [], _, h => by cases h
  | (k, v) :: items, hnodup, h => by
    obtain ⟨hfresh, hnodup⟩ := List.nodup_cons.mp hnodup
    rw [List.lookup_cons]
    rcases List.mem_cons.mp h with heq | hmem
    · obtain ⟨rfl, rfl⟩ := Prod.mk.inj heq
      simp
    · have hne : (key == k) = false := by
        rw [beq_eq_false_iff_ne]
        rintro rfl
        exact hfresh (List.mem_map.mpr ⟨_, hmem, rfl⟩)
      rw [hne]
      exact lookup_of_mem hnodup hmem

end

end Keyed
