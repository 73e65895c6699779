import Mathlib.Data.List.Infix
import NpuStack.Schemes.Interaction

/-! Items put one after the other into an empty directory, missing parents made on the way.

        {} ──item──▶ parents of its path, then a file or a directory ──item──▶ …

    Putting fails where a file stands in the way, a directory is to be a file, or the file system takes
    no entry at a path; what was put before stays behind. Items with distinct paths are all put exactly
    when no file's path is above another item's and every path is taken (`unpack_iff`), whatever their
    order, and then the directory holds them and their parents only (`unpack_holds`). -/

namespace Unpack
open Interaction

variable {ν α : Type}

inductive Entry (α : Type) where
  | directory
  | file (content : α)
  deriving DecidableEq, Repr

/-- A directory by the paths below it; its own path is `[]`. -/
abbrev Tree (ν α : Type) := List ν → Option (Entry α)

/-- What is to be put at a path: a file with its content, or a directory. -/
structure Item (ν α : Type) where
  path : List ν
  content : Option α
  deriving DecidableEq, Repr

def Item.entry (item : Item ν α) : Entry α :=
  match item.content with
  | none => .directory
  | some content => .file content

def empty : Tree ν α
  | [] => some .directory
  | _ => none

variable [DecidableEq ν]

def set (tree : Tree ν α) (path : List ν) (entry : Entry α) : Tree ν α :=
  fun p => if p = path then some entry else tree p

@[simp] theorem set_same (tree : Tree ν α) (path : List ν) (entry : Entry α) :
    set tree path entry path = some entry := if_pos rfl

theorem set_other (tree : Tree ν α) {path p : List ν} (entry : Entry α) (h : p ≠ path) :
    set tree path entry p = tree p := if_neg h

section
variable (fits : List ν → Bool)

/-- Make the missing directories `above ++ names`; a failure leaves those made before it. -/
def makedirs : Tree ν α → List ν → List ν → Except (Tree ν α) (Tree ν α)
  | tree, _, [] => .ok tree
  | tree, above, name :: names =>
    let path := above ++ [name]
    match tree path with
    | some .directory => makedirs tree path names
    | some (.file _) => .error tree
    | none => if fits path then makedirs (set tree path .directory) path names else .error tree

/-- Make a directory where there is none, or write a file where there is none or another file. -/
def place (tree : Tree ν α) (item : Item ν α) : Except (Tree ν α) (Tree ν α) :=
  match item.content, tree item.path with
  | none, some .directory => .ok tree
  | some _, some (.file _) => .ok (set tree item.path item.entry)
  | _, none => if fits item.path then .ok (set tree item.path item.entry) else .error tree
  | _, _ => .error tree

/-- Put one item where it belongs. -/
def put (tree : Tree ν α) (item : Item ν α) : Except (Tree ν α) (Tree ν α) := do
  let tree ← makedirs fits tree [] item.path.dropLast
  place fits tree item

end

/-- A place where a directory is, or can be made. -/
def Free (fits : List ν → Bool) (tree : Tree ν α) (path : List ν) : Prop :=
  tree path = some .directory ∨ (tree path = none ∧ fits path = true)

/-- The paths of the directories that are made. -/
def Between (above names path : List ν) : Prop := above <+: path ∧ path ≠ above ∧ path <+: above ++ names

variable {fits : List ν → Bool} {tree tree' : Tree ν α} {item : Item ν α} {items before : List (Item ν α)}

omit [DecidableEq ν] in
theorem between_cons {above names path : List ν} {name : ν} :
    Between above (name :: names) path ↔ path = above ++ [name] ∨ Between (above ++ [name]) names path := by
  constructor
  · rintro ⟨⟨rest, rfl⟩, hne, hle⟩
    rw [List.prefix_append_right_inj] at hle
    cases rest with
    | nil => exact absurd (List.append_nil _) hne
    | cons first rest =>
      obtain ⟨rfl, hrest⟩ := List.cons_prefix_cons.mp hle
      cases rest with
      | nil => exact .inl rfl
      | cons second rest =>
        refine .inr ⟨⟨second :: rest, by simp⟩, by simp, ?_⟩
        rw [List.append_cons, List.prefix_append_right_inj]
        exact hrest
  · rintro (rfl | ⟨hle, hne, hpath⟩)
    · exact ⟨List.prefix_append _ _, by simp, by simp⟩
    · refine ⟨(List.prefix_append _ _).trans hle, ?_, ?_⟩
      · rintro rfl
        have hlength := hle.length_le
        rw [List.length_append, List.length_singleton] at hlength
        omega
      · simpa using hpath

omit [DecidableEq ν] in
theorem not_between_nil {above path : List ν} : ¬ Between above [] path := by
  rintro ⟨hle, hne, hpath⟩
  rw [List.append_nil] at hpath
  exact hne (hpath.eq_of_length_le hle.length_le)

omit [DecidableEq ν] in
theorem not_between_self {above names : List ν} : ¬ Between above names above := fun h => h.2.1 rfl

/-- Directories are made where all of them are free, and nothing else changes. -/
theorem makedirs_ok {above names : List ν} : makedirs fits tree above names = .ok tree' ↔
    (∀ p, Between above names p → Free fits tree p) ∧
      ∀ p, (Between above names p → tree' p = some .directory) ∧
        (¬ Between above names p → tree' p = tree p) := by
  induction names generalizing above tree with
  | nil =>
    simp only [makedirs, not_between_nil, false_implies, implies_true, not_false_eq_true, true_implies,
      true_and, Except.ok.injEq]
    exact ⟨fun h p => h ▸ rfl, fun h => (funext h).symm⟩
  | cons name names ih =>
    simp only [between_cons]
    rw [makedirs]
    cases hpath : tree (above ++ [name]) with
    | none =>
      by_cases hfits : fits (above ++ [name]) = true
      · simp only [hfits, if_true, ih]
        constructor
        · rintro ⟨hfree, hrest⟩
          refine ⟨?_, fun p => ⟨?_, fun hp => ?_⟩⟩
          · rintro p (rfl | hp)
            · exact .inr ⟨hpath, hfits⟩
            · have hp' := hfree p hp
              rwa [Free, set_other _ _ hp.2.1] at hp'
          · rintro (rfl | hp)
            · exact ((hrest _).2 not_between_self).trans (set_same _ _ _)
            · exact (hrest p).1 hp
          · rw [not_or] at hp
            exact ((hrest p).2 hp.2).trans (set_other _ _ hp.1)
        · rintro ⟨hfree, hrest⟩
          refine ⟨fun p hp => ?_, fun p => ⟨fun hp => (hrest p).1 (.inr hp), fun hp => ?_⟩⟩
          · rw [Free, set_other _ _ hp.2.1]
            exact hfree p (.inr hp)
          · by_cases heq : p = above ++ [name]
            · rw [heq, set_same]
              exact (hrest _).1 (.inl rfl)
            · rw [set_other _ _ heq]
              exact (hrest p).2 (not_or.mpr ⟨heq, hp⟩)
      · simp only [hfits]
        refine iff_of_false (by simp) fun h => ?_
        rcases h.1 _ (.inl rfl) with hdir | ⟨-, hfits'⟩
        · rw [hpath] at hdir
          cases hdir
        · exact hfits hfits'
    | some entry =>
      cases entry with
      | directory =>
        simp only [ih]
        constructor
        · rintro ⟨hfree, hrest⟩
          refine ⟨?_, fun p => ⟨?_, fun hp => (hrest p).2 (not_or.mp hp).2⟩⟩
          · rintro p (rfl | hp)
            · exact .inl hpath
            · exact hfree p hp
          · rintro (rfl | hp)
            · exact ((hrest _).2 not_between_self).trans hpath
            · exact (hrest p).1 hp
        · rintro ⟨hfree, hrest⟩
          refine ⟨fun p hp => hfree p (.inr hp), fun p => ⟨fun hp => (hrest p).1 (.inr hp), fun hp => ?_⟩⟩
          by_cases heq : p = above ++ [name]
          · rw [heq, hpath]
            exact (hrest _).1 (.inl rfl)
          · exact (hrest p).2 (not_or.mpr ⟨heq, hp⟩)
      | file content =>
        refine iff_of_false (by simp) fun h => ?_
        rcases h.1 _ (.inl rfl) with hdir | ⟨hnone, -⟩
        · rw [hpath] at hdir
          cases hdir
        · rw [hpath] at hnone
          cases hnone

/-! ### One item -/

/-- A path of a directory above an item, below the whole. -/
def Above (path below : List ν) : Prop := path ≠ [] ∧ path <+: below ∧ path ≠ below

omit [DecidableEq ν] in
theorem between_dropLast {path p : List ν} (hne : path ≠ []) : Between [] path.dropLast p ↔ Above p path := by
  have hsplit : path.dropLast ++ [path.getLast hne] = path := List.dropLast_append_getLast hne
  simp only [Between, Above, List.nil_prefix, true_and, List.nil_append]
  refine and_congr_right fun _ => ?_
  constructor
  · intro hle
    refine ⟨hle.trans (List.dropLast_prefix path), ?_⟩
    rintro rfl
    have hlength := hle.length_le
    have hpos := List.length_pos_iff.mpr hne
    rw [List.length_dropLast] at hlength
    omega
  · rintro ⟨hle, hpath⟩
    rw [← hsplit, List.prefix_concat_iff] at hle
    exact hle.resolve_left fun heq => hpath (heq.trans hsplit)

/-- An item can be put where nothing of another kind is. -/
def Takes (fits : List ν → Bool) (tree : Tree ν α) (item : Item ν α) : Prop :=
  match item.content with
  | none => Free fits tree item.path
  | some _ => (∃ content, tree item.path = some (.file content)) ∨
      (tree item.path = none ∧ fits item.path = true)

theorem place_ok : place fits tree item = .ok tree' ↔
    Takes fits tree item ∧ tree' = set tree item.path item.entry := by
  rw [place, Takes, Item.entry]
  cases hcontent : item.content with
  | none =>
    cases hpath : tree item.path with
    | none =>
      by_cases hfits : fits item.path = true
      · simp only [Free, hpath, hfits, if_true, Except.ok.injEq, reduceCtorEq, true_and, false_or]
        exact eq_comm
      · simp [Free, hpath, hfits]
    | some entry =>
      cases entry with
      | directory =>
        have hset : set tree item.path .directory = tree := by
          funext p
          rw [set]
          split
          next heq => rw [heq, hpath]
          next => rfl
        simp only [Free, hpath, hset, Except.ok.injEq, true_or, true_and]
        exact eq_comm
      | file content => simp [Free, hpath]
  | some content =>
    cases hpath : tree item.path with
    | none =>
      by_cases hfits : fits item.path = true
      · simp only [hfits, if_true, Except.ok.injEq, reduceCtorEq, exists_false, true_and, false_or]
        exact eq_comm
      · simp [hfits]
    | some entry =>
      cases entry with
      | directory => simp
      | file content =>
        simp only [Except.ok.injEq, Option.some.injEq, Entry.file.injEq, exists_eq', true_or, true_and]
        exact eq_comm

/-- An item is put with the directories above it, and nothing else changes. -/
theorem put_ok (hne : item.path ≠ []) : put fits tree item = .ok tree' ↔
    (∀ p, Above p item.path → Free fits tree p) ∧ Takes fits tree item ∧
      tree' item.path = some item.entry ∧ (∀ p, Above p item.path → tree' p = some .directory) ∧
      ∀ p, p ≠ item.path → ¬ Above p item.path → tree' p = tree p := by
  have hself : ¬ Above item.path item.path := fun h => h.2.2 rfl
  have htakes : ∀ {made : Tree ν α}, made item.path = tree item.path →
      (Takes fits made item ↔ Takes fits tree item) := by
    intro made hmade
    rw [Takes, Takes]
    cases item.content with
    | none => simp only [Free, hmade]
    | some content => simp only [hmade]
  rw [put, except_bind_ok]
  constructor
  · rintro ⟨made, hmade, hplace⟩
    obtain ⟨hfree, hrest⟩ := makedirs_ok.mp hmade
    simp only [between_dropLast hne] at hfree hrest
    obtain ⟨hplaced, rfl⟩ := place_ok.mp hplace
    refine ⟨hfree, (htakes ((hrest _).2 hself)).mp hplaced, set_same _ _ _, fun p hp => ?_,
      fun p hp hnot => ?_⟩
    · rw [set_other _ _ hp.2.2]
      exact (hrest p).1 hp
    · rw [set_other _ _ hp]
      exact (hrest p).2 hnot
  · rintro ⟨hfree, hplaced, hitem, habove, hrest⟩
    refine ⟨fun p => if p = item.path then tree p else tree' p, makedirs_ok.mpr ?_, place_ok.mpr ⟨?_, ?_⟩⟩
    · simp only [between_dropLast hne]
      refine ⟨hfree, fun p => ⟨fun hp => ?_, fun hp => ?_⟩⟩
      · rw [if_neg hp.2.2]
        exact habove p hp
      · split
        next => rfl
        next heq => exact hrest p heq hp
    · exact (htakes (if_pos rfl)).mpr hplaced
    · funext p
      rw [set]
      split
      next heq => rw [heq, hitem]
      next => rfl

/-! ### All items -/

/-- The file system takes the item and the directories above it. -/
def Fits (fits : List ν → Bool) (item : Item ν α) : Prop := ∀ p, p ≠ [] → p <+: item.path → fits p = true

/-- Neither item is a file at or above the path of the other. -/
def Apart (a b : Item ν α) : Prop :=
  (a.content.isSome = true → ¬ a.path <+: b.path) ∧ (b.content.isSome = true → ¬ b.path <+: a.path)

omit [DecidableEq ν] in
theorem Apart.symm {a b : Item ν α} (h : Apart a b) : Apart b a := ⟨h.2, h.1⟩

omit [DecidableEq ν] in
/-- Items with distinct paths are apart when no file's path is above another path. -/
theorem pairwise_apart_iff (hdistinct : (items.map Item.path).Nodup) : items.Pairwise Apart ↔
    ∀ a ∈ items, ∀ b ∈ items, a.content.isSome = true → a.path <+: b.path → a.path = b.path := by
  have hne : items.Pairwise fun a b => a.path ≠ b.path := List.pairwise_map.mp hdistinct
  constructor
  · intro hpair a ha b hb hfile hle
    by_contra hpath
    have hleft : items.Pairwise fun a b => a.path ≠ b.path → Apart a b := by
      refine hpair.imp ?_
      intro a b h _
      exact h
    have hright : items.Pairwise (flip fun a b => a.path ≠ b.path → Apart a b) := by
      refine hpair.imp ?_
      intro a b h _
      exact h.symm
    have hall := List.Pairwise.forall_of_forall_of_flip (fun a _ h => absurd rfl h) hleft hright
    exact (hall ha hb hpath).1 hfile hle
  · intro h
    refine (List.pairwise_iff_forall_sublist.mpr fun {a b} hsub => ?_)
    have ha : a ∈ items := hsub.subset (by simp)
    have hb : b ∈ items := hsub.subset (by simp)
    have hpath : a.path ≠ b.path := List.pairwise_iff_forall_sublist.mp hne hsub
    exact ⟨fun hfile hle => hpath (h a ha b hb hfile hle),
      fun hfile hle => hpath (h b hb a ha hfile hle).symm⟩

/-- The items and the directories above them are in the tree, and nothing else. -/
structure Holds (tree : Tree ν α) (items : List (Item ν α)) : Prop where
  root : tree [] = some .directory
  member : ∀ item ∈ items, tree item.path = some item.entry
  parent : ∀ item ∈ items, ∀ p, Above p item.path → tree p = some .directory
  only : ∀ p, tree p ≠ none → p = [] ∨ ∃ item ∈ items, p <+: item.path

omit [DecidableEq ν] in
theorem holds_empty : Holds (empty : Tree ν α) [] where
  root := rfl
  member := nofun
  parent := nofun
  only p hp := by
    cases p with
    | nil => exact .inl rfl
    | cons name p => exact absurd rfl hp

omit [DecidableEq ν] in
theorem entry_of_isSome (h : item.content.isSome = true) : ∃ content, item.entry = .file content := by
  obtain ⟨content, hcontent⟩ := Option.isSome_iff_exists.mp h
  exact ⟨content, by rw [Item.entry, hcontent]⟩

omit [DecidableEq ν] in
theorem entry_of_not_isSome (h : ¬ item.content.isSome = true) : item.entry = .directory := by
  cases hcontent : item.content with
  | none => rw [Item.entry, hcontent]
  | some content =>
    rw [hcontent] at h
    exact absurd rfl h

/-- A file in the tree is one of the items. -/
theorem Holds.file (h : Holds tree before) {p : List ν} {content : α} (hp : tree p = some (.file content)) :
    ∃ z ∈ before, z.path = p ∧ z.content.isSome = true := by
  have hne : p ≠ [] := by
    rintro rfl
    rw [h.root] at hp
    cases hp
  obtain ⟨z, hz, hle⟩ := (h.only p (by simp [hp])).resolve_left hne
  by_cases heq : p = z.path
  · refine ⟨z, hz, heq.symm, ?_⟩
    by_contra hkind
    rw [heq, h.member z hz, entry_of_not_isSome hkind] at hp
    cases hp
  · rw [h.parent z hz p ⟨hne, hle, heq⟩] at hp
    cases hp

/-- What stands where an item goes, or above it, is a directory, a file put before, or nothing. -/
theorem Holds.cases (h : Holds tree before) (p : List ν) : tree p = some .directory ∨ tree p = none ∨
    ∃ z ∈ before, z.path = p ∧ z.content.isSome = true := by
  cases hp : tree p with
  | none => exact .inr (.inl rfl)
  | some entry =>
    cases entry with
    | directory => exact .inl rfl
    | file content => exact .inr (.inr (h.file hp))

/-- An item that is apart from those put before can be put. -/
theorem put_total (h : Holds tree before) (hne : item.path ≠ []) (hnew : ∀ z ∈ before, z.path ≠ item.path)
    (hfits : Fits fits item) (hapart : ∀ z ∈ before, Apart z item) :
    ∃ tree', put fits tree item = .ok tree' := by
  have hfree : ∀ p, Above p item.path → Free fits tree p := by
    intro p hp
    rcases h.cases p with hdir | hnone | ⟨z, hz, rfl, hfile⟩
    · exact .inl hdir
    · exact .inr ⟨hnone, hfits p hp.1 hp.2.1⟩
    · exact absurd hp.2.1 ((hapart z hz).1 hfile)
  have hplaced : Takes fits tree item := by
    rw [Takes]
    cases hcontent : item.content with
    | none =>
      rcases h.cases item.path with hdir | hnone | ⟨z, hz, heq, -⟩
      · exact .inl hdir
      · exact .inr ⟨hnone, hfits _ hne List.prefix_rfl⟩
      · exact absurd heq (hnew z hz)
    | some content =>
      rcases h.cases item.path with hdir | hnone | ⟨z, hz, heq, -⟩
      · obtain ⟨z, hz, hle⟩ := (h.only item.path (by simp [hdir])).resolve_left hne
        exact absurd hle ((hapart z hz).2 (by simp [hcontent]))
      · exact .inr ⟨hnone, hfits _ hne List.prefix_rfl⟩
      · exact absurd heq (hnew z hz)
  have hput : put fits tree item = .ok fun p => if p = item.path then some item.entry
      else if p ≠ [] ∧ p <+: item.path then some .directory else tree p := by
    refine (put_ok hne).mpr ⟨hfree, hplaced, if_pos rfl, fun p hp => ?_, fun p hp hnot => ?_⟩
    · rw [if_neg hp.2.2, if_pos ⟨hp.1, hp.2.1⟩]
    · rw [if_neg hp, if_neg fun hle => hnot ⟨hle.1, hle.2, hp⟩]
  exact ⟨_, hput⟩

/-- An item that is put is apart from those put before, and the tree holds them all. -/
theorem put_kept (h : Holds tree before) (hbefore : ∀ z ∈ before, z.path ≠ [] ∧ Fits fits z)
    (hne : item.path ≠ []) (hnew : ∀ z ∈ before, z.path ≠ item.path) (hput : put fits tree item = .ok tree') :
    Fits fits item ∧ (∀ z ∈ before, Apart z item) ∧ Holds tree' (before ++ [item]) := by
  obtain ⟨hfree, hplaced, hitem, habove, hrest⟩ := (put_ok hne).mp hput
  have hexists : ∀ p ≠ [], tree p ≠ none → fits p = true := by
    intro p hp hsome
    obtain ⟨z, hz, hle⟩ := (h.only p hsome).resolve_left hp
    exact (hbefore z hz).2 p hp hle
  have hdirectory : tree item.path = some .directory → item.entry = .directory := by
    intro hdir
    refine entry_of_not_isSome fun hfile => ?_
    obtain ⟨content, hcontent⟩ := Option.isSome_iff_exists.mp hfile
    rw [Takes, hcontent] at hplaced
    rcases hplaced with ⟨content', hfile'⟩ | ⟨hnone, -⟩
    · rw [hdir] at hfile'
      cases hfile'
    · rw [hdir] at hnone
      cases hnone
  refine ⟨?_, ?_, ?_⟩
  · intro p hp hle
    by_cases heq : p = item.path
    · rw [Takes] at hplaced
      by_cases hnone : tree item.path = none
      · cases hcontent : item.content with
        | none =>
          rw [hcontent] at hplaced
          rcases hplaced with hdir | ⟨-, hfits⟩
          · rw [hnone] at hdir
            cases hdir
          · rwa [heq]
        | some content =>
          rw [hcontent] at hplaced
          rcases hplaced with ⟨content', hfile⟩ | ⟨-, hfits⟩
          · rw [hnone] at hfile
            cases hfile
          · rwa [heq]
      · rw [heq]
        exact hexists _ hne hnone
    · rcases hfree p ⟨hp, hle, heq⟩ with hdir | ⟨-, hfits⟩
      · exact hexists p hp (by simp [hdir])
      · exact hfits
  · intro z hz
    refine ⟨fun hfile hle => ?_, fun hfile hle => ?_⟩
    · obtain ⟨content, hcontent⟩ := entry_of_isSome hfile
      have hz' := h.member z hz
      rw [hcontent] at hz'
      rcases hfree z.path ⟨(hbefore z hz).1, hle, hnew z hz⟩ with hdir | ⟨hnone, -⟩
      · rw [hz'] at hdir
        cases hdir
      · rw [hz'] at hnone
        cases hnone
    · obtain ⟨content, hcontent⟩ := entry_of_isSome hfile
      have hdir := h.parent z hz _ ⟨hne, hle, fun heq => hnew z hz heq.symm⟩
      rw [hdirectory hdir] at hcontent
      cases hcontent
  · refine ⟨?_, fun z hz => ?_, fun z hz p hp => ?_, fun p hp => ?_⟩
    · rw [hrest [] (Ne.symm hne) fun habove => habove.1 rfl]
      exact h.root
    · rcases List.mem_append.mp hz with hz | hz
      · by_cases hp : Above z.path item.path
        · rw [habove _ hp]
          rcases hfree _ hp with hdir | ⟨hnone, -⟩
          · rw [← h.member z hz, hdir]
          · rw [h.member z hz] at hnone
            cases hnone
        · rw [hrest _ (hnew z hz) hp]
          exact h.member z hz
      · rw [List.mem_singleton.mp hz]
        exact hitem
    · rcases List.mem_append.mp hz with hz | hz
      · have hdir := h.parent z hz p hp
        by_cases heq : p = item.path
        · rw [heq] at hdir ⊢
          rw [hitem, hdirectory hdir]
        · by_cases hp' : Above p item.path
          · exact habove p hp'
          · rw [hrest p heq hp']
            exact hdir
      · rw [List.mem_singleton.mp hz] at hp
        exact habove p hp
    · by_cases heq : p = item.path
      · exact .inr ⟨item, by simp, heq ▸ List.prefix_rfl⟩
      · by_cases hp' : Above p item.path
        · exact .inr ⟨item, by simp, hp'.2.1⟩
        · rw [hrest p heq hp'] at hp
          refine (h.only p hp).imp_right ?_
          rintro ⟨z, hz, hle⟩
          exact ⟨z, List.mem_append_left _ hz, hle⟩

/-- Everything put is held, each item is taken, and no two are in each other's way. -/
theorem unpack_kept (h : Holds tree before) (hbefore : ∀ z ∈ before, z.path ≠ [] ∧ Fits fits z)
    (hpair : before.Pairwise Apart) (hdistinct : ((before ++ items).map Item.path).Nodup)
    (hne : ∀ z ∈ items, z.path ≠ []) (hrun : items.foldlM (put fits) tree = .ok tree') :
    (∀ z ∈ before ++ items, Fits fits z) ∧ (before ++ items).Pairwise Apart ∧
      Holds tree' (before ++ items) := by
  induction items generalizing before tree with
  | nil =>
    cases hrun
    rw [List.append_nil]
    exact ⟨fun z hz => (hbefore z hz).2, hpair, h⟩
  | cons item items ih =>
    rw [List.foldlM_cons, except_bind_ok] at hrun
    obtain ⟨put₁, hput, hrun⟩ := hrun
    have hnew : ∀ z ∈ before, z.path ≠ item.path := by
      rw [List.map_append, List.map_cons, List.nodup_append] at hdistinct
      exact fun z hz => hdistinct.2.2 _ (List.mem_map_of_mem hz) _ List.mem_cons_self
    have hitem : item.path ≠ [] := hne item List.mem_cons_self
    obtain ⟨hfits, hapart, hholds⟩ := put_kept h hbefore hitem hnew hput
    have hbefore' : ∀ z ∈ before ++ [item], z.path ≠ [] ∧ Fits fits z := by
      intro z hz
      rcases List.mem_append.mp hz with hz | hz
      · exact hbefore z hz
      · rw [List.mem_singleton.mp hz]
        exact ⟨hitem, hfits⟩
    have hpair' : (before ++ [item]).Pairwise Apart :=
      List.pairwise_append.mpr ⟨hpair, List.pairwise_singleton _ _, by simpa using hapart⟩
    rw [List.append_cons] at hdistinct ⊢
    exact ih hholds hbefore' hpair' hdistinct (fun z hz => hne z (List.mem_cons_of_mem _ hz)) hrun

/-- Items that are taken and not in each other's way are all put. -/
theorem unpack_total (h : Holds tree before) (hbefore : ∀ z ∈ before, z.path ≠ [] ∧ Fits fits z)
    (hdistinct : ((before ++ items).map Item.path).Nodup) (hne : ∀ z ∈ items, z.path ≠ [])
    (hfits : ∀ z ∈ items, Fits fits z) (hpair : (before ++ items).Pairwise Apart) :
    ∃ tree', items.foldlM (put fits) tree = .ok tree' := by
  induction items generalizing before tree with
  | nil => exact ⟨tree, rfl⟩
  | cons item items ih =>
    have hnew : ∀ z ∈ before, z.path ≠ item.path := by
      rw [List.map_append, List.map_cons, List.nodup_append] at hdistinct
      exact fun z hz => hdistinct.2.2 _ (List.mem_map_of_mem hz) _ List.mem_cons_self
    have hapart : ∀ z ∈ before, Apart z item :=
      fun z hz => (List.pairwise_append.mp hpair).2.2 z hz item List.mem_cons_self
    have hitem : item.path ≠ [] := hne item List.mem_cons_self
    obtain ⟨put₁, hput⟩ := put_total h hitem hnew (hfits item List.mem_cons_self) hapart
    obtain ⟨hfitsItem, -, hholds⟩ := put_kept h hbefore hitem hnew hput
    have hbefore' : ∀ z ∈ before ++ [item], z.path ≠ [] ∧ Fits fits z := by
      intro z hz
      rcases List.mem_append.mp hz with hz | hz
      · exact hbefore z hz
      · rw [List.mem_singleton.mp hz]
        exact ⟨hitem, hfitsItem⟩
    rw [List.append_cons] at hdistinct hpair
    obtain ⟨tree', hrun⟩ := ih hholds hbefore' hdistinct (fun z hz => hne z (List.mem_cons_of_mem _ hz))
      (fun z hz => hfits z (List.mem_cons_of_mem _ hz)) hpair
    exact ⟨tree', by rw [List.foldlM_cons, hput]; exact hrun⟩

section
variable (hdistinct : (items.map Item.path).Nodup) (hne : ∀ z ∈ items, z.path ≠ [])
include hdistinct hne

/-- What an empty directory holds once all items are put. -/
theorem unpack_holds (hrun : items.foldlM (put fits) empty = .ok tree) : Holds tree items :=
  (unpack_kept holds_empty nofun .nil hdistinct hne hrun).2.2

/-- All items are put exactly when each is taken and no two are in each other's way. -/
theorem unpack_iff : (∃ tree, items.foldlM (put fits) empty = .ok tree) ↔
    (∀ z ∈ items, Fits fits z) ∧ items.Pairwise Apart := by
  constructor
  · rintro ⟨tree, hrun⟩
    obtain ⟨hfits, hpair, -⟩ := unpack_kept holds_empty nofun .nil hdistinct hne hrun
    exact ⟨hfits, hpair⟩
  · rintro ⟨hfits, hpair⟩
    exact unpack_total holds_empty nofun hdistinct hne hfits hpair

end

end Unpack
