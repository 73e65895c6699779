import Mathlib.Data.Prod.Lex
import NpuStack.Schemes.Python

/-! Paths as texts, as Rust's `Path` and Python's `PurePosixPath` take them apart.

        "a//b/./c"  ──names──▶  a, b, c          empty pieces and dots are dropped

    A path is spelled plainly when nothing is dropped, and then both give it back. Rust orders paths
    name by name, Python orders them character by character: as if the slash came before every other
    character, or in its place among them. The two orders part exactly where a directory of one path
    is continued in the other by a character below the slash (`Crosses`). -/

namespace PosixPath
open Text

/-- The names of a path, without empty pieces and dots. -/
def names (path : String) : List String := (split '/' path).filter fun name => name ≠ "" && name ≠ "."

/-- Nothing is dropped from the path. -/
def Plain (path : String) : Prop := ∀ piece ∈ split '/' path, piece ≠ "" ∧ piece ≠ "."

/-! ### Rust -/

inductive Component where
  | rootDir | curDir | parentDir
  | normal (name : String)
  deriving DecidableEq

namespace Component

def ofName (name : String) : Component := if name = ".." then .parentDir else .normal name

def isNormal : Component → Bool
  | normal _ => true
  | _ => false

/-- Components in the derived order. -/
def key : Component → ℕ ×ₗ String
  | rootDir => toLex (0, "")
  | curDir => toLex (1, "")
  | parentDir => toLex (2, "")
  | normal name => toLex (3, name)

end Component

/-- `Path::is_absolute`. -/
def isAbsolute (path : String) : Bool := startsWith "/" path

/-- `Path::components`: a leading dot is kept, other dots and empty pieces are not. -/
def components (path : String) : List Component :=
  (if isAbsolute path then [.rootDir] else if (split '/' path).head? = some "." then [.curDir] else []) ++
    (names path).map Component.ofName

/-- Paths compare as their components do. -/
def key (path : String) : List (ℕ ×ₗ String) := (components path).map Component.key

/-- A relative path that neither starts with a dot nor goes up. -/
def isNormal (path : String) : Bool := !isAbsolute path && (components path).all Component.isNormal

theorem isNormal_iff {path : String} : isNormal path = true ↔
    isAbsolute path = false ∧ (split '/' path).head? ≠ some "." ∧ ".." ∉ names path := by
  have hname : ∀ name, (Component.ofName name).isNormal = true ↔ name ≠ ".." := by
    intro name
    rw [Component.ofName]
    split
    · next heq => simp [Component.isNormal, heq]
    · next hne => simp [Component.isNormal, hne]
  rw [isNormal, Bool.and_eq_true, Bool.not_eq_true', components]
  refine and_congr_right fun habsolute => ?_
  rw [habsolute, if_neg Bool.false_ne_true]
  split
  · next hdot => simp [hdot, Component.isNormal]
  · next hdot =>
    simp only [List.nil_append, List.all_map, List.all_eq_true, Function.comp_apply, hname, ne_eq, hdot,
      not_false_eq_true, true_and]
    exact ⟨fun h hmem => h _ hmem rfl, fun h name hmem heq => h (heq ▸ hmem)⟩

/-- A normal path compares by its names. -/
theorem key_of_isNormal {path : String} (h : isNormal path = true) :
    key path = (names path).map fun name => toLex (3, name) := by
  obtain ⟨habsolute, hdot, hparent⟩ := isNormal_iff.mp h
  rw [key, components, habsolute, if_neg Bool.false_ne_true, if_neg hdot, List.nil_append, List.map_map]
  refine List.map_congr_left fun name hmem => ?_
  have hne : name ≠ ".." := fun heq => hparent (heq ▸ hmem)
  rw [Function.comp_apply, Component.ofName, if_neg hne]
  rfl

/-! ### Python -/

/-- The root of a path: two leading slashes are kept, three or more are one. -/
def root (path : String) : String :=
  if startsWith "//" path && !startsWith "///" path then "//" else if startsWith "/" path then "/" else ""

/-- `str(PurePosixPath(path))`. -/
def pureStr (path : String) : String :=
  let text := root path ++ join '/' (names path)
  if text = "" then "." else text

theorem names_of_plain {path : String} (h : Plain path) : names path = split '/' path := by
  rw [names, List.filter_eq_self]
  intro piece hmem
  obtain ⟨hne, hdot⟩ := h piece hmem
  simp [hne, hdot]

theorem plain_of_names {path : String} (h : names path = split '/' path) : Plain path := by
  intro piece hmem
  rw [names, List.filter_eq_self] at h
  simpa using h piece hmem

/-- The names of two paths with a slash between them. -/
theorem names_append (a b : String) : names (a ++ "/" ++ b) = names a ++ names b := by
  have hslash : "/".toList = ['/'] := by decide
  simp only [names, split, String.toList_append, hslash, List.append_assoc, List.singleton_append]
  rw [List.splitOn_append_cons_self, List.map_append, List.filter_append]

theorem names_free {path name : String} (h : name ∈ names path) : '/' ∉ name.toList :=
  split_free (List.mem_of_mem_filter h)

theorem root_of_relative {path : String} (h : isAbsolute path = false) : root path = "" := by
  have hone : startsWith "/" path = false := h
  have htwo : startsWith "//" path = false := by
    by_contra htwo
    rw [Bool.not_eq_false, startsWith_iff] at htwo
    obtain ⟨rest, rfl⟩ := htwo
    rw [← Bool.not_eq_true, startsWith_iff] at hone
    exact hone ⟨"/" ++ rest, by rw [← String.append_assoc]; rfl⟩
  simp [root, hone, htwo]

/-- A relative path with a name is given back exactly when it is plain. -/
theorem pureStr_eq_iff {path : String} (hrelative : isAbsolute path = false) (hne : names path ≠ []) :
    pureStr path = path ↔ Plain path := by
  have hfree : ∀ name ∈ names path, '/' ∉ name.toList := fun _ => names_free
  rw [pureStr, root_of_relative hrelative, String.empty_append]
  constructor
  · intro h
    refine plain_of_names ?_
    split at h
    · next hempty =>
      have hsplit := split_join hfree hne
      rw [hempty] at hsplit
      have hmem : "" ∈ names path := by rw [← hsplit]; simp [split]
      have hcontra := List.of_mem_filter hmem
      simp at hcontra
    · rw [← split_join hfree hne, h]
  · intro h
    have hjoin : join '/' (names path) = path := by rw [names_of_plain h, join_split]
    have hpath : path ≠ "" := by
      rintro rfl
      exact (h "" (by simp [split])).1 rfl
    simp only [hjoin, if_neg hpath]

/-! ### The two orders -/

theorem map_lt_map_iff {α β : Type} [LT α] [LT β] {f : α → β} (hlt : ∀ a b, f a < f b ↔ a < b)
    (hinj : Function.Injective f) : ∀ {l l' : List α}, l.map f < l'.map f ↔ l < l'
  | [], [] => by simp
  | [], _ :: _ => by simp
  | _ :: _, [] => by simp
  | a :: l, b :: l' => by
    rw [List.map_cons, List.map_cons, List.cons_lt_cons_iff, List.cons_lt_cons_iff, hlt, hinj.eq_iff,
      map_lt_map_iff hlt hinj]

/-- The place of a character when the slash comes first. -/
def rank (c : Char) : ℕ := if c = '/' then 0 else c.toNat + 1

theorem rank_injective : Function.Injective rank := by
  intro c d h
  simp only [rank] at h
  split at h <;> split at h
  · next hc hd => rw [hc, hd]
  · omega
  · omega
  · exact Char.toNat_inj.mp (Nat.succ.inj h)

theorem rank_lt_iff {c d : Char} (hc : c ≠ '/') (hd : d ≠ '/') : rank c < rank d ↔ c < d := by
  rw [rank, rank, if_neg hc, if_neg hd, Nat.add_lt_add_iff_right]
  rfl

theorem rank_pos {c : Char} (hc : c ≠ '/') : rank '/' < rank c := by
  rw [rank, rank, if_pos rfl, if_neg hc]
  omega

/-- Comparing piece by piece is comparing character by character, the slash first. -/
theorem splitOn_lt_iff : ∀ {p q : List Char}, p.splitOn '/' < q.splitOn '/' ↔ p.map rank < q.map rank
  | [], [] => by simp
  | [], d :: q => by
    obtain ⟨piece, pieces, hq⟩ := List.exists_cons_of_ne_nil (List.splitOn_ne_nil '/' q)
    rw [List.splitOn_cons_eq_if_modifyHead, hq]
    split <;> simp [List.cons_lt_cons_iff, -not_lt]
  | c :: p, [] => by
    obtain ⟨piece, pieces, hp⟩ := List.exists_cons_of_ne_nil (List.splitOn_ne_nil '/' p)
    rw [List.splitOn_cons_eq_if_modifyHead, hp]
    split <;> simp [List.cons_lt_cons_iff, -not_lt]
  | c :: p, d :: q => by
    have ih := @splitOn_lt_iff p q
    obtain ⟨piece, pieces, hp⟩ := List.exists_cons_of_ne_nil (List.splitOn_ne_nil '/' p)
    obtain ⟨piece', pieces', hq⟩ := List.exists_cons_of_ne_nil (List.splitOn_ne_nil '/' q)
    rw [hp, hq] at ih
    rw [List.splitOn_cons_eq_if_modifyHead, List.splitOn_cons_eq_if_modifyHead, hp, hq, List.map_cons,
      List.map_cons, List.cons_lt_cons_iff, ← ih]
    by_cases hc : c = '/' <;> by_cases hd : d = '/'
    · simp [hc, hd]
    · simp [hc, hd, rank_pos hd, List.cons_lt_cons_iff]
    · simp [hc, hd, (rank_pos hc).not_gt, (rank_pos hc).ne', List.cons_lt_cons_iff, -not_lt]
    · simp only [beq_iff_eq, hc, hd, if_false, List.modifyHead_cons, List.cons_lt_cons_iff, rank_lt_iff hc hd,
        rank_injective.eq_iff, List.cons.injEq]
      grind

/-- A directory of the first path is continued in the second by a character below the slash. -/
def Crosses (p q : List Char) : Prop :=
  ∃ front x c y, p = front ++ '/' :: x ∧ q = front ++ c :: y ∧ c < '/'

theorem Crosses.lt : ∀ {p q : List Char}, Crosses p q → q < p ∧ p.map rank < q.map rank := by
  rintro p q ⟨front, x, c, y, rfl, rfl, hc⟩
  induction front with
  | nil =>
    have hne : c ≠ '/' := fun heq => by subst heq; exact absurd hc (lt_irrefl _)
    simp [hc, rank_pos hne, List.cons_lt_cons_iff]
  | cons a front ih => simpa [List.cons_lt_cons_iff] using ih

/-- Where the slash comes first, the text is before, or its path crosses the other. -/
theorem lt_or_crosses : ∀ {p q : List Char}, p.map rank < q.map rank → p < q ∨ Crosses p q
  | [], [], h => by simp at h
  | [], d :: q, _ => .inl (by simp)
  | c :: p, [], h => by simp at h
  | c :: p, d :: q, h => by
    rw [List.map_cons, List.map_cons, List.cons_lt_cons_iff] at h
    rcases h with h | ⟨heq, h⟩
    · by_cases hd : d = '/'
      · subst hd
        by_cases hc : c = '/'
        · subst hc
          exact absurd h (lt_irrefl _)
        · exact absurd h (rank_pos hc).not_gt
      · by_cases hc : c = '/'
        · subst hc
          rcases lt_or_gt_of_ne hd with hlt | hgt
          · exact .inr ⟨[], p, d, q, rfl, rfl, hlt⟩
          · exact .inl (List.cons_lt_cons_iff.mpr (.inl hgt))
        · exact .inl (List.cons_lt_cons_iff.mpr (.inl ((rank_lt_iff hc hd).mp h)))
    · obtain rfl := rank_injective heq
      rcases lt_or_crosses h with hlt | ⟨front, x, e, y, rfl, rfl, he⟩
      · exact .inl (List.cons_lt_cons_iff.mpr (.inr ⟨rfl, hlt⟩))
      · exact .inr ⟨c :: front, x, e, y, rfl, rfl, he⟩

/-- Plain normal paths compare in Rust as their texts with the slash first. -/
theorem key_lt_iff {p q : String} (hp : isNormal p = true) (hq : isNormal q = true) (hp' : Plain p)
    (hq' : Plain q) : key p < key q ↔ p.toList.map rank < q.toList.map rank := by
  have hpair : ∀ a b : String, (toLex (3, a) : ℕ ×ₗ String) < toLex (3, b) ↔ a < b := by
    intro a b
    simp [Prod.Lex.toLex_lt_toLex]
  have htext : ∀ a b : List Char, String.ofList a < String.ofList b ↔ a < b := by
    intro a b
    rw [String.lt_iff_toList_lt, String.toList_ofList, String.toList_ofList]
  rw [key_of_isNormal hp, key_of_isNormal hq, map_lt_map_iff hpair (fun a b h => by simpa using h),
    names_of_plain hp', names_of_plain hq', split, split,
    map_lt_map_iff htext (fun a b h => by simpa using congrArg String.toList h), splitOn_lt_iff]

end PosixPath
