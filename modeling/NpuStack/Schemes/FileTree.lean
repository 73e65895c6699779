import NpuStack.Schemes.Text

/-! A directory as a program finds it: regular files, directories, links and everything else.

        walk     every entry below a directory, links listed but not entered
        reach    the entry at a path of real directories
        lookup   what a path leads to when links are followed, as `open` and `stat` do

    A link knows what it leads to, so a tree is finite even where links go round in circles. An entry
    is walked exactly when a path of real directories reaches it (`mem_walk`), and there `lookup` finds
    that entry (`lookup_of_reach`). -/

namespace FileTree
open Text

/-- What a path leads to once links are followed. -/
inductive Found where
  | file (content : Bytes)
  | directory (names : List String)
  | special

/-- The end of a path: what it leads to, if anything, and whether its last entry is a link. -/
@[ext] structure Target where
  found : Option Found
  link : Bool

def Target.absent : Target := ⟨none, false⟩

/-- The bytes `open` reads. -/
def Target.content (target : Target) : Option Bytes :=
  match target.found with
  | some (.file content) => some content
  | _ => none

/-- `path.is_file()`. -/
def Target.isFile (target : Target) : Bool := target.content.isSome

inductive Node where
  | file (content : Bytes)
  | special
  | dir (entries : List (String × Node))
  | link (follow : List String → Target)

/-- An entry by itself. -/
def Node.target : Node → Target
  | .file content => ⟨some (.file content), false⟩
  | .special => ⟨some .special, false⟩
  | .dir entries => ⟨some (.directory (entries.map Prod.fst)), false⟩
  | .link follow => ⟨(follow []).found, true⟩

mutual

/-- What a path leads to, links followed. -/
def lookup : Node → List String → Target
  | node, [] => node.target
  | .dir entries, name :: path => lookupIn entries name path
  | .link follow, name :: path => follow (name :: path)
  | _, _ :: _ => Target.absent

def lookupIn : List (String × Node) → String → List String → Target
  | [], _, _ => Target.absent
  | (entry, node) :: entries, name, path =>
    if entry = name then lookup node path else lookupIn entries name path

end

mutual

/-- The entry at a path of real directories. -/
def reach : Node → List String → Option Node
  | node, [] => some node
  | .dir entries, name :: path => reachIn entries name path
  | _, _ :: _ => none

def reachIn : List (String × Node) → String → List String → Option Node
  | [], _, _ => none
  | (entry, node) :: entries, name, path =>
    if entry = name then reach node path else reachIn entries name path

end

mutual

/-- Every entry below a directory, under its path. -/
def walk : List String → Node → List (List String × Node)
  | above, .dir entries => walkIn above entries
  | _, _ => []

def walkIn : List String → List (String × Node) → List (List String × Node)
  | _, [] => []
  | above, (name, node) :: entries =>
    (above ++ [name], node) :: (walk (above ++ [name]) node ++ walkIn above entries)

end

/-- A name an entry can have. -/
def isName (name : String) : Bool :=
  name ≠ "" && !contains '/' name && name ≠ "." && name ≠ ".."

mutual

/-- Names are names, behind links too, and no directory holds one twice. -/
def Node.WellFormed : Node → Prop
  | .dir entries => (entries.map Prod.fst).Nodup ∧ WellFormedIn entries
  | .link follow => ∀ path names, (follow path).found = some (.directory names) →
      ∀ name ∈ names, isName name = true
  | _ => True

def WellFormedIn : List (String × Node) → Prop
  | [] => True
  | (name, node) :: entries => isName name = true ∧ node.WellFormed ∧ WellFormedIn entries

end

/-- The text of a relative path. -/
def posix (path : List String) : String := join '/' path

/-! ### Walking and reaching -/

theorem reachIn_name : ∀ {entries : List (String × Node)} {name : String} {path : List String}
    {node : Node}, reachIn entries name path = some node → name ∈ entries.map Prod.fst
  | [], _, _, _, h => by cases h
  | (entry, child) :: entries, name, path, node, h => by
    rw [reachIn] at h
    split at h
    next heq => simp [heq]
    next => exact List.mem_cons_of_mem _ (reachIn_name h)

/-- Nothing lies below what is not a directory. -/
theorem mem_walk_leaf {root : Node} {above path : List String} {node : Node}
    (hwalk : walk above root = []) (hreach : ∀ name below, reach root (name :: below) = none) :
    (path, node) ∈ walk above root ↔
      ∃ below, below ≠ [] ∧ path = above ++ below ∧ reach root below = some node := by
  rw [hwalk]
  constructor
  · intro h
    cases h
  · rintro ⟨below, hne, -, h⟩
    cases below with
    | nil => exact absurd rfl hne
    | cons name below =>
      rw [hreach] at h
      cases h

mutual

/-- The entries walked are those a path of real directories reaches. -/
theorem mem_walk : ∀ {root : Node} {above path : List String} {node : Node},
    root.WellFormed → ((path, node) ∈ walk above root ↔
      ∃ below, below ≠ [] ∧ path = above ++ below ∧ reach root below = some node)
  | .dir entries, above, path, node, h => by
    rw [Node.WellFormed] at h
    rw [walk, mem_walkIn h.1 h.2]
    constructor
    · rintro ⟨name, below, rfl, hreach⟩
      exact ⟨name :: below, by simp, rfl, hreach⟩
    · rintro ⟨below, hne, rfl, hreach⟩
      cases below with
      | nil => exact absurd rfl hne
      | cons name below => exact ⟨name, below, rfl, hreach⟩
  | .file _, _, _, _, _ => mem_walk_leaf rfl fun _ _ => rfl
  | .special, _, _, _, _ => mem_walk_leaf rfl fun _ _ => rfl
  | .link _, _, _, _, _ => mem_walk_leaf rfl fun _ _ => rfl

theorem mem_walkIn : ∀ {entries : List (String × Node)} {above path : List String} {node : Node},
    (entries.map Prod.fst).Nodup → WellFormedIn entries →
    ((path, node) ∈ walkIn above entries ↔
      ∃ name below, path = above ++ name :: below ∧ reachIn entries name below = some node)
  | [], above, path, node, _, _ => by
    constructor
    · intro h
      cases h
    · rintro ⟨_, _, -, h⟩
      cases h
  | (entry, child) :: entries, above, path, node, hnodup, h => by
    rw [List.map_cons, List.nodup_cons] at hnodup
    rw [WellFormedIn] at h
    rw [walkIn, List.mem_cons, List.mem_append, mem_walk h.2.1, mem_walkIn hnodup.2 h.2.2]
    constructor
    · rintro (heq | ⟨below, -, rfl, hreach⟩ | ⟨name, below, rfl, hreach⟩)
      · obtain ⟨rfl, rfl⟩ := Prod.mk.inj heq
        exact ⟨entry, [], rfl, by rw [reachIn, if_pos rfl, reach]⟩
      · exact ⟨entry, below, by simp, by rw [reachIn, if_pos rfl, hreach]⟩
      · refine ⟨name, below, rfl, ?_⟩
        rw [reachIn, if_neg, hreach]
        rintro rfl
        exact hnodup.1 (reachIn_name hreach)
    · rintro ⟨name, below, rfl, hreach⟩
      rw [reachIn] at hreach
      split at hreach
      next heq =>
        subst heq
        cases below with
        | nil =>
          rw [reach] at hreach
          exact .inl (by rw [Option.some.inj hreach])
        | cons next below => exact .inr (.inl ⟨next :: below, by simp, by simp, hreach⟩)
      next => exact .inr (.inr ⟨name, below, rfl, hreach⟩)

end

/-- A directory's own entries, and what is walked below them. -/
theorem walkIn_perm (above : List String) (entries : List (String × Node)) :
    (walkIn above entries).Perm ((entries.map fun entry => (above ++ [entry.1], entry.2)) ++
      entries.flatMap fun entry => walk (above ++ [entry.1]) entry.2) := by
  induction entries with
  | nil => exact List.Perm.refl _
  | cons entry entries ih =>
    obtain ⟨name, node⟩ := entry
    rw [walkIn, List.map_cons, List.flatMap_cons, List.cons_append]
    refine List.Perm.cons _ ?_
    refine (List.Perm.append_left _ ih).trans ?_
    rw [← List.append_assoc, ← List.append_assoc]
    exact List.Perm.append_right _ List.perm_append_comm

mutual

/-- No path is walked twice. -/
theorem nodup_walk : ∀ {root : Node} (above : List String), root.WellFormed →
    ((walk above root).map Prod.fst).Nodup
  | .dir entries, above, h => by
    rw [Node.WellFormed] at h
    rw [walk]
    exact nodup_walkIn above h.1 h.2
  | .file _, _, _ => List.nodup_nil
  | .special, _, _ => List.nodup_nil
  | .link _, _, _ => List.nodup_nil

theorem nodup_walkIn : ∀ {entries : List (String × Node)} (above : List String),
    (entries.map Prod.fst).Nodup → WellFormedIn entries →
    ((walkIn above entries).map Prod.fst).Nodup
  | [], _, _, _ => List.nodup_nil
  | (name, node) :: entries, above, hnodup, h => by
    rw [List.map_cons, List.nodup_cons] at hnodup
    rw [WellFormedIn] at h
    rw [walkIn, List.map_cons, List.map_append, List.nodup_cons, List.nodup_append]
    have hbelow : ∀ path ∈ (walk (above ++ [name]) node).map Prod.fst,
        ∃ part below, path = above ++ name :: part :: below := by
      intro path hpath
      obtain ⟨⟨_, node'⟩, hmem, rfl⟩ := List.mem_map.mp hpath
      obtain ⟨below, hne, heq, _⟩ := (mem_walk h.2.1).mp hmem
      obtain ⟨part, rest, rfl⟩ := List.exists_cons_of_ne_nil hne
      exact ⟨part, rest, by rw [heq]; simp⟩
    have hbeside : ∀ path ∈ (walkIn above entries).map Prod.fst,
        ∃ other below, other ∈ entries.map Prod.fst ∧ path = above ++ other :: below := by
      intro path hpath
      obtain ⟨⟨_, node'⟩, hmem, rfl⟩ := List.mem_map.mp hpath
      obtain ⟨other, below, heq, hreach⟩ := (mem_walkIn hnodup.2 h.2.2).mp hmem
      exact ⟨other, below, reachIn_name hreach, heq⟩
    refine ⟨?_, nodup_walk _ h.2.1, nodup_walkIn above hnodup.2 h.2.2, ?_⟩
    · intro hmem
      rcases List.mem_append.mp hmem with hmem | hmem
      · obtain ⟨part, below, heq⟩ := hbelow _ hmem
        simp at heq
      · obtain ⟨other, below, hother, heq⟩ := hbeside _ hmem
        have hname : name = other := by simpa using congrArg List.head? (List.append_cancel_left heq)
        exact hnodup.1 (hname ▸ hother)
    · intro path hpath path' hpath' heq
      obtain ⟨part, below, rfl⟩ := hbelow _ hpath
      obtain ⟨other, below', hother, rfl⟩ := hbeside _ hpath'
      have hname : name = other := by simpa using congrArg List.head? (List.append_cancel_left heq)
      exact hnodup.1 (hname ▸ hother)

end

theorem reachIn_of_mem {entries : List (String × Node)} {name : String}
    (h : name ∈ entries.map Prod.fst) : ∃ node, reachIn entries name [] = some node := by
  induction entries with
  | nil => cases h
  | cons entry entries ih =>
    obtain ⟨other, node⟩ := entry
    rw [reachIn]
    by_cases heq : other = name
    · rw [if_pos heq]
      exact ⟨node, by rw [reach]⟩
    · rw [if_neg heq]
      rw [List.map_cons, List.mem_cons] at h
      exact ih (h.resolve_left (Ne.symm heq))

theorem lookupIn_of_notMem {entries : List (String × Node)} {name : String}
    (h : name ∉ entries.map Prod.fst) (path : List String) :
    lookupIn entries name path = Target.absent := by
  induction entries with
  | nil => rw [lookupIn]
  | cons entry entries ih =>
    obtain ⟨other, node⟩ := entry
    rw [List.map_cons, List.mem_cons, not_or] at h
    rw [lookupIn, if_neg (Ne.symm h.1), ih h.2]

/-- A new entry of a directory is reached under its name, and nothing else is reached differently. -/
theorem reachIn_concat {entries : List (String × Node)} {new : String} {added : Node}
    (hnew : new ∉ entries.map Prod.fst) (name : String) (path : List String) :
    reachIn (entries ++ [(new, added)]) name path =
      if name = new then reach added path else reachIn entries name path := by
  induction entries with
  | nil =>
    by_cases h : new = name
    · simp [reachIn, h]
    · simp [reachIn, h, Ne.symm h]
  | cons entry entries ih =>
    obtain ⟨other, node⟩ := entry
    rw [List.map_cons, List.mem_cons, not_or] at hnew
    rw [List.cons_append, reachIn, ih hnew.2, reachIn]
    by_cases h : name = new
    · rw [if_pos h, if_pos h, if_neg]
      rw [h]
      exact Ne.symm hnew.1
    · rw [if_neg h, if_neg h]

theorem wellFormedIn_concat {entries : List (String × Node)} {new : String} {added : Node}
    (h : WellFormedIn entries) (hname : isName new = true) (hadded : added.WellFormed) :
    WellFormedIn (entries ++ [(new, added)]) := by
  induction entries with
  | nil =>
    rw [List.nil_append, WellFormedIn]
    exact ⟨hname, hadded, by rw [WellFormedIn]; trivial⟩
  | cons entry entries ih =>
    obtain ⟨name, node⟩ := entry
    rw [WellFormedIn] at h
    rw [List.cons_append, WellFormedIn]
    exact ⟨h.1, h.2.1, ih h.2.2⟩

mutual

/-- Where real directories lead, so does every path. -/
theorem lookup_of_reach : ∀ {root : Node} {path : List String} {node : Node},
    reach root path = some node → lookup root path = node.target
  | root, [], node, h => by
    rw [reach] at h
    rw [lookup, Option.some.inj h]
  | .dir entries, name :: path, node, h => by
    rw [reach] at h
    rw [lookup, lookupIn_of_reachIn h]
  | .file _, _ :: _, _, h => by cases h
  | .special, _ :: _, _, h => by cases h
  | .link _, _ :: _, _, h => by cases h

theorem lookupIn_of_reachIn : ∀ {entries : List (String × Node)} {name : String} {path : List String}
    {node : Node}, reachIn entries name path = some node → lookupIn entries name path = node.target
  | [], _, _, _, h => by cases h
  | (entry, child) :: entries, name, path, node, h => by
    rw [reachIn] at h
    rw [lookupIn]
    split at h
    next heq => rw [if_pos heq, lookup_of_reach h]
    next hne => rw [if_neg hne, lookupIn_of_reachIn h]

end

mutual

/-- Reached paths are made of names. -/
theorem names_of_reach : ∀ {root : Node} {path : List String} {node : Node},
    root.WellFormed → reach root path = some node → ∀ name ∈ path, isName name = true
  | _, [], _, _, _ => by simp
  | .dir entries, name :: path, node, hwf, h => by
    rw [Node.WellFormed] at hwf
    rw [reach] at h
    exact names_of_reachIn hwf.2 h
  | .file _, _ :: _, _, _, h => by cases h
  | .special, _ :: _, _, _, h => by cases h
  | .link _, _ :: _, _, _, h => by cases h

theorem names_of_reachIn : ∀ {entries : List (String × Node)} {name : String} {path : List String}
    {node : Node}, WellFormedIn entries → reachIn entries name path = some node →
    ∀ part ∈ name :: path, isName part = true
  | [], _, _, _, _, h => by cases h
  | (entry, child) :: entries, name, path, node, hwf, h => by
    rw [WellFormedIn] at hwf
    rw [reachIn] at h
    split at h
    next heq =>
      refine List.forall_mem_cons.mpr ⟨heq ▸ hwf.1, names_of_reach hwf.2.1 h⟩
    next => exact names_of_reachIn hwf.2.2 h

end

theorem names_of_entries : ∀ {entries : List (String × Node)}, WellFormedIn entries →
    ∀ name ∈ entries.map Prod.fst, isName name = true
  | [], _ => by simp
  | (name, node) :: entries, h => by
    rw [WellFormedIn] at h
    exact List.forall_mem_cons.mpr ⟨h.1, names_of_entries h.2.2⟩

mutual

/-- The names a directory holds are names, wherever it is looked up. -/
theorem names_of_lookup : ∀ {root : Node} {path names : List String}, root.WellFormed →
    (lookup root path).found = some (.directory names) → ∀ name ∈ names, isName name = true
  | .dir entries, [], names, hwf, h => by
    rw [Node.WellFormed] at hwf
    rw [lookup, Node.target] at h
    cases h
    exact names_of_entries hwf.2
  | .dir entries, next :: path, names, hwf, h => by
    rw [Node.WellFormed] at hwf
    rw [lookup] at h
    exact names_of_lookupIn hwf.2 h
  | .link follow, [], names, hwf, h => by
    rw [Node.WellFormed] at hwf
    exact hwf [] names h
  | .link follow, next :: path, names, hwf, h => by
    rw [Node.WellFormed] at hwf
    exact hwf (next :: path) names h
  | .file _, [], _, _, h => by cases h
  | .file _, _ :: _, _, _, h => by cases h
  | .special, [], _, _, h => by cases h
  | .special, _ :: _, _, _, h => by cases h

theorem names_of_lookupIn : ∀ {entries : List (String × Node)} {next : String}
    {path names : List String}, WellFormedIn entries →
    (lookupIn entries next path).found = some (.directory names) → ∀ name ∈ names, isName name = true
  | [], _, _, _, _, h => by cases h
  | (entry, child) :: entries, next, path, names, hwf, h => by
    rw [WellFormedIn] at hwf
    rw [lookupIn] at h
    split at h
    next => exact names_of_lookup hwf.2.1 h
    next => exact names_of_lookupIn hwf.2.2 h

end

theorem slash_notMem {name : String} (h : isName name = true) : '/' ∉ name.toList := by
  simp only [isName, Bool.and_eq_true, Bool.not_eq_true', contains] at h
  simpa using h.1.1.2

/-- The text of a path tells the path. -/
theorem split_posix {path : List String} (hne : path ≠ []) (h : ∀ name ∈ path, isName name = true) :
    split '/' (posix path) = path :=
  split_join (fun name hname => slash_notMem (h name hname)) hne

end FileTree
