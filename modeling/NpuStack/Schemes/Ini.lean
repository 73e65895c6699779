import Mathlib.Data.List.Basic
import NpuStack.Schemes.Text

/-! Configuration text read line by line.

        # …         a comment, skipped like an empty line
        [name]      opens a section
        key=value   belongs to the section opened last; the first equals sign separates

    Any other line, and a pair before the first section, is an error. What is rendered from plain
    sections is read back as those sections (`read_render`), so nothing a plain value holds can open
    a section or add a key. -/

namespace Ini
open Text

inductive Line where
  | skip
  | header (name : String)
  | pair (key value : String)
  | malformed
  deriving DecidableEq, Repr

/-- The name a section header holds. -/
def headerName (line : String) : Option String := (stripPrefix "[" line).bind (stripSuffix "]")

def readLine (line : String) : Line :=
  if line = "" ∨ startsWith "#" line = true then .skip
  else match headerName line with
  | some name => .header name
  | none =>
    match splitOnce '=' line with
    | some (key, value) => .pair key value
    | none => .malformed

structure Section where
  name : String
  pairs : List (String × String)
  deriving DecidableEq, Repr

/-- The first value under a key. -/
def Section.value (s : Section) (key : String) : Option String := s.pairs.lookup key

/-- The pairs before the first header, and the sections after it. -/
def readLines : List String → Option (List (String × String) × List Section)
  | [] => some ([], [])
  | line :: rest => (readLines rest).bind fun (pairs, sections) =>
    match readLine line with
    | .skip => some (pairs, sections)
    | .header name => some ([], ⟨name, pairs⟩ :: sections)
    | .pair key value => some ((key, value) :: pairs, sections)
    | .malformed => none

/-- The sections of a text, in order. -/
def read (text : String) : Option (List Section) :=
  match readLines (lines text) with
  | some ([], sections) => some sections
  | _ => none

/-! ### Rendering -/

def pairLine (pair : String × String) : String := pair.1 ++ "=" ++ pair.2

def Section.lines (s : Section) : List String := ("[" ++ s.name ++ "]") :: s.pairs.map pairLine

def render (sections : List Section) : String := unlines (sections.flatMap Section.lines)

theorem render_cons (s : Section) (sections : List Section) :
    render (s :: sections) = unlines s.lines ++ render sections := by
  rw [render, List.flatMap_cons, unlines_append, render]

/-- Letters, digits and underscores. -/
def plainKey (key : String) : Bool := key ≠ "" && all (fun c => c.isAlphanum || c = '_') key

/-- Text without line ends. -/
def oneLine (text : String) : Bool := all (fun c => c ≠ '\n' && c ≠ '\r') text

/-- A section whose name and values stay on their lines. -/
structure Section.Plain (s : Section) : Prop where
  name : oneLine s.name = true
  keys : ∀ p ∈ s.pairs, plainKey p.1 = true
  values : ∀ p ∈ s.pairs, oneLine p.2 = true

theorem oneLine_iff {text : String} :
    oneLine text = true ↔ '\n' ∉ text.toList ∧ '\r' ∉ text.toList := by
  rw [oneLine, all_iff]
  constructor
  · intro h
    exact ⟨fun hmem => by simpa using h _ hmem, fun hmem => by simpa using h _ hmem⟩
  · rintro ⟨hnewline, hreturn⟩ c hc
    simp only [Bool.and_eq_true, decide_eq_true_eq]
    exact ⟨fun heq => hnewline (heq ▸ hc), fun heq => hreturn (heq ▸ hc)⟩

theorem oneLine_append {a b : String} :
    oneLine (a ++ b) = true ↔ oneLine a = true ∧ oneLine b = true := by
  rw [oneLine, all_append, Bool.and_eq_true]
  rfl

theorem oneLine_of_plainKey {key : String} (h : plainKey key = true) : oneLine key = true := by
  simp only [plainKey, Bool.and_eq_true] at h
  refine oneLine_iff.mpr ⟨fun hmem => ?_, fun hmem => ?_⟩
  · exact absurd (all_iff.mp h.2 _ hmem) (by decide)
  · exact absurd (all_iff.mp h.2 _ hmem) (by decide)

theorem readLine_header {name : String} : readLine ("[" ++ name ++ "]") = .header name := by
  have hopen : "[".toList = ['['] := by decide
  have hskip : ¬("[" ++ name ++ "]" = "" ∨ startsWith "#" ("[" ++ name ++ "]") = true) := by
    have hhash : "#".toList = ['#'] := by decide
    rintro (h | h)
    · have := congrArg String.toList h
      simp [hopen] at this
    · simp [startsWith, hopen, hhash] at h
  have hname : headerName ("[" ++ name ++ "]") = some name := by
    rw [headerName, String.append_assoc, stripPrefix_append, Option.bind_some, stripSuffix_append]
  rw [readLine, if_neg hskip, hname]

/-- The first character of a plain key opens no section and no comment. -/
theorem exists_of_plainKey {key : String} (h : plainKey key = true) :
    ∃ c cs, key.toList = c :: cs ∧ c ≠ '[' ∧ c ≠ '#' := by
  simp only [plainKey, Bool.and_eq_true, decide_eq_true_eq] at h
  cases hlist : key.toList with
  | nil => exact absurd (by simpa using hlist) h.1
  | cons c cs =>
    have hc := all_iff.mp h.2 c (hlist ▸ List.mem_cons_self)
    refine ⟨c, cs, rfl, ?_, ?_⟩
    · rintro rfl
      exact absurd hc (by decide)
    · rintro rfl
      exact absurd hc (by decide)

theorem readLine_pair {pair : String × String} (h : plainKey pair.1 = true) :
    readLine (pairLine pair) = .pair pair.1 pair.2 := by
  have hequals : "=".toList = ['='] := by decide
  obtain ⟨c, cs, hlist, hopen, hhash⟩ := exists_of_plainKey h
  have hskip : ¬(pairLine pair = "" ∨ startsWith "#" (pairLine pair) = true) := by
    have hhash' : "#".toList = ['#'] := by decide
    rintro (h | h)
    · have := congrArg String.toList h
      simp [pairLine, hlist] at this
    · simp [startsWith, pairLine, hlist, hhash'] at h
      exact hhash h.symm
  have hname : headerName (pairLine pair) = none := by
    rw [headerName, Option.bind_eq_none_iff]
    intro rest hrest
    have hopen' : "[".toList = ['['] := by decide
    have := congrArg String.toList (stripPrefix_eq_some.mp hrest)
    simp [pairLine, hlist, hopen'] at this
    exact absurd this.1 hopen
  have hfree : '=' ∉ pair.1.toList := by
    simp only [plainKey, Bool.and_eq_true] at h
    intro hmem
    exact absurd (all_iff.mp h.2 _ hmem) (by decide)
  have hsplit : splitOnce '=' (pairLine pair) = some (pair.1, pair.2) :=
    splitOnce_eq_some.mpr ⟨by simp [pairLine, hequals], hfree⟩
  rw [readLine, if_neg hskip, hname]
  simp only [hsplit]

theorem readLines_pairs {pairs : List (String × String)} (hkeys : ∀ p ∈ pairs, plainKey p.1 = true)
    {rest : List String} {sections : List Section} (hrest : readLines rest = some ([], sections)) :
    readLines (pairs.map pairLine ++ rest) = some (pairs, sections) := by
  induction pairs with
  | nil => exact hrest
  | cons pair pairs ih =>
    obtain ⟨hpair, hkeys⟩ := List.forall_mem_cons.mp hkeys
    rw [List.map_cons, List.cons_append, readLines, ih hkeys, Option.bind_some]
    simp only [readLine_pair hpair]

theorem readLines_sections {sections : List Section} (h : ∀ s ∈ sections, s.Plain) :
    readLines (sections.flatMap Section.lines) = some ([], sections) := by
  induction sections with
  | nil => rfl
  | cons s sections ih =>
    obtain ⟨hs, hsections⟩ := List.forall_mem_cons.mp h
    have hpairs := readLines_pairs hs.keys (ih hsections)
    rw [List.flatMap_cons, Section.lines, List.cons_append, readLines, hpairs, Option.bind_some]
    simp only [readLine_header]

theorem Section.Plain.line {s : Section} (h : s.Plain) {l : String} (hl : l ∈ s.lines) :
    oneLine l = true := by
  rcases List.mem_cons.mp hl with rfl | hl
  · exact oneLine_append.mpr ⟨oneLine_append.mpr ⟨by decide, h.name⟩, by decide⟩
  · obtain ⟨p, hp, rfl⟩ := List.mem_map.mp hl
    exact oneLine_append.mpr ⟨oneLine_append.mpr
      ⟨oneLine_of_plainKey (h.keys p hp), by decide⟩, h.values p hp⟩

/-- The lines of what is rendered from plain sections. -/
theorem lines_render {sections : List Section} (h : ∀ s ∈ sections, s.Plain) :
    lines (render sections) = sections.flatMap Section.lines := by
  refine lines_unlines fun l hl => ?_
  obtain ⟨s, hs, hl⟩ := List.mem_flatMap.mp hl
  obtain ⟨hnewline, hreturn⟩ := oneLine_iff.mp ((h s hs).line hl)
  exact ⟨hnewline, stripSuffix_return hreturn⟩

/-- What is rendered from plain sections reads back as those sections. -/
theorem read_render {sections : List Section} (h : ∀ s ∈ sections, s.Plain) :
    read (render sections) = some sections := by
  rw [read, lines_render h, readLines_sections h]

end Ini
