import Mathlib.Algebra.Ring.Int.Defs
import Mathlib.Algebra.Ring.Nat
import Mathlib.Data.List.DropRight
import Mathlib.Data.List.TakeDrop
import Mathlib.Data.List.TakeWhile
import Mathlib.Data.String.Basic

/-! Strings and bytes as a systems language sees them. A string is a sequence of Unicode scalars
    whose length is counted in UTF-8 bytes; a process answers with bytes, which become a string only
    when they decode. The operations are the usual ones (`strip_prefix`, `split_once`, `split`,
    `lines`, `trim`, decimal parsing); each has one lemma saying what it returns in terms of `++`.

    Predicates over bytes that only admit ASCII are written over characters: a scalar above
    `U+007F` has no byte below `0x80`, so both readings refuse it. -/

namespace Text

abbrev Bytes := List UInt8

/-- The UTF-8 encoding of a string. -/
def utf8 (s : String) : Bytes := s.toList.flatMap String.utf8EncodeChar

/-- The string a byte sequence encodes, if it is valid UTF-8. -/
def fromUtf8 (b : Bytes) : Option String := String.fromUTF8? ⟨b.toArray⟩

/-- Length in bytes (`str::len`). -/
def len (s : String) : ℕ := s.utf8ByteSize

def all (p : Char → Bool) (s : String) : Bool := s.toList.all p

def contains (c : Char) (s : String) : Bool := s.toList.contains c

def startsWith (p s : String) : Bool := p.toList.isPrefixOf s.toList

def endsWith (p s : String) : Bool := p.toList.isSuffixOf s.toList

def stripPrefix (p s : String) : Option String := (p.toList.isPrefixOf? s.toList).map String.ofList

def stripSuffix (p s : String) : Option String := (p.toList.isSuffixOf? s.toList).map String.ofList

/-- The parts before and after the first `c`. -/
def splitOnce (c : Char) (s : String) : Option (String × String) :=
  match s.toList.span (· ≠ c) with
  | (_, []) => none
  | (a, _ :: b) => some (String.ofList a, String.ofList b)

/-- The pieces between the occurrences of `c`; never empty. -/
def split (c : Char) (s : String) : List String := (s.toList.splitOn c).map String.ofList

/-- Unicode `White_Space`. -/
def isWhitespace (c : Char) : Bool :=
  (9 ≤ c.toNat && c.toNat ≤ 13) || (0x2000 ≤ c.toNat && c.toNat ≤ 0x200A) ||
    [0x20, 0x85, 0xA0, 0x1680, 0x2028, 0x2029, 0x202F, 0x205F, 0x3000].contains c.toNat

/-- Unicode general category `Cc`. -/
def isControl (c : Char) : Bool := c.toNat ≤ 0x1F || (0x7F ≤ c.toNat && c.toNat ≤ 0x9F)

def isAsciiWhitespace (c : Char) : Bool := [0x20, 0x09, 0x0A, 0x0C, 0x0D].contains c.toNat

def isAsciiControl (c : Char) : Bool := c.toNat ≤ 0x1F || c.toNat == 0x7F

def isLowerHex (c : Char) : Bool := c.isDigit || ('a' ≤ c && c ≤ 'f')

def isUpperHex (c : Char) : Bool := c.isDigit || ('A' ≤ c && c ≤ 'F')

def trimEnd (s : String) : String := String.ofList (s.toList.rdropWhile isWhitespace)

def trim (s : String) : String :=
  String.ofList ((s.toList.dropWhile isWhitespace).rdropWhile isWhitespace)

/-- Drop one trailing carriage return. -/
def stripCr (s : String) : String := (stripSuffix "\r" s).getD s

/-- `str::lines`: pieces ended by `\n` or `\r\n`; a last piece without an end counts when nonempty. -/
def lines (s : String) : List String :=
  let pieces := split '\n' s
  pieces.dropLast.map stripCr ++ (pieces.getLast?.toList.filter (· ≠ ""))

def splitAsciiWhitespace (s : String) : List String :=
  ((s.toList.splitOnP isAsciiWhitespace).filter (· ≠ [])).map String.ofList

def asciiLowercase (s : String) : String := String.ofList (s.toList.map Char.toLower)

def eqIgnoreAsciiCase (s t : String) : Bool := asciiLowercase s == asciiLowercase t

/-- Printable ASCII other than the space. -/
def isGraphic (c : Char) : Bool := 33 ≤ c.toNat && c.toNat ≤ 126

/-- A nonempty run of ASCII digits. -/
def isDigits (s : String) : Bool := s ≠ "" && all Char.isDigit s

/-- `parse::<uN>()`: an optional `+`, digits, and a value below `2 ^ bits`. -/
def parseUnsigned (bits : ℕ) (s : String) : Option ℕ :=
  let digits := (stripPrefix "+" s).getD s
  if isDigits digits && Nat.ofDigitChars 10 digits.toList 0 < 2 ^ bits then
    some (Nat.ofDigitChars 10 digits.toList 0)
  else none

/-- Replacement from left to right, with at most `fuel` characters still to look at. -/
def replaceList (old new : List Char) : ℕ → List Char → List Char
  | fuel + 1, c :: s =>
    match old.isPrefixOf? (c :: s) with
    | some rest => new ++ replaceList old new fuel rest
    | none => c :: replaceList old new fuel s
  | _, _ => []

/-- `str::replace` of a nonempty pattern. -/
def replace (old new s : String) : String :=
  String.ofList (replaceList old.toList new.toList s.toList.length s.toList)

/-- The parts before and after the last `c`. -/
def rsplitOnce (c : Char) (s : String) : Option (String × String) :=
  match s.toList.reverse.span (· ≠ c) with
  | (_, []) => none
  | (b, _ :: a) => some (String.ofList a.reverse, String.ofList b.reverse)

/-! ### What the operations return -/

@[simp] theorem all_append (p : Char → Bool) (s t : String) :
    all p (s ++ t) = (all p s && all p t) := by
  simp [all]

@[simp] theorem len_append (s t : String) : len (s ++ t) = len s + len t := by
  simp [len]

theorem all_iff {p : Char → Bool} {s : String} : all p s = true ↔ ∀ c ∈ s.toList, p c = true := by
  simp [all]

/-! A literal is `String.ofList` of its characters: these state what the operations return of one. -/

theorem all_ofList (p : Char → Bool) (cs : List Char) : all p (String.ofList cs) = cs.all p := by
  rw [all, String.toList_ofList]

theorem all_chars {p : Char → Bool} {cs : List Char} (h : cs.all p = true) : all p (String.ofList cs) = true :=
  (all_ofList p cs).trans h

theorem split_ofList (c : Char) (cs : List Char) :
    split c (String.ofList cs) = (cs.splitOn c).map String.ofList := by
  rw [split, String.toList_ofList]

theorem isGraphic_of_isAlphanum {c : Char} (h : c.isAlphanum = true) : isGraphic c = true := by
  change (decide (65 ≤ c.val ∧ c.val ≤ 90) || decide (97 ≤ c.val) && decide (c.val ≤ 122) ||
    decide (48 ≤ c.val) && decide (c.val ≤ 57)) = true at h
  simp only [Bool.or_eq_true, Bool.and_eq_true, decide_eq_true_eq, UInt32.le_iff_toNat_le,
    Char.toNat_val] at h
  simp only [isGraphic, Bool.and_eq_true, decide_eq_true_eq]
  change ((65 ≤ _ ∧ _ ≤ 90) ∨ (97 ≤ _ ∧ _ ≤ 122)) ∨ (48 ≤ _ ∧ _ ≤ 57) at h
  omega

theorem isGraphic_of_isLowerHex {c : Char} (h : isLowerHex c = true) : isGraphic c = true := by
  rw [isLowerHex, Bool.or_eq_true] at h
  rcases h with h | h
  · exact isGraphic_of_isAlphanum (by simp [Char.isAlphanum, h])
  · simp only [Bool.and_eq_true, decide_eq_true_eq, Char.le_def, UInt32.le_iff_toNat_le,
      Char.toNat_val] at h
    simp only [isGraphic, Bool.and_eq_true, decide_eq_true_eq]
    change 97 ≤ _ ∧ _ ≤ 102 at h
    omega

/-- A listed set of characters is checked character by character. -/
theorem forall_chars {p : Char → Prop} [DecidablePred p] {cs : List Char}
    (h : (cs.all fun c => decide (p c)) = true) : ∀ c ∈ cs, p c := by
  intro c hc
  exact of_decide_eq_true (List.all_eq_true.mp h c hc)

/-- Nothing is dropped at either end of a list without such members. -/
theorem rdropWhile_dropWhile {α : Type} {p : α → Bool} {l : List α} (h : ∀ a ∈ l, p a = false) :
    (l.dropWhile p).rdropWhile p = l := by
  have hfirst : l.dropWhile p = l := by
    rw [List.dropWhile_eq_self_iff]
    intro hlen
    rw [h _ (List.getElem_mem hlen)]
    exact Bool.false_ne_true
  rw [hfirst, List.rdropWhile_eq_self_iff]
  intro hne
  rw [h _ (List.getLast_mem hne)]
  exact Bool.false_ne_true

/-- Text over letters, digits and graphic punctuation is graphic. -/
theorem isGraphic_of_all {s : String} {punctuation : List Char}
    (hp : ∀ c ∈ punctuation, isGraphic c = true)
    (h : all (fun c => c.isAlphanum || punctuation.contains c) s = true) :
    ∀ c ∈ s.toList, isGraphic c = true := by
  intro c hc
  have := all_iff.mp h c hc
  simp only [Bool.or_eq_true, List.contains_iff_mem] at this
  exact this.elim isGraphic_of_isAlphanum (hp c)

theorem stripPrefix_eq_some {p s r : String} : stripPrefix p s = some r ↔ s = p ++ r := by
  simp only [stripPrefix, Option.map_eq_some_iff, List.isPrefixOf?_eq_some_iff_append_eq]
  constructor
  · rintro ⟨l, hl, rfl⟩
    rw [← String.toList_inj]
    simp [← hl]
  · rintro rfl
    exact ⟨r.toList, by simp, by simp⟩

theorem stripSuffix_eq_some {p s r : String} : stripSuffix p s = some r ↔ s = r ++ p := by
  simp only [stripSuffix, Option.map_eq_some_iff, List.isSuffixOf?_eq_some_iff_append_eq]
  constructor
  · rintro ⟨l, hl, rfl⟩
    rw [← String.toList_inj]
    simp [← hl]
  · rintro rfl
    exact ⟨r.toList, by simp, by simp⟩

theorem stripPrefix_append (p r : String) : stripPrefix p (p ++ r) = some r :=
  stripPrefix_eq_some.mpr rfl

theorem stripSuffix_append (p r : String) : stripSuffix p (r ++ p) = some r :=
  stripSuffix_eq_some.mpr rfl

theorem splitOnce_eq_some {c : Char} {s a b : String} :
    splitOnce c s = some (a, b) ↔ s.toList = a.toList ++ c :: b.toList ∧ c ∉ a.toList := by
  have hspan : s.toList.span (· ≠ c) =
      (s.toList.takeWhile (· ≠ c), s.toList.dropWhile (· ≠ c)) := List.span_eq_takeWhile_dropWhile _ _
  rw [splitOnce, hspan]
  constructor
  · intro h
    split at h
    · cases h
    · next a' x b' heq =>
      simp only [Option.some.injEq, Prod.mk.injEq] at h heq
      obtain ⟨rfl, rfl⟩ := h
      obtain ⟨rfl, hd⟩ := heq
      have hx : x = c := by
        have := List.head?_dropWhile_not (fun y => decide (y ≠ c)) s.toList
        rw [hd] at this
        simpa using this
      subst hx
      constructor
      · conv_lhs => rw [← List.takeWhile_append_dropWhile (p := fun y => decide (y ≠ x)) (l := s.toList)]
        rw [hd]; simp
      · intro hc
        have := List.mem_takeWhile_imp (String.toList_ofList ▸ hc)
        simp at this
  · rintro ⟨hs, hc⟩
    have hall : ∀ y ∈ a.toList, decide (y ≠ c) = true := by
      intro y hy; simp only [decide_eq_true_eq]; rintro rfl; exact hc hy
    have ht : s.toList.takeWhile (fun y => decide (y ≠ c)) = a.toList := by
      rw [hs, List.takeWhile_append_of_pos hall]; simp
    have hd : s.toList.dropWhile (fun y => decide (y ≠ c)) = c :: b.toList := by
      rw [hs, List.dropWhile_append_of_pos hall]; simp
    rw [ht, hd]
    simp

theorem notMem_of_splitOnce {c : Char} {s : String} (h : splitOnce c s = none) : c ∉ s.toList := by
  intro hmem
  obtain ⟨a, b, hab, hfree⟩ := List.eq_append_cons_of_mem hmem
  have hsome : splitOnce c s = some (String.ofList a, String.ofList b) :=
    splitOnce_eq_some.mpr ⟨by simpa using hab, by simpa using hfree⟩
  rw [h] at hsome
  cases hsome

/-- Two strings split at the same separator agree part by part when it is in neither tail. -/
theorem append_sep_inj {c : Char} {a a' b b' : List Char} (hb : c ∉ b) (hb' : c ∉ b')
    (h : a ++ c :: b = a' ++ c :: b') : a = a' ∧ b = b' := by
  rcases List.append_eq_append_iff.mp h with ⟨d, rfl, hd⟩ | ⟨d, rfl, hd⟩
  · cases d with
    | nil => simpa using hd
    | cons x d =>
      simp only [List.cons_append, List.cons.injEq] at hd
      exact absurd (hd.2 ▸ by simp) hb
  · cases d with
    | nil => simpa using hd.symm
    | cons x d =>
      simp only [List.cons_append, List.cons.injEq] at hd
      exact absurd (hd.2 ▸ by simp) hb'

/-- A piece without the separator ends at the first separator. -/
theorem split_append {c : Char} {a sep : String} (hsep : sep.toList = [c]) (h : c ∉ a.toList)
    (b : String) : split c (a ++ sep ++ b) = a :: split c b := by
  rw [split, split, String.toList_append, String.toList_append, hsep, List.append_assoc,
    List.singleton_append, List.splitOn_append_cons_self_of_not_mem h]
  simp

theorem split_of_notMem {c : Char} {s : String} (h : c ∉ s.toList) : split c s = [s] := by
  rw [split, List.splitOn_eq_singleton h]
  simp

theorem startsWith_iff {p s : String} : startsWith p s = true ↔ ∃ rest, s = p ++ rest := by
  rw [startsWith, List.isPrefixOf_iff_prefix]
  constructor
  · rintro ⟨rest, hrest⟩
    refine ⟨String.ofList rest, ?_⟩
    rw [← String.toList_inj]
    simp [← hrest]
  · rintro ⟨rest, rfl⟩
    exact ⟨rest.toList, by simp⟩

/-! ### Text put together from pieces -/

/-- Each piece on a line of its own. -/
def unlines : List String → String
  | [] => ""
  | l :: ls => l ++ "\n" ++ unlines ls

/-- Pieces with one space between them. -/
def unwords : List String → String
  | [] => ""
  | [w] => w
  | w :: ws => w ++ " " ++ unwords ws

/-- A piece without a line feed is the first line. -/
theorem lines_append {l : String} (hl : '\n' ∉ l.toList) (s : String) :
    lines (l ++ "\n" ++ s) = stripCr l :: lines s := by
  have hnewline : "\n".toList = ['\n'] := by decide
  have hne : split '\n' s ≠ [] := by simp [split, List.splitOn, List.splitOnP_ne_nil]
  rw [lines, split_append hnewline hl, List.dropLast_cons_of_ne_nil hne,
    List.getLast?_cons_of_ne_nil hne, List.map_cons, List.cons_append]
  rfl

/-- Text without a carriage return ends in none. -/
theorem stripSuffix_return {l : String} (h : '\r' ∉ l.toList) : stripSuffix "\r" l = none := by
  cases hs : stripSuffix "\r" l with
  | none => rfl
  | some r =>
    refine absurd ?_ h
    rw [stripSuffix_eq_some.mp hs]
    simp

theorem all_unwords {p : Char → Bool} (hp : p ' ' = true) : ∀ {ws : List String},
    (∀ w ∈ ws, all p w = true) → all p (unwords ws) = true
  | [], _ => rfl
  | [w], h => h w (by simp)
  | w :: v :: ws, h => by
    obtain ⟨hw, hws⟩ := List.forall_mem_cons.mp h
    have hspace : all p " " = true := by
      have : " ".toList = [' '] := by decide
      simp [all, this, hp]
    rw [unwords, all_append, all_append, hw, hspace, all_unwords hp hws]
    · rfl
    · simp

theorem all_unlines {p : Char → Bool} (hp : p '\n' = true) : ∀ {ls : List String},
    (∀ l ∈ ls, all p l = true) → all p (unlines ls) = true
  | [], _ => rfl
  | l :: ls, h => by
    obtain ⟨hl, hls⟩ := List.forall_mem_cons.mp h
    have hnewline : all p "\n" = true := by
      have : "\n".toList = ['\n'] := by decide
      simp [all, this, hp]
    rw [unlines, all_append, all_append, hl, hnewline, all_unlines hp hls]
    rfl

theorem stripCr_cases (l : String) : stripCr l = l ∨ l = stripCr l ++ "\r" := by
  rw [stripCr]
  cases hstrip : stripSuffix "\r" l with
  | none => exact .inl rfl
  | some rest => exact .inr (stripSuffix_eq_some.mp hstrip)

theorem lines_unlines_stripCr {ls : List String} (h : ∀ l ∈ ls, '\n' ∉ l.toList) :
    lines (unlines ls) = ls.map stripCr := by
  induction ls with
  | nil => decide
  | cons l ls ih =>
    obtain ⟨hl, hls⟩ := List.forall_mem_cons.mp h
    rw [unlines, lines_append hl, ih hls, List.map_cons]

/-- What is written line by line reads back line by line. -/
theorem lines_unlines {ls : List String}
    (h : ∀ l ∈ ls, '\n' ∉ l.toList ∧ stripSuffix "\r" l = none) : lines (unlines ls) = ls := by
  rw [lines_unlines_stripCr fun l hl => (h l hl).1]
  refine (List.map_congr_left fun l hl => ?_).trans (List.map_id _)
  rw [stripCr, (h l hl).2]
  rfl

/-- What is written word by word reads back word by word. -/
theorem splitAsciiWhitespace_unwords : ∀ {ws : List String},
    (∀ w ∈ ws, w ≠ "" ∧ all (fun c => !isAsciiWhitespace c) w = true) →
    splitAsciiWhitespace (unwords ws) = ws
  | [], _ => by decide
  | w :: ws, h => by
    obtain ⟨⟨hw, hall⟩, hws⟩ := List.forall_mem_cons.mp h
    have hfree : ∀ c ∈ w.toList, isAsciiWhitespace c = false := by simpa [all] using hall
    have hlist : w.toList ≠ [] := by simpa using hw
    cases ws with
    | nil =>
      rw [unwords, splitAsciiWhitespace, List.splitOnP_eq_singleton hfree]
      simp [hlist]
    | cons w' ws =>
      have hspace : (w ++ " " ++ unwords (w' :: ws)).toList =
          w.toList ++ ' ' :: (unwords (w' :: ws)).toList := by
        have : " ".toList = [' '] := by decide
        simp [this]
      have hrest := splitAsciiWhitespace_unwords hws
      rw [splitAsciiWhitespace] at hrest ⊢
      rw [unwords, hspace, List.splitOnP_append_cons_of_forall_mem hfree ' ' (by decide),
        List.filter_cons_of_pos (by simpa using hlist), List.map_cons, String.ofList_toList]
      · exact congrArg (w :: ·) hrest
      · simp

/-- Every character of a replacement comes from the text or from what is put in. -/
theorem all_replace {p : Char → Bool} {old new s : String} (hnew : all p new = true)
    (h : all p s = true) : all p (replace old new s) = true := by
  have hlist : ∀ (fuel : ℕ) (l : List Char), (∀ c ∈ l, p c = true) →
      ∀ c ∈ replaceList old.toList new.toList fuel l, p c = true := by
    intro fuel
    induction fuel with
    | zero => exact fun l hl => by simp [replaceList]
    | succ fuel ih =>
      intro l hl
      cases l with
      | nil => exact fun c hc => by simp [replaceList] at hc
      | cons d l =>
        rw [replaceList]
        cases hrest : old.toList.isPrefixOf? (d :: l) with
        | none =>
          obtain ⟨hd, hl⟩ := List.forall_mem_cons.mp hl
          exact List.forall_mem_cons.mpr ⟨hd, ih l hl⟩
        | some rest =>
          have hsub : ∀ c ∈ rest, p c = true := by
            intro c hc
            rw [List.isPrefixOf?_eq_some_iff_append_eq] at hrest
            exact hl c (hrest ▸ List.mem_append_right _ hc)
          intro c hc
          rcases List.mem_append.mp hc with hc | hc
          · exact all_iff.mp hnew c hc
          · exact ih rest hsub c hc
  rw [all_iff, replace, String.toList_ofList]
  exact hlist _ _ (all_iff.mp h)

/-! ### Pieces and their separator -/

/-- The pieces with `c` between them (`c.join(pieces)`). -/
def join (c : Char) (pieces : List String) : String :=
  String.ofList ([c].intercalate (pieces.map String.toList))

theorem split_join {c : Char} {pieces : List String} (h : ∀ l ∈ pieces, c ∉ l.toList)
    (hne : pieces ≠ []) : split c (join c pieces) = pieces := by
  have hfree : ∀ l ∈ pieces.map String.toList, c ∉ l := by
    intro l hl
    obtain ⟨piece, hp, rfl⟩ := List.mem_map.mp hl
    exact h piece hp
  rw [split, join, String.toList_ofList, List.splitOn_intercalate c hfree (by simpa using hne),
    List.map_map]
  exact (List.map_congr_left fun l _ => String.ofList_toList).trans (List.map_id _)

theorem join_split (c : Char) (s : String) : join c (split c s) = s := by
  rw [join, split, List.map_map]
  have : (String.toList ∘ String.ofList) = id := by funext l; simp
  rw [this, List.map_id, List.intercalate_splitOn, String.ofList_toList]

theorem split_ne_nil (c : Char) (s : String) : split c s ≠ [] := by
  simp [split, List.splitOn_ne_nil]

/-- No piece has the separator. -/
theorem splitOn_free {c : Char} : ∀ {l p : List Char}, p ∈ l.splitOn c → c ∉ p
  | [], p, h => by simp_all
  | x :: l, p, h => by
    rw [List.splitOn_cons_eq_if_modifyHead] at h
    split at h
    · rcases List.mem_cons.mp h with rfl | h
      · simp
      · exact splitOn_free h
    · next hx =>
      obtain ⟨q, qs, hq⟩ := List.exists_cons_of_ne_nil (List.splitOn_ne_nil c l)
      rw [hq, List.modifyHead_cons] at h
      rcases List.mem_cons.mp h with rfl | h
      · have := @splitOn_free c l q (hq ▸ List.mem_cons_self)
        simp only [List.mem_cons, not_or]
        exact ⟨fun hc => hx (by simp [hc]), this⟩
      · exact splitOn_free (hq ▸ List.mem_cons_of_mem q h)

theorem split_free {c : Char} {s p : String} (h : p ∈ split c s) : c ∉ p.toList := by
  obtain ⟨l, hl, rfl⟩ := List.mem_map.mp h
  simpa using splitOn_free hl

theorem all_join {p : Char → Bool} {c : Char} (hc : p c = true) : ∀ {pieces : List String},
    (∀ s ∈ pieces, all p s = true) → all p (join c pieces) = true := by
  intro pieces h
  rw [all_iff, join, String.toList_ofList]
  induction pieces with
  | nil => simp
  | cons s pieces ih =>
    obtain ⟨hs, hrest⟩ := List.forall_mem_cons.mp h
    intro x hx
    cases pieces with
    | nil => exact all_iff.mp hs x (by simpa using hx)
    | cons t pieces =>
      rw [List.map_cons, List.intercalate_cons_of_ne_nil (by simp), List.mem_append,
        List.mem_append, List.mem_singleton] at hx
      rcases hx with (hx | rfl) | hx
      · exact all_iff.mp hs x hx
      · exact hc
      · exact ih hrest x hx

/-- Lines are pieces with a line feed between them and one behind. -/
theorem join_newline : ∀ {pieces : List String}, pieces ≠ [] →
    join '\n' pieces ++ "\n" = unlines pieces := by
  intro pieces hne
  induction pieces with
  | nil => exact absurd rfl hne
  | cons l pieces ih =>
    cases pieces with
    | nil => simp [join, unlines]
    | cons l' pieces =>
      have hcons : join '\n' (l :: l' :: pieces) = l ++ "\n" ++ join '\n' (l' :: pieces) := by
        have hnewline : "\n".toList = ['\n'] := by decide
        rw [← String.toList_inj]
        simp [join, hnewline, List.intercalate_cons_of_ne_nil]
      rw [hcons, unlines, ← ih (by simp), String.append_assoc]

theorem unlines_append (xs ys : List String) : unlines (xs ++ ys) = unlines xs ++ unlines ys := by
  induction xs with
  | nil => simp [unlines]
  | cons x xs ih =>
    rw [List.cons_append, unlines, unlines, ih]
    simp only [String.append_assoc]

theorem len_unlines (pieces : List String) :
    len (unlines pieces) = (pieces.map fun l => len l + 1).sum := by
  induction pieces with
  | nil => rfl
  | cons l pieces ih =>
    have hnewline : len "\n" = 1 := by decide
    rw [unlines, len_append, len_append, hnewline, ih, List.map_cons, List.sum_cons]

theorem rsplitOnce_eq_some {c : Char} {s a b : String} :
    rsplitOnce c s = some (a, b) ↔ s.toList = a.toList ++ c :: b.toList ∧ c ∉ b.toList := by
  have hreverse : rsplitOnce c s = (splitOnce c (String.ofList s.toList.reverse)).map fun p =>
      (String.ofList p.2.toList.reverse, String.ofList p.1.toList.reverse) := by
    rw [rsplitOnce, splitOnce, String.toList_ofList]
    split <;> simp_all
  rw [hreverse, Option.map_eq_some_iff]
  constructor
  · rintro ⟨⟨x, y⟩, hsplit, heq⟩
    obtain ⟨hlist, hfree⟩ := splitOnce_eq_some.mp hsplit
    obtain ⟨rfl, rfl⟩ := Prod.mk.inj heq
    have hs := congrArg List.reverse hlist
    simp only [String.toList_ofList, List.reverse_reverse, List.reverse_append, List.reverse_cons,
      List.append_assoc, List.singleton_append] at hs
    simpa [hs] using hfree
  · rintro ⟨hlist, hfree⟩
    refine ⟨(String.ofList b.toList.reverse, String.ofList a.toList.reverse),
      splitOnce_eq_some.mpr ⟨?_, by simpa using hfree⟩, by simp⟩
    simp [hlist]

/-! ### Decimal numbers -/

theorem isDigits_repr (n : ℕ) : isDigits n.repr = true := by
  have hne : n.repr ≠ "" := Nat.repr_ne_empty
  have hall : all Char.isDigit n.repr = true := by
    rw [all_iff, Nat.toList_repr]
    exact fun c hc => Nat.isDigit_of_mem_toDigits (by decide) (by decide) hc
  simp [isDigits, hne, hall]

/-- Digits parse to the number they write, below the bound. -/
theorem parseUnsigned_digits {s : String} (h : isDigits s = true) (bits : ℕ) :
    parseUnsigned bits s = if Nat.ofDigitChars 10 s.toList 0 < 2 ^ bits then
      some (Nat.ofDigitChars 10 s.toList 0) else none := by
  have hplus : stripPrefix "+" s = none := by
    by_contra hne
    obtain ⟨r, hr⟩ := Option.ne_none_iff_exists'.mp hne
    have hd := (Bool.and_eq_true _ _ ▸ h).2
    rw [stripPrefix_eq_some.mp hr, all_append] at hd
    simp [all] at hd
  rw [parseUnsigned, hplus]
  simp [h]

/-- What is printed in decimal parses back, below the bound. -/
theorem parseUnsigned_lt {bits n : ℕ} {s : String} (h : parseUnsigned bits s = some n) :
    n < 2 ^ bits := by
  rw [parseUnsigned] at h
  split at h
  · next hdigits =>
    cases h
    simp only [Bool.and_eq_true, decide_eq_true_eq] at hdigits
    exact hdigits.2
  · cases h

theorem parseUnsigned_repr {bits n : ℕ} (hn : n < 2 ^ bits) :
    parseUnsigned bits n.repr = some n := by
  rw [parseUnsigned_digits (isDigits_repr n)]
  simp [Nat.toList_repr, Nat.ofDigitChars_ten_toDigits, hn]

/-- A digit is the one its value writes. -/
theorem digitChar_of_isDigit {c : Char} (h : c.isDigit = true) :
    c.toNat - '0'.toNat < 10 ∧ (c.toNat - '0'.toNat).digitChar = c := by
  have hrange : 48 ≤ c.toNat ∧ c.toNat ≤ 57 := by
    simpa [Char.isDigit, UInt32.le_iff_toNat_le] using h
  have hall : ∀ n < 10, (n + 48).isValidChar ∧ n.digitChar = Char.ofNat (n + 48) := by decide
  have hzero : '0'.toNat = 48 := by decide
  refine ⟨by omega, ?_⟩
  rw [(hall _ (by omega)).2, hzero, Nat.sub_add_cancel hrange.1, Char.ofNat_toNat]

/-- Digits without a leading zero are what their number is printed as. -/
theorem toDigits_ofDigitChars {ds : List Char} (hdigits : ∀ c ∈ ds, c.isDigit = true)
    (hhead : ∃ c cs, ds = c :: cs ∧ c ≠ '0') : Nat.toDigits 10 (Nat.ofDigitChars 10 ds 0) = ds ∧
      0 < Nat.ofDigitChars 10 ds 0 := by
  induction ds using List.reverseRecOn with
  | nil => simp at hhead
  | append_singleton ds c ih =>
    obtain ⟨hlt, hchar⟩ := digitChar_of_isDigit (hdigits c (by simp))
    rw [Nat.ofDigitChars_append, Nat.ofDigitChars_cons, Nat.ofDigitChars_nil]
    obtain ⟨c', cs, heq, hne⟩ := hhead
    cases ds with
    | nil =>
      obtain ⟨rfl, -⟩ := List.cons.inj heq
      have hpos : c.toNat - '0'.toNat ≠ 0 := by
        intro h
        rw [h] at hchar
        exact hne hchar.symm
      rw [Nat.ofDigitChars_nil, Nat.mul_zero, Nat.zero_add, Nat.toDigits_of_lt_base hlt, hchar]
      exact ⟨rfl, by omega⟩
    | cons d ds =>
      obtain ⟨rfl, -⟩ := List.cons.inj heq
      obtain ⟨htext, hpos⟩ := ih (fun x hx => hdigits x (List.mem_append_left _ hx)) ⟨_, _, rfl, hne⟩
      refine ⟨?_, by omega⟩
      rw [← Nat.toDigits_append_toDigits (by decide) hpos hlt, htext, Nat.toDigits_of_lt_base hlt, hchar]

/-- Digits without their leading zeros. -/
def dropZeros (digits : String) : String :=
  match digits.toList.dropWhile (· = '0') with
  | [] => "0"
  | ds => String.ofList ds

theorem ofDigitChars_dropWhile : ∀ ds : List Char,
    Nat.ofDigitChars 10 (ds.dropWhile (· = '0')) 0 = Nat.ofDigitChars 10 ds 0 := by
  intro ds
  induction ds with
  | nil => rfl
  | cons d ds ih =>
    by_cases hd : d = '0'
    · subst hd
      rw [List.dropWhile_cons_of_pos (by decide), ih, Nat.ofDigitChars_cons]
      rfl
    · rw [List.dropWhile_cons_of_neg (by simpa using hd)]

/-- Without their leading zeros, digits are what their number is printed as. -/
theorem dropZeros_eq_repr {digits : String} (h : all Char.isDigit digits = true) :
    dropZeros digits = (Nat.ofDigitChars 10 digits.toList 0).repr := by
  rw [← String.toList_inj, Nat.toList_repr, ← ofDigitChars_dropWhile, dropZeros]
  cases hds : digits.toList.dropWhile (· = '0') with
  | nil => decide
  | cons d ds =>
    have hne : d ≠ '0' := by
      have := List.head?_dropWhile_not (fun c => decide (c = '0')) digits.toList
      rw [hds] at this
      simpa using this
    have hmem : ∀ c ∈ d :: ds, c.isDigit = true := by
      intro c hc
      rw [← hds] at hc
      exact all_iff.mp h c ((List.dropWhile_sublist _).mem hc)
    rw [(toDigits_ofDigitChars hmem ⟨d, ds, rfl, hne⟩).1, String.toList_ofList]

theorem len_dropZeros_le {digits : String} (h : isDigits digits = true) :
    (dropZeros digits).toList.length ≤ digits.toList.length := by
  simp only [isDigits, Bool.and_eq_true, decide_eq_true_eq] at h
  rw [dropZeros]
  cases hds : digits.toList.dropWhile (· = '0') with
  | nil =>
    have hpos : digits.toList ≠ [] := by simpa using h.1
    exact List.length_pos_iff.mpr hpos
  | cons d ds =>
    simp only [String.toList_ofList, ← hds]
    exact (List.dropWhile_sublist _).length_le

/-! ### Bytes -/

theorem utf8_append (s t : String) : utf8 (s ++ t) = utf8 s ++ utf8 t := by
  simp [utf8]

theorem toByteArray_utf8 (s : String) : (⟨(utf8 s).toArray⟩ : ByteArray) = s.toByteArray := by
  obtain ⟨l, rfl⟩ := s.exists_eq_ofList
  rw [String.toByteArray_ofList, List.utf8Encode, utf8, String.toList_ofList]
  exact ByteArray.ext List.data_toByteArray.symm

theorem length_utf8 (s : String) : (utf8 s).length = len s := by
  have := congrArg (fun x : ByteArray => x.data.toList.length) (toByteArray_utf8 s)
  simpa [len] using this

/-- A byte sequence decodes to `s` exactly when it is the encoding of `s`. -/
theorem fromUtf8_eq_some {b : Bytes} {s : String} : fromUtf8 b = some s ↔ b = utf8 s := by
  constructor
  · intro h
    rw [fromUtf8, String.fromUTF8?] at h
    split at h
    · next hv =>
      simp only [Option.some.injEq] at h
      have hs : s.toByteArray = ⟨b.toArray⟩ := by rw [← h]; rfl
      rw [← toByteArray_utf8] at hs
      have := congrArg (fun x : ByteArray => x.data.toList) hs
      simpa using this.symm
    · cases h
  · rintro rfl
    rw [fromUtf8, String.fromUTF8?, toByteArray_utf8, dif_pos s.isValidUTF8]
    rfl

@[simp] theorem fromUtf8_utf8 (s : String) : fromUtf8 (utf8 s) = some s := fromUtf8_eq_some.mpr rfl

theorem utf8_injective : Function.Injective utf8 := fun s t h => by
  have := fromUtf8_utf8 s
  rw [h, fromUtf8_utf8] at this
  exact (Option.some.inj this).symm

/-- The encoding of ASCII text has no byte whose character the text does not have. -/
theorem notMem_utf8 {b : UInt8} {s : String} (hascii : ∀ c ∈ s.toList, c.toNat < 128)
    (h : ∀ c ∈ s.toList, c.toNat ≠ b.toNat) : b ∉ utf8 s := by
  simp only [utf8, List.mem_flatMap, not_exists, not_and]
  intro c hc hb
  have hsize : c.utf8Size = 1 := by
    have := hascii c hc
    rw [Char.utf8Size_eq_one_iff]
    show c.val.toNat ≤ 127
    exact Nat.le_of_lt_succ this
  rw [String.utf8EncodeChar_eq_singleton hsize, List.mem_singleton] at hb
  apply h c hc
  rw [hb, UInt32.toNat_toUInt8]
  exact (Nat.mod_eq_of_lt (Nat.lt_trans (hascii c hc) (by decide))).symm

theorem len_of_ascii {s : String} (hascii : ∀ c ∈ s.toList, c.toNat < 128) :
    len s = s.toList.length := by
  rw [← length_utf8, utf8, List.length_flatMap]
  have hone : ∀ c ∈ s.toList, (String.utf8EncodeChar c).length = 1 := by
    intro c hc
    rw [String.length_utf8EncodeChar, Char.utf8Size_eq_one_iff]
    exact Nat.le_of_lt_succ (hascii c hc)
  rw [List.map_congr_left hone]
  simp

/-- A byte of encoded ASCII text is the code of one of its characters. -/
theorem exists_of_mem_utf8 {s : String} (hascii : ∀ c ∈ s.toList, c.toNat < 128) {b : UInt8}
    (hb : b ∈ utf8 s) : ∃ c ∈ s.toList, c.toNat = b.toNat := by
  by_contra hnone
  simp only [not_exists, not_and] at hnone
  exact notMem_utf8 hascii hnone hb

/-- ASCII bytes as text. -/
def asciiText (bytes : Bytes) : String := String.ofList (bytes.map fun b => Char.ofNat b.toNat)

theorem toNat_asciiChar {b : UInt8} (hb : b.toNat < 128) : (Char.ofNat b.toNat).toNat = b.toNat := by
  have hvalid : b.toNat.isValidChar := .inl (by omega)
  rw [Char.ofNat, dif_pos hvalid]
  rfl

/-- ASCII bytes are the encoding of their text. -/
theorem utf8_asciiText {bytes : Bytes} (hascii : ∀ b ∈ bytes, b.toNat < 128) :
    utf8 (asciiText bytes) = bytes := by
  rw [utf8, asciiText, String.toList_ofList, List.flatMap_map]
  have hchar : ∀ b ∈ bytes, String.utf8EncodeChar (Char.ofNat b.toNat) = [b] := by
    intro b hb
    have hnat := toNat_asciiChar (hascii b hb)
    have hsize : (Char.ofNat b.toNat).utf8Size = 1 := by
      rw [Char.utf8Size_eq_one_iff]
      show (Char.ofNat b.toNat).toNat ≤ 127
      have := hascii b hb
      omega
    rw [String.utf8EncodeChar_eq_singleton hsize]
    congr 1
    apply UInt8.toNat_inj.mp
    rw [UInt32.toNat_toUInt8]
    show (Char.ofNat b.toNat).toNat % 256 = b.toNat
    rw [hnat]
    have := hascii b hb
    omega
  induction bytes with
  | nil => rfl
  | cons b bytes ih =>
    rw [List.flatMap_cons, hchar b (by simp)]
    have := ih (fun c hc => hascii c (by simp [hc])) fun c hc => hchar c (by simp [hc])
    simpa using this

theorem asciiText_append (a b : Bytes) : asciiText (a ++ b) = asciiText a ++ asciiText b := by
  simp [asciiText]

theorem asciiText_utf8 {s : String} (hascii : ∀ c ∈ s.toList, c.toNat < 128) :
    asciiText (utf8 s) = s := by
  refine utf8_injective (utf8_asciiText fun b hb => ?_)
  obtain ⟨c, hc, hcode⟩ := exists_of_mem_utf8 hascii hb
  exact hcode ▸ hascii c hc

theorem all_asciiText {p : Char → Bool} {bytes : Bytes} :
    all p (asciiText bytes) = true ↔ ∀ b ∈ bytes, p (Char.ofNat b.toNat) = true := by
  simp [all, asciiText]

end Text
