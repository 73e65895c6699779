import NpuStack.Schemes.Interaction
import NpuStack.Schemes.Keyed
import NpuStack.Schemes.Text

/-! `os-release` assignments, parsed as data.

        KEY=                     empty
        KEY='inner'              inner, without single quotes
        KEY="inner"              inner, its escapes of backslash, quote, dollar and backquote removed
        KEY=word                 word, without white space and quotes

    The surrounding double quotes are taken off before the escapes are read, so a bare double quote
    inside them is accepted (`quoting_iff`); nothing else of the format is missed. -/

namespace NpuStack.Platform
open Interaction Text

structure PlatformError where
  code : String
  message : String
  deriving DecidableEq, Repr

/-- Required operating-system identity fields from `os-release`. -/
structure OsRelease where
  id : String
  versionId : String
  deriving DecidableEq, Repr

def invalidOsRelease (message : String) : PlatformError := ⟨"PLATFORM_OS_RELEASE_INVALID", message⟩

def singleQuote : Char := Char.ofNat 39

def backquote : Char := Char.ofNat 96

/-- A character whose escape is removed. -/
def isEscapable (c : Char) : Bool := c = '\\' || c = '"' || c = '$' || c = backquote

def unescapeDoubleQuoted : List Char → Except String (List Char)
  | [] => .ok []
  | ['\\'] => .error "ends with a backslash"
  | '\\' :: escaped :: rest => do
    let output ← unescapeDoubleQuoted rest
    return if isEscapable escaped then escaped :: output else '\\' :: escaped :: output
  | c :: rest => do
    let output ← unescapeDoubleQuoted rest
    return c :: output

/-- `&raw[1..raw.len() - 1]`. -/
def inside (raw : String) : List Char := raw.toList.tail.dropLast

def parseValue (raw : String) : Except String String :=
  match raw.toList with
  | [] => .ok ""
  | c :: rest =>
    if c = singleQuote then do
      refuse (rest = [] ∨ raw.toList.getLast? ≠ some singleQuote) "has an unmatched single quote"
      refuse (singleQuote ∈ inside raw) "has an embedded single quote"
      return String.ofList (inside raw)
    else if c = '"' then do
      refuse (rest = [] ∨ raw.toList.getLast? ≠ some '"') "has an unmatched double quote"
      let output ← unescapeDoubleQuoted (inside raw)
      return String.ofList output
    else do
      refuse (raw.toList.any isWhitespace = true ∨ singleQuote ∈ raw.toList ∨ '"' ∈ raw.toList)
        "has invalid unquoted characters"
      return raw

def isKeyChar (c : Char) : Bool := ('A' ≤ c && c ≤ 'Z') || c.isDigit || c = '_'

/-- One line, with the values read so far. -/
def parseLine (values : List (String × String)) (entry : String × ℕ) :
    Except PlatformError (List (String × String)) :=
  let (line, index) := entry
  if line = "" ∨ startsWith "#" line = true then .ok values
  else do
    let (key, rawValue) ← need (splitOnce '=' line)
      (invalidOsRelease ("line " ++ (index + 1).repr ++ " is not an assignment"))
    refuse (key = "" ∨ all isKeyChar key = false)
      (invalidOsRelease ("line " ++ (index + 1).repr ++ " has an invalid key"))
    let value ← (parseValue rawValue).mapError fun message =>
      invalidOsRelease ("line " ++ (index + 1).repr ++ " " ++ message)
    refuse (key ∈ values.map Prod.fst) (invalidOsRelease ("duplicate key " ++ key))
    return values ++ [(key, value)]

/-- A value that is present and not empty. -/
def requiredValue (values : List (String × String)) (key : String) : Except PlatformError String :=
  need ((values.lookup key).filter (· ≠ "")) (invalidOsRelease ("missing or empty " ++ key))

/-- Parses `os-release` assignments as data without invoking a shell. -/
def parseOsRelease (input : String) : Except PlatformError OsRelease := do
  let values ← (lines input).zipIdx.foldlM parseLine []
  let id ← requiredValue values "ID"
  let versionId ← requiredValue values "VERSION_ID"
  return ⟨id, versionId⟩

/-! ### Quoting -/

/-- Every double quote is escaped. -/
inductive Quoted : List Char → Prop
  | nil : Quoted []
  | plain {c : Char} {rest : List Char} (hslash : c ≠ '\\') (hquote : c ≠ '"') (h : Quoted rest) :
      Quoted (c :: rest)
  | escaped {c : Char} {rest : List Char} (h : Quoted rest) : Quoted ('\\' :: c :: rest)

/-- A double quote that no backslash escapes: the closing one, were it the shell's to find. -/
def Bare (inner : List Char) : Prop := ∃ before after, inner = before ++ '"' :: after ∧ Quoted before

/-- The text with the escapes of the four characters removed, and no other change. -/
inductive Unescapes : List Char → List Char → Prop
  | nil : Unescapes [] []
  | plain {c : Char} {rest out : List Char} (hslash : c ≠ '\\') (h : Unescapes rest out) :
      Unescapes (c :: rest) (c :: out)
  | removed {c : Char} {rest out : List Char} (hc : isEscapable c = true) (h : Unescapes rest out) :
      Unescapes ('\\' :: c :: rest) (c :: out)
  | kept {c : Char} {rest out : List Char} (hc : isEscapable c = false) (h : Unescapes rest out) :
      Unescapes ('\\' :: c :: rest) ('\\' :: c :: out)

theorem unescape_plain {c : Char} (hslash : c ≠ '\\') (rest : List Char) :
    unescapeDoubleQuoted (c :: rest) = do
      let output ← unescapeDoubleQuoted rest
      return c :: output := by
  rw [unescapeDoubleQuoted.eq_def]
  split
  · next heq => cases heq
  · next heq => exact absurd (List.cons.inj heq).1 hslash
  · next heq => exact absurd (List.cons.inj heq).1 hslash
  · next heq =>
    obtain ⟨rfl, rfl⟩ := List.cons.inj heq
    rfl

theorem unescape_ok {inner out : List Char} :
    unescapeDoubleQuoted inner = .ok out ↔ Unescapes inner out := by
  constructor
  · intro h
    fun_induction unescapeDoubleQuoted inner generalizing out with
    | case1 =>
      cases h
      exact .nil
    | case2 => cases h
    | case3 escaped rest ih =>
      simp only [except_bind_ok, pure, Except.pure, Except.ok.injEq] at h
      obtain ⟨output, hrest, rfl⟩ := h
      split
      · next hc => exact .removed hc (ih hrest)
      · next hc => exact .kept (by simpa using hc) (ih hrest)
    | case4 c rest hlast hpair ih =>
      simp only [except_bind_ok, pure, Except.pure, Except.ok.injEq] at h
      obtain ⟨output, hrest, rfl⟩ := h
      refine .plain (fun hc => ?_) (ih hrest)
      cases rest with
      | nil => exact hlast hc rfl
      | cons e rest => exact hpair e rest hc rfl
  · intro h
    induction h with
    | nil => rfl
    | plain hslash _ ih =>
      rw [unescape_plain hslash, ih]
      rfl
    | removed hc _ ih => simp [unescapeDoubleQuoted, ih, hc, except_ok_bind, pure, Except.pure]
    | kept hc _ ih => simp [unescapeDoubleQuoted, ih, hc, except_ok_bind, pure, Except.pure]

/-- What unescapes has each quote escaped, unless one is bare. -/
theorem Unescapes.quoted {inner out : List Char} (h : Unescapes inner out) : Quoted inner ∨ Bare inner := by
  induction h with
  | nil => exact .inl .nil
  | @plain c rest out hslash _ ih =>
    by_cases hquote : c = '"'
    · subst hquote
      exact .inr ⟨[], rest, rfl, .nil⟩
    rcases ih with h | ⟨before, after, rfl, h⟩
    · exact .inl (.plain hslash hquote h)
    · exact .inr ⟨c :: before, after, rfl, .plain hslash hquote h⟩
  | @removed c rest out _ _ ih | @kept c rest out _ _ ih =>
    rcases ih with h | ⟨before, after, rfl, h⟩
    · exact .inl (.escaped h)
    · exact .inr ⟨'\\' :: c :: before, after, rfl, .escaped h⟩

theorem quoted_cons {c : Char} {rest : List Char} (hslash : c ≠ '\\') :
    Quoted (c :: rest) ↔ c ≠ '"' ∧ Quoted rest := by
  constructor
  · intro h
    cases h with
    | plain _ hquote h => exact ⟨hquote, h⟩
    | escaped _ => exact absurd rfl hslash
  · rintro ⟨hquote, h⟩
    exact .plain hslash hquote h

theorem quoted_escaped {c : Char} {rest : List Char} : Quoted ('\\' :: c :: rest) ↔ Quoted rest := by
  constructor
  · intro h
    cases h with
    | plain hslash _ _ => exact absurd rfl hslash
    | escaped h => exact h
  · exact .escaped

/-- A text whose quotes are all escaped has no bare one. -/
theorem Quoted.not_bare {inner : List Char} (h : Quoted inner) : ¬Bare inner := by
  rintro ⟨before, after, rfl, hbefore⟩
  induction hbefore with
  | nil => exact ((quoted_cons (by decide)).mp h).1 rfl
  | plain hslash _ _ ih => exact ih ((quoted_cons hslash).mp h).2
  | escaped _ ih => exact ih (quoted_escaped.mp h)

theorem Unescapes.inj {inner out out' : List Char} (h : Unescapes inner out) (h' : Unescapes inner out') :
    out = out' :=
  Except.ok.inj ((unescape_ok.mpr h).symm.trans (unescape_ok.mpr h'))

/-! ### Values -/

/-- The values the parser accepts, each with what it is read as. -/
inductive Value : String → String → Prop
  | empty : Value "" ""
  | single {inner : String} (h : singleQuote ∉ inner.toList) :
      Value (String.ofList [singleQuote] ++ inner ++ String.ofList [singleQuote]) inner
  | double {inner out : String} (h : Unescapes inner.toList out.toList) : Value ("\"" ++ inner ++ "\"") out
  | word {raw : String} (hne : raw ≠ "") (hspace : ∀ c ∈ raw.toList, isWhitespace c = false)
      (hsingle : singleQuote ∉ raw.toList) (hdouble : '"' ∉ raw.toList) : Value raw raw

/-- A text that begins and ends with the quote, and is not the quote alone. -/
theorem quoted_iff {q : Char} {raw : String} {rest : List Char} (hraw : raw.toList = q :: rest) :
    ¬(rest = [] ∨ raw.toList.getLast? ≠ some q) ↔ raw.toList = q :: (inside raw ++ [q]) := by
  rw [inside, hraw, List.tail_cons]
  cases rest using List.reverseRecOn with
  | nil => simp
  | append_singleton rest c =>
    have hlast : ((q :: rest) ++ [c]).getLast? = some c := List.getLast?_concat
    rw [List.cons_append] at hlast
    rw [hlast, List.dropLast_concat]
    simp

theorem ofList_quoted {q : Char} {raw : String} (h : raw.toList = q :: (inside raw ++ [q])) :
    raw = String.ofList [q] ++ String.ofList (inside raw) ++ String.ofList [q] := by
  refine String.toList_inj.mp ?_
  rw [h]
  simp

theorem inside_quoted (q : Char) (inner : String) :
    inside (String.ofList [q] ++ inner ++ String.ofList [q]) = inner.toList := by
  simp [inside]

theorem parseValue_ok {raw value : String} : parseValue raw = .ok value ↔ Value raw value := by
  constructor
  · intro h
    rw [parseValue] at h
    split at h
    · next hnil =>
      cases h
      obtain rfl : raw = "" := String.toList_inj.mp hnil
      exact .empty
    next c rest hraw =>
    split at h
    · next hc =>
      subst hc
      simp only [except_bind_ok, refuse_ok, pure, Except.pure, Except.ok.injEq] at h
      obtain ⟨_, hmatched, _, hinner, rfl⟩ := h
      rw [ofList_quoted ((quoted_iff hraw).mp hmatched)]
      rw [inside_quoted, String.ofList_toList]
      exact .single (by simpa using hinner)
    split at h
    · next hc =>
      subst hc
      simp only [except_bind_ok, refuse_ok, pure, Except.pure, Except.ok.injEq] at h
      obtain ⟨_, hmatched, output, houtput, rfl⟩ := h
      rw [ofList_quoted ((quoted_iff hraw).mp hmatched)]
      exact .double (by simpa using unescape_ok.mp houtput)
    · simp only [except_bind_ok, refuse_ok, not_or, Bool.not_eq_true, pure, Except.pure,
        Except.ok.injEq] at h
      obtain ⟨_, ⟨hspace, hsingle, hdouble⟩, rfl⟩ := h
      refine .word ?_ (by simpa using hspace) hsingle hdouble
      rintro rfl
      cases hraw
  · intro h
    cases h with
    | empty => rfl
    | single hinner =>
      have hraw : (String.ofList [singleQuote] ++ value ++ String.ofList [singleQuote]).toList =
          singleQuote :: (value.toList ++ [singleQuote]) := by simp
      have hmatched := (quoted_iff hraw).mpr (by rw [inside_quoted, hraw])
      rw [parseValue]
      split
      · next hnil => cases hraw.symm.trans hnil
      next c rest heq =>
      obtain ⟨rfl, rfl⟩ := List.cons.inj (hraw.symm.trans heq)
      rw [if_pos rfl, inside_quoted]
      exact except_bind_ok.mpr ⟨(), refuse_ok.mpr hmatched, except_bind_ok.mpr
        ⟨(), refuse_ok.mpr hinner, congrArg Except.ok String.ofList_toList⟩⟩
    | @double inner _ hinner =>
      have hraw : ("\"" ++ inner ++ "\"").toList = '"' :: (inner.toList ++ ['"']) := by simp
      have hinside : inside ("\"" ++ inner ++ "\"") = inner.toList := inside_quoted '"' inner
      have hmatched := (quoted_iff hraw).mpr (by rw [hinside, hraw])
      rw [parseValue]
      split
      · next hnil => cases hraw.symm.trans hnil
      next c rest heq =>
      obtain ⟨rfl, rfl⟩ := List.cons.inj (hraw.symm.trans heq)
      rw [if_neg (by decide), if_pos rfl, hinside]
      exact except_bind_ok.mpr ⟨(), refuse_ok.mpr hmatched, except_bind_ok.mpr
        ⟨value.toList, unescape_ok.mpr hinner, congrArg Except.ok String.ofList_toList⟩⟩
    | word hne hspace hsingle hdouble =>
      rw [parseValue]
      split
      · next hnil => exact absurd (String.toList_inj.mp hnil) hne
      next c rest heq =>
      have hc : c ≠ singleQuote ∧ c ≠ '"' := by
        rw [heq] at hsingle hdouble
        exact ⟨fun h => hsingle (by simp [h]), fun h => hdouble (by simp [h])⟩
      rw [if_neg hc.1, if_neg hc.2]
      refine except_bind_ok.mpr ⟨(), refuse_ok.mpr ?_, rfl⟩
      rintro (h | h | h)
      · obtain ⟨d, hd, hwhite⟩ := List.any_eq_true.mp h
        rw [hspace d hd] at hwhite
        cases hwhite
      · exact hsingle h
      · exact hdouble h

/-! ### Lines -/

def IsKey (key : String) : Prop := key ≠ "" ∧ all isKeyChar key = true

/-- An empty line or a comment. -/
def Skipped (line : String) : Prop := line = "" ∨ startsWith "#" line = true

/-- The lines assign these values, in order. -/
inductive Reads : List String → List (String × String) → Prop
  | nil : Reads [] []
  | skipped {line : String} {ls : List String} {values : List (String × String)} (h : Skipped line)
      (hrest : Reads ls values) : Reads (line :: ls) values
  | assignment {key raw value : String} {ls : List String} {values : List (String × String)}
      (hkey : IsKey key) (hvalue : Value raw value) (hrest : Reads ls values) :
      Reads ((key ++ "=" ++ raw) :: ls) ((key, value) :: values)

theorem IsKey.chars {key : String} (h : IsKey key) : '=' ∉ key.toList ∧ '#' ∉ key.toList := by
  have hchar : isKeyChar '=' = false ∧ isKeyChar '#' = false := by decide
  constructor
  · intro hmem
    have := all_iff.mp h.2 _ hmem
    rw [hchar.1] at this
    cases this
  · intro hmem
    have := all_iff.mp h.2 _ hmem
    rw [hchar.2] at this
    cases this

/-- An assignment is not skipped. -/
theorem IsKey.not_skipped {key : String} (h : IsKey key) (raw : String) :
    ¬Skipped (key ++ "=" ++ raw) := by
  obtain ⟨c, cs, hkey⟩ := List.exists_cons_of_ne_nil fun hnil => h.1 (String.toList_inj.mp hnil)
  have hline : (key ++ "=" ++ raw).toList = c :: (cs ++ '=' :: raw.toList) := by simp [hkey]
  rintro (hempty | hcomment)
  · rw [hempty] at hline
    cases hline
  · obtain ⟨rest, hrest⟩ := startsWith_iff.mp hcomment
    rw [hrest] at hline
    have hc : '#' = c := by
      have : ("#" ++ rest).toList = '#' :: rest.toList := by simp
      exact (List.cons.inj (this.symm.trans hline)).1
    exact h.chars.2 (by rw [hkey, hc]; simp)

theorem splitOnce_assignment {key : String} (h : IsKey key) (raw : String) :
    splitOnce '=' (key ++ "=" ++ raw) = some (key, raw) :=
  splitOnce_eq_some.mpr ⟨by simp, h.chars.1⟩

/-- What one line does. -/
theorem parseLine_ok {values values' : List (String × String)} {line : String} {n : ℕ} :
    parseLine values (line, n) = .ok values' ↔ Skipped line ∧ values' = values ∨
      ∃ key raw value, line = key ++ "=" ++ raw ∧ IsKey key ∧ Value raw value ∧
        key ∉ values.map Prod.fst ∧ values' = values ++ [(key, value)] := by
  rw [parseLine]
  by_cases hskip : line = "" ∨ startsWith "#" line = true
  · rw [if_pos hskip]
    constructor
    · intro h
      cases h
      exact .inl ⟨hskip, rfl⟩
    · rintro (⟨-, rfl⟩ | ⟨key, raw, value, rfl, hkey, -⟩)
      · rfl
      · exact absurd hskip (hkey.not_skipped raw)
  · rw [if_neg hskip]
    simp only [except_bind_ok, need_ok, refuse_ok, mapError_ok, parseValue_ok, not_or, Bool.not_eq_false,
      pure, Except.pure, Except.ok.injEq]
    constructor
    · rintro ⟨⟨key, raw⟩, hsplit, _, hkey, value, hvalue, _, hfresh, rfl⟩
      obtain ⟨hline, -⟩ := splitOnce_eq_some.mp hsplit
      refine .inr ⟨key, raw, value, String.toList_inj.mp ?_, hkey, hvalue, hfresh, rfl⟩
      rw [hline]
      simp
    · rintro (⟨h, -⟩ | ⟨key, raw, value, rfl, hkey, hvalue, hfresh, rfl⟩)
      · exact absurd h hskip
      · exact ⟨(key, raw), splitOnce_assignment hkey raw, (), hkey, value, hvalue, (), hfresh, rfl⟩

/-- What all lines do: they assign values to distinct keys. -/
theorem foldlM_parseLine {ls : List String} : ∀ {values values' : List (String × String)} {n : ℕ},
    (values.map Prod.fst).Nodup → ((ls.zipIdx n).foldlM parseLine values = .ok values' ↔
      ∃ added, Reads ls added ∧ values' = values ++ added ∧ (values'.map Prod.fst).Nodup) := by
  induction ls with
  | nil =>
    intro values values' n hnodup
    constructor
    · intro h
      cases h
      exact ⟨[], .nil, by simp, hnodup⟩
    · rintro ⟨added, hreads, rfl, -⟩
      cases hreads
      rw [List.append_nil]
      rfl
  | cons line ls ih =>
    intro values values' n hnodup
    rw [List.zipIdx_cons, List.foldlM_cons, except_bind_ok]
    constructor
    · rintro ⟨values₁, hfirst, hrest⟩
      rcases parseLine_ok.mp hfirst with ⟨hskip, rfl⟩ | ⟨key, raw, value, rfl, hkey, hvalue, hfresh, rfl⟩
      · obtain ⟨added, hreads, hvalues, hnodup'⟩ := (ih hnodup).mp hrest
        exact ⟨added, .skipped hskip hreads, hvalues, hnodup'⟩
      · have hnodup₁ : ((values ++ [(key, value)]).map Prod.fst).Nodup := by
          simpa [List.nodup_append, hnodup] using fun a b hab hkey => hfresh (by
            rw [← hkey]
            exact List.mem_map_of_mem hab)
        obtain ⟨added, hreads, rfl, hnodup'⟩ := (ih hnodup₁).mp hrest
        exact ⟨(key, value) :: added, .assignment hkey hvalue hreads, by simp, hnodup'⟩
    · rintro ⟨added, hreads, rfl, hnodup'⟩
      cases hreads with
      | skipped hskip hreads =>
        exact ⟨values, parseLine_ok.mpr (.inl ⟨hskip, rfl⟩), (ih hnodup).mpr ⟨added, hreads, rfl, hnodup'⟩⟩
      | @assignment key raw value _ rest hkey hvalue hreads =>
        have hsplit : values ++ (key, value) :: rest = values ++ [(key, value)] ++ rest := by simp
        rw [hsplit] at hnodup' ⊢
        have hnodup₁ : ((values ++ [(key, value)]).map Prod.fst).Nodup := by
          rw [List.map_append] at hnodup'
          exact hnodup'.of_append_left
        have hfresh : key ∉ values.map Prod.fst := by
          intro hmem
          rw [List.map_append, List.nodup_append] at hnodup₁
          exact hnodup₁.2.2 key hmem key (by simp) rfl
        exact ⟨_, parseLine_ok.mpr (.inr ⟨key, raw, value, rfl, hkey, hvalue, hfresh, rfl⟩),
          (ih hnodup₁).mpr ⟨rest, hreads, rfl, hnodup'⟩⟩

theorem requiredValue_ok {values : List (String × String)} {key value : String} :
    requiredValue values key = .ok value ↔ values.lookup key = some value ∧ value ≠ "" := by
  rw [requiredValue, need_ok, Option.filter_eq_some_iff]
  simp

/-- The values of an accepted text: of distinct keys, with the two that are required. -/
structure Accepted (input : String) (values : List (String × String)) (release : OsRelease) : Prop where
  reads : Reads (lines input) values
  distinct : (values.map Prod.fst).Nodup
  id : ("ID", release.id) ∈ values ∧ release.id ≠ ""
  versionId : ("VERSION_ID", release.versionId) ∈ values ∧ release.versionId ≠ ""

theorem parseOsRelease_ok {input : String} {release : OsRelease} :
    parseOsRelease input = .ok release ↔ ∃ values, Accepted input values release := by
  have hfold : ∀ values, (lines input).zipIdx.foldlM parseLine [] = .ok values ↔
      Reads (lines input) values ∧ (values.map Prod.fst).Nodup := by
    intro values
    rw [foldlM_parseLine (by simp)]
    simp
  simp only [parseOsRelease, except_bind_ok, hfold, requiredValue_ok, pure, Except.pure, Except.ok.injEq]
  constructor
  · rintro ⟨values, ⟨hreads, hnodup⟩, id, ⟨hid, hne⟩, versionId, ⟨hversion, hne'⟩, rfl⟩
    exact ⟨values, hreads, hnodup, ⟨Keyed.mem_of_lookup hid, hne⟩, ⟨Keyed.mem_of_lookup hversion, hne'⟩⟩
  · rintro ⟨values, hreads, hnodup, ⟨hid, hne⟩, ⟨hversion, hne'⟩⟩
    exact ⟨values, ⟨hreads, hnodup⟩, _, ⟨Keyed.lookup_of_mem hnodup hid, hne⟩, _,
      ⟨Keyed.lookup_of_mem hnodup hversion, hne'⟩, rfl⟩

/-! ### Double quotes in accepted text -/

theorem Value.of_double {inner value : String} (h : Value ("\"" ++ inner ++ "\"") value) :
    Unescapes inner.toList value.toList := by
  have hraw : ("\"" ++ inner ++ "\"").toList = '"' :: (inner.toList ++ ['"']) := by simp
  generalize hr : "\"" ++ inner ++ "\"" = raw at h hraw
  cases h with
  | empty => cases hraw
  | single _ =>
    rw [String.toList_append, String.toList_append, String.toList_ofList] at hraw
    exact absurd (List.cons.inj hraw).1 (by decide)
  | @double inner' _ h =>
    have hinner : inner = inner' := by
      have hlist := congrArg String.toList hr
      simpa [String.toList_inj] using hlist
    rw [hinner]
    exact h
  | word _ _ _ hdouble => exact absurd (by simp [hraw]) hdouble

theorem Reads.mem {ls : List String} {values : List (String × String)} (h : Reads ls values)
    {key raw : String} (hkey : IsKey key) (hline : key ++ "=" ++ raw ∈ ls) :
    ∃ value, Value raw value ∧ (key, value) ∈ values := by
  induction h with
  | nil => cases hline
  | skipped hskip _ ih =>
    rcases List.mem_cons.mp hline with rfl | hline
    · exact absurd hskip (hkey.not_skipped raw)
    · exact ih hline
  | @assignment key' raw' value ls values hkey' hvalue _ ih =>
    rcases List.mem_cons.mp hline with heq | hline
    · have hsplit := splitOnce_assignment hkey raw
      rw [heq, splitOnce_assignment hkey' raw'] at hsplit
      cases hsplit
      exact ⟨value, hvalue, List.mem_cons_self⟩
    · obtain ⟨value', hvalue', hmem⟩ := ih hline
      exact ⟨value', hvalue', List.mem_cons_of_mem _ hmem⟩

/-- Two lines assign one key. -/
def SameKey (line line' : String) : Prop :=
  ∃ key raw raw', IsKey key ∧ line = key ++ "=" ++ raw ∧ line' = key ++ "=" ++ raw'

theorem Reads.pairwise {ls : List String} {values : List (String × String)} (h : Reads ls values)
    (hnodup : (values.map Prod.fst).Nodup) : ls.Pairwise fun line line' => ¬SameKey line line' := by
  induction h with
  | nil => exact .nil
  | skipped hskip _ ih =>
    refine .cons ?_ (ih hnodup)
    rintro _ - ⟨key, raw, _, hkey, rfl, -⟩
    exact hkey.not_skipped raw hskip
  | @assignment key raw value ls values hkey _ hrest ih =>
    rw [List.map_cons, List.nodup_cons] at hnodup
    refine .cons ?_ (ih hnodup.2)
    rintro _ hline ⟨key', raw', raw'', hkey', heq, rfl⟩
    have hsplit := splitOnce_assignment hkey raw
    rw [heq, splitOnce_assignment hkey' raw'] at hsplit
    cases hsplit
    obtain ⟨value', -, hmem⟩ := hrest.mem hkey hline
    exact hnodup.1 (List.mem_map.mpr ⟨_, hmem, rfl⟩)

/-- What accepting a text should say of its double-quoted values. -/
structure Strict (input : String) (release : OsRelease) : Prop where
  quoted : ∀ key inner, IsKey key → key ++ "=" ++ ("\"" ++ inner ++ "\"") ∈ lines input →
    Quoted inner.toList ∧ ∃ value, parseValue ("\"" ++ inner ++ "\"") = .ok value ∧
      Unescapes inner.toList value.toList
  id : ∀ inner, "ID=" ++ ("\"" ++ inner ++ "\"") ∈ lines input →
    Unescapes inner.toList release.id.toList
  versionId : ∀ inner, "VERSION_ID=" ++ ("\"" ++ inner ++ "\"") ∈ lines input →
    Unescapes inner.toList release.versionId.toList

/-- The text keeps every rule of the format but the one about bare quotes. -/
def Formed (input : String) : Prop := ∃ values release, Accepted input values release

/-- A double-quoted value has a bare quote inside its surrounding pair. -/
def BareQuoted (input : String) : Prop :=
  ∃ key inner, IsKey key ∧ key ++ "=" ++ ("\"" ++ inner ++ "\"") ∈ lines input ∧ Bare inner.toList

/-- The value of a required key is its only value. -/
theorem Accepted.value_eq {input : String} {values : List (String × String)} {release : OsRelease}
    (h : Accepted input values release) {key inner value : String} (hkey : IsKey key)
    (hmem : (key, value) ∈ values) (hline : key ++ "=" ++ ("\"" ++ inner ++ "\"") ∈ lines input) :
    Unescapes inner.toList value.toList := by
  obtain ⟨value', hvalue, hmem'⟩ := h.reads.mem hkey hline
  have hlookup := Keyed.lookup_of_mem h.distinct hmem'
  rw [Keyed.lookup_of_mem h.distinct hmem] at hlookup
  cases hlookup
  exact hvalue.of_double

theorem isKey_id : IsKey "ID" := ⟨by decide, by decide⟩

theorem isKey_versionId : IsKey "VERSION_ID" := ⟨by decide, by decide⟩

theorem Accepted.strict {input : String} {values : List (String × String)} {release : OsRelease}
    (h : Accepted input values release) (hbare : ¬BareQuoted input) : Strict input release where
  quoted key inner hkey hline := by
    obtain ⟨value, hvalue, -⟩ := h.reads.mem hkey hline
    refine ⟨?_, value, parseValue_ok.mpr hvalue, hvalue.of_double⟩
    rcases hvalue.of_double.quoted with hquoted | hinner
    · exact hquoted
    · exact absurd ⟨key, inner, hkey, hline, hinner⟩ hbare
  id inner hline := h.value_eq isKey_id h.id.1 hline
  versionId inner hline := h.value_eq isKey_versionId h.versionId.1 hline

theorem strict_iff (input : String) :
    (∀ release, parseOsRelease input = .ok release → Strict input release) ↔
      ¬(Formed input ∧ BareQuoted input) := by
  constructor
  · rintro hstrict ⟨⟨values, release, haccepted⟩, key, inner, hkey, hline, hbare⟩
    have h := hstrict release (parseOsRelease_ok.mpr ⟨values, haccepted⟩)
    exact (h.quoted key inner hkey hline).1.not_bare hbare
  · intro h release hparse
    obtain ⟨values, haccepted⟩ := parseOsRelease_ok.mp hparse
    exact haccepted.strict fun hbare => h ⟨⟨values, release, haccepted⟩, hbare⟩

/-! ### Writing and reading back -/

/-- The text with a backslash before each of the four characters. -/
def escape (s : String) : List Char :=
  s.toList.flatMap fun c => if isEscapable c then ['\\', c] else [c]

theorem unescapes_escape (s : String) : Unescapes (escape s) s.toList := by
  rw [escape]
  induction s.toList with
  | nil => exact .nil
  | cons c cs ih =>
    rw [List.flatMap_cons]
    by_cases hc : isEscapable c = true
    · rw [if_pos hc]
      exact .removed hc ih
    · rw [if_neg hc]
      refine .plain ?_ ih
      rintro rfl
      exact hc (by decide)

/-- The value as a double-quoted text. -/
def quote (s : String) : String := "\"" ++ String.ofList (escape s) ++ "\""

theorem value_quote (s : String) : Value (quote s) s :=
  .double (by simpa using unescapes_escape s)

/-- A line of a written text. -/
inductive Entry
  | blank
  | comment (text : String)
  | assignment (key raw : String)

def Entry.line : Entry → String
  | .blank => ""
  | .comment text => "#" ++ text
  | .assignment key raw => key ++ "=" ++ raw

def Entry.key? : Entry → Option String
  | .assignment key _ => some key
  | _ => none

/-- A well-formed line: a value is one the format allows, with its double quotes escaped. -/
def Entry.WellFormed : Entry → Prop
  | .blank => True
  | .comment text => '\n' ∉ text.toList
  | .assignment key raw => IsKey key ∧ '\n' ∉ raw.toList ∧ (∃ value, Value raw value) ∧
      ∀ inner, raw = "\"" ++ inner ++ "\"" → Quoted inner.toList

theorem skipped_comment (text : String) : Skipped (stripCr ("#" ++ text)) := by
  rcases stripCr_cases ("#" ++ text) with h | h
  · rw [h]
    exact .inr (startsWith_iff.mpr ⟨text, rfl⟩)
  · generalize stripCr ("#" ++ text) = l at h ⊢
    cases hl : l.toList with
    | nil => exact .inl (String.toList_inj.mp hl)
    | cons c cs =>
      have hlist := congrArg String.toList h
      simp only [String.toList_append, hl, List.cons_append] at hlist
      obtain rfl : '#' = c := (List.cons.inj hlist).1
      refine .inr (startsWith_iff.mpr ⟨String.ofList cs, String.toList_inj.mp ?_⟩)
      rw [hl]
      simp

/-- No value ends with a carriage return. -/
theorem Value.getLast {raw value : String} (h : Value raw value) : raw.toList.getLast? ≠ some '\r' := by
  cases h with
  | empty => decide
  | single _ =>
    rw [String.toList_append, String.toList_ofList, List.getLast?_concat]
    decide
  | double _ =>
    have hlast : "\"".toList = ['"'] := by decide
    rw [String.toList_append, hlast, List.getLast?_concat]
    decide
  | word _ hspace _ _ =>
    intro hlast
    have hwhite := hspace _ (List.mem_of_getLast? hlast)
    exact absurd hwhite (by decide)

theorem stripCr_assignment {raw value : String} (h : Value raw value) (key : String) :
    stripCr (key ++ "=" ++ raw) = key ++ "=" ++ raw := by
  rcases stripCr_cases (key ++ "=" ++ raw) with heq | heq
  · exact heq
  · have hlast : (key ++ "=" ++ raw).toList.getLast? = some '\r' := by
      rw [heq]
      simp
    rw [String.toList_append, List.getLast?_append] at hlast
    rcases hraw : raw.toList.getLast? with _ | c
    · rw [hraw] at hlast
      simp at hlast
    · rw [hraw, Option.some_or] at hlast
      exact absurd (hraw.trans hlast) h.getLast

/-- Reading the written lines gives each assignment's value under its key. -/
theorem reads_entries {entries : List Entry} (h : ∀ e ∈ entries, e.WellFormed) :
    ∃ values, Reads (entries.map fun e => stripCr e.line) values ∧
      values.map Prod.fst = entries.filterMap Entry.key? ∧
      ∀ key raw value, .assignment key raw ∈ entries → Value raw value → (key, value) ∈ values := by
  induction entries with
  | nil => exact ⟨[], .nil, rfl, fun _ _ _ hmem => by cases hmem⟩
  | cons e entries ih =>
    obtain ⟨he, hentries⟩ := List.forall_mem_cons.mp h
    obtain ⟨values, hreads, hkeys, hvalues⟩ := ih hentries
    cases e with
    | blank =>
      refine ⟨values, .skipped (.inl (by decide)) hreads, hkeys, ?_⟩
      intro key raw value hmem hvalue
      rcases List.mem_cons.mp hmem with heq | hmem
      · cases heq
      · exact hvalues key raw value hmem hvalue
    | comment text =>
      refine ⟨values, .skipped (skipped_comment text) hreads, hkeys, ?_⟩
      intro key raw value hmem hvalue
      rcases List.mem_cons.mp hmem with heq | hmem
      · cases heq
      · exact hvalues key raw value hmem hvalue
    | assignment key raw =>
      obtain ⟨hkey, -, ⟨value, hvalue⟩, -⟩ := he
      refine ⟨(key, value) :: values, ?_, ?_, ?_⟩
      · rw [List.map_cons, Entry.line, stripCr_assignment hvalue]
        exact .assignment hkey hvalue hreads
      · rw [List.map_cons, hkeys]
        rfl
      · intro key' raw' value' hmem hvalue'
        rcases List.mem_cons.mp hmem with heq | hmem
        · cases heq
          have hparse := parseValue_ok.mpr hvalue
          rw [parseValue_ok.mpr hvalue'] at hparse
          cases hparse
          exact List.mem_cons_self
        · exact List.mem_cons_of_mem _ (hvalues key' raw' value' hmem hvalue')

theorem Entry.WellFormed.line_free {e : Entry} (h : e.WellFormed) : '\n' ∉ e.line.toList := by
  cases e with
  | blank => decide
  | comment text =>
    have hfree : '\n' ∉ text.toList := h
    simpa [Entry.line] using hfree
  | assignment key raw =>
    obtain ⟨hkey, hraw, -⟩ := h
    have hkeyFree : '\n' ∉ key.toList := by
      intro hmem
      have := all_iff.mp hkey.2 _ hmem
      revert this
      decide
    simp [Entry.line, hkeyFree, hraw]

theorem wellFormed_quote {key value : String} (hkey : IsKey key) (hfree : '\n' ∉ value.toList) :
    (Entry.assignment key (quote value)).WellFormed := by
  have hescape : '\n' ∉ escape value := by
    rw [escape, List.mem_flatMap]
    rintro ⟨c, hc, hmem⟩
    split at hmem
    · rcases List.mem_cons.mp hmem with h | h
      · exact absurd h (by decide)
      · exact hfree (List.mem_singleton.mp h ▸ hc)
    · exact hfree (List.mem_singleton.mp hmem ▸ hc)
  have hquoted : Quoted (escape value) := by
    rw [escape]
    clear hescape hfree
    induction value.toList with
    | nil => exact .nil
    | cons c cs ih =>
      rw [List.flatMap_cons]
      by_cases hc : isEscapable c = true
      · rw [if_pos hc]
        exact .escaped ih
      · rw [if_neg hc]
        refine .plain ?_ ?_ ih
        · rintro rfl
          exact hc (by decide)
        · rintro rfl
          exact hc (by decide)
  refine ⟨hkey, by simpa [quote] using hescape, ⟨value, value_quote value⟩, ?_⟩
  intro inner hinner
  have hlist := congrArg String.toList hinner
  have heq : escape value = inner.toList := by simpa [quote] using hlist
  rw [← heq]
  exact hquoted

/-- Values written double-quoted among other well-formed lines, in any order, are read back. -/
theorem parse_written {id versionId : String} {others entries : List Entry} (hid : id ≠ "")
    (hversion : versionId ≠ "") (hidFree : '\n' ∉ id.toList) (hversionFree : '\n' ∉ versionId.toList)
    (hothers : ∀ e ∈ others, e.WellFormed)
    (hperm : entries.Perm
      (.assignment "ID" (quote id) :: .assignment "VERSION_ID" (quote versionId) :: others))
    (hdistinct : (entries.filterMap Entry.key?).Nodup) :
    parseOsRelease (unlines (entries.map Entry.line)) = .ok ⟨id, versionId⟩ := by
  have hformed : ∀ e ∈ entries, e.WellFormed := by
    intro e he
    rcases List.mem_cons.mp (hperm.mem_iff.mp he) with rfl | he
    · exact wellFormed_quote isKey_id hidFree
    rcases List.mem_cons.mp he with rfl | he
    · exact wellFormed_quote isKey_versionId hversionFree
    · exact hothers e he
  obtain ⟨values, hreads, hkeys, hvalues⟩ := reads_entries hformed
  have hlines : lines (unlines (entries.map Entry.line)) = entries.map fun e => stripCr e.line := by
    rw [lines_unlines_stripCr, List.map_map]
    · rfl
    · intro l hl
      obtain ⟨e, he, rfl⟩ := List.mem_map.mp hl
      exact (hformed e he).line_free
  refine parseOsRelease_ok.mpr ⟨values, ?_, ?_, ⟨?_, hid⟩, ?_, hversion⟩
  · rw [hlines]
    exact hreads
  · rw [hkeys]
    exact hdistinct
  · exact hvalues "ID" _ id (hperm.mem_iff.mpr (by simp)) (value_quote id)
  · exact hvalues "VERSION_ID" _ versionId (hperm.mem_iff.mpr (by simp)) (value_quote versionId)

/-- Accepted text is read strictly but for a bare quote, and no key is accepted twice; written values
    are read back. -/
theorem quoting_iff (input : String) :
    ((∀ release, parseOsRelease input = .ok release → Strict input release) ↔
      ¬(Formed input ∧ BareQuoted input)) ∧
    (∀ release, parseOsRelease input = .ok release →
      (lines input).Pairwise fun line line' => ¬SameKey line line') ∧
    ∀ id versionId others entries, id ≠ "" → versionId ≠ "" → '\n' ∉ id.toList →
      '\n' ∉ versionId.toList → (∀ e ∈ others, Entry.WellFormed e) →
      List.Perm entries
        (.assignment "ID" (quote id) :: .assignment "VERSION_ID" (quote versionId) :: others) →
      (entries.filterMap Entry.key?).Nodup →
      parseOsRelease (unlines (entries.map Entry.line)) = .ok ⟨id, versionId⟩ := by
  refine ⟨strict_iff input, ?_, ?_⟩
  · intro release hparse
    obtain ⟨values, haccepted⟩ := parseOsRelease_ok.mp hparse
    exact haccepted.reads.pairwise haccepted.distinct
  · intro id versionId others entries hid hversion hidFree hversionFree hothers hperm hdistinct
    exact parse_written hid hversion hidFree hversionFree hothers hperm hdistinct

/-- An embedded bare quote is accepted, and kept. -/
theorem bare_quote_accepted :
    parseOsRelease "ID=\"a\"b\"\nVERSION_ID=1\n" = .ok ⟨"a\"b", "1"⟩ ∧
      ¬Strict "ID=\"a\"b\"\nVERSION_ID=1\n" ⟨"a\"b", "1"⟩ := by
  refine ⟨by decide, fun h => ?_⟩
  have hquoted := (h.quoted "ID" "a\"b" isKey_id (by decide)).1
  have hplain : Quoted ['"', 'b'] := ((quoted_cons (c := 'a') (by decide)).mp hquoted).2
  exact ((quoted_cons (by decide)).mp hplain).1 rfl

end NpuStack.Platform
