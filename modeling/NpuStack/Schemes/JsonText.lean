import NpuStack.Schemes.Serde
import NpuStack.Schemes.Text

/-! Reading JSON text. `value` is a recursive descent over characters: white space may stand before
    every token, strings decode their escapes, a number keeps its literal, and containers nest at
    most `depth` deep. Which number literals are in range is left to a parameter.

        text ──value──▶ (Json, rest)          render j ++ rest ──value──▶ (j, rest)

    A tree printed with its strings encoded is read back when each encoding is (`value_mapStrings`); so
    is what `Json.render` prints of a plain tree, one without escapes (`value_render`). -/

namespace Serde.Json
open Text

/-! ### Tokens -/

def isSpace (c : Char) : Bool := c = ' ' || c = '\n' || c = '\t' || c = '\r'

def skip (cs : List Char) : List Char := cs.dropWhile isSpace

def hexVal (c : Char) : Option ℕ :=
  if c.isDigit then some (c.toNat - '0'.toNat)
  else if 'a' ≤ c ∧ c ≤ 'f' then some (c.toNat - 'a'.toNat + 10)
  else if 'A' ≤ c ∧ c ≤ 'F' then some (c.toNat - 'A'.toNat + 10)
  else none

/-- The code unit of four hexadecimal digits. -/
def codeUnit (a b c d : Char) : Option ℕ := do
  return (← hexVal a) * 4096 + (← hexVal b) * 256 + (← hexVal c) * 16 + (← hexVal d)

/-- The character of a one-letter escape. -/
def shortEscape : Char → Option Char
  | '"' => some '"'
  | '\\' => some '\\'
  | '/' => some '/'
  | 'b' => some (Char.ofNat 8)
  | 'f' => some (Char.ofNat 12)
  | 'n' => some '\n'
  | 'r' => some '\r'
  | 't' => some '\t'
  | _ => none

/-- Put a character before a string that was read. -/
def consChar (c : Char) (p : List Char × List Char) : List Char × List Char := (c :: p.1, p.2)

/-- The characters up to the closing quote, and what follows it. -/
def stringBody : List Char → Option (List Char × List Char)
  | [] => none
  | '"' :: cs => some ([], cs)
  | '\\' :: 'u' :: a :: b :: c :: d :: cs =>
    match codeUnit a b c d with
    | none => none
    | some unit =>
      if 0xD800 ≤ unit ∧ unit ≤ 0xDBFF then
        -- a leading surrogate needs its trailing one
        match cs with
        | '\\' :: 'u' :: a' :: b' :: c' :: d' :: cs' =>
          match codeUnit a' b' c' d' with
          | none => none
          | some unit' =>
            if 0xDC00 ≤ unit' ∧ unit' ≤ 0xDFFF then
              (stringBody cs').map
                (consChar (Char.ofNat (0x10000 + (unit - 0xD800) * 0x400 + (unit' - 0xDC00))))
            else none
        | _ => none
      else if 0xDC00 ≤ unit ∧ unit ≤ 0xDFFF then none
      else (stringBody cs).map (consChar (Char.ofNat unit))
  | '\\' :: e :: cs =>
    match shortEscape e with
    | some c => (stringBody cs).map (consChar c)
    | none => none
  | c :: cs => if c.toNat < 0x20 ∨ c = '\\' then none else (stringBody cs).map (consChar c)

/-- At least one digit, and the rest. -/
def digits (cs : List Char) : Option (List Char × List Char) :=
  let (ds, rest) := cs.span Char.isDigit
  if ds = [] then none else some (ds, rest)

/-- An integer part: `0`, or digits not starting with it. -/
def integerPart : List Char → Option (List Char × List Char)
  | '0' :: cs => some (['0'], cs)
  | cs => digits cs

def fractionPart : List Char → Option (List Char × List Char)
  | '.' :: cs => (digits cs).map (consChar '.')
  | cs => some ([], cs)

def exponentPart : List Char → Option (List Char × List Char)
  | e :: cs =>
    if e = 'e' ∨ e = 'E' then
      match cs with
      | '+' :: cs' => (digits cs').map fun p => consChar e (consChar '+' p)
      | '-' :: cs' => (digits cs').map fun p => consChar e (consChar '-' p)
      | _ => (digits cs).map (consChar e)
    else some ([], e :: cs)
  | [] => some ([], [])

/-- The literal of a number without sign, and the rest. -/
def unsignedNumber (cs : List Char) : Option (List Char × List Char) := do
  let (whole, cs) ← integerPart cs
  let (fraction, cs) ← fractionPart cs
  let (exponent, cs) ← exponentPart cs
  return (whole ++ fraction ++ exponent, cs)

def number : List Char → Option (List Char × List Char)
  | '-' :: cs => (unsignedNumber cs).map (consChar '-')
  | cs => unsignedNumber cs

/-! ### Values -/

/-- Reads one value off the front of a text. -/
abbrev Reader := List Char → Option (Json × List Char)

/-- A value that is not a container. -/
def scalar (inRange : String → Bool) : Reader
  | 'n' :: 'u' :: 'l' :: 'l' :: cs => some (.null, cs)
  | 't' :: 'r' :: 'u' :: 'e' :: cs => some (.bool true, cs)
  | 'f' :: 'a' :: 'l' :: 's' :: 'e' :: cs => some (.bool false, cs)
  | '"' :: cs => (stringBody cs).map fun p => (.str (String.ofList p.1), p.2)
  | cs => do
    let (literal, rest) ← number cs
    if inRange (String.ofList literal) then some (.num (String.ofList literal), rest) else none

/-- One or more elements, up to the closing bracket. -/
def elements (read : Reader) : ℕ → List Char → Option (List Json × List Char)
  | 0, _ => none
  | n + 1, cs => do
    let (j, cs) ← read cs
    match skip cs with
    | ',' :: cs => (elements read n cs).map fun p => (j :: p.1, p.2)
    | ']' :: cs => some ([j], cs)
    | _ => none

/-- A key and its value. -/
def member (read : Reader) (cs : List Char) : Option ((String × Json) × List Char) :=
  match skip cs with
  | '"' :: cs => do
    let (key, cs) ← stringBody cs
    match skip cs with
    | ':' :: cs => (read cs).map fun p => ((String.ofList key, p.1), p.2)
    | _ => none
  | _ => none

/-- One or more members, up to the closing brace. -/
def members (read : Reader) : ℕ → List Char → Option (List (String × Json) × List Char)
  | 0, _ => none
  | n + 1, cs => do
    let (m, cs) ← member read cs
    match skip cs with
    | ',' :: cs => (members read n cs).map fun p => (m :: p.1, p.2)
    | '\x7d' :: cs => some ([m], cs)
    | _ => none

/-- One value, with containers nested at most `depth` deep. -/
def value (inRange : String → Bool) : ℕ → Reader
  | 0, cs => scalar inRange (skip cs)
  | depth + 1, cs =>
    match skip cs with
    | '[' :: cs =>
      match skip cs with
      | ']' :: cs => some (.arr [], cs)
      | _ => (elements (value inRange depth) cs.length cs).map fun p => (.arr p.1, p.2)
    | '\x7b' :: cs =>
      match skip cs with
      | '\x7d' :: cs => some (.obj [], cs)
      | _ => (members (value inRange depth) cs.length cs).map fun p => (.obj p.1, p.2)
    | cs => scalar inRange cs

mutual

/-- No object of the tree repeats a key. -/
def duplicateFree : Json → Bool
  | arr items => duplicateFreeItems items
  | obj fields => (fields.map Prod.fst).Nodup && duplicateFreeFields fields
  | _ => true

def duplicateFreeItems : List Json → Bool
  | [] => true
  | j :: items => duplicateFree j && duplicateFreeItems items

def duplicateFreeFields : List (String × Json) → Bool
  | [] => true
  | (_, v) :: fields => duplicateFree v && duplicateFreeFields fields

end

/-! ### Plain trees -/

/-- A character printed inside quotes as it is. -/
def isPlainChar (c : Char) : Bool := 0x20 ≤ c.toNat && c ≠ '"' && c ≠ '\\'

/-- A character no number goes on with. -/
def endsNumber (c : Char) : Bool := !c.isDigit && c ≠ '.' && c ≠ 'e' && c ≠ 'E'

/-- What may follow a value: nothing, or a character that ends a number. -/
def Follows (rest : List Char) : Prop := ∀ c ∈ rest.head?, endsNumber c = true

/-- A literal that is read back whole. -/
def PlainNumber (inRange : String → Bool) (literal : String) : Prop :=
  inRange literal = true ∧ (∃ c cs, literal.toList = c :: cs ∧ (c.isDigit = true ∨ c = '-')) ∧
    ∀ rest, Follows rest → number (literal.toList ++ rest) = some (literal.toList, rest)

mutual

/-- Strings need no escapes and numbers are read back whole. -/
def Plain (inRange : String → Bool) : Json → Prop
  | str s => all isPlainChar s = true
  | num literal => PlainNumber inRange literal
  | arr items => PlainItems inRange items
  | obj fields => PlainFields inRange fields
  | _ => True

def PlainItems (inRange : String → Bool) : List Json → Prop
  | [] => True
  | j :: items => Plain inRange j ∧ PlainItems inRange items

def PlainFields (inRange : String → Bool) : List (String × Json) → Prop
  | [] => True
  | (k, v) :: fields => all isPlainChar k = true ∧ Plain inRange v ∧ PlainFields inRange fields

end

mutual

/-- The tree with every string, keys included, as `encode` writes it. -/
def mapStrings (encode : String → String) : Json → Json
  | null => null
  | bool b => bool b
  | num literal => num literal
  | str s => str (encode s)
  | arr items => arr (mapItems encode items)
  | obj fields => obj (mapFields encode fields)

def mapItems (encode : String → String) : List Json → List Json
  | [] => []
  | j :: items => mapStrings encode j :: mapItems encode items

def mapFields (encode : String → String) : List (String × Json) → List (String × Json)
  | [] => []
  | (k, v) :: fields => (encode k, mapStrings encode v) :: mapFields encode fields

end

/-- What `encode` writes of the string is read back, up to the closing quote. -/
def Decodes (encode : String → String) (s : String) : Prop :=
  ∀ rest, stringBody ((encode s).toList ++ '"' :: rest) = some (s.toList, rest)

mutual

/-- Strings are read back from what `encode` writes of them, and numbers whole. -/
def Coded (inRange : String → Bool) (encode : String → String) : Json → Prop
  | str s => Decodes encode s
  | num literal => PlainNumber inRange literal
  | arr items => CodedItems inRange encode items
  | obj fields => CodedFields inRange encode fields
  | _ => True

def CodedItems (inRange : String → Bool) (encode : String → String) : List Json → Prop
  | [] => True
  | j :: items => Coded inRange encode j ∧ CodedItems inRange encode items

def CodedFields (inRange : String → Bool) (encode : String → String) : List (String × Json) → Prop
  | [] => True
  | (k, v) :: fields => Decodes encode k ∧ Coded inRange encode v ∧ CodedFields inRange encode fields

end

mutual

/-- How deep containers nest. -/
def depth : Json → ℕ
  | arr items => depthItems items + 1
  | obj fields => depthFields fields + 1
  | _ => 0

def depthItems : List Json → ℕ
  | [] => 0
  | j :: items => max (depth j) (depthItems items)

def depthFields : List (String × Json) → ℕ
  | [] => 0
  | (_, v) :: fields => max (depth v) (depthFields fields)

end

/-! ### Reading a plain tree back -/

variable {inRange : String → Bool} {encode : String → String} {rest : List Char}

theorem follows_nil : Follows [] := nofun

theorem follows_cons {c : Char} (h : endsNumber c = true) : Follows (c :: rest) := by
  rintro _ ⟨⟩
  exact h

theorem stringBody_cons {c : Char} (h : isPlainChar c = true) (cs : List Char) :
    stringBody (c :: cs) = (stringBody cs).map (consChar c) := by
  simp only [isPlainChar, Bool.and_eq_true, decide_eq_true_eq] at h
  obtain ⟨⟨hlow, hquote⟩, hslash⟩ := h
  have hnot : ¬ (c.toNat < 0x20 ∨ c = '\\') := by simp [hslash]; omega
  rw [stringBody.eq_def]
  split
  · next heq => cases heq
  · next heq => exact absurd (List.cons.inj heq).1 hquote
  · next heq => exact absurd (List.cons.inj heq).1 hslash
  · next heq => exact absurd (List.cons.inj heq).1 hslash
  · next heq =>
    obtain ⟨rfl, rfl⟩ := List.cons.inj heq
    exact if_neg hnot

theorem stringBody_plain {cs : List Char} (h : ∀ c ∈ cs, isPlainChar c = true) :
    stringBody (cs ++ '"' :: rest) = some (cs, rest) := by
  induction cs with
  | nil => simp [stringBody]
  | cons c cs ih =>
    obtain ⟨hc, hcs⟩ := List.forall_mem_cons.mp h
    rw [List.cons_append, stringBody_cons hc, ih hcs]
    rfl

/-- A run of digits is read whole when no digit follows. -/
theorem digits_append {ds : List Char} (hds : ∀ c ∈ ds, c.isDigit = true) (hne : ds ≠ [])
    (hrest : ∀ c ∈ rest.head?, c.isDigit = false) : digits (ds ++ rest) = some (ds, rest) := by
  have hspan : (ds ++ rest).span Char.isDigit = (ds, rest) := by
    rw [List.span_eq_takeWhile_dropWhile, List.takeWhile_append_of_pos hds,
      List.dropWhile_append_of_pos hds]
    cases rest with
    | nil => simp
    | cons c rest => simp [hrest c rfl]
  simp only [digits, hspan, if_neg hne]

theorem fractionPart_none (h : Follows rest) : fractionPart rest = some ([], rest) := by
  rw [fractionPart.eq_def]
  split
  · next heq => exact absurd (h '.' (by simp)) (by decide)
  · rfl

theorem exponentPart_none (h : Follows rest) : exponentPart rest = some ([], rest) := by
  cases rest with
  | nil => rfl
  | cons c rest =>
    have hc : c ≠ 'e' ∧ c ≠ 'E' := by
      have := h c rfl
      simp only [endsNumber, Bool.and_eq_true, decide_eq_true_eq] at this
      exact ⟨this.1.2, this.2⟩
    simp [exponentPart, hc.1, hc.2]

/-- Decimal digits of a positive number do not start with a zero. -/
theorem toDigits_head : ∀ n : ℕ, 0 < n → ∃ c cs, Nat.toDigits 10 n = c :: cs ∧ c ≠ '0' := by
  intro n
  induction n using Nat.strong_induction_on with
  | _ n ih =>
    intro hn
    rw [Nat.toDigits_eq_if (by omega)]
    split
    · next hlt =>
      have hall : ∀ m < 10, 0 < m → m.digitChar ≠ '0' := by decide
      exact ⟨_, _, rfl, hall n hlt hn⟩
    · obtain ⟨c, cs, heq, hc⟩ := ih (n / 10) (by omega) (by omega)
      exact ⟨c, cs ++ [(n % 10).digitChar], by rw [heq]; rfl, hc⟩

/-- The literal of a natural number is read back whole. -/
theorem plainNumber_repr {n : ℕ} (hrange : inRange n.repr = true) : PlainNumber inRange n.repr := by
  have hdigits : ∀ c ∈ n.repr.toList, c.isDigit = true :=
    all_iff.mp ((Bool.and_eq_true _ _ ▸ isDigits_repr n).2)
  have hne : n.repr.toList ≠ [] := by rw [Nat.toList_repr]; exact Nat.toDigits_ne_nil
  obtain ⟨c, cs, hcs⟩ := List.exists_cons_of_ne_nil hne
  have hc : c.isDigit = true := hdigits c (by rw [hcs]; simp)
  refine ⟨hrange, ⟨c, cs, hcs, .inl hc⟩, fun rest hrest => ?_⟩
  have hdigit : ∀ c ∈ rest.head?, c.isDigit = false := fun c hc => by
    have := hrest c hc
    simp only [endsNumber, Bool.and_eq_true, Bool.not_eq_true'] at this
    exact this.1.1.1
  have hwhole : integerPart (n.repr.toList ++ rest) = some (n.repr.toList, rest) := by
    rcases Nat.eq_zero_or_pos n with rfl | hpos
    · rfl
    · obtain ⟨d, ds, heq, hd⟩ := toDigits_head n hpos
      rw [← digits_append hdigits hne hdigit, Nat.toList_repr, heq, List.cons_append,
        integerPart.eq_def]
      split
      · next h => exact absurd (List.cons.inj h).1 hd
      · rfl
  have hsign : c ≠ '-' := by rintro rfl; exact absurd hc (by decide)
  have hunsigned : unsignedNumber (n.repr.toList ++ rest) = some (n.repr.toList, rest) := by
    rw [unsignedNumber, hwhole]
    simp [fractionPart_none hrest, exponentPart_none hrest]
  rw [hcs, List.cons_append, number.eq_def] at *
  split
  · next h => exact absurd (List.cons.inj h).1 hsign
  · exact hunsigned

theorem skip_cons {c : Char} {cs : List Char} (h : isSpace c = false) : skip (c :: cs) = c :: cs := by
  simp [skip, h]

/-- A first character that opens a value. -/
def opensValue (c : Char) : Bool := !isSpace c && c ≠ ']' && c ≠ '\x7d'

theorem isSpace_of_opensValue {c : Char} (h : opensValue c = true) : isSpace c = false := by
  simp only [opensValue, Bool.and_eq_true, Bool.not_eq_true'] at h
  exact h.1.1

theorem toList_obj (fields : List (String × Json)) : (render (obj fields)).toList =
    '\x7b' :: ((",".intercalate (renderFields fields)).toList ++ ['\x7d']) := by
  simp [render]

theorem toList_arr (items : List Json) : (render (arr items)).toList =
    '[' :: ((",".intercalate (renderItems items)).toList ++ [']']) := by
  simp [render]

/-- What is printed of a tree starts where the reader looks for a value. -/
theorem render_head {j : Json} (h : Coded inRange encode j) :
    ∃ c cs, (render (j.mapStrings encode)).toList = c :: cs ∧ opensValue c = true := by
  cases j with
  | null =>
    rw [mapStrings]
    exact ⟨_, _, rfl, by decide⟩
  | bool b =>
    rw [mapStrings]
    cases b <;> exact ⟨_, _, rfl, by decide⟩
  | num literal =>
    obtain ⟨-, ⟨c, cs, heq, hc⟩, -⟩ := h
    refine ⟨c, cs, heq, ?_⟩
    rcases hc with hc | rfl
    · have hspecial : ∀ d ∈ [' ', '\n', '\t', '\r', ']', '\x7d'], d.isDigit = false :=
        Text.forall_chars (by decide)
      simp only [List.forall_mem_cons] at hspecial
      have hne : ∀ d : Char, d.isDigit = false → c ≠ d := by rintro d hd rfl; simp [hc] at hd
      obtain ⟨h1, h2, h3, h4, h5, h6, -⟩ := hspecial
      simp [opensValue, isSpace, hne _ h1, hne _ h2, hne _ h3, hne _ h4, hne _ h5, hne _ h6]
    · decide
  | str s => exact ⟨'"', (encode s).toList ++ ['"'], by simp [mapStrings, render], by decide⟩
  | arr items => exact ⟨_, _, toList_arr (mapItems encode items), by decide⟩
  | obj fields => exact ⟨_, _, toList_obj (mapFields encode fields), by decide⟩

/-- A text that opens no container is read as a scalar. -/
theorem value_scalar {c : Char} {cs : List Char} (hspace : isSpace c = false) (harr : c ≠ '[')
    (hobj : c ≠ '\x7b') : ∀ d, value inRange d (c :: cs) = scalar inRange (c :: cs)
  | 0 => by rw [value, skip_cons hspace]
  | d + 1 => by
    rw [value, skip_cons hspace]
    split
    · next h => exact absurd (List.cons.inj h).1 harr
    · next h => exact absurd (List.cons.inj h).1 hobj
    · rfl

theorem scalar_num {literal : String} (h : PlainNumber inRange literal) (hrest : Follows rest) :
    scalar inRange (literal.toList ++ rest) = some (num literal, rest) := by
  obtain ⟨hrange, ⟨c, cs, heq, hc⟩, hread⟩ := h
  have hread := hread rest hrest
  have hletter : c ≠ 'n' ∧ c ≠ 't' ∧ c ≠ 'f' ∧ c ≠ '"' := by
    refine ⟨?_, ?_, ?_, ?_⟩ <;> (rintro rfl; revert hc; decide)
  rw [heq, List.cons_append] at hread ⊢
  rw [scalar.eq_def]
  split
  · next h => exact absurd (List.cons.inj h).1 hletter.1
  · next h => exact absurd (List.cons.inj h).1 hletter.2.1
  · next h => exact absurd (List.cons.inj h).1 hletter.2.2.1
  · next h => exact absurd (List.cons.inj h).1 hletter.2.2.2
  · rw [hread, ← heq]
    simp [hrange]

theorem renderItems_cons (j j' : Json) (items : List Json) :
    (",".intercalate (renderItems (j :: j' :: items))).toList =
      (render j).toList ++ ',' :: (",".intercalate (renderItems (j' :: items))).toList := by
  simp [renderItems, String.intercalate_cons_cons]

theorem renderFields_cons (k : String) (v : Json) (f : String × Json) (fields : List (String × Json)) :
    (",".intercalate (renderFields ((k, v) :: f :: fields))).toList =
      '"' :: (k.toList ++ '"' :: ':' :: ((render v).toList ++
        ',' :: (",".intercalate (renderFields (f :: fields))).toList)) := by
  obtain ⟨k', v'⟩ := f
  simp [renderFields, String.intercalate_cons_cons]

theorem renderFields_singleton (k : String) (v : Json) :
    (",".intercalate (renderFields [(k, v)])).toList =
      '"' :: (k.toList ++ '"' :: ':' :: (render v).toList) := by
  simp [renderFields]

/-- A printed list starts with its first element and is longer than its number of commas. -/
theorem renderItems_shape : ∀ (j : Json) (items : List Json), ∃ tail,
    (",".intercalate (renderItems (j :: items))).toList = (render j).toList ++ tail ∧
      items.length ≤ tail.length
  | j, [] => ⟨[], by simp [renderItems], Nat.le_refl _⟩
  | j, j' :: items => by
    obtain ⟨tail, heq, hlen⟩ := renderItems_shape j' items
    refine ⟨_, renderItems_cons j j' items, ?_⟩
    rw [heq]
    simp only [List.length_cons, List.length_append]
    omega

theorem renderFields_shape : ∀ (k : String) (v : Json) (fields : List (String × Json)), ∃ tail,
    (",".intercalate (renderFields ((k, v) :: fields))).toList = '"' :: tail ∧
      fields.length ≤ tail.length
  | k, v, [] => ⟨_, renderFields_singleton k v, Nat.zero_le _⟩
  | k, v, (k', v') :: fields => by
    obtain ⟨tail, heq, hlen⟩ := renderFields_shape k' v' fields
    refine ⟨_, renderFields_cons k v (k', v') fields, ?_⟩
    rw [heq]
    simp only [List.length_cons, List.length_append]
    omega

theorem length_mapItems (items : List Json) : (mapItems encode items).length = items.length := by
  induction items with
  | nil => rfl
  | cons j items ih => rw [mapItems, List.length_cons, List.length_cons, ih]

theorem length_mapFields (fields : List (String × Json)) :
    (mapFields encode fields).length = fields.length := by
  induction fields with
  | nil => rfl
  | cons f fields ih => rw [mapFields, List.length_cons, List.length_cons, ih]

/-- The reader takes back what is printed of the encoded tree, up to what follows it. -/
def Reads (encode : String → String) (read : Reader) (j : Json) : Prop :=
  ∀ rest, Follows rest → read ((render (j.mapStrings encode)).toList ++ rest) = some (j, rest)

theorem member_render {read : Reader} {k : String} {v : Json} {r : List Char} (hk : Decodes encode k)
    (hv : Reads encode read v) (hrest : Follows r) :
    member read ('"' :: ((encode k).toList ++ '"' :: ':' ::
      ((render (v.mapStrings encode)).toList ++ r))) = some ((k, v), r) := by
  rw [member, skip_cons (by decide)]
  have hkey := hk (':' :: ((render (v.mapStrings encode)).toList ++ r))
  simp only [hkey, Option.bind_eq_bind, Option.bind_some, skip_cons (c := ':') (by decide), hv r hrest,
    Option.map_some, String.ofList_toList]

theorem elements_render {read : Reader} (items : List Json) : ∀ (j : Json) {n : ℕ} {rest : List Char},
    (∀ i ∈ j :: items, Reads encode read i) → items.length < n →
    elements read n ((",".intercalate (renderItems (mapItems encode (j :: items)))).toList ++ ']' :: rest) =
      some (j :: items, rest) := by
  induction items with
  | nil =>
    intro j n rest hread hn
    obtain ⟨m, rfl⟩ := Nat.exists_eq_add_one_of_ne_zero (Nat.ne_of_gt hn)
    have hfirst := hread j (by simp) (']' :: rest) (follows_cons (by decide))
    simp only [mapItems, renderItems, String.intercalate_singleton, elements, hfirst, Option.bind_eq_bind,
      Option.bind_some, skip_cons (c := ']') (by decide)]
  | cons j' items ih =>
    intro j n rest hread hn
    obtain ⟨m, rfl⟩ := Nat.exists_eq_add_one_of_ne_zero (Nat.ne_zero_of_lt hn)
    have hothers := @ih j' m rest (fun i hi => hread i (List.mem_cons_of_mem _ hi))
      (Nat.lt_of_succ_lt_succ hn)
    have hfirst := hread j (by simp)
      (',' :: ((",".intercalate (renderItems (mapItems encode (j' :: items)))).toList ++ ']' :: rest))
      (follows_cons (by decide))
    rw [mapItems] at hothers hfirst
    rw [mapItems, mapItems, renderItems_cons, List.append_assoc, List.cons_append, elements]
    simp only [hfirst, Option.bind_eq_bind, Option.bind_some, skip_cons (c := ',') (by decide),
      hothers, Option.map_some]

theorem members_render {read : Reader} (fields : List (String × Json)) : ∀ (k : String) (v : Json) {n : ℕ}
    {rest : List Char},
    (∀ f ∈ (k, v) :: fields, Decodes encode f.1 ∧ Reads encode read f.2) → fields.length < n →
    members read n ((",".intercalate (renderFields (mapFields encode ((k, v) :: fields)))).toList ++
      '\x7d' :: rest) = some ((k, v) :: fields, rest) := by
  induction fields with
  | nil =>
    intro k v n rest hread hn
    obtain ⟨m, rfl⟩ := Nat.exists_eq_add_one_of_ne_zero (Nat.ne_of_gt hn)
    obtain ⟨hk, hv⟩ := hread (k, v) (by simp)
    have hfirst := member_render (r := '\x7d' :: rest) hk hv (follows_cons (by decide))
    rw [mapFields, mapFields, renderFields_singleton, List.cons_append, List.append_assoc, List.cons_append,
      List.cons_append, members]
    simp only [hfirst, Option.bind_eq_bind, Option.bind_some, skip_cons (c := '\x7d') (by decide)]
  | cons f fields ih =>
    intro k v n rest hread hn
    obtain ⟨k', v'⟩ := f
    obtain ⟨m, rfl⟩ := Nat.exists_eq_add_one_of_ne_zero (Nat.ne_zero_of_lt hn)
    obtain ⟨hk, hv⟩ := hread (k, v) (by simp)
    have hothers := @ih k' v' m rest (fun f hf => hread f (List.mem_cons_of_mem _ hf))
      (Nat.lt_of_succ_lt_succ hn)
    have hfirst := member_render hk hv (r := ',' ::
      ((",".intercalate (renderFields (mapFields encode ((k', v') :: fields)))).toList ++ '\x7d' :: rest))
      (follows_cons (by decide))
    rw [mapFields] at hothers hfirst
    rw [mapFields, mapFields, renderFields_cons, List.cons_append, List.append_assoc, List.cons_append,
      List.cons_append, List.append_assoc, List.cons_append, members]
    simp only [hfirst, Option.bind_eq_bind, Option.bind_some, skip_cons (c := ',') (by decide),
      hothers, Option.map_some]

theorem coded_of_mem : ∀ {items : List Json}, CodedItems inRange encode items →
    ∀ j ∈ items, Coded inRange encode j
  | [], _ => nofun
  | _ :: _, h => List.forall_mem_cons.mpr ⟨h.1, coded_of_mem h.2⟩

theorem coded_of_mem_fields : ∀ {fields : List (String × Json)}, CodedFields inRange encode fields →
    ∀ f ∈ fields, Decodes encode f.1 ∧ Coded inRange encode f.2
  | [], _ => nofun
  | (_, _) :: _, h => List.forall_mem_cons.mpr ⟨⟨h.1, h.2.1⟩, coded_of_mem_fields h.2.2⟩

theorem depth_of_mem : ∀ {items : List Json}, ∀ j ∈ items, depth j ≤ depthItems items
  | i :: items, j, hj => by
    rw [depthItems]
    rcases List.mem_cons.mp hj with rfl | hj
    · exact Nat.le_max_left _ _
    · exact (depth_of_mem j hj).trans (Nat.le_max_right _ _)

theorem depth_of_mem_fields : ∀ {fields : List (String × Json)}, ∀ f ∈ fields,
    depth f.2 ≤ depthFields fields
  | (k, v) :: fields, f, hf => by
    rw [depthFields]
    rcases List.mem_cons.mp hf with rfl | hf
    · exact Nat.le_max_left _ _
    · exact (depth_of_mem_fields f hf).trans (Nat.le_max_right _ _)

/-- Scalars are read back at every depth. -/
theorem reads_scalar {j : Json} (hcoded : Coded inRange encode j) (hdepth : depth j = 0) (d : ℕ) :
    Reads encode (value inRange d) j := by
  intro rest hrest
  match j, hcoded, hdepth with
  | .null, _, _ =>
    rw [mapStrings]
    exact value_scalar (by decide) (by decide) (by decide) d
  | .bool true, _, _ =>
    rw [mapStrings]
    exact value_scalar (by decide) (by decide) (by decide) d
  | .bool false, _, _ =>
    rw [mapStrings]
    exact value_scalar (by decide) (by decide) (by decide) d
  | .num literal, hcoded, _ =>
    obtain ⟨c, cs, heq, hc⟩ := hcoded.2.1
    obtain ⟨c', cs', heq', hopens⟩ := render_head (j := .num literal) hcoded
    obtain rfl : c' = c := (List.cons.inj (heq'.symm.trans heq)).1
    have hcontainer : c' ≠ '[' ∧ c' ≠ '\x7b' := by
      constructor <;> (rintro rfl; revert hc; decide)
    rw [mapStrings, render, ← scalar_num hcoded hrest, heq, List.cons_append]
    exact value_scalar (isSpace_of_opensValue hopens) hcontainer.1 hcontainer.2 d
  | .str s, hcoded, _ =>
    have htext : (render (mapStrings encode (str s))).toList ++ rest =
        '"' :: ((encode s).toList ++ '"' :: rest) := by simp [mapStrings, render]
    rw [htext, value_scalar (by decide) (by decide) (by decide), scalar, hcoded rest]
    simp

/-- What is printed of an encoded tree is read back, up to what follows it. -/
theorem value_mapStrings : ∀ (d : ℕ) {j : Json}, Coded inRange encode j → depth j ≤ d →
    Reads encode (value inRange d) j
  | 0, j, hcoded, hdepth => reads_scalar hcoded (Nat.le_zero.mp hdepth) 0
  | d + 1, j, hcoded, hdepth => by
    by_cases hscalar : depth j = 0
    · exact reads_scalar hcoded hscalar _
    intro rest _
    match j, hcoded, hdepth, hscalar with
    | .arr [], _, _, _ =>
      have htext : (render (arr [])).toList ++ rest = '[' :: ']' :: rest := rfl
      rw [mapStrings, mapItems, htext, value, skip_cons (by decide)]
      simp [skip_cons (c := ']') (by decide)]
    | .arr (j :: items), hcoded, hdepth, _ =>
      obtain ⟨tail, hshape, hlen⟩ := renderItems_shape (j.mapStrings encode) (mapItems encode items)
      obtain ⟨c, cs, heq, hopens⟩ := render_head hcoded.1
      have hreads : ∀ i ∈ j :: items, Reads encode (value inRange d) i := fun i hi =>
        value_mapStrings d (coded_of_mem hcoded i hi)
          ((depth_of_mem i hi).trans (Nat.le_of_succ_le_succ hdepth))
      have hread := @elements_render encode _ items j
        ((",".intercalate (renderItems (mapItems encode (j :: items)))).toList ++ ']' :: rest).length rest
        hreads (by
          rw [mapItems, hshape, heq]
          rw [length_mapItems] at hlen
          simp only [List.length_cons, List.length_append]
          omega)
      have hskip : skip ((",".intercalate (renderItems (mapItems encode (j :: items)))).toList ++
          ']' :: rest) = c :: (cs ++ tail ++ ']' :: rest) := by
        rw [mapItems, hshape, heq]
        simpa using skip_cons (isSpace_of_opensValue hopens)
      rw [mapStrings, toList_arr, List.cons_append, List.append_assoc, List.singleton_append, value,
        skip_cons (by decide)]
      simp only [hskip]
      split
      · next h =>
        obtain rfl := (List.cons.inj h).1
        exact absurd hopens (by decide)
      · rw [hread]
        rfl
    | .obj [], _, _, _ =>
      have htext : (render (obj [])).toList ++ rest = '\x7b' :: '\x7d' :: rest := rfl
      rw [mapStrings, mapFields, htext, value, skip_cons (by decide)]
      simp [skip_cons (c := '\x7d') (by decide)]
    | .obj ((k, v) :: fields), hcoded, hdepth, _ =>
      obtain ⟨tail, hshape, hlen⟩ :=
        renderFields_shape (encode k) (v.mapStrings encode) (mapFields encode fields)
      have hreads : ∀ f ∈ (k, v) :: fields,
          Decodes encode f.1 ∧ Reads encode (value inRange d) f.2 := fun f hf =>
        let ⟨hk, hv⟩ := coded_of_mem_fields hcoded f hf
        ⟨hk, value_mapStrings d hv ((depth_of_mem_fields f hf).trans (Nat.le_of_succ_le_succ hdepth))⟩
      have hread := @members_render encode _ fields k v
        ((",".intercalate (renderFields (mapFields encode ((k, v) :: fields)))).toList ++
          '\x7d' :: rest).length rest hreads (by
          rw [mapFields, hshape]
          rw [length_mapFields] at hlen
          simp only [List.length_cons, List.length_append]
          omega)
      have hskip : skip ((",".intercalate (renderFields (mapFields encode ((k, v) :: fields)))).toList ++
          '\x7d' :: rest) = '"' :: (tail ++ '\x7d' :: rest) := by
        rw [mapFields, hshape]
        exact skip_cons (by decide)
      rw [mapStrings, toList_obj, List.cons_append, List.append_assoc, List.singleton_append, value,
        skip_cons (by decide)]
      simp only [hskip]
      split
      · next h => exact absurd (List.cons.inj h).1 (by decide)
      · rw [hread]
        rfl

mutual

theorem mapStrings_id : ∀ j : Json, j.mapStrings id = j
  | .null | .bool _ | .num _ | .str _ => rfl
  | .arr items => by rw [mapStrings, mapItems_id items]
  | .obj fields => by rw [mapStrings, mapFields_id fields]

theorem mapItems_id : ∀ items : List Json, mapItems id items = items
  | [] => rfl
  | j :: items => by rw [mapItems, mapStrings_id j, mapItems_id items]

theorem mapFields_id : ∀ fields : List (String × Json), mapFields id fields = fields
  | [] => rfl
  | (k, v) :: fields => by rw [mapFields, mapStrings_id v, mapFields_id fields]; rfl

end

theorem decodes_plain {s : String} (h : all isPlainChar s = true) : Decodes id s :=
  fun _ => stringBody_plain (all_iff.mp h)

mutual

theorem Plain.coded : ∀ {j : Json}, Plain inRange j → Coded inRange id j
  | .null, _ | .bool _, _ => trivial
  | .num _, h => h
  | .str _, h => decodes_plain h
  | .arr _, h => PlainItems.coded h
  | .obj _, h => PlainFields.coded h

theorem PlainItems.coded : ∀ {items : List Json}, PlainItems inRange items → CodedItems inRange id items
  | [], _ => trivial
  | _ :: _, h => ⟨h.1.coded, PlainItems.coded h.2⟩

theorem PlainFields.coded : ∀ {fields : List (String × Json)}, PlainFields inRange fields →
    CodedFields inRange id fields
  | [], _ => trivial
  | (_, _) :: _, h => ⟨decodes_plain h.1, h.2.1.coded, PlainFields.coded h.2.2⟩

end

/-- What is printed of a plain tree is read back, up to what follows it. -/
theorem value_render (d : ℕ) {j : Json} (hplain : Plain inRange j) (hdepth : depth j ≤ d)
    (rest : List Char) (hrest : Follows rest) :
    value inRange d (j.render.toList ++ rest) = some (j, rest) := by
  have hread := value_mapStrings d hplain.coded hdepth rest hrest
  rwa [mapStrings_id] at hread

/-! ### How long a rendered tree is -/

theorem len_intercalate_le : ∀ texts : List String,
    len (",".intercalate texts) ≤ (texts.map fun text => len text + 1).sum
  | [] => by simp [len]
  | [text] => by simp
  | text :: text' :: texts => by
    have hrest := len_intercalate_le (text' :: texts)
    have hcomma : len "," = 1 := by decide
    rw [String.intercalate_cons_cons, len_append, len_append, hcomma, List.map_cons, List.sum_cons]
    omega

/-- An array is at most as long as its items, each with a comma, and the brackets. -/
theorem len_render_arr_le {items : List Json} {n : ℕ} (h : ∀ j ∈ items, len (render j) ≤ n) :
    len (render (arr items)) ≤ items.length * (n + 1) + 2 := by
  have hopen : len "[" = 1 := by decide
  have hclose : len "]" = 1 := by decide
  have hitems : ((renderItems items).map fun text => len text + 1).sum ≤ items.length * (n + 1) := by
    induction items with
    | nil => simp [renderItems]
    | cons j items ih =>
      obtain ⟨hj, hrest⟩ := List.forall_mem_cons.mp h
      rw [renderItems, List.map_cons, List.sum_cons, List.length_cons, Nat.succ_mul]
      have := ih hrest
      omega
  rw [render, len_append, len_append, hopen, hclose]
  have := len_intercalate_le (renderItems items)
  omega

/-- An object is at most as long as its fields, each with its punctuation, and the braces. -/
theorem len_render_obj_le (fields : List (String × Json)) : len (render (obj fields)) ≤
    (fields.map fun f => len f.1 + len (render f.2) + 4).sum + 2 := by
  have hopen : len "\x7b" = 1 := by decide
  have hclose : len "\x7d" = 1 := by decide
  have hquote : len "\"" = 1 := by decide
  have hcolon : len "\":" = 2 := by decide
  have hfields : ((renderFields fields).map fun text => len text + 1).sum =
      (fields.map fun f => len f.1 + len (render f.2) + 4).sum := by
    induction fields with
    | nil => rfl
    | cons f fields ih =>
      obtain ⟨k, v⟩ := f
      rw [renderFields, List.map_cons, List.map_cons, List.sum_cons, List.sum_cons, ih, len_append,
        len_append, len_append, hquote, hcolon]
      dsimp only
      omega
  rw [render, len_append, len_append, hopen, hclose, ← hfields]
  have := len_intercalate_le (renderFields fields)
  omega

theorem len_render_str (s : String) : len (render (str s)) = len s + 2 := by
  have hquote : len "\"" = 1 := by decide
  rw [render, len_append, len_append, hquote]
  omega

end Serde.Json
