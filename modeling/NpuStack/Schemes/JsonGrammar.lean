import NpuStack.Schemes.JsonText

/-! The grammar of JSON texts, stated without a reader.

        white value white          value = null | true | false | string | number | [ … ] | { … }

    `Spells d j s` says that `s` spells `j`, with containers nested at most `d` deep. The reader finds
    a value exactly where the grammar spells one (`value_iff`). -/

namespace Serde.Json
open Text

/-- White space only. -/
def White (s : List Char) : Prop := ∀ c ∈ s, isSpace c = true

/-- What stands between the quotes of a string, and the characters it means. -/
inductive SpellsString : List Char → List Char → Prop
  | nil : SpellsString [] []
  | plain {c : Char} {s v : List Char} (hc : isPlainChar c = true) (h : SpellsString s v) :
      SpellsString (c :: s) (c :: v)
  | short {e c : Char} {s v : List Char} (he : shortEscape e = some c) (h : SpellsString s v) :
      SpellsString ('\\' :: e :: s) (c :: v)
  | unit {a b c d : Char} {n : ℕ} {s v : List Char} (hunit : codeUnit a b c d = some n)
      (hlead : ¬(0xD800 ≤ n ∧ n ≤ 0xDBFF)) (htrail : ¬(0xDC00 ≤ n ∧ n ≤ 0xDFFF))
      (h : SpellsString s v) : SpellsString ('\\' :: 'u' :: a :: b :: c :: d :: s) (Char.ofNat n :: v)
  | pair {a b c d a' b' c' d' : Char} {n n' : ℕ} {s v : List Char} (hunit : codeUnit a b c d = some n)
      (hlead : 0xD800 ≤ n ∧ n ≤ 0xDBFF) (hunit' : codeUnit a' b' c' d' = some n')
      (htrail : 0xDC00 ≤ n' ∧ n' ≤ 0xDFFF) (h : SpellsString s v) :
      SpellsString ('\\' :: 'u' :: a :: b :: c :: d :: '\\' :: 'u' :: a' :: b' :: c' :: d' :: s)
        (Char.ofNat (0x10000 + (n - 0xD800) * 0x400 + (n' - 0xDC00)) :: v)

/-- One or more digits. -/
def Digits (s : List Char) : Prop := s ≠ [] ∧ ∀ c ∈ s, c.isDigit = true

inductive Whole : List Char → Prop
  | zero : Whole ['0']
  | digits {s : List Char} (h : Digits s) (hhead : s.head? ≠ some '0') : Whole s

inductive Fraction : List Char → Prop
  | none : Fraction []
  | digits {s : List Char} (h : Digits s) : Fraction ('.' :: s)

inductive Exponent : List Char → Prop
  | none : Exponent []
  | digits {e : Char} {s sign : List Char} (he : e = 'e' ∨ e = 'E')
      (hsign : sign = [] ∨ sign = ['+'] ∨ sign = ['-']) (h : Digits s) : Exponent (e :: (sign ++ s))

/-- The literal of a number. -/
inductive Number : List Char → Prop
  | mk {sign whole fraction exponent : List Char} (hsign : sign = [] ∨ sign = ['-'])
      (hwhole : Whole whole) (hfraction : Fraction fraction) (hexponent : Exponent exponent) :
      Number (sign ++ (whole ++ fraction ++ exponent))

/-- A value that is not a container. -/
inductive Scalar (inRange : String → Bool) : Json → List Char → Prop
  | null : Scalar inRange .null ['n', 'u', 'l', 'l']
  | boolTrue : Scalar inRange (.bool true) ['t', 'r', 'u', 'e']
  | boolFalse : Scalar inRange (.bool false) ['f', 'a', 'l', 's', 'e']
  | str {s v : List Char} (h : SpellsString s v) :
      Scalar inRange (.str (String.ofList v)) ('"' :: (s ++ ['"']))
  | num {literal : List Char} (h : Number literal) (hrange : inRange (String.ofList literal) = true) :
      Scalar inRange (.num (String.ofList literal)) literal

section
variable {α : Type}

/-- With white space around it. -/
def Padded (P : α → List Char → Prop) (a : α) (s : List Char) : Prop :=
  ∃ before t after, White before ∧ P a t ∧ White after ∧ s = before ++ (t ++ after)

/-- One or more, with commas between them. -/
inductive Separated (P : α → List Char → Prop) : List α → List Char → Prop
  | one {a : α} {s : List Char} (h : P a s) : Separated P [a] s
  | cons {a : α} {as : List α} {s t : List Char} (h : P a s) (hrest : Separated P as t) :
      Separated P (a :: as) (s ++ ',' :: t)

end

/-- A key, a colon and a value. -/
inductive Pair (V : Json → List Char → Prop) : String × Json → List Char → Prop
  | mk {key v between before t : List Char} {j : Json} (hkey : SpellsString key v) (hbetween : White between)
      (hbefore : White before) (h : V j t) :
      Pair V (String.ofList v, j) ('"' :: (key ++ '"' :: (between ++ ':' :: (before ++ t))))

/-- A scalar, or a container of values that `V` spells. -/
inductive Compound (inRange : String → Bool) (V : Json → List Char → Prop) : Json → List Char → Prop
  | scalar {j : Json} {s : List Char} (h : Scalar inRange j s) : Compound inRange V j s
  | emptyArr {w : List Char} (hw : White w) : Compound inRange V (.arr []) ('[' :: (w ++ [']']))
  | arr {items : List Json} {s : List Char} (h : Separated (Padded V) items s) :
      Compound inRange V (.arr items) ('[' :: (s ++ [']']))
  | emptyObj {w : List Char} (hw : White w) :
      Compound inRange V (.obj []) ('\x7b' :: (w ++ ['\x7d']))
  | obj {fields : List (String × Json)} {s : List Char} (h : Separated (Padded (Pair V)) fields s) :
      Compound inRange V (.obj fields) ('\x7b' :: (s ++ ['\x7d']))

/-- The text spells the value, without white space around it. -/
def Spells (inRange : String → Bool) : ℕ → Json → List Char → Prop
  | 0 => Scalar inRange
  | d + 1 => Compound inRange (Spells inRange d)

variable {inRange : String → Bool} {rest : List Char}

/-! ### White space -/

theorem White.append {s t : List Char} (hs : White s) (ht : White t) : White (s ++ t) := by
  intro c hc
  rcases List.mem_append.mp hc with hc | hc
  · exact hs c hc
  · exact ht c hc

theorem skip_white {w : List Char} (hw : White w) (cs : List Char) : skip (w ++ cs) = skip cs :=
  List.dropWhile_append_of_pos hw

/-- A text is white space and what is left after it. -/
theorem exists_white (cs : List Char) : ∃ w, White w ∧ cs = w ++ skip cs := by
  refine ⟨cs.takeWhile isSpace, ?_, (List.takeWhile_append_dropWhile).symm⟩
  intro c hc
  exact List.mem_takeWhile_imp hc

theorem skip_eq_nil {cs : List Char} : skip cs = [] ↔ White cs := by
  rw [skip, List.dropWhile_eq_nil_iff]
  rfl

/-- White space ends a number, and so does what may follow it. -/
theorem follows_white {w : List Char} (hw : White w) (h : Follows rest) : Follows (w ++ rest) := by
  cases w with
  | nil => exact h
  | cons c w =>
    refine follows_cons ?_
    have hc := hw c List.mem_cons_self
    simp only [isSpace, Bool.or_eq_true, decide_eq_true_eq] at hc
    rcases hc with ((rfl | rfl) | rfl) | rfl <;> decide

theorem follows_of_white {w : List Char} (hw : White w) : Follows w := by
  have h := follows_white hw follows_nil
  rwa [List.append_nil] at h

/-! ### Strings -/

theorem stringBody_short {e c : Char} (he : shortEscape e = some c) (cs : List Char) :
    stringBody ('\\' :: e :: cs) = (stringBody cs).map (consChar c) := by
  have hu : e ≠ 'u' := by
    rintro rfl
    cases he
  rw [stringBody.eq_def]
  split
  · next heq => cases heq
  · next heq => exact absurd (List.cons.inj heq).1 (by decide)
  · next heq =>
    obtain ⟨-, htail⟩ := List.cons.inj heq
    exact absurd (List.cons.inj htail).1 hu
  · next heq =>
    obtain ⟨-, htail⟩ := List.cons.inj heq
    obtain ⟨rfl, rfl⟩ := List.cons.inj htail
    rw [he]
  · next hshort heq =>
    obtain ⟨rfl, rfl⟩ := List.cons.inj heq
    exact (hshort e cs rfl rfl).elim

theorem SpellsString.read {s v : List Char} (h : SpellsString s v) :
    stringBody (s ++ '"' :: rest) = some (v, rest) := by
  induction h with
  | nil => simp [stringBody]
  | plain hc _ ih =>
    rw [List.cons_append, stringBody_cons hc, ih]
    rfl
  | short he _ ih =>
    rw [List.cons_append, List.cons_append, stringBody_short he, ih]
    rfl
  | unit hunit hlead htrail _ ih =>
    simp only [List.cons_append, stringBody, hunit, if_neg hlead, if_neg htrail, ih]
    rfl
  | pair hunit hlead hunit' htrail _ ih =>
    simp only [List.cons_append, stringBody, hunit, if_pos hlead, hunit', if_pos htrail, ih]
    rfl

/-- Reading a string leaves what follows its closing quote. -/
theorem spells_of_stringBody {cs : List Char} : ∀ {v : List Char}, stringBody cs = some (v, rest) →
    ∃ s, cs = s ++ '"' :: rest ∧ SpellsString s v := by
  have hmap : ∀ {c : Char} {o : Option (List Char × List Char)} {v : List Char},
      o.map (consChar c) = some (v, rest) → ∃ v', o = some (v', rest) ∧ v = c :: v' := by
    intro c o v h
    obtain ⟨⟨v', rest'⟩, rfl, heq⟩ := Option.map_eq_some_iff.mp h
    cases heq
    exact ⟨v', rfl, rfl⟩
  fun_induction stringBody cs with
  | case1 => intro v h; cases h
  | case2 cs =>
    intro v h
    cases h
    exact ⟨[], rfl, .nil⟩
  | case5 a b c d n hunit hlead a' b' c' d' cs n' hunit' htrail ih =>
    intro v h
    obtain ⟨v', hrest, rfl⟩ := hmap h
    obtain ⟨s, rfl, hs⟩ := ih hrest
    exact ⟨_, rfl, .pair hunit hlead hunit' htrail hs⟩
  | case9 a b c d cs n hunit hlead htrail ih =>
    intro v h
    obtain ⟨v', hrest, rfl⟩ := hmap h
    obtain ⟨s, rfl, hs⟩ := ih hrest
    exact ⟨_, rfl, .unit hunit hlead htrail hs⟩
  | case10 e cs _ c he ih =>
    intro v h
    obtain ⟨v', hrest, rfl⟩ := hmap h
    obtain ⟨s, rfl, hs⟩ := ih hrest
    exact ⟨_, rfl, .short he hs⟩
  | case13 c cs hquote _ _ hchar ih =>
    intro v h
    obtain ⟨v', hrest, rfl⟩ := hmap h
    obtain ⟨s, rfl, hs⟩ := ih hrest
    refine ⟨_, rfl, .plain ?_ hs⟩
    obtain ⟨hlow, hslash⟩ := not_or.mp hchar
    simp only [isPlainChar, Bool.and_eq_true, decide_eq_true_eq]
    exact ⟨⟨by omega, fun h => hquote h⟩, hslash⟩
  | _ => intro v h; cases h

/-! ### Numbers -/

theorem Digits.read {s : List Char} (h : Digits s) (hrest : ∀ c ∈ rest.head?, c.isDigit = false) :
    digits (s ++ rest) = some (s, rest) := digits_append h.2 h.1 hrest

theorem digits_of_read {cs s : List Char} (h : digits cs = some (s, rest)) : cs = s ++ rest ∧ Digits s := by
  simp only [digits, List.span_eq_takeWhile_dropWhile] at h
  split at h
  · cases h
  · next hne =>
    cases h
    exact ⟨List.takeWhile_append_dropWhile.symm, hne, fun c hc => List.mem_takeWhile_imp hc⟩

theorem Whole.read {s : List Char} (h : Whole s) (hrest : ∀ c ∈ rest.head?, c.isDigit = false) :
    integerPart (s ++ rest) = some (s, rest) := by
  cases h with
  | zero => rfl
  | digits h hhead =>
    rw [integerPart.eq_def]
    split
    · next heq =>
      obtain ⟨c, s, rfl⟩ := List.exists_cons_of_ne_nil h.1
      obtain ⟨rfl, -⟩ := List.cons.inj heq
      exact absurd rfl hhead
    · exact h.read hrest

theorem whole_of_read {cs s : List Char} (h : integerPart cs = some (s, rest)) :
    cs = s ++ rest ∧ Whole s := by
  rw [integerPart.eq_def] at h
  split at h
  · cases h
    exact ⟨rfl, .zero⟩
  · next cs hzero =>
    obtain ⟨rfl, hs⟩ := digits_of_read h
    refine ⟨rfl, .digits hs ?_⟩
    intro hhead
    obtain ⟨c, s, rfl⟩ := List.exists_cons_of_ne_nil hs.1
    obtain rfl : c = '0' := Option.some.inj hhead
    exact hzero _ rfl

theorem Fraction.read {s : List Char} (h : Fraction s)
    (hrest : ∀ c ∈ rest.head?, c.isDigit = false ∧ c ≠ '.') : fractionPart (s ++ rest) = some (s, rest) := by
  cases h with
  | none =>
    rw [fractionPart.eq_def]
    split
    · next heq =>
      rw [List.nil_append] at heq
      exact absurd rfl (hrest '.' (by rw [heq]; rfl)).2
    · rfl
  | digits h =>
    rw [List.cons_append, fractionPart, h.read fun c hc => (hrest c hc).1]
    rfl

theorem fraction_of_read {cs s : List Char} (h : fractionPart cs = some (s, rest)) :
    cs = s ++ rest ∧ Fraction s := by
  rw [fractionPart.eq_def] at h
  split at h
  · obtain ⟨⟨s', rest'⟩, hread, heq⟩ := Option.map_eq_some_iff.mp h
    cases heq
    obtain ⟨rfl, hs⟩ := digits_of_read hread
    exact ⟨rfl, .digits hs⟩
  · cases h
    exact ⟨rfl, .none⟩

theorem Exponent.read {s : List Char} (h : Exponent s) (hrest : Follows rest) :
    exponentPart (s ++ rest) = some (s, rest) := by
  cases h with
  | none => exact exponentPart_none hrest
  | @digits e s sign he hsign h =>
    have hread := @Digits.read rest _ h fun c hc => by
      have hc := hrest c hc
      simp only [endsNumber, Bool.and_eq_true, Bool.not_eq_true'] at hc
      exact hc.1.1.1
    rw [List.cons_append, exponentPart.eq_def]
    dsimp only
    rw [if_pos he]
    rcases hsign with rfl | rfl | rfl
    · obtain ⟨c, s, rfl⟩ := List.exists_cons_of_ne_nil h.1
      have hc := h.2 c List.mem_cons_self
      split
      · next heq =>
        obtain ⟨rfl, -⟩ := List.cons.inj heq
        exact absurd hc (by decide)
      · next heq =>
        obtain ⟨rfl, -⟩ := List.cons.inj heq
        exact absurd hc (by decide)
      · rw [List.nil_append, hread]
        rfl
    · show (Json.digits (s ++ rest)).map (fun p => consChar e (consChar '+' p)) = _
      rw [hread]
      rfl
    · show (Json.digits (s ++ rest)).map (fun p => consChar e (consChar '-' p)) = _
      rw [hread]
      rfl

theorem exponent_of_read {cs s : List Char} (h : exponentPart cs = some (s, rest)) :
    cs = s ++ rest ∧ Exponent s := by
  cases cs with
  | nil =>
    cases h
    exact ⟨rfl, .none⟩
  | cons e cs =>
    rw [exponentPart.eq_def] at h
    dsimp only at h
    split at h
    · next he =>
      split at h
      · obtain ⟨⟨s', rest'⟩, hread, heq⟩ := Option.map_eq_some_iff.mp h
        cases heq
        obtain ⟨rfl, hs⟩ := digits_of_read hread
        exact ⟨rfl, .digits he (.inr (.inl rfl)) hs⟩
      · obtain ⟨⟨s', rest'⟩, hread, heq⟩ := Option.map_eq_some_iff.mp h
        cases heq
        obtain ⟨rfl, hs⟩ := digits_of_read hread
        exact ⟨rfl, .digits he (.inr (.inr rfl)) hs⟩
      · obtain ⟨⟨s', rest'⟩, hread, heq⟩ := Option.map_eq_some_iff.mp h
        cases heq
        obtain ⟨rfl, hs⟩ := digits_of_read hread
        exact ⟨rfl, @Exponent.digits e _ [] he (.inl rfl) hs⟩
    · cases h
      exact ⟨rfl, .none⟩

/-- After the digits of a number comes no further digit or point. -/
theorem Exponent.head {s : List Char} (h : Exponent s) (hrest : Follows rest) :
    ∀ c ∈ (s ++ rest).head?, c.isDigit = false ∧ c ≠ '.' := by
  cases h with
  | none =>
    intro c hc
    have hc := hrest c hc
    simp only [endsNumber, Bool.and_eq_true, Bool.not_eq_true', decide_eq_true_eq] at hc
    exact hc.1.1
  | digits he _ _ =>
    rintro _ ⟨⟩
    rcases he with rfl | rfl <;> decide

theorem Fraction.head {s : List Char} (h : Fraction s)
    (hrest : ∀ c ∈ rest.head?, c.isDigit = false ∧ c ≠ '.') : ∀ c ∈ (s ++ rest).head?, c.isDigit = false := by
  cases h with
  | none => exact fun c hc => (hrest c hc).1
  | digits _ =>
    rintro _ ⟨⟩
    decide

theorem Whole.head {s : List Char} (h : Whole s) : ∃ c cs, s = c :: cs ∧ c.isDigit = true := by
  cases h with
  | zero => exact ⟨'0', [], rfl, by decide⟩
  | digits h _ =>
    obtain ⟨c, s, rfl⟩ := List.exists_cons_of_ne_nil h.1
    exact ⟨c, s, rfl, h.2 c List.mem_cons_self⟩

/-- A literal begins with a digit or a minus sign. -/
theorem Number.head {s : List Char} (h : Number s) : ∃ c cs, s = c :: cs ∧ (c.isDigit = true ∨ c = '-') := by
  obtain ⟨hsign, hwhole, -, -⟩ := h
  obtain ⟨c, cs, rfl, hc⟩ := hwhole.head
  rcases hsign with rfl | rfl
  · exact ⟨c, _, rfl, .inl hc⟩
  · exact ⟨'-', _, rfl, .inr rfl⟩

theorem Number.read {s : List Char} (h : Number s) (hrest : Follows rest) :
    number (s ++ rest) = some (s, rest) := by
  obtain ⟨hsign, hwhole, hfraction, hexponent⟩ := h
  rename_i sign whole fraction exponent
  have hunsigned : unsignedNumber (whole ++ fraction ++ exponent ++ rest) =
      some (whole ++ fraction ++ exponent, rest) := by
    have hhead := hexponent.head hrest
    simp only [unsignedNumber, List.append_assoc, Option.bind_eq_bind, Option.pure_def]
    rw [hwhole.read (hfraction.head hhead), Option.bind_some, hfraction.read hhead, Option.bind_some,
      hexponent.read hrest, Option.bind_some]
  rcases hsign with rfl | rfl
  · rw [List.nil_append, number.eq_def]
    split
    · next heq =>
      obtain ⟨c, cs, rfl, hc⟩ := hwhole.head
      obtain ⟨rfl, -⟩ := List.cons.inj heq
      exact absurd hc (by decide)
    · exact hunsigned
  · rw [List.singleton_append, List.cons_append, number, hunsigned]
    rfl

theorem number_of_read {cs s : List Char} (h : number cs = some (s, rest)) : cs = s ++ rest ∧ Number s := by
  have hunsigned : ∀ {cs s : List Char}, unsignedNumber cs = some (s, rest) →
      cs = s ++ rest ∧ ∃ whole fraction exponent, s = whole ++ fraction ++ exponent ∧ Whole whole ∧
        Fraction fraction ∧ Exponent exponent := by
    intro cs s h
    simp only [unsignedNumber, Option.bind_eq_bind, Option.bind_eq_some_iff, Option.pure_def,
      Option.some.injEq, Prod.mk.injEq] at h
    obtain ⟨⟨whole, cs₁⟩, hwhole, ⟨fraction, cs₂⟩, hfraction, ⟨exponent, cs₃⟩, hexponent, rfl, rfl⟩ := h
    obtain ⟨rfl, hw⟩ := whole_of_read hwhole
    obtain ⟨rfl, hf⟩ := fraction_of_read hfraction
    obtain ⟨rfl, he⟩ := exponent_of_read hexponent
    exact ⟨by simp, _, _, _, rfl, hw, hf, he⟩
  rw [number.eq_def] at h
  split at h
  · obtain ⟨⟨s', rest'⟩, hread, heq⟩ := Option.map_eq_some_iff.mp h
    cases heq
    obtain ⟨rfl, _, _, _, rfl, hwhole, hfraction, hexponent⟩ := hunsigned hread
    exact ⟨rfl, .mk (.inr rfl) hwhole hfraction hexponent⟩
  · obtain ⟨rfl, _, _, _, rfl, hwhole, hfraction, hexponent⟩ := hunsigned h
    exact ⟨rfl, .mk (.inl rfl) hwhole hfraction hexponent⟩

/-! ### Scalars -/

theorem Scalar.head {j : Json} {s : List Char} (h : Scalar inRange j s) :
    ∃ c cs, s = c :: cs ∧ opensValue c = true ∧ c ≠ '[' ∧ c ≠ '\x7b' := by
  cases h with
  | null => exact ⟨'n', _, rfl, by decide, by decide, by decide⟩
  | boolTrue => exact ⟨'t', _, rfl, by decide, by decide, by decide⟩
  | boolFalse => exact ⟨'f', _, rfl, by decide, by decide, by decide⟩
  | str _ => exact ⟨'"', _, rfl, by decide, by decide, by decide⟩
  | num h _ =>
    obtain ⟨c, cs, rfl, hc⟩ := h.head
    refine ⟨c, cs, rfl, ?_, ?_, ?_⟩
    · simp only [opensValue, isSpace, Bool.and_eq_true, Bool.not_eq_true', Bool.or_eq_false_iff,
        decide_eq_true_eq, decide_eq_false_iff_not]
      refine ⟨⟨⟨⟨⟨?_, ?_⟩, ?_⟩, ?_⟩, ?_⟩, ?_⟩ <;> (rintro rfl; revert hc; decide)
    · rintro rfl
      revert hc
      decide
    · rintro rfl
      revert hc
      decide

theorem Scalar.read {j : Json} {s : List Char} (h : Scalar inRange j s) (hrest : Follows rest) :
    scalar inRange (s ++ rest) = some (j, rest) := by
  cases h with
  | null => rfl
  | boolTrue => rfl
  | boolFalse => rfl
  | str h =>
    rw [List.cons_append, List.append_assoc, List.singleton_append, scalar, h.read]
    rfl
  | num h hrange =>
    have hread := h.read hrest
    obtain ⟨c, cs, rfl, hc⟩ := h.head
    have hne : c ≠ 'n' ∧ c ≠ 't' ∧ c ≠ 'f' ∧ c ≠ '"' := by
      refine ⟨?_, ?_, ?_, ?_⟩ <;> (rintro rfl; revert hc; decide)
    rw [List.cons_append] at hread ⊢
    rw [scalar.eq_def]
    split
    · next heq => exact absurd (List.cons.inj heq).1 hne.1
    · next heq => exact absurd (List.cons.inj heq).1 hne.2.1
    · next heq => exact absurd (List.cons.inj heq).1 hne.2.2.1
    · next heq => exact absurd (List.cons.inj heq).1 hne.2.2.2
    · simp only [hread, Option.bind_eq_bind, Option.bind_some, hrange, if_true]

theorem scalar_of_read {cs : List Char} {j : Json} (h : scalar inRange cs = some (j, rest)) :
    ∃ s, cs = s ++ rest ∧ Scalar inRange j s := by
  rw [scalar.eq_def] at h
  split at h
  · cases h
    exact ⟨_, rfl, .null⟩
  · cases h
    exact ⟨_, rfl, .boolTrue⟩
  · cases h
    exact ⟨_, rfl, .boolFalse⟩
  · obtain ⟨⟨v, rest'⟩, hread, heq⟩ := Option.map_eq_some_iff.mp h
    cases heq
    obtain ⟨s, rfl, hs⟩ := spells_of_stringBody hread
    exact ⟨'"' :: (s ++ ['"']), by simp, .str hs⟩
  · simp only [Option.bind_eq_bind, Option.bind_eq_some_iff, Option.ite_none_right_eq_some,
      Option.some.injEq, Prod.mk.injEq] at h
    obtain ⟨⟨literal, rest'⟩, hread, hrange, rfl, rfl⟩ := h
    obtain ⟨rfl, hnumber⟩ := number_of_read hread
    exact ⟨literal, rfl, .num hnumber hrange⟩

/-! ### Containers -/

/-- The reader finds exactly what `V` spells, up to leading white space. -/
structure Finds (read : Reader) (V : Json → List Char → Prop) : Prop where
  head : ∀ j s, V j s → ∃ c cs, s = c :: cs ∧ opensValue c = true
  complete : ∀ j s before rest, V j s → White before → Follows rest →
    read (before ++ (s ++ rest)) = some (j, rest)
  sound : ∀ j cs rest, read cs = some (j, rest) →
    ∃ before s, White before ∧ V j s ∧ cs = before ++ (s ++ rest)

variable {read : Reader} {V : Json → List Char → Prop}

theorem skip_append {w : List Char} {c : Char} (hw : White w) (hc : isSpace c = false) (cs : List Char) :
    skip (w ++ c :: cs) = c :: cs := by
  rw [skip_white hw, skip_cons hc]

theorem Finds.elements_read (h : Finds read V) {items : List Json} {s : List Char}
    (hs : Separated (Padded V) items s) : ∀ {n : ℕ}, items.length ≤ n →
    elements read n (s ++ ']' :: rest) = some (items, rest) := by
  induction hs with
  | one hone =>
    intro n hn
    obtain ⟨m, rfl⟩ := Nat.exists_eq_add_one_of_ne_zero (Nat.ne_of_gt hn)
    obtain ⟨before, t, after, hbefore, ht, hafter, rfl⟩ := hone
    have hread := h.complete _ t before (after ++ ']' :: rest) ht hbefore
      (follows_white hafter (follows_cons (by decide)))
    simp only [List.append_assoc, elements, hread, Option.bind_eq_bind, Option.bind_some,
      skip_append hafter (show isSpace ']' = false by decide)]
  | @cons a as s' t' hone hrest ih =>
    intro n hn
    obtain ⟨m, rfl⟩ := Nat.exists_eq_add_one_of_ne_zero (Nat.ne_of_gt (Nat.zero_lt_of_lt hn))
    obtain ⟨before, t, after, hbefore, ht, hafter, rfl⟩ := hone
    have hread := h.complete _ t before (after ++ ',' :: (t' ++ ']' :: rest)) ht hbefore
      (follows_white hafter (follows_cons (by decide)))
    have hothers := @ih m (Nat.le_of_succ_le_succ hn)
    simp only [List.append_assoc, List.cons_append, elements, hread, Option.bind_eq_bind, Option.bind_some,
      skip_append hafter (show isSpace ',' = false by decide), hothers, Option.map_some]

theorem Finds.separated_of_elements (h : Finds read V) {n : ℕ} : ∀ {cs : List Char} {items : List Json},
    elements read n cs = some (items, rest) →
    ∃ s, cs = s ++ ']' :: rest ∧ Separated (Padded V) items s := by
  induction n with
  | zero => intro cs items hread; cases hread
  | succ n ih =>
    intro cs items hread
    simp only [elements, Option.bind_eq_bind, Option.bind_eq_some_iff] at hread
    obtain ⟨⟨j, cs₁⟩, hfirst, hread⟩ := hread
    obtain ⟨before, t, hbefore, ht, rfl⟩ := h.sound j cs cs₁ hfirst
    obtain ⟨after, hafter, heq⟩ := exists_white cs₁
    split at hread
    · next cs₂ hskip =>
      obtain ⟨⟨items', rest'⟩, hothers, heq'⟩ := Option.map_eq_some_iff.mp hread
      cases heq'
      obtain ⟨s, rfl, hs⟩ := ih hothers
      rw [hskip] at heq
      refine ⟨before ++ (t ++ after) ++ ',' :: s, ?_, .cons ⟨before, t, after, hbefore, ht, hafter, rfl⟩ hs⟩
      rw [heq]
      simp
    · next cs₂ hskip =>
      cases hread
      rw [hskip] at heq
      refine ⟨before ++ (t ++ after), ?_, .one ⟨before, t, after, hbefore, ht, hafter, rfl⟩⟩
      rw [heq]
      simp
    · cases hread

theorem Finds.member_read (h : Finds read V) {m : String × Json} {s before : List Char} (hs : Pair V m s)
    (hbefore : White before) (hrest : Follows rest) : member read (before ++ (s ++ rest)) = some (m, rest) := by
  cases hs with
  | @mk key v between before' t j hkey hbetween hbefore' ht =>
    have hvalue := h.complete j t before' rest ht hbefore' hrest
    simp only [List.cons_append, List.append_assoc, member,
      skip_append hbefore (show isSpace '"' = false by decide), hkey.read, Option.bind_eq_bind,
      Option.bind_some, skip_append hbetween (show isSpace ':' = false by decide), hvalue, Option.map_some]

theorem Finds.pair_of_member (h : Finds read V) {m : String × Json} {cs : List Char}
    (hread : member read cs = some (m, rest)) :
    ∃ before s, White before ∧ Pair V m s ∧ cs = before ++ (s ++ rest) := by
  obtain ⟨before, hbefore, heq⟩ := exists_white cs
  rw [member] at hread
  split at hread
  · next cs₁ hskip =>
    simp only [Option.bind_eq_bind, Option.bind_eq_some_iff] at hread
    obtain ⟨⟨v, cs₂⟩, hkey, hread⟩ := hread
    obtain ⟨key, rfl, hspells⟩ := spells_of_stringBody hkey
    obtain ⟨between, hbetween, heq₂⟩ := exists_white cs₂
    split at hread
    · next cs₃ hskip₂ =>
      obtain ⟨⟨j, rest'⟩, hvalue, heq'⟩ := Option.map_eq_some_iff.mp hread
      cases heq'
      obtain ⟨before', t, hbefore', ht, rfl⟩ := h.sound j cs₃ rest' hvalue
      rw [hskip₂] at heq₂
      refine ⟨before, _, hbefore, .mk hspells hbetween hbefore' ht, ?_⟩
      rw [heq, hskip, heq₂]
      simp
    · cases hread
  · cases hread

theorem Finds.members_read (h : Finds read V) {fields : List (String × Json)} {s : List Char}
    (hs : Separated (Padded (Pair V)) fields s) : ∀ {n : ℕ}, fields.length ≤ n →
    members read n (s ++ '\x7d' :: rest) = some (fields, rest) := by
  induction hs with
  | one hone =>
    intro n hn
    obtain ⟨m, rfl⟩ := Nat.exists_eq_add_one_of_ne_zero (Nat.ne_of_gt hn)
    obtain ⟨before, t, after, hbefore, ht, hafter, rfl⟩ := hone
    have hread := @Finds.member_read (after ++ '\x7d' :: rest) _ _ h _ t before ht hbefore
      (follows_white hafter (follows_cons (by decide)))
    simp only [List.append_assoc, members, hread, Option.bind_eq_bind, Option.bind_some,
      skip_append hafter (show isSpace '\x7d' = false by decide)]
  | @cons a as s' t' hone hrest ih =>
    intro n hn
    obtain ⟨m, rfl⟩ := Nat.exists_eq_add_one_of_ne_zero (Nat.ne_of_gt (Nat.zero_lt_of_lt hn))
    obtain ⟨before, t, after, hbefore, ht, hafter, rfl⟩ := hone
    have hread := @Finds.member_read (after ++ ',' :: (t' ++ '\x7d' :: rest)) _ _ h _ t before ht hbefore
      (follows_white hafter (follows_cons (by decide)))
    have hothers := @ih m (Nat.le_of_succ_le_succ hn)
    simp only [List.append_assoc, List.cons_append, members, hread, Option.bind_eq_bind, Option.bind_some,
      skip_append hafter (show isSpace ',' = false by decide), hothers, Option.map_some]

theorem Finds.separated_of_members (h : Finds read V) {n : ℕ} :
    ∀ {cs : List Char} {fields : List (String × Json)}, members read n cs = some (fields, rest) →
    ∃ s, cs = s ++ '\x7d' :: rest ∧ Separated (Padded (Pair V)) fields s := by
  induction n with
  | zero => intro cs fields hread; cases hread
  | succ n ih =>
    intro cs fields hread
    simp only [members, Option.bind_eq_bind, Option.bind_eq_some_iff] at hread
    obtain ⟨⟨m, cs₁⟩, hfirst, hread⟩ := hread
    obtain ⟨before, t, hbefore, ht, rfl⟩ := h.pair_of_member hfirst
    obtain ⟨after, hafter, heq⟩ := exists_white cs₁
    split at hread
    · next cs₂ hskip =>
      obtain ⟨⟨fields', rest'⟩, hothers, heq'⟩ := Option.map_eq_some_iff.mp hread
      cases heq'
      obtain ⟨s, rfl, hs⟩ := ih hothers
      rw [hskip] at heq
      refine ⟨before ++ (t ++ after) ++ ',' :: s, ?_, .cons ⟨before, t, after, hbefore, ht, hafter, rfl⟩ hs⟩
      rw [heq]
      simp
    · next cs₂ hskip =>
      cases hread
      rw [hskip] at heq
      refine ⟨before ++ (t ++ after), ?_, .one ⟨before, t, after, hbefore, ht, hafter, rfl⟩⟩
      rw [heq]
      simp
    · cases hread

/-! ### Values -/

theorem Pair.head {m : String × Json} {s : List Char} (h : Pair V m s) : ∃ cs, s = '"' :: cs := by
  cases h with
  | mk _ _ _ _ => exact ⟨_, rfl⟩

/-- The commas between the elements, and the bracket after them, bound their number. -/
theorem Separated.length {α : Type} {P : α → List Char → Prop} {as : List α} {s : List Char}
    (h : Separated P as s) (close : Char) : as.length ≤ (s ++ close :: rest).length := by
  induction h with
  | one _ =>
    simp only [List.length_append, List.length_cons, List.length_nil]
    omega
  | cons _ _ ih =>
    simp only [List.length_cons, List.length_append] at ih ⊢
    omega

/-- The first character that is not white space. -/
theorem Separated.skip {α : Type} {P : α → List Char → Prop} {p : Char → Prop}
    (hP : ∀ a s, P a s → ∃ c cs, s = c :: cs ∧ isSpace c = false ∧ p c) {as : List α} {s : List Char}
    (h : Separated (Padded P) as s) (rest : List Char) :
    ∃ c cs, Json.skip (s ++ rest) = c :: cs ∧ p c := by
  have hpadded : ∀ {a : α} {s : List Char}, Padded P a s → ∀ rest : List Char,
      ∃ c cs, Json.skip (s ++ rest) = c :: cs ∧ p c := by
    rintro a _ ⟨before, t, after, hbefore, ht, -, rfl⟩ rest
    obtain ⟨c, cs, rfl, hc, hpc⟩ := hP a t ht
    refine ⟨c, cs ++ after ++ rest, ?_, hpc⟩
    simp only [List.append_assoc, List.cons_append, skip_append hbefore hc]
  cases h with
  | one h => exact hpadded h rest
  | @cons _ _ s t h _ =>
    rw [List.append_assoc, List.cons_append]
    exact hpadded h _

theorem Compound.head {j : Json} {s : List Char} (h : Compound inRange V j s) :
    ∃ c cs, s = c :: cs ∧ opensValue c = true := by
  cases h with
  | scalar h =>
    obtain ⟨c, cs, rfl, hc, -⟩ := h.head
    exact ⟨c, cs, rfl, hc⟩
  | emptyArr _ | arr _ => exact ⟨'[', _, rfl, by decide⟩
  | emptyObj _ | obj _ => exact ⟨'\x7b', _, rfl, by decide⟩

theorem Scalar.value_read {j : Json} {s before : List Char} (h : Scalar inRange j s) (hbefore : White before)
    (hrest : Follows rest) (d : ℕ) : value inRange d (before ++ (s ++ rest)) = some (j, rest) := by
  have hread := h.read hrest
  obtain ⟨c, cs, rfl, hc, hbracket, hbrace⟩ := h.head
  have hskip : skip (before ++ (c :: cs ++ rest)) = c :: (cs ++ rest) :=
    skip_append hbefore (isSpace_of_opensValue hc) _
  rw [List.cons_append] at hread
  cases d with
  | zero => rw [value, hskip, hread]
  | succ d =>
    rw [value, hskip]
    split
    · next heq => exact absurd (List.cons.inj heq).1 hbracket
    · next heq => exact absurd (List.cons.inj heq).1 hbrace
    · exact hread

theorem Finds.compound_read {d : ℕ} (h : Finds (value inRange d) V) {j : Json} {s before : List Char}
    (hs : Compound inRange V j s) (hbefore : White before) (hrest : Follows rest) :
    value inRange (d + 1) (before ++ (s ++ rest)) = some (j, rest) := by
  cases hs with
  | scalar hs => exact hs.value_read hbefore hrest (d + 1)
  | emptyArr hw =>
    rw [value, List.cons_append, skip_append hbefore (by decide)]
    simp only [List.append_assoc, List.singleton_append, skip_append hw (show isSpace ']' = false by decide)]
  | @arr items s hs =>
    have hlength := @Separated.length rest _ _ _ _ hs ']'
    obtain ⟨c, cs, hskip, hc⟩ := hs.skip (p := fun c => c ≠ ']') (fun j s hj => by
      obtain ⟨c, cs, rfl, hc⟩ := h.head j s hj
      refine ⟨c, cs, rfl, isSpace_of_opensValue hc, ?_⟩
      rintro rfl
      exact absurd hc (by decide)) (']' :: rest)
    rw [value, List.cons_append, skip_append hbefore (by decide), List.append_assoc, List.singleton_append]
    simp only [hskip]
    split
    · next heq => exact absurd (List.cons.inj heq).1 hc
    · rw [h.elements_read hs hlength]
      rfl
  | emptyObj hw =>
    rw [value, List.cons_append, skip_append hbefore (by decide)]
    simp only [List.append_assoc, List.singleton_append,
      skip_append hw (show isSpace '\x7d' = false by decide)]
  | @obj fields s hs =>
    have hlength := @Separated.length rest _ _ _ _ hs '\x7d'
    obtain ⟨c, cs, hskip, hc⟩ := hs.skip (p := fun c => c ≠ '\x7d') (fun m s hm => by
      obtain ⟨cs, rfl⟩ := hm.head
      exact ⟨'"', cs, rfl, by decide, by decide⟩) ('\x7d' :: rest)
    rw [value, List.cons_append, skip_append hbefore (by decide), List.append_assoc, List.singleton_append]
    simp only [hskip]
    split
    · next heq => exact absurd (List.cons.inj heq).1 hc
    · rw [h.members_read hs hlength]
      rfl

theorem Finds.compound_of_read {d : ℕ} (h : Finds (value inRange d) V) {j : Json} {cs : List Char}
    (hread : value inRange (d + 1) cs = some (j, rest)) :
    ∃ before s, White before ∧ Compound inRange V j s ∧ cs = before ++ (s ++ rest) := by
  obtain ⟨before, hbefore, heq⟩ := exists_white cs
  rw [value] at hread
  split at hread
  · next cs₁ hskip =>
    obtain ⟨w, hw, heq₁⟩ := exists_white cs₁
    split at hread
    · next cs₂ hskip₁ =>
      cases hread
      refine ⟨before, _, hbefore, .emptyArr hw, ?_⟩
      rw [heq, hskip, heq₁, hskip₁]
      simp
    · obtain ⟨⟨items, rest'⟩, helements, heq'⟩ := Option.map_eq_some_iff.mp hread
      cases heq'
      obtain ⟨s, rfl, hs⟩ := h.separated_of_elements helements
      refine ⟨before, _, hbefore, .arr hs, ?_⟩
      rw [heq, hskip]
      simp
  · next cs₁ hskip =>
    obtain ⟨w, hw, heq₁⟩ := exists_white cs₁
    split at hread
    · next cs₂ hskip₁ =>
      cases hread
      refine ⟨before, _, hbefore, .emptyObj hw, ?_⟩
      rw [heq, hskip, heq₁, hskip₁]
      simp
    · obtain ⟨⟨fields, rest'⟩, hmembers, heq'⟩ := Option.map_eq_some_iff.mp hread
      cases heq'
      obtain ⟨s, rfl, hs⟩ := h.separated_of_members hmembers
      refine ⟨before, _, hbefore, .obj hs, ?_⟩
      rw [heq, hskip]
      simp
  · obtain ⟨s, hs, hscalar⟩ := scalar_of_read hread
    exact ⟨before, s, hbefore, .scalar hscalar, by rw [heq, hs]⟩

/-- The reader of each depth finds what the grammar of that depth spells. -/
theorem finds_value (d : ℕ) : Finds (value inRange d) (Spells inRange d) := by
  induction d with
  | zero =>
    refine ⟨?_, ?_, ?_⟩
    · intro j s h
      obtain ⟨c, cs, rfl, hc, -⟩ := Scalar.head h
      exact ⟨c, cs, rfl, hc⟩
    · intro j s before rest h hbefore hrest
      exact Scalar.value_read h hbefore hrest 0
    · intro j cs rest h
      obtain ⟨before, hbefore, heq⟩ := exists_white cs
      obtain ⟨s, hs, hscalar⟩ := scalar_of_read h
      exact ⟨before, s, hbefore, hscalar, by rw [heq, hs]⟩
  | succ d ih =>
    refine ⟨?_, ?_, ?_⟩
    · intro j s h
      exact Compound.head h
    · intro j s before rest h hbefore hrest
      exact ih.compound_read h hbefore hrest
    · intro j cs rest h
      exact ih.compound_of_read h

/-- A text of one value and white space is read as the value, and only such a text is. -/
theorem value_iff {d : ℕ} {j : Json} {cs : List Char} :
    (∃ rest, value inRange d cs = some (j, rest) ∧ skip rest = []) ↔
      Padded (Spells inRange d) j cs := by
  constructor
  · rintro ⟨rest, hread, hskip⟩
    obtain ⟨before, s, hbefore, hs, rfl⟩ := (finds_value d).sound j cs rest hread
    exact ⟨before, s, rest, hbefore, hs, skip_eq_nil.mp hskip, rfl⟩
  · rintro ⟨before, s, after, hbefore, hs, hafter, rfl⟩
    exact ⟨after, (finds_value d).complete j s before after hs hbefore (follows_of_white hafter),
      skip_eq_nil.mpr hafter⟩

end Serde.Json
