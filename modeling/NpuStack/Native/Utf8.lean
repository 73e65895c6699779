import NpuStack.Native.WriterSession
import NpuStack.Schemes.Loop

/-! The validator of the writer's strings, as the cursor that it is.

        a │ 0xC3 0xA9 │ 0xE2 0x82 0xAC │ 0xF0 0x9F 0x92 0xA9 │
        ▲   ▲           ▲                ▲                     ▲ index

    A turn reads one character's bytes, each only after its index was checked against the size, and
    goes on behind them. So the loop reads within the bytes and ends (`validates_iff`), and it accepts
    exactly what the encoder of Unicode scalar values writes (`isValidUtf8_iff`). All that the writer
    puts out is then text, and passes the check of the reader of its reports (`validator_exact`). -/

namespace NpuStack.Native
open Interaction Text

/-! ### The cursor -/

/-- A byte was read at an index where there is none. -/
structure OutOfRange where
  index : ℕ
  deriving DecidableEq, Repr

/-- `value[index]` -/
def byteAt (value : Bytes) (index : ℕ) : Except OutOfRange UInt8 := need value[index]? ⟨index⟩

/-- One turn of the loop of `is_valid_utf8`: from an index to the next one, or to the result. The sums
    are those of the size type, whose range no string comes near. -/
def validatorTurn (value : Bytes) (index : ℕ) : Except OutOfRange (ℕ ⊕ Bool) :=
  if index < value.length then do
    let first ← byteAt value index
    if first ≤ 0x7f then return .inl (index + 1)
    else if 0xc2 ≤ first ∧ first ≤ 0xdf then
      if index + 1 ≥ value.length then return .inr false
      else
        let second ← byteAt value (index + 1)
        if !isContinuation second then return .inr false else return .inl (index + 2)
    else if 0xe0 ≤ first ∧ first ≤ 0xef then
      if index + 2 ≥ value.length then return .inr false
      else
        let second ← byteAt value (index + 1)
        let third ← byteAt value (index + 2)
        let validSecond :=
          (first == 0xe0 && 0xa0 ≤ second && second ≤ 0xbf) ||
          (first == 0xed && 0x80 ≤ second && second ≤ 0x9f) ||
          (((0xe1 ≤ first && first ≤ 0xec) || (0xee ≤ first && first ≤ 0xef)) && isContinuation second)
        if !validSecond || !isContinuation third then return .inr false else return .inl (index + 3)
    else if 0xf0 ≤ first ∧ first ≤ 0xf4 then
      if index + 3 ≥ value.length then return .inr false
      else
        let second ← byteAt value (index + 1)
        let third ← byteAt value (index + 2)
        let fourth ← byteAt value (index + 3)
        let validSecond :=
          (first == 0xf0 && 0x90 ≤ second && second ≤ 0xbf) ||
          (first == 0xf4 && 0x80 ≤ second && second ≤ 0x8f) ||
          (0xf1 ≤ first && first ≤ 0xf3 && isContinuation second)
        if !validSecond || !isContinuation third || !isContinuation fourth then return .inr false
        else return .inl (index + 4)
    else return .inr false
  else return .inr true

/-- The loop of `is_valid_utf8` ends, and with that result. -/
def Validates (value : Bytes) (r : Except OutOfRange Bool) : Prop := Loop.Ends (validatorTurn value) 0 r

/-! ### A turn of the loop -/

section
variable {before rest : Bytes} {first second third fourth : UInt8}

theorem byteAt_first : byteAt (before ++ first :: rest) before.length = .ok first := by
  simp [byteAt, need]

theorem byteAt_second : byteAt (before ++ first :: second :: rest) (before.length + 1) = .ok second := by
  simp [byteAt, need]

theorem byteAt_third : byteAt (before ++ first :: second :: third :: rest) (before.length + 2) = .ok third := by
  simp [byteAt, need]

theorem byteAt_fourth :
    byteAt (before ++ first :: second :: third :: fourth :: rest) (before.length + 3) = .ok fourth := by
  simp [byteAt, need]

end

/-- The second byte of three: the source spells out the first bytes of the common range. -/
theorem second_of_three {first second : UInt8} (h : 0xe0 ≤ first ∧ first ≤ 0xef) :
    ((first == 0xe0 && 0xa0 ≤ second && second ≤ 0xbf) || (first == 0xed && 0x80 ≤ second && second ≤ 0x9f) ||
      (((0xe1 ≤ first && first ≤ 0xec) || (0xee ≤ first && first ≤ 0xef)) && isContinuation second)) =
    if first = 0xe0 then 0xa0 ≤ second && second ≤ 0xbf
    else if first = 0xed then 0x80 ≤ second && second ≤ 0x9f
    else isContinuation second := by
  split
  · next hfirst => subst hfirst; simp
  split
  · next hfirst => subst hfirst; simp
  · next hzero hsurrogate =>
    have hrange : ((0xe1 ≤ first && first ≤ 0xec) || (0xee ≤ first && first ≤ 0xef)) = true := by
      simp only [← UInt8.toNat_inj, UInt8.le_iff_toNat_le, UInt8.reduceToNat, Bool.or_eq_true, Bool.and_eq_true,
        decide_eq_true_eq] at *
      omega
    simp [hzero, hsurrogate, hrange]

/-- The second byte of four. -/
theorem second_of_four {first second : UInt8} (h : 0xf0 ≤ first ∧ first ≤ 0xf4) :
    ((first == 0xf0 && 0x90 ≤ second && second ≤ 0xbf) || (first == 0xf4 && 0x80 ≤ second && second ≤ 0x8f) ||
      (0xf1 ≤ first && first ≤ 0xf3 && isContinuation second)) =
    if first = 0xf0 then 0x90 ≤ second && second ≤ 0xbf
    else if first = 0xf4 then 0x80 ≤ second && second ≤ 0x8f
    else isContinuation second := by
  split
  · next hfirst => subst hfirst; simp
  split
  · next hfirst => subst hfirst; simp
  · next hzero hlast =>
    have hrange : (0xf1 ≤ first && first ≤ 0xf3) = true := by
      simp only [← UInt8.toNat_inj, UInt8.le_iff_toNat_le, UInt8.reduceToNat, Bool.and_eq_true,
        decide_eq_true_eq] at *
      omega
    simp [hzero, hlast, hrange]

/-- What a turn does at an index: it returns what is true of the rest, or goes on behind some of it with
    the same truth about what is left. -/
def Turns (index : ℕ) (rest : Bytes) (valid : Bool) (r : Except OutOfRange (ℕ ⊕ Bool)) : Prop :=
  r = .ok (.inr valid) ∨
    ∃ read left, rest = read ++ left ∧ read ≠ [] ∧ isValidUtf8 left = valid ∧ r = .ok (.inl (index + read.length))

/-- A checked character is refused, or left behind. -/
theorem turns_checked (index : ℕ) {read left : Bytes} {good : Bool} (hne : read ≠ []) :
    Turns index (read ++ left) (good && isValidUtf8 left)
      (if (!good) = true then pure (.inr false) else pure (.inl (index + read.length))) := by
  cases good with
  | false => exact .inl rfl
  | true => exact .inr ⟨read, left, rfl, hne, rfl, rfl⟩

theorem turn_spec (before rest : Bytes) :
    Turns before.length rest (isValidUtf8 rest) (validatorTurn (before ++ rest) before.length) := by
  fun_cases isValidUtf8 rest with
  | case1 => exact .inl (by simp [validatorTurn, pure, Except.pure])
  | case2 first rest hone =>
    rw [validatorTurn, if_pos (by simp), byteAt_first, except_ok_bind, if_pos hone]
    exact .inr ⟨[first], rest, rfl, by simp, rfl, rfl⟩
  | case3 first hone htwo second rest =>
    rw [validatorTurn, if_pos (by simp), byteAt_first, except_ok_bind, if_neg hone, if_pos htwo,
      if_neg (by simp), byteAt_second, except_ok_bind]
    exact @turns_checked before.length [first, second] rest _ (by simp)
  | case4 first rest hone htwo hshort =>
    cases rest with
    | cons second rest => exact (hshort second rest rfl).elim
    | nil =>
      rw [validatorTurn, if_pos (by simp), byteAt_first, except_ok_bind, if_neg hone, if_pos htwo,
        if_pos (by simp)]
      exact .inl rfl
  | case5 first hone htwo hthree second third rest validSecond =>
    rw [validatorTurn, if_pos (by simp), byteAt_first, except_ok_bind, if_neg hone, if_neg htwo, if_pos hthree,
      if_neg (by simp), byteAt_second, except_ok_bind, byteAt_third, except_ok_bind]
    simp only [second_of_three hthree, ← Bool.not_and]
    exact @turns_checked before.length [first, second, third] rest _ (by simp)
  | case6 first rest hone htwo hthree hshort =>
    have hlength : rest.length < 2 := by
      match rest, hshort with
      | [], _ | [_], _ => simp
      | second :: third :: rest, hshort => exact (hshort second third rest rfl).elim
    rw [validatorTurn, if_pos (by simp), byteAt_first, except_ok_bind, if_neg hone, if_neg htwo, if_pos hthree,
      if_pos (by simp; omega)]
    exact .inl rfl
  | case7 first hone htwo hthree hfour second third fourth rest validSecond =>
    rw [validatorTurn, if_pos (by simp), byteAt_first, except_ok_bind, if_neg hone, if_neg htwo, if_neg hthree,
      if_pos hfour, if_neg (by simp), byteAt_second, except_ok_bind, byteAt_third, except_ok_bind, byteAt_fourth,
      except_ok_bind]
    simp only [second_of_four hfour, ← Bool.not_and]
    exact @turns_checked before.length [first, second, third, fourth] rest _ (by simp)
  | case8 first rest hone htwo hthree hfour hshort =>
    have hlength : rest.length < 3 := by
      match rest, hshort with
      | [], _ | [_], _ | [_, _], _ => simp
      | second :: third :: fourth :: rest, hshort => exact (hshort second third fourth rest rfl).elim
    rw [validatorTurn, if_pos (by simp), byteAt_first, except_ok_bind, if_neg hone, if_neg htwo, if_neg hthree,
      if_pos hfour, if_pos (by simp; omega)]
    exact .inl rfl
  | case9 first rest hone htwo hthree hfour =>
    rw [validatorTurn, if_pos (by simp), byteAt_first, except_ok_bind, if_neg hone, if_neg htwo, if_neg hthree,
      if_neg hfour]
    exact .inl rfl

/-! ### The whole loop -/

/-- The loop reads within the bytes, and ends with what the recursion over them returns. -/
theorem validates_iff {value : Bytes} {r : Except OutOfRange Bool} :
    Validates value r ↔ r = .ok (isValidUtf8 value) := by
  have hturn : ∀ index, index ≤ value.length →
      validatorTurn value index = .ok (.inr (isValidUtf8 (value.drop index))) ∨
        ∃ next, validatorTurn value index = .ok (.inl next) ∧ next ≤ value.length ∧
          value.length - next < value.length - index ∧
          isValidUtf8 (value.drop next) = isValidUtf8 (value.drop index) := by
    intro index hindex
    have hlength : (value.take index).length = index := List.length_take_of_le hindex
    have hspec := turn_spec (value.take index) (value.drop index)
    rw [List.take_append_drop, hlength] at hspec
    rcases hspec with hdone | ⟨read, left, hrest, hne, hsame, hnext⟩
    · exact .inl hdone
    · have hsum : value.length - index = read.length + left.length := by
        rw [← List.length_drop, hrest, List.length_append]
      have hpos : 0 < read.length := List.length_pos_iff.mpr hne
      refine .inr ⟨_, hnext, by omega, by omega, ?_⟩
      rw [← List.drop_drop, hrest, List.drop_left, hsame, ← hrest]
  have hends := Loop.ends_of_variant (value.length - ·) (fun index => isValidUtf8 (value.drop index)) hturn
    (Nat.zero_le _)
  exact hends.iff

/-! ### What is valid -/

section
variable {a b c d : UInt8} {rest : Bytes}

theorem isContinuation_of_range (h : 128 ≤ b.toNat ∧ b.toNat < 192) : isContinuation b = true := by
  have hiff := isContinuation_iff b.toNat b.toNat_lt
  rw [UInt8.ofNat_toNat] at hiff
  exact hiff.mpr h

theorem second_of_range {x y lo hi : UInt8} (hb : 128 ≤ b.toNat ∧ b.toNat < 192)
    (hlo : a.toNat = x.toNat → lo.toNat ≤ b.toNat) (hhi : a.toNat = y.toNat → b.toNat ≤ hi.toNat) :
    (if a = x then decide (lo ≤ b) && decide (b ≤ 0xbf)
      else if a = y then decide (0x80 ≤ b) && decide (b ≤ hi) else isContinuation b) = true := by
  have hbounds : (0xbf : UInt8).toNat = 0xbf ∧ (0x80 : UInt8).toNat = 0x80 := ⟨rfl, rfl⟩
  split
  · next hx =>
    have := hlo (congrArg UInt8.toNat hx)
    simp only [Bool.and_eq_true, decide_eq_true_eq, UInt8.le_iff_toNat_le]
    omega
  split
  · next hy =>
    have := hhi (congrArg UInt8.toNat hy)
    simp only [Bool.and_eq_true, decide_eq_true_eq, UInt8.le_iff_toNat_le]
    omega
  · exact isContinuation_of_range hb

theorem not_ascii (h : 0x80 ≤ a.toNat) : ¬a ≤ 0x7f := by
  simp only [UInt8.le_iff_toNat_le, UInt8.reduceToNat]
  omega

theorem isValidUtf8_one (ha : a.toNat ≤ 0x7f) : isValidUtf8 (a :: rest) = isValidUtf8 rest := by
  rw [isValidUtf8.eq_def]
  exact if_pos (UInt8.le_iff_toNat_le.mpr ha)

theorem isValidUtf8_two (ha : 0xc2 ≤ a.toNat ∧ a.toNat ≤ 0xdf) (hb : isContinuation b = true) :
    isValidUtf8 (a :: b :: rest) = isValidUtf8 rest := by
  have hone : ¬a ≤ 0x7f := not_ascii (by omega)
  have htwo : 0xc2 ≤ a ∧ a ≤ 0xdf := ⟨UInt8.le_iff_toNat_le.mpr ha.1, UInt8.le_iff_toNat_le.mpr ha.2⟩
  rw [isValidUtf8.eq_def]
  simp only [if_neg hone, if_pos htwo, hb, Bool.true_and]

theorem isValidUtf8_three (ha : 0xe0 ≤ a.toNat ∧ a.toNat ≤ 0xef) (hb : 128 ≤ b.toNat ∧ b.toNat < 192)
    (hzero : a.toNat = 0xe0 → 0xa0 ≤ b.toNat) (hsurrogate : a.toNat = 0xed → b.toNat ≤ 0x9f)
    (hc : isContinuation c = true) : isValidUtf8 (a :: b :: c :: rest) = isValidUtf8 rest := by
  have hone : ¬a ≤ 0x7f := not_ascii (by omega)
  have htwo : ¬(0xc2 ≤ a ∧ a ≤ 0xdf) := by
    simp only [UInt8.le_iff_toNat_le, UInt8.reduceToNat]
    omega
  have hthree : 0xe0 ≤ a ∧ a ≤ 0xef := ⟨UInt8.le_iff_toNat_le.mpr ha.1, UInt8.le_iff_toNat_le.mpr ha.2⟩
  have hsecond := @second_of_range a b 0xe0 0xed 0xa0 0x9f hb hzero hsurrogate
  rw [isValidUtf8.eq_def]
  simp only [if_neg hone, if_neg htwo, if_pos hthree, hsecond, hc, Bool.true_and]

theorem isValidUtf8_four (ha : 0xf0 ≤ a.toNat ∧ a.toNat ≤ 0xf4) (hb : 128 ≤ b.toNat ∧ b.toNat < 192)
    (hzero : a.toNat = 0xf0 → 0x90 ≤ b.toNat) (hlast : a.toNat = 0xf4 → b.toNat ≤ 0x8f)
    (hc : isContinuation c = true) (hd : isContinuation d = true) :
    isValidUtf8 (a :: b :: c :: d :: rest) = isValidUtf8 rest := by
  have hone : ¬a ≤ 0x7f := not_ascii (by omega)
  have htwo : ¬(0xc2 ≤ a ∧ a ≤ 0xdf) := by
    simp only [UInt8.le_iff_toNat_le, UInt8.reduceToNat]
    omega
  have hthree : ¬(0xe0 ≤ a ∧ a ≤ 0xef) := by
    simp only [UInt8.le_iff_toNat_le, UInt8.reduceToNat]
    omega
  have hfour : 0xf0 ≤ a ∧ a ≤ 0xf4 := ⟨UInt8.le_iff_toNat_le.mpr ha.1, UInt8.le_iff_toNat_le.mpr ha.2⟩
  have hsecond := @second_of_range a b 0xf0 0xf4 0x90 0x8f hb hzero hlast
  rw [isValidUtf8.eq_def]
  simp only [if_neg hone, if_neg htwo, if_neg hthree, if_pos hfour, hsecond, hc, hd, Bool.true_and]

end

/-- The encoding of a scalar value is passed over: it is not too long for its value, and the value is
    neither a surrogate nor beyond the last one. -/
theorem isValidUtf8_encode (c : Char) (rest : Bytes) :
    isValidUtf8 (String.utf8EncodeChar c ++ rest) = isValidUtf8 rest := by
  have hvalid : c.val.toNat < 0xd800 ∨ 0xdfff < c.val.toNat ∧ c.val.toNat < 0x110000 := c.valid
  have hbyte : ∀ n < 256, (UInt8.ofNat n).toNat = n := fun n hn => UInt8.toNat_ofNat_of_lt' hn
  have htail : ∀ n, isContinuation (UInt8.ofNat (n % 64 + 0x80)) = true := fun n =>
    isContinuation_of_range (by rw [hbyte _ (by omega)]; omega)
  rw [String.utf8EncodeChar]
  split
  · exact isValidUtf8_one (by rw [hbyte _ (by omega)]; omega)
  split
  · refine isValidUtf8_two ?_ (htail _)
    rw [hbyte _ (by omega)]
    omega
  have hnext : ∀ n, (UInt8.ofNat (n % 64 + 0x80)).toNat = n % 64 + 0x80 := fun n => hbyte _ (by omega)
  split
  · have hfirst : (UInt8.ofNat (c.val.toNat / 4096 % 16 + 0xe0)).toNat = c.val.toNat / 4096 % 16 + 0xe0 :=
      hbyte _ (by omega)
    refine isValidUtf8_three ?_ ?_ ?_ ?_ (htail _)
    · rw [hfirst]
      omega
    · rw [hnext]
      omega
    · rw [hfirst, hnext]
      omega
    · rw [hfirst, hnext]
      omega
  · have hfirst : (UInt8.ofNat (c.val.toNat / 262144 % 8 + 0xf0)).toNat = c.val.toNat / 262144 % 8 + 0xf0 :=
      hbyte _ (by omega)
    refine isValidUtf8_four ?_ ?_ ?_ ?_ (htail _) (htail _)
    · rw [hfirst]
      omega
    · rw [hnext]
      omega
    · rw [hfirst, hnext]
      omega
    · rw [hfirst, hnext]
      omega

theorem isValidUtf8_iff {value : Bytes} :
    isValidUtf8 value = true ↔ ∃ scalars : List Char, value = scalars.flatMap String.utf8EncodeChar := by
  constructor
  · intro h
    obtain ⟨s, rfl⟩ := exists_utf8 h
    exact ⟨s.toList, rfl⟩
  · rintro ⟨scalars, rfl⟩
    induction scalars with
    | nil => rfl
    | cons c scalars ih => rw [List.flatMap_cons, isValidUtf8_encode, ih]

theorem isValidUtf8_iff_decodes {value : Bytes} :
    isValidUtf8 value = true ↔ ∃ text, fromUtf8 value = some text := by
  constructor
  · intro h
    obtain ⟨text, rfl⟩ := exists_utf8 h
    exact ⟨text, fromUtf8_utf8 text⟩
  · rintro ⟨text, htext⟩
    exact isValidUtf8_iff.mpr ⟨text.toList, fromUtf8_eq_some.mp htext⟩

/-! ### What the writer puts out -/

/-- The text of a document: those calls on a fresh writer, and `finish`. -/
def document (maxOutputBytes maxStringBytes : ℕ) (calls : List Call) : Except Thrown Bytes := do
  let w ← Writer.create maxOutputBytes maxStringBytes
  let w ← w.perform calls
  w.finish

namespace Writer

/-- Text was appended. -/
def AppendsText (w w' : Writer) : Prop := ∃ text, w'.output = w.output ++ utf8 text

variable {w w' w'' : Writer}

theorem AppendsText.trans (h : AppendsText w w') (h' : AppendsText w' w'') : AppendsText w w'' := by
  obtain ⟨text, htext⟩ := h
  obtain ⟨text', htext'⟩ := h'
  exact ⟨text ++ text', by rw [htext', htext, utf8_append, List.append_assoc]⟩

theorem appendsText_append {text : String} (h : w.append (utf8 text) = .ok w') : AppendsText w w' := by
  rw [append_ok h]
  exact ⟨text, rfl⟩

theorem appendsText_comma {first : Bool} (h : w.comma first = .ok w') : AppendsText w w' := by
  cases first with
  | true =>
    cases h
    exact ⟨"", (List.append_nil _).symm⟩
  | false => exact appendsText_append h

theorem appendsText_appendQuoted {value : Bytes} (h : w.appendQuoted value = .ok w') : AppendsText w w' := by
  obtain ⟨s, rfl⟩ := exists_utf8_of_appendQuoted h
  rw [appendQuoted_ok h]
  exact ⟨_, rfl⟩

theorem appendsText_beforeValue (h : w.beforeValue = .ok w') : AppendsText w w' := by
  obtain ⟨hout, -⟩ := beforeValue_ok h
  rw [separator.eq_def] at hout
  split at hout
  · exact ⟨",", hout⟩
  · exact ⟨"", hout⟩

/-- A call that does not throw appends text: strings are validated, and the rest is the writer's own. -/
theorem appendsText_call {c : Call} (h : w.call c = .ok w') : AppendsText w w' := by
  cases c with
  | beginObject =>
    simp only [call, except_bind_ok, pure, Except.pure, Except.ok.injEq] at h
    obtain ⟨w₁, hbefore, w₂, happend, rfl⟩ := h
    have hopened : AppendsText w w₂ := (appendsText_beforeValue hbefore).trans (appendsText_append happend)
    exact hopened
  | endObject => exact ⟨_, (endObject_ok h).1⟩
  | beginArray =>
    simp only [call, except_bind_ok, pure, Except.pure, Except.ok.injEq] at h
    obtain ⟨w₁, hbefore, w₂, happend, rfl⟩ := h
    have hopened : AppendsText w w₂ := (appendsText_beforeValue hbefore).trans (appendsText_append happend)
    exact hopened
  | endArray => exact ⟨_, (endArray_ok h).1⟩
  | key value =>
    simp only [call, key, except_bind_ok, pure, Except.pure, Except.ok.injEq] at h
    obtain ⟨_, -, ⟨frame, frames⟩, -, w₁, hcomma, w₂, hquoted, w₃, hcolon, rfl⟩ := h
    have hquote : AppendsText w w₂ := (appendsText_comma hcomma).trans (appendsText_appendQuoted hquoted)
    have hkey : AppendsText w w₃ := hquote.trans (appendsText_append hcolon)
    exact hkey
  | literal text =>
    simp only [call, except_bind_ok] at h
    obtain ⟨w₁, hbefore, happend⟩ := h
    exact (appendsText_beforeValue hbefore).trans (appendsText_append happend)
  | string value =>
    simp only [call, except_bind_ok] at h
    obtain ⟨w₁, hbefore, hquoted⟩ := h
    exact (appendsText_beforeValue hbefore).trans (appendsText_appendQuoted hquoted)

theorem appendsText_perform {calls : List Call} (h : w.perform calls = .ok w') : AppendsText w w' := by
  induction calls generalizing w with
  | nil =>
    cases h
    exact ⟨"", (List.append_nil _).symm⟩
  | cons c calls ih =>
    obtain ⟨w₁, hcall, hrest⟩ := perform_cons h
    exact (appendsText_call hcall).trans (ih hrest)

end Writer

theorem document_text {maxOutputBytes maxStringBytes : ℕ} {calls : List Call} {bytes : Bytes}
    (h : document maxOutputBytes maxStringBytes calls = .ok bytes) : ∃ text, fromUtf8 bytes = some text := by
  simp only [document, Writer.create, Writer.finish, except_bind_ok, pure, Except.pure, Except.ok.injEq] at h
  obtain ⟨_, ⟨_, -, rfl⟩, w, hrun, _, -, _, -, rfl⟩ := h
  obtain ⟨text, htext⟩ := Writer.appendsText_perform hrun
  exact ⟨text, fromUtf8_eq_some.mpr htext⟩

/-- For every byte string the validator's loop ends without a read past the end, and with `true` exactly
    for the encodings of sequences of Unicode scalar values, which are the byte strings the reader of the
    reports decodes. So it decodes what the writer appends for a string, and every finished document. -/
theorem validator_exact (value : Bytes) :
    (∀ r, Validates value r ↔ r = .ok (isValidUtf8 value)) ∧
    (isValidUtf8 value = true ↔ ∃ scalars : List Char, value = scalars.flatMap String.utf8EncodeChar) ∧
    (isValidUtf8 value = true ↔ ∃ text, fromUtf8 value = some text) ∧
    (∀ w w' : Writer, w.appendQuoted value = .ok w' →
      ∃ emitted text, w'.output = w.output ++ emitted ∧ fromUtf8 emitted = some text) ∧
    ∀ maxOutputBytes maxStringBytes calls bytes, document maxOutputBytes maxStringBytes calls = .ok bytes →
      ∃ text, fromUtf8 bytes = some text := by
  refine ⟨fun r => validates_iff, isValidUtf8_iff, isValidUtf8_iff_decodes, fun w w' h => ?_,
    fun _ _ _ _ h => document_text h⟩
  obtain ⟨text, htext⟩ := Writer.appendsText_appendQuoted h
  exact ⟨_, text, htext, fromUtf8_utf8 text⟩

/-- The three bytes a surrogate would have. -/
example : Loop.run (validatorTurn [0x41, 0xed, 0xa0, 0x80]) 5 0 = some (.ok false) := by decide

end NpuStack.Native
