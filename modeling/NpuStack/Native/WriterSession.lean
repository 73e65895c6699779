import NpuStack.Native.JsonWriter

/-! Whole sessions of the bounded JSON writer: any sequence of calls, ended by `finish`.

        begin_array  begin_object  key "a"  ·        stack: member [] "a", array []
                                        └─ value ──▶ stack: object [("a", v)], array []

    While no call throws, the calls so far are those of the open containers, outermost first, with the
    parts each already holds (`Standing`). A finished session therefore spells one tree, and its text
    is read back as that tree (`session_exact`). -/

namespace NpuStack.Native
open Interaction Text Serde

/-! ### Sessions -/

/-- A method call of the writer's interface. -/
inductive Op where
  | beginObject
  | endObject
  | beginArray
  | endArray
  | key (value : Bytes)
  | nullValue
  | boolean (value : Bool)
  | unsignedInteger (value : UInt64)
  | string (value : Bytes)
  | finish

/-- The call that writes, unless the session is finished by it. -/
def Op.call? : Op → Option Call
  | beginObject => some .beginObject
  | endObject => some .endObject
  | beginArray => some .beginArray
  | endArray => some .endArray
  | key value => some (.key value)
  | nullValue => some Native.nullValue
  | boolean value => some (.literal (if value then "true" else "false"))
  | unsignedInteger value => some (Native.unsignedInteger value.toNat)
  | string value => some (.string value)
  | finish => none

def Writer.operate (w : Writer) (op : Op) : Except Thrown Writer :=
  match op.call? with
  | some c => w.call c
  | none => do
    let _ ← w.finish
    return { w with finished := true }

/-- The text of a session: its calls on a fresh writer, and a last `finish`. -/
def session (maxOutputBytes maxStringBytes : ℕ) (ops : List Op) : Except Thrown Bytes := do
  let w ← Writer.create maxOutputBytes maxStringBytes
  let w ← ops.foldlM Writer.operate w
  w.finish

/-! ### Valid UTF-8 -/

theorem isContinuation_iff : ∀ n < 256, isContinuation (UInt8.ofNat n) = true ↔ 128 ≤ n ∧ n < 192 := by
  decide +kernel

theorem toNat_of_isContinuation {b : UInt8} (h : isContinuation b = true) :
    128 ≤ b.toNat ∧ b.toNat < 192 := by
  have hb := (isContinuation_iff b.toNat b.toNat_lt).mp
  rw [UInt8.ofNat_toNat] at hb
  exact hb h

theorem ofNat_eq {n : ℕ} {b : UInt8} (h : n = b.toNat) : UInt8.ofNat n = b := by
  rw [h, UInt8.ofNat_toNat]

/-- A number in range is the code of a character. -/
theorem exists_char {n : ℕ} (h : n.isValidChar) : ∃ c : Char, c.val.toNat = n := by
  refine ⟨Char.ofNat n, ?_⟩
  rw [Char.ofNat, dif_pos h]
  rfl

theorem encode_two {a b : UInt8} (ha : 0xc2 ≤ a.toNat ∧ a.toNat ≤ 0xdf) (hb : isContinuation b = true) :
    ∃ c, String.utf8EncodeChar c = [a, b] := by
  obtain ⟨hlow, hhigh⟩ := toNat_of_isContinuation hb
  obtain ⟨c, hc⟩ := @exists_char ((a.toNat - 0xc0) * 64 + (b.toNat - 0x80)) (.inl (by omega))
  refine ⟨c, ?_⟩
  rw [String.utf8EncodeChar, hc, if_neg (by omega), if_pos (by omega), ofNat_eq (b := a) (by omega),
    ofNat_eq (b := b) (by omega)]

theorem encode_three {a b c : UInt8} (ha : 0xe0 ≤ a.toNat ∧ a.toNat ≤ 0xef)
    (hb : 128 ≤ b.toNat ∧ b.toNat < 192) (hzero : a.toNat = 0xe0 → 0xa0 ≤ b.toNat)
    (hsurrogate : a.toNat = 0xed → b.toNat ≤ 0x9f) (hc : isContinuation c = true) :
    ∃ d, String.utf8EncodeChar d = [a, b, c] := by
  obtain ⟨hlow, hhigh⟩ := toNat_of_isContinuation hc
  have hvalid : ((a.toNat - 0xe0) * 4096 + (b.toNat - 0x80) * 64 + (c.toNat - 0x80)).isValidChar := by
    rcases Nat.lt_trichotomy a.toNat 0xed with h | h | h
    · exact .inl (by omega)
    · exact .inl (by have := hsurrogate h; omega)
    · exact .inr (by omega)
  obtain ⟨d, hd⟩ := exists_char hvalid
  have hmin : 0x7ff < d.val.toNat := by
    rcases Nat.eq_or_lt_of_le ha.1 with h | h
    · have := hzero h.symm
      omega
    · omega
  refine ⟨d, ?_⟩
  rw [String.utf8EncodeChar, if_neg (by omega), if_neg (by omega), if_pos (by omega),
    ofNat_eq (b := a) (by omega), ofNat_eq (b := b) (by omega), ofNat_eq (b := c) (by omega)]

theorem encode_four {a b c d : UInt8} (ha : 0xf0 ≤ a.toNat ∧ a.toNat ≤ 0xf4)
    (hb : 128 ≤ b.toNat ∧ b.toNat < 192) (hzero : a.toNat = 0xf0 → 0x90 ≤ b.toNat)
    (hlast : a.toNat = 0xf4 → b.toNat ≤ 0x8f) (hc : isContinuation c = true)
    (hd : isContinuation d = true) : ∃ e, String.utf8EncodeChar e = [a, b, c, d] := by
  obtain ⟨hclow, hchigh⟩ := toNat_of_isContinuation hc
  obtain ⟨hdlow, hdhigh⟩ := toNat_of_isContinuation hd
  have hbounds : 0x10000 ≤ (a.toNat - 0xf0) * 262144 + (b.toNat - 0x80) * 4096 + (c.toNat - 0x80) * 64 +
      (d.toNat - 0x80) ∧ (a.toNat - 0xf0) * 262144 + (b.toNat - 0x80) * 4096 + (c.toNat - 0x80) * 64 +
      (d.toNat - 0x80) < 0x110000 := by
    constructor
    · rcases Nat.eq_or_lt_of_le ha.1 with h | h
      · have := hzero h.symm
        omega
      · omega
    · rcases Nat.eq_or_lt_of_le ha.2 with h | h
      · have := hlast h
        omega
      · omega
  obtain ⟨e, he⟩ := exists_char (.inr ⟨by omega, hbounds.2⟩)
  refine ⟨e, ?_⟩
  rw [String.utf8EncodeChar, if_neg (by omega), if_neg (by omega), if_neg (by omega),
    ofNat_eq (b := a) (by omega), ofNat_eq (b := b) (by omega), ofNat_eq (b := c) (by omega),
    ofNat_eq (b := d) (by omega)]

/-- Bytes that begin with a character and go on as text are text. -/
theorem utf8_cons {c : Char} {bytes rest : Bytes} (hc : String.utf8EncodeChar c = bytes)
    (hrest : ∃ s, rest = utf8 s) : ∃ s, bytes ++ rest = utf8 s := by
  obtain ⟨s, rfl⟩ := hrest
  exact ⟨String.ofList (c :: s.toList), by simp [utf8, hc]⟩

/-- The range of a second byte, narrower after two of the first ones. -/
theorem second_range {a b x y lo hi : UInt8} (hxy : x ≠ y) (hlo : 128 ≤ lo.toNat) (hhi : hi.toNat < 192)
    (h : (if a = x then decide (lo ≤ b) && decide (b ≤ 0xbf)
      else if a = y then decide (0x80 ≤ b) && decide (b ≤ hi) else isContinuation b) = true) :
    (128 ≤ b.toNat ∧ b.toNat < 192) ∧ (a.toNat = x.toNat → lo.toNat ≤ b.toNat) ∧
      (a.toNat = y.toNat → b.toNat ≤ hi.toNat) := by
  have hbounds : (0xbf : UInt8).toNat = 0xbf ∧ (0x80 : UInt8).toNat = 0x80 := ⟨rfl, rfl⟩
  by_cases hx : a = x
  · rw [if_pos hx] at h
    simp only [Bool.and_eq_true, decide_eq_true_eq, UInt8.le_iff_toNat_le] at h
    refine ⟨by omega, fun _ => h.1, fun hy => ?_⟩
    exact absurd (hx.symm.trans (UInt8.toNat_inj.mp hy)) hxy
  · rw [if_neg hx] at h
    have hnx : a.toNat = x.toNat → lo.toNat ≤ b.toNat := fun h' => absurd (UInt8.toNat_inj.mp h') hx
    by_cases hy : a = y
    · rw [if_pos hy] at h
      simp only [Bool.and_eq_true, decide_eq_true_eq, UInt8.le_iff_toNat_le] at h
      exact ⟨by omega, hnx, fun _ => h.2⟩
    · rw [if_neg hy] at h
      exact ⟨toNat_of_isContinuation h, hnx, fun h' => absurd (UInt8.toNat_inj.mp h') hy⟩

/-- What the validator accepts is the encoding of a text. -/
theorem exists_utf8 {bytes : Bytes} (h : isValidUtf8 bytes = true) : ∃ s, bytes = utf8 s := by
  fun_induction isValidUtf8 bytes with
  | case1 => exact ⟨"", rfl⟩
  | case2 first rest hfirst ih =>
    have hascii : first.toNat < 128 := by
      have := UInt8.le_iff_toNat_le.mp hfirst
      have hbound : (0x7f : UInt8).toNat = 0x7f := rfl
      omega
    have hbyte : String.utf8EncodeChar (Char.ofNat first.toNat) = [first] := by
      have := @utf8_asciiText [first] (by simpa using hascii)
      simpa [asciiText, utf8] using this
    exact utf8_cons hbyte (ih h)
  | case3 first hascii hfirst second rest ih =>
    simp only [Bool.and_eq_true] at h
    obtain ⟨c, hc⟩ := @encode_two first second
      ⟨UInt8.le_iff_toNat_le.mp hfirst.1, UInt8.le_iff_toNat_le.mp hfirst.2⟩ h.1
    exact utf8_cons hc (ih h.2)
  | case5 first hascii htwo hfirst second third rest validSecond ih =>
    simp only [Bool.and_eq_true] at h
    obtain ⟨⟨hsecond, hthird⟩, hrest⟩ := h
    obtain ⟨hrange, hzero, hsurrogate⟩ := second_range (by decide) (by decide) (by decide) hsecond
    obtain ⟨c, hc⟩ := encode_three
      ⟨UInt8.le_iff_toNat_le.mp hfirst.1, UInt8.le_iff_toNat_le.mp hfirst.2⟩ hrange hzero hsurrogate hthird
    exact utf8_cons hc (ih hrest)
  | case7 first hascii htwo hthree hfirst second third fourth rest validSecond ih =>
    simp only [Bool.and_eq_true] at h
    obtain ⟨⟨⟨hsecond, hthird⟩, hfourth⟩, hrest⟩ := h
    obtain ⟨hrange, hzero, hlast⟩ := second_range (by decide) (by decide) (by decide) hsecond
    obtain ⟨c, hc⟩ := encode_four
      ⟨UInt8.le_iff_toNat_le.mp hfirst.1, UInt8.le_iff_toNat_le.mp hfirst.2⟩ hrange hzero hlast hthird hfourth
    exact utf8_cons hc (ih hrest)
  | case4 | case6 | case8 | case9 => cases h

/-! ### Escaped strings are read back -/

theorem codeUnit_control : ∀ n < 0x20,
    Json.codeUnit '0' '0' (hexChar (n / 16)) (hexChar (n % 16)) = some n := by decide

/-- One escaped character is read as the character. -/
theorem stringBody_escapeChar (c : Char) (rest : List Char) :
    Json.stringBody (escapeChar c ++ rest) = (Json.stringBody rest).map (Json.consChar c) := by
  rw [escapeChar]
  split
  · next h => subst h; simp [Json.stringBody, Json.shortEscape]
  split
  · next h => subst h; simp [Json.stringBody, Json.shortEscape]
  split
  · next h => subst h; simp [Json.stringBody, Json.shortEscape]
  split
  · next h => subst h; simp [Json.stringBody, Json.shortEscape]
  split
  · next h => subst h; simp [Json.stringBody, Json.shortEscape]
  split
  · next h => subst h; simp [Json.stringBody, Json.shortEscape]
  split
  · next h => subst h; simp [Json.stringBody, Json.shortEscape]
  split
  · next hcontrol =>
    have hunit := codeUnit_control c.toNat hcontrol
    have hlead : ¬(0xD800 ≤ c.toNat ∧ c.toNat ≤ 0xDBFF) := by omega
    have htrail : ¬(0xDC00 ≤ c.toNat ∧ c.toNat ≤ 0xDFFF) := by omega
    simp only [List.cons_append, List.nil_append, Json.stringBody, hunit, if_neg hlead, if_neg htrail,
      Char.ofNat_toNat]
  · next hquote hslash _ _ _ _ _ hlow =>
    refine Json.stringBody_cons ?_ rest
    simp only [Json.isPlainChar, Bool.and_eq_true, decide_eq_true_eq]
    exact ⟨⟨by omega, hquote⟩, hslash⟩

/-- Every string is read back from its escaped text. -/
theorem decodes_escape (s : String) : Json.Decodes escape s := by
  intro rest
  rw [escape, String.toList_ofList]
  induction s.toList with
  | nil => simp [Json.stringBody]
  | cons c cs ih =>
    rw [List.flatMap_cons, List.append_assoc, stringBody_escapeChar, ih]
    rfl

/-! ### The tree a session spells -/

/-- A tree as the interface can spell it: numbers are 64-bit unsigned integers. -/
inductive Written : Json → Prop
  | null : Written .null
  | bool (b : Bool) : Written (.bool b)
  | num {n : ℕ} (hn : n < 2 ^ 64) : Written (.num n.repr)
  | str (s : String) : Written (.str s)
  | arr {items : List Json} (h : ∀ j ∈ items, Written j) : Written (.arr items)
  | obj {fields : List (String × Json)} (h : ∀ f ∈ fields, Written f.2) : Written (.obj fields)

/-- The calls of a session are those that spell the tree. -/
def Spells (ops : List Op) (j : Json) : Prop := Written j ∧ ops.map Op.call? = (calls j).map some

theorem callsItems_append (items items' : List Json) :
    callsItems (items ++ items') = callsItems items ++ callsItems items' := by
  induction items with
  | nil => rfl
  | cons j items ih => rw [List.cons_append, callsItems, callsItems, ih, List.append_assoc]

theorem callsFields_append (fields fields' : List (String × Json)) :
    callsFields (fields ++ fields') = callsFields fields ++ callsFields fields' := by
  induction fields with
  | nil => rfl
  | cons f fields ih =>
    obtain ⟨k, v⟩ := f
    rw [List.cons_append, callsFields, callsFields, ih, List.cons_append, List.append_assoc]

/-- An open container with the parts it holds; a member is still missing its value. -/
inductive Part where
  | array (items : List Json)
  | object (fields : List (String × Json))
  | member (fields : List (String × Json)) (key : String)

namespace Part

/-- The calls that opened the container and wrote its parts. -/
def calls : Part → List Call
  | array items => .beginArray :: callsItems items
  | object fields => .beginObject :: callsFields fields
  | member fields key => .beginObject :: (callsFields fields ++ [.key (utf8 key)])

def Written : Part → Prop
  | array items => ∀ j ∈ items, Native.Written j
  | object fields => ∀ f ∈ fields, Native.Written f.2
  | member fields _ => ∀ f ∈ fields, Native.Written f.2

/-- The frame of the innermost container. -/
def frame : Part → Frame
  | array items => ⟨.array, items.isEmpty, false⟩
  | object fields => ⟨.object, fields.isEmpty, true⟩
  | member _ _ => ⟨.object, false, false⟩

/-- The frame while a value is written in it. -/
def suspended : Part → Frame
  | array _ => ⟨.array, false, false⟩
  | object _ | member _ _ => ⟨.object, false, true⟩

def TakesValue : Part → Prop
  | object _ => False
  | array _ | member _ _ => True

end Part

/-- A stack of containers that each wait for a value, innermost first. -/
def Waiting (outer : List Part) : Prop := ∀ q ∈ outer, q.Written ∧ q.TakesValue

/-- The calls that opened the containers, outermost first. -/
def opened (stack : List Part) : List Call := stack.reverse.flatMap Part.calls

/-- The frames and the calls so far: of a whole tree, or of the open containers. -/
inductive Standing : List Frame → List Call → Prop
  | complete {j : Json} (hj : Written j) : Standing [] (calls j)
  | within {p : Part} {outer : List Part} (hp : p.Written) (houter : Waiting outer) :
      Standing (p.frame :: outer.map Part.suspended) (opened (p :: outer))

/-- A value put into the innermost container: a part more, and the calls of the value. -/
theorem standing_put {outer : List Part} (houter : Waiting outer) {j : Json} (hj : Written j) :
    Standing (outer.map Part.suspended) (opened outer ++ calls j) := by
  cases outer with
  | nil => exact .complete hj
  | cons p outer =>
    obtain ⟨⟨hp, htakes⟩, hrest⟩ := List.forall_mem_cons.mp houter
    cases p with
    | array items =>
      have hwritten : (Part.array (items ++ [j])).Written := List.forall_mem_append.mpr
        ⟨hp, List.forall_mem_singleton.mpr hj⟩
      have hstanding := Standing.within hwritten hrest
      have hfirst : (items ++ [j]).isEmpty = false := by cases items <;> rfl
      simpa [opened, Part.calls, Part.frame, Part.suspended, callsItems_append, callsItems, hfirst]
        using hstanding
    | object fields => exact absurd htakes id
    | member fields key =>
      have hwritten : (Part.object (fields ++ [(key, j)])).Written := List.forall_mem_append.mpr
        ⟨hp, List.forall_mem_singleton.mpr hj⟩
      have hstanding := Standing.within hwritten hrest
      have hfirst : (fields ++ [(key, j)]).isEmpty = false := by cases fields <;> rfl
      simpa [opened, Part.calls, Part.frame, Part.suspended, callsFields_append, callsFields, hfirst]
        using hstanding

/-! ### What one call keeps -/

/-- The writer after these calls. -/
structure Stands (w : Writer) (cs : List Call) : Prop where
  active : w.finished = false
  state : cs = [] ∧ w.frames = [] ∧ w.rootWritten = false ∨ w.rootWritten = true ∧ Standing w.frames cs

/-- Before a value: the open containers all wait for one. -/
structure Ready (w : Writer) (cs : List Call) (outer : List Part) : Prop where
  active : w.finished = false
  root : w.rootWritten = true
  waiting : Waiting outer
  frames : w.frames = outer.map Part.suspended
  calls : cs = opened outer

namespace Writer

variable {w w' : Writer} {cs : List Call}

theorem ready_of_beforeValue (h : Stands w cs) (hcall : w.beforeValue = .ok w') :
    ∃ outer, Ready w' cs outer := by
  obtain ⟨hactive, ⟨hframes, hroot, rfl⟩ | ⟨⟨frame, frames, hframes, htakes⟩, rfl⟩⟩ :=
    beforeValue_cases hcall
  · rcases h.state with ⟨rfl, -, -⟩ | ⟨hwritten, -⟩
    · exact ⟨[], hactive, rfl, by simp [Waiting], hframes, rfl⟩
    · rw [hroot] at hwritten
      cases hwritten
  · rcases h.state with ⟨-, hnone, -⟩ | ⟨hwritten, hstanding⟩
    · rw [hnone] at hframes
      cases hframes
    rw [hframes] at hstanding
    generalize hall : frame :: frames = all at hstanding
    cases hstanding with
    | complete hj => cases hall
    | @within p outer hp houter =>
      obtain ⟨rfl, rfl⟩ := List.cons.inj hall
      have hvalue : p.TakesValue ∧ afterValue (p.frame :: outer.map Part.suspended) =
          (p :: outer).map Part.suspended := by
        cases p with
        | array items => exact ⟨trivial, rfl⟩
        | object fields => exact absurd ⟨rfl, rfl⟩ htakes
        | member fields key => exact ⟨trivial, rfl⟩
      refine ⟨p :: outer, hactive, hwritten, List.forall_mem_cons.mpr ⟨⟨hp, hvalue.1⟩, houter⟩, ?_, rfl⟩
      rw [wrote, hframes]
      exact hvalue.2

/-- A whole value was written where one was awaited. -/
theorem stands_value {outer : List Part} {j : Json} {c : Call} {text : Bytes} (h : Ready w cs outer)
    (hj : Written j) (hcalls : calls j = [c]) : Stands (w.wrote text w.frames) (cs ++ [c]) := by
  have hstanding := standing_put h.waiting hj
  rw [← h.frames, hcalls, ← h.calls] at hstanding
  exact ⟨h.active, .inr ⟨h.root, hstanding⟩⟩

theorem stands_literal {j : Json} {text : String} (h : Stands w cs) (hj : Written j)
    (hcalls : calls j = [.literal text]) (hcall : w.call (.literal text) = .ok w') :
    Stands w' (cs ++ [.literal text]) := by
  simp only [call, except_bind_ok] at hcall
  obtain ⟨w₁, hbefore, happend⟩ := hcall
  obtain ⟨outer, hready⟩ := ready_of_beforeValue h hbefore
  rw [append_ok happend]
  exact stands_value hready hj hcalls

theorem exists_utf8_of_appendQuoted {value : Bytes} (h : w.appendQuoted value = .ok w') :
    ∃ s, value = utf8 s := by
  simp only [appendQuoted, except_bind_ok, refuse_ok, Bool.not_eq_true', Bool.not_eq_false] at h
  obtain ⟨_, -, _, hvalid, -⟩ := h
  exact exists_utf8 hvalid

theorem stands_string {value : Bytes} (h : Stands w cs) (hcall : w.call (.string value) = .ok w') :
    Stands w' (cs ++ [.string value]) := by
  simp only [call, except_bind_ok] at hcall
  obtain ⟨w₁, hbefore, hquoted⟩ := hcall
  obtain ⟨outer, hready⟩ := ready_of_beforeValue h hbefore
  obtain ⟨s, rfl⟩ := exists_utf8_of_appendQuoted hquoted
  rw [appendQuoted_ok hquoted]
  exact stands_value hready (.str s) rfl

/-- An open container was pushed where a value was awaited. -/
theorem stands_begin {outer : List Part} {p : Part} {c : Call} {text : Bytes} (h : Ready w cs outer)
    (hp : p.Written) (hcalls : p.calls = [c]) :
    Stands (w.wrote text (p.frame :: w.frames)) (cs ++ [c]) := by
  have hstanding := Standing.within hp h.waiting
  have hopened : opened (p :: outer) = cs ++ [c] := by
    rw [h.calls, ← hcalls]
    simp [opened]
  rw [← h.frames, hopened] at hstanding
  exact ⟨h.active, .inr ⟨h.root, hstanding⟩⟩

theorem stands_beginObject (h : Stands w cs) (hcall : w.call .beginObject = .ok w') :
    Stands w' (cs ++ [.beginObject]) := by
  simp only [call, except_bind_ok, pure, Except.pure, Except.ok.injEq] at hcall
  obtain ⟨w₁, hbefore, w₂, happend, rfl⟩ := hcall
  obtain ⟨outer, hready⟩ := ready_of_beforeValue h hbefore
  rw [append_ok happend]
  exact stands_begin (p := .object []) hready (by simp [Part.Written]) rfl

theorem stands_beginArray (h : Stands w cs) (hcall : w.call .beginArray = .ok w') :
    Stands w' (cs ++ [.beginArray]) := by
  simp only [call, except_bind_ok, pure, Except.pure, Except.ok.injEq] at hcall
  obtain ⟨w₁, hbefore, w₂, happend, rfl⟩ := hcall
  obtain ⟨outer, hready⟩ := ready_of_beforeValue h hbefore
  rw [append_ok happend]
  exact stands_begin (p := .array []) hready (by simp [Part.Written]) rfl

/-- The innermost container of a writer that has one. -/
theorem innermost (h : Stands w cs) {frame : Frame} {frames : List Frame} (hframes : w.frames = frame :: frames) :
    ∃ p outer, w.rootWritten = true ∧ p.Written ∧ Waiting outer ∧ frame = p.frame ∧
      frames = outer.map Part.suspended ∧ cs = opened (p :: outer) := by
  rcases h.state with ⟨-, hnone, -⟩ | ⟨hroot, hstanding⟩
  · rw [hnone] at hframes
    cases hframes
  rw [hframes] at hstanding
  generalize hall : frame :: frames = all at hstanding
  cases hstanding with
  | complete hj => cases hall
  | @within p outer hp houter =>
    obtain ⟨rfl, rfl⟩ := List.cons.inj hall
    exact ⟨p, outer, hroot, hp, houter, rfl, rfl, rfl⟩

/-- The innermost container was closed: it is a value of the one around it. -/
theorem stands_end {outer : List Part} {j : Json} {c : Call} {text : Bytes} {p : Part}
    (hactive : w.finished = false) (hroot : w.rootWritten = true) (houter : Waiting outer)
    (hj : Written j) (hcalls : calls j = p.calls ++ [c]) :
    Stands (w.wrote text (outer.map Part.suspended)) (opened (p :: outer) ++ [c]) := by
  have hstanding := standing_put houter hj
  have hopened : opened outer ++ calls j = opened (p :: outer) ++ [c] := by
    rw [hcalls]
    simp [opened]
  rw [hopened] at hstanding
  exact ⟨hactive, .inr ⟨hroot, hstanding⟩⟩

theorem stands_endArray (h : Stands w cs) (hcall : w.call .endArray = .ok w') :
    Stands w' (cs ++ [.endArray]) := by
  simp only [call, endArray, except_bind_ok] at hcall
  obtain ⟨_, -, hcall⟩ := hcall
  split at hcall
  · next first expectsKey frames hframes =>
    obtain ⟨p, outer, hroot, hp, houter, hframe, rfl, rfl⟩ := innermost h hframes
    rw [append_ok hcall]
    cases p with
    | array items => exact stands_end h.active hroot houter (.arr hp) rfl
    | object fields => cases hframe
    | member fields key => cases hframe
  · cases hcall

/-- An object that expects a key holds whole members. -/
theorem openObject_part (h : Stands w cs) {message : String} {frame : Frame} {frames : List Frame}
    (hopen : w.openObject message = .ok (frame, frames)) :
    ∃ fields outer, w.rootWritten = true ∧ (∀ f ∈ fields, Written f.2) ∧ Waiting outer ∧
      frame = (Part.object fields).frame ∧ frames = outer.map Part.suspended ∧
      cs = opened (.object fields :: outer) := by
  have hkey : frame.container = .object ∧ frame.expectsKey = true := by
    rw [openObject] at hopen
    split at hopen
    · split at hopen
      · next hkey =>
        cases hopen
        exact hkey
      · cases hopen
    · cases hopen
  obtain ⟨p, outer, hroot, hp, houter, rfl, rfl, rfl⟩ := innermost h (openObject_ok hopen)
  cases p with
  | object fields => exact ⟨fields, outer, hroot, hp, houter, rfl, rfl, rfl⟩
  | array items => cases hkey.1
  | member fields key => cases hkey.2

theorem stands_endObject (h : Stands w cs) (hcall : w.call .endObject = .ok w') :
    Stands w' (cs ++ [.endObject]) := by
  simp only [call, endObject, except_bind_ok] at hcall
  obtain ⟨_, -, ⟨frame, frames⟩, hopen, happend⟩ := hcall
  obtain ⟨fields, outer, hroot, hfields, houter, -, rfl, rfl⟩ := openObject_part h hopen
  rw [append_ok happend]
  exact stands_end h.active hroot houter (.obj hfields) rfl

theorem stands_key {value : Bytes} (h : Stands w cs) (hcall : w.call (.key value) = .ok w') :
    Stands w' (cs ++ [.key value]) := by
  simp only [call, key, except_bind_ok, pure, Except.pure, Except.ok.injEq] at hcall
  obtain ⟨_, -, ⟨frame, frames⟩, hopen, w₁, hcomma, w₂, hquoted, w₃, hcolon, rfl⟩ := hcall
  obtain ⟨fields, outer, hroot, hfields, houter, rfl, rfl, rfl⟩ := openObject_part h hopen
  obtain ⟨k, rfl⟩ := exists_utf8_of_appendQuoted hquoted
  rw [append_ok hcolon, appendQuoted_ok hquoted, comma_ok hcomma]
  have hstanding := @Standing.within (.member fields k) outer hfields houter
  have hopened : opened (.member fields k :: outer) = opened (.object fields :: outer) ++ [.key (utf8 k)] := by
    simp [opened, Part.calls]
  rw [hopened] at hstanding
  exact ⟨h.active, .inr ⟨hroot, hstanding⟩⟩

/-- Every call of the interface that does not throw keeps the writer standing. -/
theorem stands_call {op : Op} {c : Call} (h : Stands w cs) (hop : op.call? = some c)
    (hcall : w.call c = .ok w') : Stands w' (cs ++ [c]) := by
  cases op with
  | beginObject =>
    cases hop
    exact stands_beginObject h hcall
  | endObject =>
    cases hop
    exact stands_endObject h hcall
  | beginArray =>
    cases hop
    exact stands_beginArray h hcall
  | endArray =>
    cases hop
    exact stands_endArray h hcall
  | key value =>
    cases hop
    exact stands_key h hcall
  | nullValue =>
    cases hop
    exact stands_literal h .null rfl hcall
  | boolean value =>
    cases hop
    exact stands_literal h (.bool value) rfl hcall
  | unsignedInteger value =>
    cases hop
    exact stands_literal h (.num value.toNat_lt) rfl hcall
  | string value =>
    cases hop
    exact stands_string h hcall
  | finish => cases hop

/-! ### Bounds -/

/-- The output keeps to the bound it was created with. -/
def Bounded (maxOutputBytes : ℕ) (w : Writer) : Prop :=
  w.maxOutputBytes = maxOutputBytes ∧ w.output.length ≤ maxOutputBytes

variable {bound : ℕ}

theorem bounded_append {value : Bytes} (h : w.Bounded bound) (happend : w.append value = .ok w') :
    w'.Bounded bound := by
  simp only [append, except_bind_ok, refuse_ok, not_lt, pure, Except.pure, Except.ok.injEq] at happend
  obtain ⟨_, hroom, rfl⟩ := happend
  obtain ⟨rfl, hlength⟩ := h
  refine ⟨rfl, ?_⟩
  simp only [List.length_append]
  omega

theorem bounded_comma {first : Bool} (h : w.Bounded bound) (hcomma : w.comma first = .ok w') :
    w'.Bounded bound := by
  cases first with
  | true =>
    cases hcomma
    exact h
  | false => exact bounded_append h hcomma

theorem bounded_foldlM {f : UInt8 → Bytes} {bytes : Bytes} : ∀ {w : Writer}, w.Bounded bound →
    bytes.foldlM (fun w b => w.append (f b)) w = .ok w' → w'.Bounded bound := by
  induction bytes with
  | nil =>
    intro w h hfold
    cases hfold
    exact h
  | cons b bytes ih =>
    intro w h hfold
    rw [List.foldlM_cons, except_bind_ok] at hfold
    obtain ⟨w₁, hfirst, hrest⟩ := hfold
    exact ih (bounded_append h hfirst) hrest

theorem bounded_appendQuoted {value : Bytes} (h : w.Bounded bound)
    (hquoted : w.appendQuoted value = .ok w') : w'.Bounded bound := by
  simp only [appendQuoted, except_bind_ok] at hquoted
  obtain ⟨_, -, _, -, w₁, hopen, w₂, hbody, hclose⟩ := hquoted
  exact bounded_append (bounded_foldlM (bounded_append h hopen) hbody) hclose

theorem bounded_beforeValue (h : w.Bounded bound) (hbefore : w.beforeValue = .ok w') :
    w'.Bounded bound := by
  simp only [beforeValue, except_bind_ok] at hbefore
  obtain ⟨_, -, hbefore⟩ := hbefore
  split at hbefore
  · simp only [except_bind_ok, pure, Except.pure, Except.ok.injEq] at hbefore
    obtain ⟨_, -, rfl⟩ := hbefore
    exact h
  split at hbefore
  · simp only [except_bind_ok, pure, Except.pure, Except.ok.injEq] at hbefore
    obtain ⟨_, -, rfl⟩ := hbefore
    exact h
  · simp only [except_bind_ok, pure, Except.pure, Except.ok.injEq] at hbefore
    obtain ⟨w₁, hcomma, rfl⟩ := hbefore
    have hbounded : w₁.Bounded bound := bounded_comma h hcomma
    exact hbounded

theorem bounded_call {c : Call} (h : w.Bounded bound) (hcall : w.call c = .ok w') :
    w'.Bounded bound := by
  cases c with
  | beginObject | beginArray =>
    simp only [call, except_bind_ok, pure, Except.pure, Except.ok.injEq] at hcall
    obtain ⟨w₁, hbefore, w₂, happend, rfl⟩ := hcall
    have hbounded : w₂.Bounded bound := bounded_append (bounded_beforeValue h hbefore) happend
    exact hbounded
  | endObject =>
    simp only [call, endObject, except_bind_ok] at hcall
    obtain ⟨_, -, ⟨frame, frames⟩, -, happend⟩ := hcall
    exact @bounded_append { w with frames } _ _ _ h happend
  | endArray =>
    simp only [call, endArray, except_bind_ok] at hcall
    obtain ⟨_, -, hcall⟩ := hcall
    split at hcall
    · next frames _ => exact @bounded_append { w with frames } _ _ _ h hcall
    · cases hcall
  | key value =>
    simp only [call, key, except_bind_ok, pure, Except.pure, Except.ok.injEq] at hcall
    obtain ⟨_, -, ⟨frame, frames⟩, -, w₁, hcomma, w₂, hquoted, w₃, hcolon, rfl⟩ := hcall
    have hbounded : w₃.Bounded bound :=
      bounded_append (bounded_appendQuoted (bounded_comma h hcomma) hquoted) hcolon
    exact hbounded
  | literal text =>
    simp only [call, except_bind_ok] at hcall
    obtain ⟨w₁, hbefore, happend⟩ := hcall
    exact bounded_append (bounded_beforeValue h hbefore) happend
  | string value =>
    simp only [call, except_bind_ok] at hcall
    obtain ⟨w₁, hbefore, hquoted⟩ := hcall
    exact bounded_appendQuoted (bounded_beforeValue h hbefore) hquoted

/-! ### What a whole run keeps -/

theorem stands_perform {ops : List Op} : ∀ {cs cs' : List Call} {w : Writer}, Stands w cs →
    ops.map Op.call? = cs'.map some → w.perform cs' = .ok w' → Stands w' (cs ++ cs') := by
  induction ops with
  | nil =>
    intro cs cs' w h hops hperform
    obtain rfl : cs' = [] := by simpa using hops.symm
    cases hperform
    rwa [List.append_nil]
  | cons op ops ih =>
    intro cs cs' w h hops hperform
    cases cs' with
    | nil => cases hops
    | cons c cs' =>
      obtain ⟨hop, hops⟩ := List.cons.inj hops
      obtain ⟨w₁, hcall, hrest⟩ := perform_cons hperform
      have hstands := ih (stands_call h hop hcall) hops hrest
      rwa [List.append_assoc] at hstands

theorem bounded_perform {bound : ℕ} {cs : List Call} : ∀ {w : Writer}, w.Bounded bound →
    w.perform cs = .ok w' → w'.Bounded bound := by
  induction cs with
  | nil =>
    intro w h hperform
    cases hperform
    exact h
  | cons c cs ih =>
    intro w h hperform
    obtain ⟨w₁, hcall, hrest⟩ := perform_cons hperform
    exact ih (bounded_call h hcall) hrest

theorem requireActive_ok {u : Unit} : w.requireActive = .ok u ↔ w.finished = false := by
  rw [requireActive, refuse_ok, Bool.not_eq_true]

/-- A call on a finished writer throws. -/
theorem active_of_call {c : Call} (hcall : w.call c = .ok w') : w.finished = false := by
  cases c with
  | beginObject | beginArray | literal text | string value =>
    simp only [call, except_bind_ok] at hcall
    obtain ⟨w₁, hbefore, -⟩ := hcall
    exact (beforeValue_cases hbefore).1
  | endObject =>
    simp only [call, endObject, except_bind_ok, requireActive_ok] at hcall
    obtain ⟨_, hactive, -⟩ := hcall
    exact hactive
  | endArray =>
    simp only [call, endArray, except_bind_ok, requireActive_ok] at hcall
    obtain ⟨_, hactive, -⟩ := hcall
    exact hactive
  | key value =>
    simp only [call, key, except_bind_ok, requireActive_ok] at hcall
    obtain ⟨_, hactive, -⟩ := hcall
    exact hactive

theorem active_of_operate {op : Op} (h : w.operate op = .ok w') : w.finished = false := by
  rw [operate] at h
  split at h
  · exact active_of_call h
  · simp only [finish, except_bind_ok, requireActive_ok] at h
    obtain ⟨_, ⟨_, hactive, -⟩, -⟩ := h
    exact hactive

/-- A writer that is not finished at the end was not finished before: all operations were calls. -/
theorem calls_of_operate {ops : List Op} : ∀ {w : Writer}, ops.foldlM operate w = .ok w' →
    w'.finished = false → ∃ cs, ops.map Op.call? = cs.map some ∧ w.perform cs = .ok w' := by
  induction ops with
  | nil =>
    intro w h _
    exact ⟨[], rfl, h⟩
  | cons op ops ih =>
    intro w h hactive
    rw [List.foldlM_cons, except_bind_ok] at h
    obtain ⟨w₁, hfirst, hrest⟩ := h
    obtain ⟨cs, hcs, hperform⟩ := ih hrest hactive
    rw [operate] at hfirst
    split at hfirst
    · next c hop =>
      refine ⟨c :: cs, by rw [List.map_cons, hop, hcs, List.map_cons], ?_⟩
      rw [perform, List.foldlM_cons, except_bind_ok]
      exact ⟨w₁, hfirst, hperform⟩
    · -- after a finish nothing more can be done, and the writer would stay finished
      simp only [except_bind_ok, pure, Except.pure, Except.ok.injEq] at hfirst
      obtain ⟨_, -, rfl⟩ := hfirst
      cases ops with
      | nil =>
        cases hrest
        cases hactive
      | cons op' ops =>
        rw [List.foldlM_cons, except_bind_ok] at hrest
        obtain ⟨w₂, hnext, -⟩ := hrest
        cases active_of_operate hnext

end Writer

/-! ### The tree and its text -/

section
variable {inRange : String → Bool}

theorem codedItems_of_forall {items : List Json} (h : ∀ j ∈ items, Json.Coded inRange escape j) :
    Json.CodedItems inRange escape items := by
  induction items with
  | nil => trivial
  | cons j items ih =>
    obtain ⟨hj, hrest⟩ := List.forall_mem_cons.mp h
    exact ⟨hj, ih hrest⟩

theorem codedFields_of_forall {fields : List (String × Json)}
    (h : ∀ f ∈ fields, Json.Coded inRange escape f.2) : Json.CodedFields inRange escape fields := by
  induction fields with
  | nil => trivial
  | cons f fields ih =>
    obtain ⟨hf, hrest⟩ := List.forall_mem_cons.mp h
    exact ⟨decodes_escape f.1, hf, ih hrest⟩

/-- A tree the interface can spell is read back from its escaped text. -/
theorem Written.coded (hrange : ∀ n < 2 ^ 64, inRange n.repr = true) {j : Json} (h : Written j) :
    Json.Coded inRange escape j := by
  induction h with
  | null => trivial
  | bool b => trivial
  | num hn => exact Json.plainNumber_repr (hrange _ hn)
  | str s => exact decodes_escape s
  | arr _ ih => exact codedItems_of_forall ih
  | obj _ ih => exact codedFields_of_forall ih

theorem Written.read (hrange : ∀ n < 2 ^ 64, inRange n.repr = true) {j : Json} (h : Written j) {d : ℕ}
    (hdepth : j.depth ≤ d) :
    Json.value inRange d (j.mapStrings escape).render.toList = some (j, []) := by
  have hread := Json.value_mapStrings d (h.coded hrange) hdepth [] Json.follows_nil
  rwa [List.append_nil] at hread

/-- Trees of the same text are the same. -/
theorem Written.inj {j j' : Json} (h : Written j) (h' : Written j')
    (htext : (j.mapStrings escape).render = (j'.mapStrings escape).render) : j = j' := by
  have hread := @Written.read (fun _ => true) (fun _ _ => rfl) j h (max j.depth j'.depth) (Nat.le_max_left _ _)
  have hread' := @Written.read (fun _ => true) (fun _ _ => rfl) j' h' (max j.depth j'.depth) (Nat.le_max_right _ _)
  rw [htext, hread'] at hread
  cases hread
  rfl

end

/-- What a session that returns a text was: the calls of one tree, whose text it is. -/
structure Session (maxOutputBytes : ℕ) (ops : List Op) (bytes : Bytes) (j : Json) : Prop where
  spells : Spells ops j
  unique : ∀ j', Spells ops j' → j' = j
  bounded : bytes.length ≤ maxOutputBytes
  read : ∃ text, bytes = utf8 text ∧ ∀ (inRange : String → Bool) (d : ℕ),
    (∀ n < 2 ^ 64, inRange n.repr = true) → j.depth ≤ d →
      Json.value inRange d text.toList = some (j, [])

theorem session_ok {maxOutputBytes maxStringBytes : ℕ} {ops : List Op} {bytes : Bytes}
    (h : session maxOutputBytes maxStringBytes ops = .ok bytes) :
    ∃ j, Session maxOutputBytes ops bytes j := by
  simp only [session, Writer.create, Writer.finish, except_bind_ok, Writer.requireActive_ok, refuse_ok, not_or,
    Bool.not_eq_false, not_not, pure, Except.pure, Except.ok.injEq] at h
  obtain ⟨_, ⟨_, -, rfl⟩, w, hrun, _, hactive, _, ⟨hroot, hframes⟩, rfl⟩ := h
  obtain ⟨cs, hops, hperform⟩ := Writer.calls_of_operate hrun hactive
  have hstands := Writer.stands_perform ⟨rfl, .inl ⟨rfl, rfl, rfl⟩⟩ hops hperform
  have hbounded : w.Bounded maxOutputBytes := Writer.bounded_perform ⟨rfl, Nat.zero_le _⟩ hperform
  rw [List.nil_append] at hstands
  obtain ⟨j, hj, hcalls⟩ : ∃ j, Written j ∧ cs = calls j := by
    rcases hstands.state with ⟨-, -, hnone⟩ | ⟨-, hstanding⟩
    · rw [hroot] at hnone
      cases hnone
    · rw [hframes] at hstanding
      generalize hnil : ([] : List Frame) = frames at hstanding
      cases hstanding with
      | @complete j hj => exact ⟨j, hj, rfl⟩
      | within => cases hnil
  subst hcalls
  have htext : ∀ j', calls j' = calls j → w.output = utf8 (j'.mapStrings escape).render := by
    intro j' hsame
    rw [← hsame] at hperform
    have hwrites := (Writer.writes_calls j' hperform).1
    simpa [Writer.separator] using hwrites
  refine ⟨j, ⟨hj, hops⟩, fun j' hsession => ?_, hbounded.2, _, htext j rfl, ?_⟩
  · obtain ⟨hj', hops'⟩ := hsession
    have hsame : calls j' = calls j :=
      List.map_injective_iff.mpr (fun _ _ => Option.some.inj) (hops'.symm.trans hops)
    exact hj'.inj hj (utf8_injective ((htext j' hsame).symm.trans (htext j rfl)))
  · intro inRange d hrange hdepth
    exact hj.read hrange hdepth

/-- For all bounds and every sequence of calls ended by `finish`: if none throws, the text is within
    its bound and is read as the one tree that the calls spell; and if they spell none, one throws. -/
theorem session_exact (maxOutputBytes maxStringBytes : ℕ) (ops : List Op) :
    (∀ bytes, session maxOutputBytes maxStringBytes ops = .ok bytes →
      ∃ j, Session maxOutputBytes ops bytes j) ∧
    ((¬∃ j, Spells ops j) → ∃ thrown, session maxOutputBytes maxStringBytes ops = .error thrown) := by
  refine ⟨fun bytes h => session_ok h, fun hnone => ?_⟩
  cases h : session maxOutputBytes maxStringBytes ops with
  | error thrown => exact ⟨thrown, rfl⟩
  | ok bytes =>
    obtain ⟨j, hsession⟩ := session_ok h
    exact absurd ⟨j, hsession.spells⟩ hnone

/-- `{"a\n":[1,true]}` -/
example : session 64 8 [.beginObject, .key (utf8 "a\n"), .beginArray, .unsignedInteger 1, .boolean true,
    .endArray, .endObject] = .ok (utf8 "\x7b\"a\\n\":[1,true]\x7d") := by decide

end NpuStack.Native
