import NpuStack.Schemes.Interaction
import NpuStack.Schemes.JsonText

/-! The bounded JSON writer of the native helpers: a stack of open containers, an output that may
    not grow past its bound, and calls that throw when they are out of place.

        begin_object  key "a"  unsigned_integer 1  end_object      ──▶  {"a":1}

    Performed on a fresh writer without a throw, the calls that spell a tree (`calls`) print exactly
    what `Json.render` prints of it with its strings escaped (`writes_calls`). -/

namespace NpuStack.Native
open Interaction Text Serde

/-- The exceptions thrown, by their type, with `what()`. -/
inductive Thrown where
  | lengthError (what : String)
  | logicError (what : String)
  | invalidArgument (what : String)
  deriving DecidableEq, Repr

inductive Container where
  | object | array
  deriving DecidableEq, Repr

structure Frame where
  container : Container
  first : Bool
  expectsKey : Bool
  deriving DecidableEq, Repr

/-- Open containers are innermost first. -/
structure Writer where
  maxOutputBytes : ℕ
  maxStringBytes : ℕ
  output : Bytes
  frames : List Frame
  rootWritten : Bool
  finished : Bool
  deriving DecidableEq, Repr

/-- One call of a writer's method. -/
inductive Call where
  | beginObject
  | endObject
  | beginArray
  | endArray
  | key (value : Bytes)
  | literal (text : String)
  | string (value : Bytes)
  deriving DecidableEq, Repr

def nullValue : Call := .literal "null"

def unsignedInteger (value : ℕ) : Call := .literal value.repr

/-- A finite value, given by its shortest decimal. -/
def decimal (shortest : String) : Call := .literal shortest

/-! ### Strings -/

def isContinuation (byte : UInt8) : Bool := byte &&& 0xc0 = 0x80

def isValidUtf8 : Bytes → Bool
  | [] => true
  | first :: rest =>
    if first ≤ 0x7f then isValidUtf8 rest
    else if 0xc2 ≤ first ∧ first ≤ 0xdf then
      match rest with
      | second :: rest => isContinuation second && isValidUtf8 rest
      | _ => false
    else if 0xe0 ≤ first ∧ first ≤ 0xef then
      match rest with
      | second :: third :: rest =>
        let validSecond :=
          if first = 0xe0 then 0xa0 ≤ second && second ≤ 0xbf
          else if first = 0xed then 0x80 ≤ second && second ≤ 0x9f
          else isContinuation second
        validSecond && isContinuation third && isValidUtf8 rest
      | _ => false
    else if 0xf0 ≤ first ∧ first ≤ 0xf4 then
      match rest with
      | second :: third :: fourth :: rest =>
        let validSecond :=
          if first = 0xf0 then 0x90 ≤ second && second ≤ 0xbf
          else if first = 0xf4 then 0x80 ≤ second && second ≤ 0x8f
          else isContinuation second
        validSecond && isContinuation third && isContinuation fourth && isValidUtf8 rest
      | _ => false
    else false

/-- A lowercase hexadecimal digit. -/
def hexDigit (value : UInt8) : UInt8 := if value < 10 then 0x30 + value else 0x57 + value

/-- What is appended for one byte of a string. -/
def escapeByte (byte : UInt8) : Bytes :=
  if byte = 0x22 then utf8 "\\\""
  else if byte = 0x5c then utf8 "\\\\"
  else if byte = 0x08 then utf8 "\\b"
  else if byte = 0x0c then utf8 "\\f"
  else if byte = 0x0a then utf8 "\\n"
  else if byte = 0x0d then utf8 "\\r"
  else if byte = 0x09 then utf8 "\\t"
  else if byte < 0x20 then utf8 "\\u00" ++ [hexDigit (byte >>> 4), hexDigit (byte &&& 0x0f)]
  else [byte]

/-! ### Calls -/

namespace Writer

def create (maxOutputBytes maxStringBytes : ℕ) : Except Thrown Writer := do
  refuse (maxOutputBytes = 0 ∨ maxStringBytes = 0) (.invalidArgument "JSON bounds must be nonzero")
  return ⟨maxOutputBytes, maxStringBytes, [], [], false, false⟩

def append (w : Writer) (value : Bytes) : Except Thrown Writer := do
  refuse (value.length > w.maxOutputBytes - w.output.length)
    (.lengthError "JSON output exceeds its configured bound")
  return { w with output := w.output ++ value }

/-- The comma before all but the first part of a container. -/
def comma (w : Writer) (first : Bool) : Except Thrown Writer :=
  if first then .ok w else w.append (utf8 ",")

def requireActive (w : Writer) : Except Thrown Unit :=
  refuse (w.finished = true) (.logicError "JSON writer is already finished")

/-- The separator and the state change before a value. -/
def beforeValue (w : Writer) : Except Thrown Writer := do
  w.requireActive
  match w.frames with
  | [] =>
    refuse (w.rootWritten = true) (.logicError "JSON writer accepts exactly one root value")
    return { w with rootWritten := true }
  | frame :: frames =>
    match frame.container with
    | .object =>
      refuse (frame.expectsKey = true) (.logicError "an object value requires a key")
      return { w with frames := { frame with expectsKey := true } :: frames }
    | .array =>
      let w ← w.comma frame.first
      return { w with frames := { frame with first := false } :: frames }

def appendQuoted (w : Writer) (value : Bytes) : Except Thrown Writer := do
  refuse (value.length > w.maxStringBytes) (.lengthError "JSON string exceeds its configured bound")
  refuse (!isValidUtf8 value) (.invalidArgument "JSON string is not valid UTF-8")
  let w ← w.append (utf8 "\"")
  let w ← value.foldlM (fun w byte => w.append (escapeByte byte)) w
  w.append (utf8 "\"")

/-- The innermost open container, which must be an object expecting a key. -/
def openObject (w : Writer) (message : String) : Except Thrown (Frame × List Frame) :=
  match w.frames with
  | frame :: frames =>
    if frame.container = .object ∧ frame.expectsKey = true then .ok (frame, frames)
    else .error (.logicError message)
  | [] => .error (.logicError message)

def endObject (w : Writer) : Except Thrown Writer := do
  w.requireActive
  let (_, frames) ← w.openObject "JSON object is incomplete or mismatched"
  ({ w with frames } : Writer).append (utf8 "\x7d")

def endArray (w : Writer) : Except Thrown Writer := do
  w.requireActive
  match w.frames with
  | ⟨.array, _, _⟩ :: frames => ({ w with frames } : Writer).append (utf8 "]")
  | _ => .error (.logicError "JSON array is incomplete or mismatched")

def key (w : Writer) (value : Bytes) : Except Thrown Writer := do
  w.requireActive
  let (frame, frames) ← w.openObject "JSON key is not valid in the current state"
  let w ← w.comma frame.first
  let w ← w.appendQuoted value
  let w ← w.append (utf8 ":")
  return { w with frames := { frame with first := false, expectsKey := false } :: frames }

def call (w : Writer) : Call → Except Thrown Writer
  | .beginObject => do
    let w ← w.beforeValue
    let w ← w.append (utf8 "\x7b")
    return { w with frames := ⟨.object, true, true⟩ :: w.frames }
  | .endObject => w.endObject
  | .beginArray => do
    let w ← w.beforeValue
    let w ← w.append (utf8 "[")
    return { w with frames := ⟨.array, true, false⟩ :: w.frames }
  | .endArray => w.endArray
  | .key value => w.key value
  | .literal text => do
    let w ← w.beforeValue
    w.append (utf8 text)
  | .string value => do
    let w ← w.beforeValue
    w.appendQuoted value

def perform (w : Writer) (calls : List Call) : Except Thrown Writer := calls.foldlM call w

def finish (w : Writer) : Except Thrown Bytes := do
  w.requireActive
  refuse (w.rootWritten = false ∨ w.frames ≠ []) (.logicError "JSON document is incomplete")
  return w.output

end Writer

/-! ### Escapes -/

def hexChar (value : ℕ) : Char := Char.ofNat (if value < 10 then 0x30 + value else 0x57 + value)

/-- What is printed for one character of a string. -/
def escapeChar (c : Char) : List Char :=
  if c = '"' then ['\\', '"']
  else if c = '\\' then ['\\', '\\']
  else if c = Char.ofNat 8 then ['\\', 'b']
  else if c = Char.ofNat 12 then ['\\', 'f']
  else if c = '\n' then ['\\', 'n']
  else if c = '\r' then ['\\', 'r']
  else if c = '\t' then ['\\', 't']
  else if c.toNat < 0x20 then ['\\', 'u', '0', '0', hexChar (c.toNat / 16), hexChar (c.toNat % 16)]
  else [c]

/-- The text between the quotes of a string. -/
def escape (s : String) : String := String.ofList (s.toList.flatMap escapeChar)

/-- A character that needs no escape. -/
theorem escapeChar_plain {c : Char} (h : Json.isPlainChar c = true) : escapeChar c = [c] := by
  simp only [Json.isPlainChar, Bool.and_eq_true, decide_eq_true_eq] at h
  obtain ⟨⟨hlow, hquote⟩, hslash⟩ := h
  have hne : ∀ d : Char, d.toNat < 0x20 → c ≠ d := by
    rintro d hd rfl
    omega
  rw [escapeChar, if_neg hquote, if_neg hslash, if_neg (hne _ (by decide)), if_neg (hne _ (by decide)),
    if_neg (hne _ (by decide)), if_neg (hne _ (by decide)), if_neg (hne _ (by decide)),
    if_neg (by omega)]

theorem escape_plain {s : String} (hs : all Json.isPlainChar s = true) : escape s = s := by
  have hchar : ∀ c ∈ s.toList, escapeChar c = [c] := by
    intro c hc
    exact escapeChar_plain (all_iff.mp hs c hc)
  rw [escape, List.flatMap_congr hchar]
  simp

theorem escapeByte_ascii : ∀ n < 128, escapeByte (UInt8.ofNat n) =
    (escapeChar (Char.ofNat n)).flatMap String.utf8EncodeChar := by decide +kernel

/-- A byte of a longer encoding is appended as it is. -/
theorem escapeByte_high {b : UInt8} (h : 128 ≤ b.toNat) : escapeByte b = [b] := by
  have hne : ∀ n : UInt8, n.toNat < 128 → b ≠ n := by
    rintro n hn rfl
    omega
  have hlow : ¬b < 0x20 := by
    rw [UInt8.lt_iff_toNat_lt]
    have hbound : (0x20 : UInt8).toNat = 0x20 := rfl
    omega
  rw [escapeByte, if_neg (hne _ (by decide)), if_neg (hne _ (by decide)), if_neg (hne _ (by decide)),
    if_neg (hne _ (by decide)), if_neg (hne _ (by decide)), if_neg (hne _ (by decide)),
    if_neg (hne _ (by decide)), if_neg hlow]

/-- Every byte of a character beyond ASCII is beyond ASCII. -/
theorem high_of_mem_utf8EncodeChar {c : Char} (hc : 128 ≤ c.toNat) {b : UInt8}
    (hb : b ∈ String.utf8EncodeChar c) : 128 ≤ b.toNat := by
  have hval : c.toNat = c.val.toNat := rfl
  rw [String.utf8EncodeChar] at hb
  have hbyte : ∀ n : ℕ, (UInt8.ofNat n).toNat = n % 256 := fun n => UInt8.toNat_ofNat'
  split at hb
  · omega
  split at hb
  · simp only [List.mem_cons, List.not_mem_nil, or_false] at hb
    rcases hb with rfl | rfl <;> rw [hbyte] <;> omega
  split at hb
  · simp only [List.mem_cons, List.not_mem_nil, or_false] at hb
    rcases hb with rfl | rfl | rfl <;> rw [hbyte] <;> omega
  · simp only [List.mem_cons, List.not_mem_nil, or_false] at hb
    rcases hb with rfl | rfl | rfl | rfl <;> rw [hbyte] <;> omega

theorem escapeByte_utf8EncodeChar (c : Char) : (String.utf8EncodeChar c).flatMap escapeByte =
    (escapeChar c).flatMap String.utf8EncodeChar := by
  rcases Nat.lt_or_ge c.toNat 128 with hlow | hhigh
  · have hsize : c.utf8Size = 1 := by
      rw [Char.utf8Size_eq_one_iff]
      exact Nat.le_of_lt_succ hlow
    have hbyte : c.val.toUInt8 = UInt8.ofNat c.toNat := rfl
    rw [String.utf8EncodeChar_eq_singleton hsize, List.flatMap_singleton, hbyte, escapeByte_ascii _ hlow,
      Char.ofNat_toNat]
  · have hplain : Json.isPlainChar c = true := by
      have hne : ∀ d : Char, d.toNat < 128 → c ≠ d := by
        rintro d hd rfl
        omega
      simp only [Json.isPlainChar, Bool.and_eq_true, decide_eq_true_eq]
      exact ⟨⟨by omega, hne _ (by decide)⟩, hne _ (by decide)⟩
    rw [escapeChar_plain hplain, List.flatMap_congr fun b hb =>
      escapeByte_high (high_of_mem_utf8EncodeChar hhigh hb)]
    simp

/-- Escaping byte by byte writes the escaped text. -/
theorem utf8_escape (s : String) : utf8 (escape s) = (utf8 s).flatMap escapeByte := by
  rw [utf8, utf8, escape, String.toList_ofList, List.flatMap_assoc, List.flatMap_assoc]
  exact List.flatMap_congr fun c _ => (escapeByte_utf8EncodeChar c).symm

/-! ### What a call that does not throw appends -/

/-- A character of plain ASCII text: printable, neither quote nor backslash. -/
def isPlainAscii (c : Char) : Bool := Json.isPlainChar c && c.toNat < 128

namespace Writer

variable {w w' : Writer}

/-- The writer with more text and other open containers. -/
def wrote (w : Writer) (text : Bytes) (frames : List Frame) : Writer :=
  { w with output := w.output ++ text, frames }

theorem append_ok {value : Bytes} (h : w.append value = .ok w') :
    w' = w.wrote value w.frames := by
  simp only [append, except_bind_ok, pure, Except.pure, Except.ok.injEq] at h
  obtain ⟨_, -, rfl⟩ := h
  rfl

theorem comma_ok {first : Bool} (h : w.comma first = .ok w') :
    w' = w.wrote (if first then [] else utf8 ",") w.frames := by
  cases first with
  | true =>
    cases h
    simp [wrote]
  | false => exact append_ok h

/-- Appending byte by byte appends the bytes of all. -/
theorem foldlM_append_ok {f : UInt8 → Bytes} : ∀ {bytes : Bytes} {w w' : Writer},
    bytes.foldlM (fun w b => w.append (f b)) w = .ok w' → w' = w.wrote (bytes.flatMap f) w.frames
  | [], w, w', h => by
    cases h
    simp [wrote]
  | b :: bytes, w, w', h => by
    rw [List.foldlM_cons, except_bind_ok] at h
    obtain ⟨w₁, hfirst, hrest⟩ := h
    rw [foldlM_append_ok hrest, append_ok hfirst]
    simp [wrote, List.append_assoc]

theorem appendQuoted_ok {s : String} (h : w.appendQuoted (utf8 s) = .ok w') :
    w' = w.wrote (utf8 ("\"" ++ escape s ++ "\"")) w.frames := by
  simp only [appendQuoted, except_bind_ok] at h
  obtain ⟨_, -, _, -, w₁, hopen, w₂, hbody, hclose⟩ := h
  rw [append_ok hclose, foldlM_append_ok hbody, append_ok hopen, ← utf8_escape]
  simp [wrote, utf8_append, List.append_assoc]

/-- The separator a value is preceded by. -/
def separator : List Frame → Bytes
  | ⟨.array, false, _⟩ :: _ => utf8 ","
  | _ => []

/-- The open containers once a value is written. -/
def afterValue : List Frame → List Frame
  | [] => []
  | ⟨.object, first, _⟩ :: frames => ⟨.object, first, true⟩ :: frames
  | ⟨.array, _, expectsKey⟩ :: frames => ⟨.array, false, expectsKey⟩ :: frames

/-- What `beforeValue` does: the root is taken, or the innermost container takes a part. -/
theorem beforeValue_cases (h : w.beforeValue = .ok w') : w.finished = false ∧
    (w.frames = [] ∧ w.rootWritten = false ∧ w' = { w with rootWritten := true } ∨
      (∃ frame frames, w.frames = frame :: frames ∧
        ¬(frame.container = .object ∧ frame.expectsKey = true)) ∧
        w' = w.wrote (separator w.frames) (afterValue w.frames)) := by
  simp only [beforeValue, requireActive, except_bind_ok, refuse_ok, Bool.not_eq_true] at h
  obtain ⟨_, hactive, h⟩ := h
  refine ⟨hactive, ?_⟩
  split at h
  · next hframes =>
    simp only [except_bind_ok, refuse_ok, Bool.not_eq_true, pure, Except.pure, Except.ok.injEq] at h
    obtain ⟨_, hroot, rfl⟩ := h
    exact .inl ⟨hframes, hroot, rfl⟩
  · next frame frames hframes =>
    obtain ⟨container, first, expectsKey⟩ := frame
    refine .inr ?_
    rw [hframes]
    cases container with
    | object =>
      simp only [except_bind_ok, refuse_ok, pure, Except.pure, Except.ok.injEq] at h
      obtain ⟨_, hkey, rfl⟩ := h
      exact ⟨⟨_, _, rfl, fun h => hkey h.2⟩, by simp [wrote, separator, afterValue]⟩
    | array =>
      simp only [except_bind_ok, pure, Except.pure, Except.ok.injEq] at h
      obtain ⟨w₁, hcomma, rfl⟩ := h
      rw [comma_ok hcomma]
      exact ⟨⟨_, _, rfl, fun hexpected => by cases hexpected.1⟩, by cases first <;> simp [wrote, separator, afterValue]⟩

theorem beforeValue_ok (h : w.beforeValue = .ok w') :
    w'.output = w.output ++ separator w.frames ∧ w'.frames = afterValue w.frames := by
  obtain ⟨-, ⟨hframes, -, rfl⟩ | ⟨-, rfl⟩⟩ := beforeValue_cases h
  · simp [hframes, separator, afterValue]
  · exact ⟨rfl, rfl⟩

/-- A value with that text was written. -/
def Value (w w' : Writer) (text : Bytes) : Prop :=
  w'.output = w.output ++ separator w.frames ++ text ∧ w'.frames = afterValue w.frames

theorem literal_ok {text : String} (h : w.call (.literal text) = .ok w') : Value w w' (utf8 text) := by
  simp only [call, except_bind_ok] at h
  obtain ⟨w₁, hbefore, happend⟩ := h
  obtain ⟨hout, hframes⟩ := beforeValue_ok hbefore
  rw [append_ok happend]
  exact ⟨by simp [wrote, hout], hframes⟩

theorem string_ok {s : String} (h : w.call (.string (utf8 s)) = .ok w') :
    Value w w' (utf8 ("\"" ++ escape s ++ "\"")) := by
  simp only [call, except_bind_ok] at h
  obtain ⟨w₁, hbefore, hquoted⟩ := h
  obtain ⟨hout, hframes⟩ := beforeValue_ok hbefore
  rw [appendQuoted_ok hquoted]
  exact ⟨by simp [wrote, hout], hframes⟩

/-- Opening a container: its bracket is written and it is the innermost one. -/
theorem beginObject_ok (h : w.call .beginObject = .ok w') :
    w'.output = w.output ++ separator w.frames ++ utf8 "\x7b" ∧
      w'.frames = ⟨.object, true, true⟩ :: afterValue w.frames := by
  simp only [call, except_bind_ok, pure, Except.pure, Except.ok.injEq] at h
  obtain ⟨w₁, hbefore, w₂, happend, rfl⟩ := h
  obtain ⟨hout, hframes⟩ := beforeValue_ok hbefore
  rw [append_ok happend]
  exact ⟨by simp [wrote, hout], by simp [wrote, hframes]⟩

theorem beginArray_ok (h : w.call .beginArray = .ok w') :
    w'.output = w.output ++ separator w.frames ++ utf8 "[" ∧
      w'.frames = ⟨.array, true, false⟩ :: afterValue w.frames := by
  simp only [call, except_bind_ok, pure, Except.pure, Except.ok.injEq] at h
  obtain ⟨w₁, hbefore, w₂, happend, rfl⟩ := h
  obtain ⟨hout, hframes⟩ := beforeValue_ok hbefore
  rw [append_ok happend]
  exact ⟨by simp [wrote, hout], by simp [wrote, hframes]⟩

theorem openObject_ok {message : String} {frame : Frame} {frames : List Frame}
    (h : w.openObject message = .ok (frame, frames)) : w.frames = frame :: frames := by
  rw [openObject] at h
  split at h
  · next heq =>
    split at h
    · cases h
      exact heq
    · cases h
  · cases h

theorem endObject_ok (h : w.call .endObject = .ok w') :
    w'.output = w.output ++ utf8 "\x7d" ∧ w'.frames = w.frames.tail := by
  simp only [call, endObject, except_bind_ok] at h
  obtain ⟨_, -, ⟨frame, frames⟩, hopen, happend⟩ := h
  rw [append_ok happend, openObject_ok hopen]
  exact ⟨rfl, rfl⟩

theorem endArray_ok (h : w.call .endArray = .ok w') :
    w'.output = w.output ++ utf8 "]" ∧ w'.frames = w.frames.tail := by
  simp only [call, endArray, except_bind_ok] at h
  obtain ⟨_, -, h⟩ := h
  split at h
  · next heq =>
    rw [append_ok h, heq]
    exact ⟨rfl, rfl⟩
  · cases h

/-- A key is preceded by a comma unless it is the first of its object. -/
theorem key_ok {k : String} (h : w.call (.key (utf8 k)) = .ok w')
    {first expectsKey : Bool} {frames : List Frame}
    (hframes : w.frames = ⟨.object, first, expectsKey⟩ :: frames) :
    w'.output = w.output ++ (if first then [] else utf8 ",") ++ utf8 ("\"" ++ escape k ++ "\":") ∧
      w'.frames = ⟨.object, false, false⟩ :: frames := by
  simp only [call, key, except_bind_ok, pure, Except.pure, Except.ok.injEq] at h
  obtain ⟨_, -, ⟨frame, frames'⟩, hopen, w₁, hcomma, w₂, hquoted, w₃, hcolon, rfl⟩ := h
  obtain ⟨rfl, rfl⟩ := List.cons.inj (hframes.symm.trans (openObject_ok hopen))
  rw [append_ok hcolon, appendQuoted_ok hquoted, comma_ok hcomma]
  refine ⟨?_, rfl⟩
  have hquote : "\"" ++ escape k ++ "\":" = "\"" ++ escape k ++ "\"" ++ ":" := by
    rw [String.append_assoc, String.append_assoc, String.append_assoc]
    rfl
  simp [wrote, hquote, utf8_append]

end Writer

/-! ### The calls that spell a tree -/

mutual

def calls : Json → List Call
  | .null => [nullValue]
  | .bool b => [.literal (if b then "true" else "false")]
  | .num literal => [.literal literal]
  | .str s => [.string (utf8 s)]
  | .arr items => .beginArray :: (callsItems items ++ [.endArray])
  | .obj fields => .beginObject :: (callsFields fields ++ [.endObject])

def callsItems : List Json → List Call
  | [] => []
  | j :: items => calls j ++ callsItems items

def callsFields : List (String × Json) → List Call
  | [] => []
  | (k, v) :: fields => .key (utf8 k) :: (calls v ++ callsFields fields)

end

mutual

/-- Every string of the tree is plain ASCII. -/
def PlainAscii : Json → Prop
  | .str s => all isPlainAscii s = true
  | .arr items => PlainAsciiItems items
  | .obj fields => PlainAsciiFields fields
  | _ => True

def PlainAsciiItems : List Json → Prop
  | [] => True
  | j :: items => PlainAscii j ∧ PlainAsciiItems items

def PlainAsciiFields : List (String × Json) → Prop
  | [] => True
  | (k, v) :: fields => all isPlainAscii k = true ∧ PlainAscii v ∧ PlainAsciiFields fields

end

namespace Writer

variable {w w' : Writer}

/-- The text of the further parts of a container. -/
def partsText (first : Bool) : List String → Bytes
  | [] => []
  | text :: texts => (if first then [] else utf8 ",") ++ utf8 text ++ partsText false texts

theorem partsText_true : ∀ texts : List String, partsText true texts = utf8 (",".intercalate texts)
  | [] => by simp [partsText, utf8]
  | [text] => by simp [partsText]
  | text :: text' :: texts => by
    have hrest := partsText_true (text' :: texts)
    rw [String.intercalate_cons_cons, utf8_append, utf8_append, ← hrest]
    simp [partsText]

theorem perform_append {cs cs' : List Call} (h : w.perform (cs ++ cs') = .ok w') :
    ∃ w₁, w.perform cs = .ok w₁ ∧ w₁.perform cs' = .ok w' := by
  rw [perform, List.foldlM_append] at h
  exact except_bind_ok.mp h

theorem perform_cons {c : Call} {cs : List Call} (h : w.perform (c :: cs) = .ok w') :
    ∃ w₁, w.call c = .ok w₁ ∧ w₁.perform cs = .ok w' := by
  rw [perform, List.foldlM_cons] at h
  exact except_bind_ok.mp h

theorem perform_singleton {c : Call} (h : w.perform [c] = .ok w') : w.call c = .ok w' := by
  obtain ⟨w₁, hcall, hnil⟩ := perform_cons h
  cases hnil
  exact hcall

/-- Performing the calls of the tree writes its text, with its strings escaped. -/
def Writes (j : Json) : Prop :=
  ∀ {w w' : Writer}, w.perform (calls j) = .ok w' → Value w w' (utf8 (j.mapStrings escape).render)

theorem perform_callsItems (items : List Json) : ∀ {w w' : Writer} {first expectsKey : Bool}
    {frames : List Frame}, (∀ j ∈ items, Writes j) → w.frames = ⟨.array, first, expectsKey⟩ :: frames →
    w.perform (callsItems items) = .ok w' →
    w'.output = w.output ++ partsText first (Json.renderItems (Json.mapItems escape items)) ∧
      w'.frames.tail = frames := by
  induction items with
  | nil =>
    intro w w' first expectsKey frames _ hframes h
    cases h
    exact ⟨by simp [Json.mapItems, Json.renderItems, partsText], by rw [hframes]; rfl⟩
  | cons j items ih =>
    intro w w' first expectsKey frames hj hframes h
    obtain ⟨hfirst, hrest⟩ := List.forall_mem_cons.mp hj
    obtain ⟨w₁, hcalls, hothers⟩ := perform_append h
    obtain ⟨hout, hafter⟩ := hfirst hcalls
    rw [hframes, afterValue] at hafter
    obtain ⟨hout', htail⟩ := ih hrest hafter hothers
    refine ⟨?_, htail⟩
    rw [hout', hout, hframes, Json.mapItems, Json.renderItems, partsText]
    cases first <;> simp [separator]

theorem perform_callsFields (fields : List (String × Json)) : ∀ {w w' : Writer} {first : Bool}
    {frames : List Frame}, (∀ f ∈ fields, Writes f.2) →
    w.frames = ⟨.object, first, true⟩ :: frames → w.perform (callsFields fields) = .ok w' →
    w'.output = w.output ++ partsText first (Json.renderFields (Json.mapFields escape fields)) ∧
      w'.frames.tail = frames := by
  induction fields with
  | nil =>
    intro w w' first frames _ hframes h
    cases h
    exact ⟨by simp [Json.mapFields, Json.renderFields, partsText], by rw [hframes]; rfl⟩
  | cons f fields ih =>
    intro w w' first frames hf hframes h
    obtain ⟨k, v⟩ := f
    obtain ⟨hv, hrest⟩ := List.forall_mem_cons.mp hf
    obtain ⟨w₁, hkey, h⟩ := perform_cons h
    obtain ⟨w₂, hcalls, hothers⟩ := perform_append h
    obtain ⟨hout₁, hframes₁⟩ := key_ok hkey hframes
    obtain ⟨hout₂, hframes₂⟩ := hv hcalls
    rw [hframes₁, afterValue] at hframes₂
    obtain ⟨hout', htail⟩ := ih hrest hframes₂ hothers
    refine ⟨?_, htail⟩
    rw [hout', hout₂, hout₁, hframes₁, Json.mapFields, Json.renderFields, partsText]
    simp [separator, utf8_append]

/-- The calls that spell a tree write exactly its text. -/
theorem writes_calls : ∀ j : Json, Writes j
  | .null, _, _, h => literal_ok (perform_singleton h)
  | .bool _, _, _, h => literal_ok (perform_singleton h)
  | .num _, _, _, h => literal_ok (perform_singleton h)
  | .str _, _, _, h => string_ok (perform_singleton h)
  | .arr items, w, w', h => by
    obtain ⟨w₁, hopen, h⟩ := perform_cons h
    obtain ⟨w₂, hitems, hclose⟩ := perform_append h
    obtain ⟨hout₁, hframes₁⟩ := beginArray_ok hopen
    obtain ⟨hout₂, hframes₂⟩ :=
      perform_callsItems items (fun j hj => writes_calls j) hframes₁ hitems
    obtain ⟨hout₃, hframes₃⟩ := endArray_ok (perform_singleton hclose)
    refine ⟨?_, by rw [hframes₃, hframes₂]⟩
    rw [hout₃, hout₂, hout₁, partsText_true, Json.mapStrings, Json.render]
    simp [utf8_append]
  | .obj fields, w, w', h => by
    obtain ⟨w₁, hopen, h⟩ := perform_cons h
    obtain ⟨w₂, hfields, hclose⟩ := perform_append h
    obtain ⟨hout₁, hframes₁⟩ := beginObject_ok hopen
    obtain ⟨hout₂, hframes₂⟩ :=
      perform_callsFields fields (fun f hf => writes_calls f.2) hframes₁ hfields
    obtain ⟨hout₃, hframes₃⟩ := endObject_ok (perform_singleton hclose)
    refine ⟨?_, by rw [hframes₃, hframes₂]⟩
    rw [hout₃, hout₂, hout₁, partsText_true, Json.mapStrings, Json.render]
    simp [utf8_append]
termination_by j => sizeOf j
decreasing_by
  · have := List.sizeOf_lt_of_mem hj
    simp only [Json.arr.sizeOf_spec]
    omega
  · obtain ⟨k, v⟩ := f
    have := List.sizeOf_lt_of_mem hf
    simp only [Prod.mk.sizeOf_spec, Json.obj.sizeOf_spec] at this ⊢
    omega

end Writer

/-! ### Plain trees are printed as they are -/

theorem isPlainChar_of_ascii {s : String} (h : all isPlainAscii s = true) :
    all Json.isPlainChar s = true :=
  all_iff.mpr fun c hc => ((Bool.and_eq_true _ _).mp (all_iff.mp h c hc)).1

mutual

theorem mapStrings_escape : ∀ {j : Json}, PlainAscii j → j.mapStrings escape = j
  | .null, _ | .bool _, _ | .num _, _ => by rw [Json.mapStrings]
  | .str _, h => by rw [Json.mapStrings, escape_plain (isPlainChar_of_ascii h)]
  | .arr _, h => by rw [Json.mapStrings, mapItems_escape h]
  | .obj _, h => by rw [Json.mapStrings, mapFields_escape h]

theorem mapItems_escape : ∀ {items : List Json}, PlainAsciiItems items →
    Json.mapItems escape items = items
  | [], _ => by rw [Json.mapItems]
  | _ :: _, h => by rw [Json.mapItems, mapStrings_escape h.1, mapItems_escape h.2]

theorem mapFields_escape : ∀ {fields : List (String × Json)}, PlainAsciiFields fields →
    Json.mapFields escape fields = fields
  | [], _ => by rw [Json.mapFields]
  | (_, _) :: _, h => by
    rw [Json.mapFields, escape_plain (isPlainChar_of_ascii h.1), mapStrings_escape h.2.1,
      mapFields_escape h.2.2]

end

end NpuStack.Native
