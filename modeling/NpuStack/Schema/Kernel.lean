import Mathlib.Data.Prod.Lex
import NpuStack.Schemes.Interaction
import NpuStack.Schemes.Text

/-! Kernel releases: `major.minor.patch`, optionally followed by `-` and a nonempty distribution
    suffix, compared numerically component by component. -/

namespace NpuStack.Schema
open Interaction Text

/-- Stable validation error of a capability profile. -/
structure SchemaError where
  code : String
  message : String
  deriving DecidableEq, Repr

/-- `{value:?}`: quoted, with the escapes a scalar value can need. -/
def debugStr (value : String) : String :=
  let escape (c : Char) : List Char :=
    if c = '"' ∨ c = '\\' then ['\\', c]
    else if c = '\n' then ['\\', 'n']
    else if c = '\r' then ['\\', 'r']
    else if c = '\t' then ['\\', 't']
    else if c.toNat = 0 then ['\\', '0']
    else if isControl c then "\\u".toList ++ Char.ofNat 0x7B :: Nat.toDigits 16 c.toNat ++ [Char.ofNat 0x7D]
    else [c]
  String.ofList ('"' :: value.toList.flatMap escape ++ ['"'])

/-- Numeric Linux kernel version used for profile range comparisons. -/
structure KernelVersion where
  major : ℕ
  minor : ℕ
  patch : ℕ
  deriving DecidableEq, Repr

/-- The derived order: lexicographic on the three components. -/
def KernelVersion.key (v : KernelVersion) : ℕ ×ₗ ℕ ×ₗ ℕ := toLex (v.major, toLex (v.minor, v.patch))

instance : LT KernelVersion := ⟨fun a b => a.key < b.key⟩
instance : LE KernelVersion := ⟨fun a b => a.key ≤ b.key⟩
instance (a b : KernelVersion) : Decidable (a < b) := inferInstanceAs (Decidable (a.key < b.key))
instance (a b : KernelVersion) : Decidable (a ≤ b) := inferInstanceAs (Decidable (a.key ≤ b.key))

def invalidKernel (value : String) : SchemaError :=
  ⟨"PROFILE_FIELD_INVALID", "invalid kernel release " ++ debugStr value⟩

/-- The numeric part and the suffix after the first `-`, which must not be empty. -/
def splitSuffix (value : String) : Except SchemaError (String × Option String) :=
  match splitOnce '-' value with
  | some (numeric, suffix) =>
    if suffix ≠ "" then .ok (numeric, some suffix) else .error (invalidKernel value)
  | none => .ok (value, none)

/-- Parses `major.minor.patch` with an optional nonempty `-` suffix. -/
def KernelVersion.parseRelease (value : String) : Except SchemaError KernelVersion := do
  refuse (value = "" ∨ trim value ≠ value) (invalidKernel value)
  let (numeric, suffix) ← splitSuffix value
  refuse (suffix.any fun s => s.toList.any isWhitespace) (invalidKernel value)
  let components := split '.' numeric
  refuse (components.length ≠ 3 ∨ components.any (fun c => !isDigits c)) (invalidKernel value)
  let parse (i : ℕ) := need (parseUnsigned 64 (components.getD i "")) (invalidKernel value)
  return { major := ← parse 0, minor := ← parse 1, patch := ← parse 2 }

example : (KernelVersion.parseRelease "6.12.9-200.fc41").toOption = some ⟨6, 12, 9⟩ := by decide

end NpuStack.Schema
