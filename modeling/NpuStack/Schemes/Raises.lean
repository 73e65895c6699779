import NpuStack.Schemes.Interaction

/-! What a fallible computation may raise.

        x ──ok──▶ f a ──error e──▶ e          every error of x >>= f is one of x or of f
        └─error e──▶ e

    A class of errors closes a computation when all of its errors are in it. The rules follow the
    computation's shape. -/

namespace Interaction

variable {ε ε' α β : Type} {P : ε → Prop}

/-- Every error of the computation is in the class. -/
def Raises (P : ε → Prop) (x : Except ε α) : Prop := ∀ e, x = .error e → P e

@[simp] theorem raises_ok {a : α} : Raises P (.ok a : Except ε α) := nofun

@[simp] theorem raises_pure {a : α} : Raises P (pure a : Except ε α) := nofun

@[simp] theorem raises_error {e : ε} : Raises P (.error e : Except ε α) ↔ P e := by
  simp [Raises]

theorem Raises.mono {P' : ε → Prop} {x : Except ε α} (h : Raises P x) (hP : ∀ e, P e → P' e) : Raises P' x :=
  fun e he => hP e (h e he)

theorem raises_bind_iff {x : Except ε α} {f : α → Except ε β} :
    Raises P (x >>= f) ↔ Raises P x ∧ ∀ a, x = .ok a → Raises P (f a) := by
  cases x with
  | error e =>
    refine ⟨fun h => ⟨raises_error.mpr (raises_error.mp h), nofun⟩, fun h => ?_⟩
    exact raises_error.mpr (raises_error.mp h.1)
  | ok a =>
    refine ⟨fun h => ⟨raises_ok, fun b hb => ?_⟩, fun h => h.2 a rfl⟩
    cases hb
    exact h

theorem raises_bind {x : Except ε α} {f : α → Except ε β} (hx : Raises P x)
    (hf : ∀ a, x = .ok a → Raises P (f a)) :
    Raises P (x >>= f) := raises_bind_iff.mpr ⟨hx, hf⟩

@[simp] theorem raises_require {good : Prop} [Decidable good] {e : ε} :
    Raises P (require good e) ↔ (¬good → P e) := by
  by_cases h : good <;> simp [require, h]

@[simp] theorem raises_refuse {bad : Prop} [Decidable bad] {e : ε} : Raises P (refuse bad e) ↔ (bad → P e) := by
  by_cases h : bad <;> simp [refuse, h]

@[simp] theorem raises_need {o : Option α} {e : ε} : Raises P (need o e) ↔ (o = none → P e) := by
  cases o <;> simp [need]

@[simp] theorem raises_okOr {r : Except ε' α} {e : ε} : Raises P (okOr r e) ↔ ((∃ e', r = .error e') → P e) := by
  cases r <;> simp [okOr]

theorem raises_forM {f : α → Except ε Unit} {xs : List α} (h : ∀ x ∈ xs, Raises P (f x)) :
    Raises P (forM xs f) := by
  induction xs with
  | nil => exact raises_pure
  | cons x xs ih =>
    obtain ⟨hx, hxs⟩ := List.forall_mem_cons.mp h
    rw [List.forM_cons]
    exact raises_bind hx fun _ _ => ih hxs

end Interaction
