import NpuStack.Schemes.Returns

/-! A program that calls an interface, and an implementation that answers each call by a program of
    its own.

        ask c₁ ──a₁──▶ ask c₂ ──a₂──▶ …        calls and replies
          └─ run of h c₁ ─┘└─ run of h c₂ ─┘   what the implementation asks instead

    Handling keeps sequencing (`handle_bind`). Where every call is answered, a run of the implemented
    program is a run of the calls, each replaced by the run that answered it (`returns_handle`). -/

namespace Interaction.Prog

variable {Q Q' : Type} {A : Q → Type} {A' : Q' → Type} {ε α β : Type}

/-- Answer every call by a program. -/
def handle (h : ∀ q, Prog A' ε (A q)) : Prog A ε α → Prog A' ε α
  | done r => done r
  | ask q next => h q >>= fun a => (next a).handle h

variable {h : ∀ q, Prog A' ε (A q)}

@[simp] theorem handle_pure (a : α) : (pure a : Prog A ε α).handle h = pure a := rfl

@[simp] theorem handle_query (q : Q) : (query q : Prog A ε (A q)).handle h = h q :=
  bind_pure (h q)

theorem handle_bind {p : Prog A ε α} {f : α → Prog A ε β} :
    (p >>= f).handle h = p.handle h >>= fun a => (f a).handle h := by
  induction p with
  | done r => cases r <;> rfl
  | ask q next ih =>
    rw [bind_ask, handle, handle, bind_assoc]
    exact congrArg (h q >>= ·) (funext ih)

/-- A handler by a handler is one handler. -/
theorem handle_handle {Q'' : Type} {A'' : Q'' → Type} {h' : ∀ q, Prog A'' ε (A' q)} {p : Prog A ε α} :
    (p.handle h).handle h' = p.handle fun q => (h q).handle h' := by
  induction p with
  | done r => rfl
  | ask q next ih =>
    rw [handle, handle, handle_bind]
    exact congrArg ((h q).handle h' >>= ·) (funext ih)

/-- Asking every question as it is changes nothing. -/
theorem handle_ask {p : Prog A ε α} : (p.handle fun q => query q) = p := by
  induction p with
  | done r => rfl
  | ask q next ih => exact congrArg (ask q) (funext ih)

/-! ### Runs of an implementation -/

/-- The second trace is made of runs that answer the calls of the first, in order. -/
inductive Implements (h : ∀ q, Prog A' ε (A q)) : List (Event A) → List (Event A') → Prop
  | nil : Implements h [] []
  | cons {q : Q} {a : A q} {s t' : List (Event A')} {t : List (Event A)} :
      Runs (h q) s (.ok a) → Implements h t t' → Implements h (⟨q, a⟩ :: t) (s ++ t')

/-- What the answered calls may ask, the whole trace may. -/
theorem Implements.asks {R : Q' → Prop} {t : List (Event A)} {t' : List (Event A')}
    (himpl : Implements h t t') (hR : ∀ e ∈ t, (h e.question).Asks R) : ∀ e ∈ t', R e.question := by
  induction himpl with
  | nil =>
    intro e he
    cases he
  | cons hrun _ ih =>
    obtain ⟨hfirst, hrest⟩ := List.forall_mem_cons.mp hR
    exact List.forall_mem_append.mpr ⟨runs_asks hfirst hrun, ih hrest⟩

/-- What a returning program returns, it returns by a run. -/
theorem Returns.and_runs : ∀ {p : Prog A ε α} {P : List (Event A) → α → Prop}, p.Returns P →
    p.Returns fun t a => Runs p t (.ok a) ∧ P t a
  | done (.ok _), _, hp => ⟨.done _, hp⟩
  | done (.error _), _, hp => hp
  | ask _ _, _, hp => fun a => (hp a).and_runs.mono fun _ _ ⟨hrun, hP⟩ => ⟨.ask a hrun, hP⟩

theorem Returns.and_yields {p : Prog A ε α} {P : List (Event A) → α → Prop} {P' : α → Prop}
    (hp : p.Returns P) (hyields : p.Yields P') : p.Returns fun t a => P t a ∧ P' a :=
  hp.and_runs.mono fun t a ⟨hrun, hP⟩ => ⟨hP, hyields t a hrun⟩

/-- Where every call is answered, the implemented program returns as the program does. -/
theorem returns_handle (hh : ∀ q, (h q).Returns fun _ _ => True) {p : Prog A ε α} :
    ∀ {P : List (Event A) → α → Prop}, p.Returns P →
      (p.handle h).Returns fun t' a => ∃ t, Implements h t t' ∧ P t a := by
  induction p with
  | done r =>
    intro P hp
    cases r with
    | ok a => exact ⟨[], .nil, hp⟩
    | error e => exact hp
  | ask q next ih =>
    intro P hp
    rw [handle, returns_bind]
    refine (hh q).and_runs.mono fun s a ⟨hrun, _⟩ => ?_
    refine (ih a (hp a)).mono ?_
    rintro t' b ⟨t, himpl, hP⟩
    exact ⟨⟨q, a⟩ :: t, .cons hrun himpl, hP⟩

end Interaction.Prog
