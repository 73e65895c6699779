import NpuStack.Schemes.Server

/-! What a program does to the state of its server, also where it fails. `p.Ensures Step J s P`:
    served from `s`, every later state satisfies `J`, and the result and the last state, whichever
    they are, satisfy `P`.

        p.attempt  ──▶ P of the failure is where the clean-up starts
        p >>= f    ──▶ P of a value is what `f` is served from

    It is read off whole runs (`Ensures.run`) and cut ones (`Ensures.cut`). `p.Reaches Step s r s'`
    is the other side: some run of `p` from `s` ends with `r` in `s'`. -/

namespace Interaction.Prog

variable {Q : Type} {A : Q → Type} {ε ε' α β σ : Type}

theorem error_ne_ok {e : ε} {a : α} : (Except.error e : Except ε α) ≠ .ok a := fun h => by cases h

theorem refused_ne_ok {e : ε} {u : Unit} : require (false = true) e ≠ .ok u := by simp [require]

theorem admitted_ne_error {e e' : ε} : require (true = true) e ≠ .error e' := by simp [require]

/-- What is said of both ends of a program, where it failed. -/
theorem of_error {e : ε} {a : α} {P : Prop} {R : ε → Prop} (h : R e) :
    ((Except.error e : Except ε α) = .ok a → P) ∧
      ∀ e', (Except.error e : Except ε α) = .error e' → R e' :=
  ⟨fun habs => absurd habs error_ne_ok, fun _ heq => Except.error.inj heq ▸ h⟩

section
variable (Step : σ → Event A → σ → Prop) (J : σ → Prop)

def Ensures : Prog A ε α → σ → (Except ε α → σ → Prop) → Prop
  | done r, s, P => P r s
  | ask q next, s, P => ∀ a s', Step s ⟨q, a⟩ s' → J s' ∧ (next a).Ensures s' P

variable {Step J} {s s' : σ} {P P' : Except ε α → σ → Prop}

theorem Ensures.mono : ∀ {p : Prog A ε α} {s : σ}, p.Ensures Step J s P →
    (∀ r s', P r s' → P' r s') → p.Ensures Step J s P'
  | done _, _, h, hP => hP _ _ h
  | ask _ _, _, h, hP => fun a s' hstep => ⟨(h a s' hstep).1, (h a s' hstep).2.mono hP⟩

theorem ensures_bind {f : α → Prog A ε β} {P : Except ε β → σ → Prop} : ∀ {p : Prog A ε α} {s : σ},
    p.Ensures Step J s (fun r s' => (∀ a, r = .ok a → (f a).Ensures Step J s' P) ∧ ∀ e,
      r = .error e → P (.error e) s') →
    (p >>= f).Ensures Step J s P
  | done (.ok a), _, h => h.1 a rfl
  | done (.error e), _, h => h.2 e rfl
  | ask _ _, _, h => fun a s' hstep => ⟨(h a s' hstep).1, ensures_bind (h a s' hstep).2⟩

theorem ensures_lift {x : Except ε α} (h : P x s) : (liftM x : Prog A ε α).Ensures Step J s P := h

theorem ensures_lift_bind {x : Except ε α} {f : α → Prog A ε β} {P : Except ε β → σ → Prop}
    (hok : ∀ a, x = .ok a → (f a).Ensures Step J s P)
    (herror : ∀ e, x = .error e → P (.error e) s) :
    ((liftM x : Prog A ε α) >>= f).Ensures Step J s P := ensures_bind ⟨hok, herror⟩

theorem ensures_expect {q : Q} {judge : A q → Except ε α}
    (h : ∀ a s', Step s ⟨q, a⟩ s' → J s' ∧ P (judge a) s') :
    (expect q judge).Ensures Step J s P := h

theorem ensures_attempt {P : Except ε' (Except ε α) → σ → Prop} : ∀ {p : Prog A ε α} {s : σ},
    p.Ensures Step J s (fun r s' => P (.ok r) s') →
      (p.attempt : Prog A ε' (Except ε α)).Ensures Step J s P
  | done _, _, h => h
  | ask _ _, _, h => fun a s' hstep => ⟨(h a s' hstep).1, ensures_attempt (h a s' hstep).2⟩

theorem ensures_mapError {g : ε → ε'} {P : Except ε' α → σ → Prop} : ∀ {p : Prog A ε α} {s : σ},
    p.Ensures Step J s (fun r s' => P (r.mapError g) s') → (p.mapError g).Ensures Step J s P
  | done (.ok _), _, h => h
  | done (.error _), _, h => h
  | ask _ _, _, h => fun a s' hstep => ⟨(h a s' hstep).1, ensures_mapError (h a s' hstep).2⟩

section
variable {f : α → Prog A ε Unit} {all : List α} {I : List α → σ → Prop}
  {P : Except ε Unit → σ → Prop}
  (step : ∀ seen x rest s, all = seen ++ x :: rest → I seen s → (f x).Ensures Step J s fun r s' =>
    (r = .ok () → I (seen ++ [x]) s') ∧ ∀ e, r = .error e → P (.error e) s')
  (hend : ∀ s, I all s → P (.ok ()) s)
include step hend

theorem ensures_forM_rest : ∀ {xs seen : List α} {s : σ}, all = seen ++ xs → I seen s →
    (forM xs f).Ensures Step J s P
  | [], seen, s, hall, hI => by
    rw [List.append_nil] at hall
    exact hend s (hall ▸ hI)
  | x :: xs, seen, s, hall, hI => by
    rw [List.forM_cons]
    refine ensures_bind ((step seen x xs s hall hI).mono fun r s' h => ⟨fun u hu => ?_, h.2⟩)
    exact ensures_forM_rest (by simpa using hall) (h.1 hu)

end

/-- A loop that keeps an invariant of the items gone through, and whose failures are in `P`. -/
theorem ensures_forM {f : α → Prog A ε Unit} {all : List α} (I : List α → σ → Prop)
    {P : Except ε Unit → σ → Prop} (start : I [] s)
    (step : ∀ seen x rest s, all = seen ++ x :: rest → I seen s →
      (f x).Ensures Step J s fun r s' =>
        (r = .ok () → I (seen ++ [x]) s') ∧ ∀ e, r = .error e → P (.error e) s')
    (hend : ∀ s, I all s → P (.ok ()) s) : (forM all f).Ensures Step J s P :=
  ensures_forM_rest step hend rfl start

/-- A whole run ends in `P`. -/
theorem Ensures.run : ∀ {p : Prog A ε α} {t : List (Event A)} {s s' : σ} {r : Except ε α},
    p.Ensures Step J s P → Runs p t r → Steps Step s t s' → P r s'
  | _, _, _, _, _, h, .done _, .nil _ => h
  | _, _, _, _, _, h, .ask _ hrun, .cons hstep hsteps => (h _ _ hstep).2.run hrun hsteps

/-- Wherever a run is cut, the state satisfies `J`. -/
theorem Ensures.cut : ∀ {p : Prog A ε α} {t : List (Event A)} {s s' : σ}, p.Ensures Step J s P →
    J s → Cut p t → Steps Step s t s' → J s'
  | _, _, _, _, _, hJ, .here _, .nil _ => hJ
  | _, _, _, _, h, _, .ask _ hcut, .cons hstep hsteps =>
    (h _ _ hstep).2.cut (h _ _ hstep).1 hcut hsteps

end

/-- Steps whose events have a property are steps of the server that has it throughout. -/
theorem steps_restrict {Step : σ → Event A → σ → Prop} (Good : Event A → Prop) :
    ∀ {t : List (Event A)} {s s' : σ},
    Steps Step s t s' → (∀ e ∈ t, Good e) → Steps (fun s e s' => Step s e s' ∧ Good e) s t s'
  | [], _, _, .nil s, _ => .nil s
  | _ :: _, _, _, .cons hstep hsteps, h =>
    .cons ⟨hstep, h _ List.mem_cons_self⟩ (steps_restrict Good hsteps fun e he =>
      h e (List.mem_cons_of_mem _ he))

/-! ### What can happen -/

section
variable {Step : σ → Event A → σ → Prop} {s s' s'' : σ}

theorem steps_append {t t' : List (Event A)} (h : Steps Step s t s') (h' : Steps Step s' t' s'') :
    Steps Step s (t ++ t') s'' := by
  induction h with
  | nil => exact h'
  | cons hstep _ ih => exact .cons hstep (ih h')

variable (Step) in
def Reaches (p : Prog A ε α) (s : σ) (r : Except ε α) (s' : σ) : Prop :=
  ∃ t, Runs p t r ∧ Steps Step s t s'

theorem reaches_done (r : Except ε α) : (done r : Prog A ε α).Reaches Step s r s :=
  ⟨[], .done r, .nil s⟩

theorem reaches_bind {p : Prog A ε α} {f : α → Prog A ε β} {a : α} {r : Except ε β}
    (h : p.Reaches Step s (.ok a) s') (hf : (f a).Reaches Step s' r s'') :
    (p >>= f).Reaches Step s r s'' := by
  obtain ⟨t, hrun, hsteps⟩ := h
  obtain ⟨t', hrun', hsteps'⟩ := hf
  exact ⟨t ++ t', runs_bind.mpr (.inr ⟨a, t, t', rfl, hrun, hrun'⟩), steps_append hsteps hsteps'⟩

theorem reaches_lift {x : Except ε α} {r : Except ε α} (hx : x = r) :
    (liftM x : Prog A ε α).Reaches Step s r s :=
  ⟨[], runs_lift.mpr ⟨rfl, hx⟩, .nil s⟩

theorem reaches_lift_bind {x : Except ε α} {f : α → Prog A ε β} {a : α} {r : Except ε β}
    (hx : x = .ok a) (hf : (f a).Reaches Step s r s') :
    ((liftM x : Prog A ε α) >>= f).Reaches Step s r s' :=
  reaches_bind (reaches_lift hx) hf

theorem reaches_expect {q : Q} {judge : A q → Except ε α} {a : A q} {r : Except ε α}
    (hstep : Step s ⟨q, a⟩ s') (ha : judge a = r) : (expect q judge).Reaches Step s r s' :=
  ⟨[⟨q, a⟩], runs_expect.mpr ⟨a, rfl, ha⟩, .cons hstep (.nil _)⟩

theorem reaches_expect_bind {q : Q} {judge : A q → Except ε α} {f : α → Prog A ε β} {a : A q}
    {b : α} {r : Except ε β}
    (hstep : Step s ⟨q, a⟩ s') (ha : judge a = .ok b) (hf : (f b).Reaches Step s' r s'') :
    (expect q judge >>= f).Reaches Step s r s'' := reaches_bind (reaches_expect hstep ha) hf

theorem Reaches.attempt {p : Prog A ε α} {r : Except ε α} (h : p.Reaches Step s r s') :
    (p.attempt : Prog A ε' (Except ε α)).Reaches Step s (.ok r) s' := by
  obtain ⟨t, hrun, hsteps⟩ := h
  exact ⟨t, runs_attempt.mpr ⟨r, hrun, rfl⟩, hsteps⟩

theorem Reaches.mapError {p : Prog A ε α} {a : α} (h : p.Reaches Step s (.ok a) s') (g : ε → ε') :
    (p.mapError g).Reaches Step s (.ok a) s' := by
  obtain ⟨t, hrun, hsteps⟩ := h
  exact ⟨t, runs_mapError.mpr ⟨.ok a, hrun, rfl⟩, hsteps⟩

/-- A loop each round of which can leave the state as it is. -/
theorem reaches_forM {f : α → Prog A ε Unit} :
    ∀ {xs : List α}, (∀ x ∈ xs, (f x).Reaches Step s (.ok ()) s) →
    (forM xs f).Reaches Step s (.ok ()) s
  | [], _ => reaches_done _
  | x :: xs, h => by
    rw [List.forM_cons]
    exact reaches_bind (h x List.mem_cons_self) (reaches_forM fun y hy =>
      h y (List.mem_cons_of_mem x hy))

end

end Interaction.Prog
