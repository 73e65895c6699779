import NpuStack.Schemes.Interaction

/-! What every run of a program returns. `Returns p Q` says that however its questions are answered
    `p` ends with a value, never an error, and that the trace and the value satisfy `Q`.

        Returns (p >>= f) Q  ↔  Returns p fun t a => Returns (f a) fun t' b => Q (t ++ t') b

    It is proved along the program text, and read off any run (`returns_runs`). `Yields p P` is the
    partial form: what `p` ends with, if it ends with a value, satisfies `P`. `Meets p C P` asks only of
    the runs whose traces are in `C` that they end with a value in `P`. -/

namespace Interaction.Prog

variable {Q : Type} {A : Q → Type} {ε α β : Type}

/-- Every run ends with a value, and trace and value satisfy `P`. -/
def Returns : Prog A ε α → (List (Event A) → α → Prop) → Prop
  | done (.ok a), P => P [] a
  | done (.error _), _ => False
  | ask q next, P => ∀ a, (next a).Returns fun t b => P (⟨q, a⟩ :: t) b

variable {P P' : List (Event A) → α → Prop}

@[simp] theorem returns_pure {a : α} : (pure a : Prog A ε α).Returns P ↔ P [] a := Iff.rfl

@[simp] theorem returns_lift_ok {a : α} :
    (liftM (Except.ok a : Except ε α) : Prog A ε α).Returns P ↔ P [] a := Iff.rfl

@[simp] theorem returns_query {q : Q} {P : List (Event A) → A q → Prop} :
    (query q : Prog A ε (A q)).Returns P ↔ ∀ a, P [⟨q, a⟩] a := Iff.rfl

@[simp] theorem returns_bind {f : α → Prog A ε β} : ∀ {p : Prog A ε α}
    {P : List (Event A) → β → Prop},
    (p >>= f).Returns P ↔ p.Returns fun t a => (f a).Returns fun t' b => P (t ++ t') b
  | done (.ok _), _ => Iff.rfl
  | done (.error _), _ => Iff.rfl
  | ask q next, P => by
    rw [bind_ask, Returns, Returns]
    exact forall_congr' fun a => returns_bind

theorem Returns.mono : ∀ {p : Prog A ε α} {P P' : List (Event A) → α → Prop}, p.Returns P →
    (∀ t a, P t a → P' t a) → p.Returns P'
  | done (.ok _), _, _, h, hP => hP _ _ h
  | done (.error _), _, _, h, _ => h
  | ask _ _, _, _, h, hP => fun a => (h a).mono fun _ _ => hP _ _

/-- A run of the program ends with a value as stated. -/
theorem returns_runs : ∀ {p : Prog A ε α} {P : List (Event A) → α → Prop} {t : List (Event A)}
    {r : Except ε α}, p.Returns P → Runs p t r → ∃ a, r = .ok a ∧ P t a
  | done (.ok a), _, _, _, h, .done _ => ⟨a, rfl, h⟩
  | ask _ _, _, _, _, h, .ask a hrun => by
    have hrest := returns_runs (h a) hrun
    exact hrest

/-! ### Questions asked and value returned -/

/-- Every run asks only questions in `R` and ends with a value in `P`. -/
def Gives (p : Prog A ε α) (R : Q → Prop) (P : α → Prop) : Prop :=
  p.Returns fun t a => (∀ e ∈ t, R e.question) ∧ P a

variable {R : Q → Prop}

theorem gives_pure {P : α → Prop} {a : α} (h : P a) : (pure a : Prog A ε α).Gives R P := ⟨by simp, h⟩

theorem gives_query {q : Q} {P : A q → Prop} (hq : R q) (h : ∀ a, P a) :
    (query q : Prog A ε (A q)).Gives R P := fun a => ⟨by simpa using hq, h a⟩

theorem gives_lift {r : Except ε α} {P : α → Prop} {a : α} (hr : r = .ok a) (h : P a) :
    (liftM r : Prog A ε α).Gives R P := by
  subst hr
  exact ⟨by simp, h⟩

theorem gives_bind {p : Prog A ε α} {f : α → Prog A ε β} {P : α → Prop} {P' : β → Prop}
    (hp : p.Gives R P) (hf : ∀ a, P a → (f a).Gives R P') : (p >>= f).Gives R P' := by
  rw [Gives, returns_bind]
  refine Returns.mono hp fun t a ⟨ht, ha⟩ => Returns.mono (hf a ha) fun t' b ⟨ht', hb⟩ => ⟨?_, hb⟩
  exact List.forall_mem_append.mpr ⟨ht, ht'⟩

/-- Ask and go on, whatever the answer. -/
theorem gives_query_bind {q : Q} {f : A q → Prog A ε β} {P' : β → Prop} (hq : R q)
    (hf : ∀ a, (f a).Gives R P') : (query q >>= f).Gives R P' :=
  gives_bind (gives_query hq fun _ => trivial) fun a _ => hf a

theorem Gives.mono {p : Prog A ε α} {R' : Q → Prop} {P P' : α → Prop} (h : p.Gives R P)
    (hR : ∀ q, R q → R' q) (hP : ∀ a, P a → P' a) : p.Gives R' P' :=
  Returns.mono h fun _ a ⟨ht, ha⟩ => ⟨fun e he => hR _ (ht e he), hP a ha⟩

/-- An invariant of the accumulator that every step keeps holds of what a fold returns. -/
theorem gives_foldlM {f : β → α → Prog A ε β} (I : List α → β → Prop) : ∀ {xs s : List α} {b : β},
    (∀ seen x b, x ∈ xs → I seen b → (f b x).Gives R fun b' => I (seen ++ [x]) b') → I s b →
    (xs.foldlM f b).Gives R fun b' => I (s ++ xs) b'
  | [], seen, b, _, hI => ⟨by simp, by simpa using hI⟩
  | x :: xs, seen, b, step, hI => by
    rw [List.foldlM_cons]
    refine gives_bind (step seen x b (by simp) hI) fun b' hb' => ?_
    have hrest : (xs.foldlM f b').Gives R fun b'' => I (seen ++ [x] ++ xs) b'' :=
      gives_foldlM I (fun s y c hy => step s y c (List.mem_cons_of_mem _ hy)) hb'
    simpa only [List.append_assoc, List.singleton_append] using hrest

/-- A map gives the results of its elements, in order. -/
theorem gives_mapM {f : α → Prog A ε β} (S : α → β → Prop) : ∀ {xs : List α},
    (∀ x ∈ xs, (f x).Gives R (S x)) → (xs.mapM f).Gives R (List.Forall₂ S xs)
  | [], _ => gives_pure .nil
  | x :: xs, h => by
    rw [List.mapM_cons]
    refine gives_bind (h x (by simp)) fun y hy => ?_
    refine gives_bind (gives_mapM S fun z hz => h z (List.mem_cons_of_mem _ hz)) fun ys hys => ?_
    exact gives_pure (.cons hy hys)

/-! ### Values alone -/

/-- Every value a run ends with satisfies `P`. -/
def Yields (p : Prog A ε α) (P : α → Prop) : Prop := ∀ t a, Runs p t (.ok a) → P a

theorem yields_true {p : Prog A ε α} : p.Yields fun _ => True := fun _ _ _ => trivial

theorem yields_pure {P : α → Prop} {a : α} (h : P a) : (pure a : Prog A ε α).Yields P := by
  intro t b hrun
  obtain ⟨-, rfl⟩ := by simpa using hrun
  exact h

theorem yields_bind {p : Prog A ε α} {f : α → Prog A ε β} {P : α → Prop} {P' : β → Prop}
    (hp : p.Yields P) (hf : ∀ a, P a → (f a).Yields P') : (p >>= f).Yields P' := by
  intro t b hrun
  obtain ⟨a, t₁, t₂, -, ha, hb⟩ := runs_bind_ok.mp hrun
  exact hf a (hp t₁ a ha) t₂ b hb

/-- Go on, whatever the first part returns. -/
theorem yields_any_bind {p : Prog A ε α} {f : α → Prog A ε β} {P' : β → Prop}
    (hf : ∀ a, (f a).Yields P') : (p >>= f).Yields P' :=
  yields_bind yields_true fun a _ => hf a

theorem Yields.mono {p : Prog A ε α} {P P' : α → Prop} (h : p.Yields P) (hP : ∀ a, P a → P' a) :
    p.Yields P' := fun t a hrun => hP a (h t a hrun)

/-- An invariant of the accumulator that every step keeps holds of what a fold ends with. -/
theorem yields_foldlM {f : β → α → Prog A ε β} {I : β → Prop} {xs : List α}
    (step : ∀ b x, x ∈ xs → I b → (f b x).Yields I) : ∀ {b : β}, I b → (xs.foldlM f b).Yields I := by
  induction xs with
  | nil =>
    intro b hI
    exact yields_pure hI
  | cons x xs ih =>
    intro b hI
    rw [List.foldlM_cons]
    refine yields_bind (step b x (by simp) hI) fun b' hI' => ?_
    exact ih (fun c y hy => step c y (List.mem_cons_of_mem _ hy)) hI'

/-! ### Values under given answers -/

/-- However its questions are answered within `C`, `p` ends with a value in `P`. -/
def Meets (p : Prog A ε α) (C : List (Event A) → Prop) (P : α → Prop) : Prop :=
  ∀ t r, Runs p t r → C t → ∃ a, r = .ok a ∧ P a

/-- The parts of a trace in `C` are in `C`. -/
def Splits (C : List (Event A) → Prop) : Prop := ∀ t t', C (t ++ t') → C t ∧ C t'

variable {C : List (Event A) → Prop}

theorem meets_pure {P : α → Prop} {a : α} (h : P a) : (pure a : Prog A ε α).Meets C P := by
  intro t r hrun _
  exact ⟨a, (runs_pure.mp hrun).2.symm, h⟩

theorem meets_lift {r : Except ε α} {P : α → Prop} {a : α} (hr : r = .ok a) (h : P a) :
    (liftM r : Prog A ε α).Meets C P := by
  subst hr
  exact meets_pure h

theorem meets_bind {p : Prog A ε α} {f : α → Prog A ε β} {P : α → Prop} {P' : β → Prop}
    (hC : Splits C) (hp : p.Meets C P) (hf : ∀ a, P a → (f a).Meets C P') : (p >>= f).Meets C P' := by
  intro t r hrun ht
  rcases runs_bind.mp hrun with ⟨e, -, herror⟩ | ⟨a, t₁, t₂, rfl, ha, hb⟩
  · obtain ⟨a, habs, -⟩ := hp _ _ herror ht
    cases habs
  · obtain ⟨ht₁, ht₂⟩ := hC _ _ ht
    obtain ⟨a', heq, ha'⟩ := hp _ _ ha ht₁
    obtain rfl := Except.ok.inj heq
    exact hf a ha' _ _ hb ht₂

theorem Meets.mono {p : Prog A ε α} {P P' : α → Prop} (h : p.Meets C P) (hP : ∀ a, P a → P' a) :
    p.Meets C P' := by
  intro t r hrun ht
  obtain ⟨a, hr, ha⟩ := h t r hrun ht
  exact ⟨a, hr, hP a ha⟩

theorem meets_mapM {f : α → Prog A ε β} {S : α → β → Prop} {xs : List α} (hC : Splits C)
    (h : ∀ x ∈ xs, (f x).Meets C (S x)) : (xs.mapM f).Meets C (List.Forall₂ S xs) := by
  induction xs with
  | nil => exact meets_pure .nil
  | cons x xs ih =>
    obtain ⟨hx, hxs⟩ := List.forall_mem_cons.mp h
    rw [List.mapM_cons]
    refine meets_bind hC hx fun y hy => meets_bind hC (ih hxs) fun ys hys => ?_
    exact meets_pure (.cons hy hys)

/-- An invariant of what was folded and the accumulator, kept by every step. -/
theorem meets_foldlM {f : β → α → Prog A ε β} (hC : Splits C) {I : List α → β → Prop}
    {xs s : List α} {b : β}
    (step : ∀ seen x b, x ∈ xs → I seen b → (f b x).Meets C (I (seen ++ [x]))) (hI : I s b) :
    (xs.foldlM f b).Meets C (I (s ++ xs)) := by
  induction xs generalizing s b with
  | nil => exact meets_pure (by rwa [List.append_nil])
  | cons x xs ih =>
    rw [List.foldlM_cons]
    refine meets_bind hC (step s x b (by simp) hI) fun b' hb' => ?_
    have hrest := ih (fun seen y c hy => step seen y c (List.mem_cons_of_mem _ hy)) hb'
    rwa [List.append_assoc, List.singleton_append] at hrest

/-- Answers that never change give a run, whose trace holds no other answer. -/
theorem runs_eval_answers (answers : ∀ q, A q) (p : Prog A ε α) : ∃ t, Runs p t (p.eval answers) ∧
    ∀ e ∈ t, e.answer = answers e.question := by
  induction p with
  | done r => exact ⟨[], .done r, by simp⟩
  | ask q next ih =>
    obtain ⟨t, hrun, ht⟩ := ih (answers q)
    exact ⟨⟨q, answers q⟩ :: t, .ask _ hrun, List.forall_mem_cons.mpr ⟨rfl, ht⟩⟩

end Interaction.Prog
