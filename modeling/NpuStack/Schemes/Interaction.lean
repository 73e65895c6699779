import Mathlib.Data.List.Basic
import Mathlib.Data.List.Forall2
import Mathlib.Data.List.Infix

/-! A program that talks to an environment is a tree: it either ends with a result, or asks one
    question and goes on with the answer. `Runs p t r` says that `p` may ask and be answered as the
    trace `t` records and then end with `r`. A question may get any answer of its type, so a
    statement about every run covers every behaviour of every process, file and terminal the program
    reads, including ones that change their mind between two questions.

        ask q₁ ──a₁──▶ ask q₂ ──a₂──▶ … ──▶ done (ok result | error e)
              t = [⟨q₁, a₁⟩, ⟨q₂, a₂⟩, …]

    A run of `p >>= f` is a run of `p`, then one of `f` (`runs_bind`); an event `p` cannot cause
    only happens once `p` has succeeded (`runs_bind_guard`). `run` computes the run an environment
    determines, and `eval` the result under answers that never change. -/

namespace Interaction

/-- A question put to the environment, with the answer it gave. -/
structure Event {Q : Type} (A : Q → Type) where
  question : Q
  answer : A question

/-- A program asking questions `Q` with answers `A`, ending with an `α` or an error `ε`. -/
inductive Prog {Q : Type} (A : Q → Type) (ε α : Type) where
  | done (result : Except ε α)
  | ask (q : Q) (next : A q → Prog A ε α)

namespace Prog

variable {Q : Type} {A : Q → Type} {ε ε' α β γ : Type}

/-- Sequencing: an error of the first program ends the whole. -/
def bind : Prog A ε α → (α → Prog A ε β) → Prog A ε β
  | done (.ok a), f => f a
  | done (.error e), _ => done (.error e)
  | ask q next, f => ask q fun a => (next a).bind f

instance : Monad (Prog A ε) where
  pure a := done (.ok a)
  bind := bind

instance : MonadLift (Except ε) (Prog A ε) := ⟨done⟩

/-- End with an error. -/
def fail (e : ε) : Prog A ε α := done (.error e)

/-- Ask one question and return its answer. -/
def query (q : Q) : Prog A ε (A q) := ask q fun a => done (.ok a)

/-- Ask one question and judge its answer. -/
def expect (q : Q) (judge : A q → Except ε α) : Prog A ε α := ask q fun a => done (judge a)

/-- Rewrite the error a program ends with (`map_err`). -/
def mapError (f : ε → ε') : Prog A ε α → Prog A ε' α
  | done (.ok a) => done (.ok a)
  | done (.error e) => done (.error (f e))
  | ask q next => ask q fun a => (next a).mapError f

/-- Run a program to its end and hand over the result, error or not (`match p { … }`). -/
def attempt : Prog A ε α → Prog A ε' (Except ε α)
  | done r => done (.ok r)
  | ask q next => ask q fun a => (next a).attempt

theorem bind_done_ok (f : α → Prog A ε β) (a : α) : (done (.ok a) : Prog A ε α) >>= f = f a := rfl

theorem lift_ok_bind (f : α → Prog A ε β) (a : α) :
    (liftM (Except.ok a : Except ε α) : Prog A ε α) >>= f = f a := rfl

theorem lift_error_bind (f : α → Prog A ε β) (e : ε) :
    (liftM (Except.error e : Except ε α) : Prog A ε α) >>= f = fail e := rfl

theorem expect_bind (q : Q) (judge : A q → Except ε α) (f : α → Prog A ε β) :
    expect q judge >>= f = ask q fun a => (liftM (judge a) : Prog A ε α) >>= f := rfl

theorem bind_ask (q : Q) (next : A q → Prog A ε α) (f : α → Prog A ε β) :
    ask q next >>= f = ask q fun a => next a >>= f := rfl

theorem bind_pure' : ∀ p : Prog A ε α, p >>= (fun a => done (.ok a)) = p
  | done (.ok _) => rfl
  | done (.error _) => rfl
  | ask q next => by
    rw [bind_ask]
    exact congrArg (ask q) (funext fun a => bind_pure' (next a))

theorem bind_assoc' : ∀ (p : Prog A ε α) (f : α → Prog A ε β) (g : β → Prog A ε γ),
    p >>= f >>= g = p >>= fun a => f a >>= g
  | done (.ok _), _, _ => rfl
  | done (.error _), _, _ => rfl
  | ask q next, f, g => by
    rw [bind_ask, bind_ask, bind_ask]
    exact congrArg (ask q) (funext fun a => bind_assoc' (next a) f g)

instance : LawfulMonad (Prog A ε) :=
  LawfulMonad.mk' (Prog A ε) bind_pure' (fun a f => bind_done_ok f a) bind_assoc'

/-! ### Runs -/

/-- `p` may be answered as `t` records, and then ends with `r`. -/
inductive Runs : Prog A ε α → List (Event A) → Except ε α → Prop
  | done (r : Except ε α) : Runs (done r) [] r
  | ask {q : Q} {next : A q → Prog A ε α} (a : A q) {t : List (Event A)} {r : Except ε α} :
      Runs (next a) t r → Runs (ask q next) (⟨q, a⟩ :: t) r

variable {t : List (Event A)} {a : α} {e : ε} {q : Q}

@[simp] theorem runs_done {r r' : Except ε α} : Runs (done r : Prog A ε α) t r' ↔ t = [] ∧ r = r' := by
  constructor
  · rintro ⟨⟩; exact ⟨rfl, rfl⟩
  · rintro ⟨rfl, rfl⟩; exact .done _

@[simp] theorem runs_ask {next : A q → Prog A ε α} {r : Except ε α} :
    Runs (ask q next) t r ↔ ∃ a t', t = ⟨q, a⟩ :: t' ∧ Runs (next a) t' r := by
  constructor
  · rintro ⟨⟩; exact ⟨_, _, rfl, ‹_›⟩
  · rintro ⟨a, t', rfl, h⟩; exact .ask a h

@[simp] theorem runs_pure {r : Except ε α} :
    Runs (pure a : Prog A ε α) t r ↔ t = [] ∧ .ok a = r := runs_done

@[simp] theorem runs_lift {r r' : Except ε α} :
    Runs (liftM r : Prog A ε α) t r' ↔ t = [] ∧ r = r' := runs_done

@[simp] theorem runs_fail {r : Except ε α} :
    Runs (fail e : Prog A ε α) t r ↔ t = [] ∧ .error e = r := runs_done

@[simp] theorem runs_query {r : Except ε (A q)} :
    Runs (query q : Prog A ε (A q)) t r ↔ ∃ a, t = [⟨q, a⟩] ∧ .ok a = r := by
  simp [query]

@[simp] theorem runs_expect {judge : A q → Except ε α} {r : Except ε α} :
    Runs (expect q judge) t r ↔ ∃ a, t = [⟨q, a⟩] ∧ judge a = r := by
  simp [expect]

/-- A run of `p >>= f` is a failing run of `p`, or a run of `p` and then one of `f`. -/
theorem runs_bind {f : α → Prog A ε β} : ∀ {p : Prog A ε α} {t : List (Event A)} {r : Except ε β},
    Runs (p >>= f) t r ↔ (∃ e, r = .error e ∧ Runs p t (.error e)) ∨
      ∃ a t₁ t₂, t = t₁ ++ t₂ ∧ Runs p t₁ (.ok a) ∧ Runs (f a) t₂ r
  | done (.ok a), t, r => by
    rw [bind_done_ok]
    constructor
    · exact fun h => .inr ⟨a, [], t, rfl, .done _, h⟩
    · rintro (⟨e, -, h⟩ | ⟨a', t₁, t₂, rfl, h₁, h₂⟩)
      · cases h
      · cases h₁; exact h₂
  | done (.error e), t, r => by
    constructor
    · intro h; cases h; exact .inl ⟨e, rfl, .done _⟩
    · rintro (⟨e', rfl, h⟩ | ⟨a', t₁, t₂, -, h₁, -⟩)
      · cases h; exact .done _
      · cases h₁
  | ask q next, t, r => by
    simp only [bind_ask, runs_ask, runs_bind (p := next _)]
    constructor
    · rintro ⟨a, t', rfl, ⟨e, rfl, h⟩ | ⟨b, t₁, t₂, rfl, h₁, h₂⟩⟩
      · exact .inl ⟨e, rfl, a, t', rfl, h⟩
      · exact .inr ⟨b, _, t₂, rfl, ⟨a, t₁, rfl, h₁⟩, h₂⟩
    · rintro (⟨e, rfl, a, t', rfl, h⟩ | ⟨b, -, t₂, rfl, ⟨a, t₁, rfl, h₁⟩, h₂⟩)
      · exact ⟨a, t', rfl, .inl ⟨e, rfl, h⟩⟩
      · exact ⟨a, _, rfl, .inr ⟨b, t₁, t₂, rfl, h₁, h₂⟩⟩

/-- A sequence succeeds exactly when both parts do. -/
theorem runs_bind_ok {p : Prog A ε α} {f : α → Prog A ε β} {b : β} :
    Runs (p >>= f) t (.ok b) ↔
      ∃ a t₁ t₂, t = t₁ ++ t₂ ∧ Runs p t₁ (.ok a) ∧ Runs (f a) t₂ (.ok b) := by
  simp [runs_bind]

/-- Pure code in front of a program leaves no trace: it fails at once, or the rest runs. -/
theorem runs_lift_bind {x : Except ε α} {f : α → Prog A ε β} {r : Except ε β} :
    Runs ((liftM x : Prog A ε α) >>= f) t r ↔
      (∃ e, x = .error e ∧ t = [] ∧ r = .error e) ∨ ∃ a, x = .ok a ∧ Runs (f a) t r := by
  cases x with
  | ok a => simp [lift_ok_bind]
  | error e => simp [lift_error_bind, eq_comm]

/-- Pure code in front of a program leaves no trace. -/
theorem runs_lift_bind_ok {x : Except ε α} {f : α → Prog A ε β} {b : β} :
    Runs ((liftM x : Prog A ε α) >>= f) t (.ok b) ↔ ∃ a, x = .ok a ∧ Runs (f a) t (.ok b) := by
  simp [runs_lift_bind]

/-- A single question in front of a program is the head of the trace. -/
theorem runs_expect_bind_ok {judge : A q → Except ε α} {f : α → Prog A ε β} {b : β} :
    Runs (expect q judge >>= f) t (.ok b) ↔
      ∃ x t', (∃ a, judge a = .ok x ∧ t = ⟨q, a⟩ :: t') ∧ Runs (f x) t' (.ok b) := by
  rw [runs_bind_ok]
  constructor
  · rintro ⟨x, t₁, t₂, rfl, h₁, h₂⟩
    obtain ⟨a, rfl, hx⟩ := runs_expect.mp h₁
    exact ⟨x, t₂, ⟨a, hx, rfl⟩, h₂⟩
  · rintro ⟨x, t', ⟨a, hx, rfl⟩, h⟩
    exact ⟨x, [⟨q, a⟩], t', rfl, runs_expect.mpr ⟨a, rfl, hx⟩, h⟩

theorem runs_mapError {g : ε → ε'} : ∀ {p : Prog A ε α} {t : List (Event A)} {r : Except ε' α},
    Runs (p.mapError g) t r ↔ ∃ r₀, Runs p t r₀ ∧ r₀.mapError g = r
  | done (.ok a), t, r => by simp [mapError, Except.mapError, and_assoc]
  | done (.error e), t, r => by simp [mapError, Except.mapError, and_assoc]
  | ask q next, t, r => by
    simp only [mapError, runs_ask, runs_mapError (p := next _)]
    constructor
    · rintro ⟨a, t', rfl, r₀, h, rfl⟩; exact ⟨r₀, ⟨a, t', rfl, h⟩, rfl⟩
    · rintro ⟨r₀, ⟨a, t', rfl, h⟩, rfl⟩; exact ⟨a, t', rfl, r₀, h, rfl⟩

theorem runs_attempt : ∀ {p : Prog A ε α} {t : List (Event A)} {r : Except ε' (Except ε α)},
    Runs (p.attempt) t r ↔ ∃ r₀, Runs p t r₀ ∧ .ok r₀ = r
  | done _, t, r => by simp [attempt, and_assoc]
  | ask q next, t, r => by
    simp only [attempt, runs_ask, runs_attempt (p := next _)]
    constructor
    · rintro ⟨a, t', rfl, r₀, h, rfl⟩; exact ⟨r₀, ⟨a, t', rfl, h⟩, rfl⟩
    · rintro ⟨r₀, ⟨a, t', rfl, h⟩, rfl⟩; exact ⟨a, t', rfl, r₀, h, rfl⟩

/-! ### Loops -/

/-- A successful loop ran its body successfully on every element. -/
theorem runs_forM_ok {f : α → Prog A ε Unit} : ∀ {xs : List α} {t : List (Event A)} {u : Unit},
    Runs (forM xs f) t (.ok u) → ∀ x ∈ xs, ∃ t', t' ⊆ t ∧ Runs (f x) t' (.ok ())
  | [], _, _, _ => by simp
  | x :: xs, t, u, h => by
    rw [List.forM_cons, runs_bind_ok] at h
    obtain ⟨v, t₁, t₂, rfl, hx, hxs⟩ := h
    intro y hy
    rcases List.mem_cons.mp hy with rfl | hy
    · exact ⟨t₁, List.subset_append_left _ _, hx⟩
    · obtain ⟨t', ht', hrun⟩ := runs_forM_ok hxs y hy
      exact ⟨t', List.subset_append_of_subset_right _ ht', hrun⟩

/-- A successful map ran successfully on every element, and collects the results in order. -/
theorem runs_mapM_ok {f : α → Prog A ε β} : ∀ {xs : List α} {ys : List β} {t : List (Event A)},
    Runs (xs.mapM f) t (.ok ys) →
      List.Forall₂ (fun x y => ∃ t', t' ⊆ t ∧ Runs (f x) t' (.ok y)) xs ys
  | [], ys, t, h => by
    rw [List.mapM_nil, runs_pure] at h
    cases h.2
    exact .nil
  | x :: xs, ys, t, h => by
    rw [List.mapM_cons, runs_bind_ok] at h
    obtain ⟨y, t₁, t₂, rfl, hx, hxs⟩ := h
    rw [runs_bind_ok] at hxs
    obtain ⟨ys', t₃, t₄, rfl, hxs, hpure⟩ := hxs
    cases (runs_pure.mp hpure).2
    refine .cons ⟨t₁, List.subset_append_left _ _, hx⟩ ?_
    refine (runs_mapM_ok hxs).imp fun a b ⟨t', ht', hrun⟩ => ⟨t', ?_, hrun⟩
    exact List.subset_append_of_subset_right _ (List.subset_append_of_subset_left _ ht')

/-- A loop of pure checks is pure. -/
theorem lift_forM {f : α → Except ε Unit} : ∀ {xs : List α},
    (forM xs fun x => (liftM (f x) : Prog A ε Unit)) = liftM (forM xs f)
  | [] => rfl
  | x :: xs => by
    rw [List.forM_cons, List.forM_cons, lift_forM]
    cases f x <;> rfl

/-- An invariant every step of a fold keeps holds of what a successful fold returns. -/
theorem runs_foldlM_ok {f : β → α → Prog A ε β} {all : List α}
    (I : List α → β → List (Event A) → Prop)
    (step : ∀ seen x rest b t b' t', all = seen ++ x :: rest → I seen b t →
      Runs (f b x) t' (.ok b') → I (seen ++ [x]) b' (t ++ t')) :
    ∀ {xs seen : List α} {b b' : β} {t t' : List (Event A)}, all = seen ++ xs → I seen b t →
      Runs (xs.foldlM f b) t' (.ok b') → I all b' (t ++ t')
  | [], seen, b, b', t, t', hall, hI, h => by
    simp only [List.foldlM_nil, runs_pure, Except.ok.injEq] at h
    obtain ⟨rfl, rfl⟩ := h
    simpa [hall] using hI
  | x :: xs, seen, b, b', t, t', hall, hI, h => by
    rw [List.foldlM_cons, runs_bind_ok] at h
    obtain ⟨b₁, t₁, t₂, rfl, hx, hxs⟩ := h
    have := runs_foldlM_ok I step (by simpa using hall) (step seen x xs b t b₁ t₁ hall hI hx) hxs
    simpa using this

/-- A fold whose steps cannot fail on good answers does not fail on them. -/
theorem runs_foldlM_total {f : β → α → Prog A ε β} {all : List α} (G : Event A → Prop)
    (I : List α → β → Prop)
    (step : ∀ seen x rest b t r, all = seen ++ x :: rest → I seen b → (∀ e ∈ t, G e) →
      Runs (f b x) t r → ∃ b', r = .ok b' ∧ I (seen ++ [x]) b') :
    ∀ {xs seen : List α} {b : β} {t : List (Event A)} {r : Except ε β}, all = seen ++ xs →
      I seen b → (∀ e ∈ t, G e) → Runs (xs.foldlM f b) t r → ∃ b', r = .ok b' ∧ I all b'
  | [], seen, b, t, r, hall, hI, _, h => by
    simp only [List.foldlM_nil, runs_pure] at h
    obtain ⟨rfl, rfl⟩ := h
    exact ⟨b, rfl, by simpa [hall] using hI⟩
  | x :: xs, seen, b, t, r, hall, hI, hG, h => by
    rw [List.foldlM_cons] at h
    rcases runs_bind.mp h with ⟨e, rfl, hfail⟩ | ⟨b₁, t₁, t₂, rfl, hx, hxs⟩
    · obtain ⟨b', habs, -⟩ := step seen x xs b t _ hall hI hG hfail
      cases habs
    · obtain ⟨b', hb', hI'⟩ := step seen x xs b t₁ _ hall hI (fun e he => hG e (by simp [he])) hx
      obtain rfl := Except.ok.inj hb'
      exact runs_foldlM_total G I step (by simpa using hall) hI' (fun e he => hG e (by simp [he])) hxs

/-! ### What a program may ask -/

/-- Every question the program can reach, whatever the answers, satisfies `P`. -/
def Asks (P : Q → Prop) : Prog A ε α → Prop
  | done _ => True
  | ask q next => P q ∧ ∀ a, (next a).Asks P

variable {P P' : Q → Prop}

@[simp] theorem asks_pure (a : α) : (pure a : Prog A ε α).Asks P := trivial

@[simp] theorem asks_lift (r : Except ε α) : (liftM r : Prog A ε α).Asks P := trivial

@[simp] theorem asks_fail (e : ε) : (fail e : Prog A ε α).Asks P := trivial

@[simp] theorem asks_query (q : Q) : (query q : Prog A ε (A q)).Asks P ↔ P q :=
  ⟨And.left, fun h => ⟨h, fun _ => trivial⟩⟩

@[simp] theorem asks_expect (q : Q) (judge : A q → Except ε α) : (expect q judge).Asks P ↔ P q :=
  ⟨And.left, fun h => ⟨h, fun _ => trivial⟩⟩

theorem asks_bind : ∀ {p : Prog A ε α} {f : α → Prog A ε β}, p.Asks P → (∀ a, (f a).Asks P) →
    (p >>= f).Asks P
  | done (.ok a), _, _, hf => hf a
  | done (.error _), _, _, _ => trivial
  | ask _ _, _, hp, hf => ⟨hp.1, fun a => asks_bind (hp.2 a) hf⟩

theorem asks_lift_bind {x : Except ε α} {f : α → Prog A ε β} (hf : ∀ a, (f a).Asks P) :
    ((liftM x : Prog A ε α) >>= f).Asks P := asks_bind (asks_lift x) hf

theorem asks_expect_bind {q : Q} {judge : A q → Except ε α} {f : α → Prog A ε β} (hq : P q)
    (hf : ∀ a, (f a).Asks P) : (expect q judge >>= f).Asks P :=
  asks_bind ((asks_expect q judge).mpr hq) hf

theorem asks_attempt : ∀ {p : Prog A ε α}, p.Asks P → (p.attempt : Prog A ε' (Except ε α)).Asks P
  | done _, _ => trivial
  | ask _ _, hp => ⟨hp.1, fun a => asks_attempt (hp.2 a)⟩

theorem Asks.mono (hP : ∀ q, P q → P' q) : ∀ {p : Prog A ε α}, p.Asks P → p.Asks P'
  | done _, _ => trivial
  | ask q _, hp => ⟨hP q hp.1, fun a => (hp.2 a).mono hP⟩

theorem asks_forM {f : α → Prog A ε Unit} : ∀ {xs : List α}, (∀ x ∈ xs, (f x).Asks P) →
    (forM xs f).Asks P
  | [], _ => trivial
  | x :: xs, hf => by
    rw [List.forM_cons]
    exact asks_bind (hf x (by simp)) fun _ => asks_forM fun y hy => hf y (by simp [hy])

theorem asks_foldlM {f : β → α → Prog A ε β} : ∀ {xs : List α} {b : β},
    (∀ b, ∀ x ∈ xs, (f b x).Asks P) → (xs.foldlM f b).Asks P
  | [], _, _ => trivial
  | x :: xs, b, hf => by
    rw [List.foldlM_cons]
    exact asks_bind (hf b x (by simp)) fun _ => asks_foldlM fun b y hy => hf b y (by simp [hy])

theorem asks_mapM {f : α → Prog A ε β} : ∀ {xs : List α}, (∀ x ∈ xs, (f x).Asks P) →
    (xs.mapM f).Asks P
  | [], _ => trivial
  | x :: xs, hf => by
    rw [List.mapM_cons]
    refine asks_bind (hf x (by simp)) fun y => ?_
    exact asks_bind (asks_mapM fun z hz => hf z (by simp [hz])) fun _ => trivial

/-- The questions of a run, whatever its outcome, are among those the program may ask. -/
theorem runs_asks : ∀ {p : Prog A ε α} {t : List (Event A)} {r : Except ε α},
    p.Asks P → Runs p t r → ∀ e ∈ t, P e.question
  | _, _, _, _, .done _ => by simp
  | _, _, _, hp, .ask a h => by
    intro e he
    rcases List.mem_cons.mp he with rfl | he
    · exact hp.1
    · exact runs_asks (hp.2 a) h e he

/-- Where every question the program may ask has a good answer, some run has only good answers. -/
theorem exists_runs {G : Event A → Prop} (hG : ∀ q, P q → ∃ a : A q, G ⟨q, a⟩) :
    ∀ {p : Prog A ε α}, p.Asks P → ∃ t r, (∀ e ∈ t, G e) ∧ Runs p t r
  | done r, _ => ⟨[], r, by simp, .done r⟩
  | ask q next, hp => by
    obtain ⟨a, ha⟩ := hG q hp.1
    obtain ⟨t, r, ht, hr⟩ := exists_runs hG (hp.2 a)
    exact ⟨_, r, List.forall_mem_cons.mpr ⟨ha, ht⟩, .ask a hr⟩

/-- An event the first program cannot cause happens only after it has succeeded. -/
theorem runs_bind_guard {p : Prog A ε α} {f : α → Prog A ε β} {r : Except ε β}
    {before after : List (Event A)} {e : Event A} (hp : p.Asks P) (he : ¬ P e.question)
    (h : Runs (p >>= f) (before ++ e :: after) r) :
    ∃ a t₁ t₂, before = t₁ ++ t₂ ∧ Runs p t₁ (.ok a) ∧ Runs (f a) (t₂ ++ e :: after) r := by
  rcases runs_bind.mp h with ⟨_, -, hfail⟩ | ⟨a, t₁, t₂, heq, h₁, h₂⟩
  · exact absurd (runs_asks hp hfail e (by simp)) he
  · rcases List.append_eq_append_iff.mp heq with ⟨d, rfl, hd⟩ | ⟨d, rfl, rfl⟩
    · cases d with
      | nil =>
        obtain rfl : e :: after = t₂ := hd
        exact ⟨a, before, [], by simp, by simpa using h₁, h₂⟩
      | cons x d =>
        obtain ⟨rfl, -⟩ := List.cons.inj hd
        exact absurd (runs_asks hp h₁ e (by simp)) he
    · exact ⟨a, t₁, d, rfl, h₁, h₂⟩

/-! ### Environments -/

end Prog

/-- An environment answers from the whole history of the run so far. -/
abbrev Env {Q : Type} (A : Q → Type) := List (Event A) → (q : Q) → A q

namespace Prog

variable {Q : Type} {A : Q → Type} {ε α : Type}

/-- The run an environment determines, after the history `h`. -/
def run (env : Env A) : Prog A ε α → List (Event A) → List (Event A) × Except ε α
  | done r, _ => ([], r)
  | ask q next, h =>
    let rest := run env (next (env h q)) (h ++ [⟨q, env h q⟩])
    (⟨q, env h q⟩ :: rest.1, rest.2)

theorem runs_run (env : Env A) : ∀ (p : Prog A ε α) (h : List (Event A)),
    Runs p (run env p h).1 (run env p h).2
  | done r, _ => .done r
  | ask q next, h => .ask _ (runs_run env (next (env h q)) _)

/-- The result under answers that never change. -/
def eval (answers : ∀ q, A q) : Prog A ε α → Except ε α
  | done r => r
  | ask q next => (next (answers q)).eval answers

variable {ε' β : Type} {answers : ∀ q, A q}

theorem runs_eval (answers : ∀ q, A q) : ∀ p : Prog A ε α, ∃ t, Runs p t (p.eval answers)
  | done r => ⟨[], .done r⟩
  | ask q next =>
    let ⟨t, h⟩ := runs_eval answers (next (answers q))
    ⟨⟨q, answers q⟩ :: t, .ask _ h⟩

/-- A run told only these answers ends as they determine. -/
theorem eval_of_runs : ∀ {p : Prog A ε α} {t : List (Event A)} {r : Except ε α}, Runs p t r →
    (∀ e ∈ t, e.answer = answers e.question) → p.eval answers = r
  | _, _, _, .done _, _ => rfl
  | _, _, _, .ask a h, ht => by
    obtain ⟨ha, hrest⟩ := List.forall_mem_cons.mp ht
    rw [eval, ← show a = answers _ from ha]
    exact eval_of_runs h hrest

@[simp] theorem eval_pure (a : α) : (pure a : Prog A ε α).eval answers = .ok a := rfl

@[simp] theorem eval_lift (r : Except ε α) : (liftM r : Prog A ε α).eval answers = r := rfl

@[simp] theorem eval_query (q : Q) : (query q : Prog A ε (A q)).eval answers = .ok (answers q) := rfl

@[simp] theorem eval_expect (q : Q) (judge : A q → Except ε α) :
    (expect q judge).eval answers = judge (answers q) := rfl

@[simp] theorem eval_bind {f : α → Prog A ε β} : ∀ {p : Prog A ε α},
    (p >>= f).eval answers = p.eval answers >>= fun a => (f a).eval answers
  | done (.ok _) => rfl
  | done (.error _) => rfl
  | ask q next => by
    rw [bind_ask, eval, eval_bind]
    rfl

theorem eval_attempt : ∀ {p : Prog A ε α},
    (p.attempt : Prog A ε' (Except ε α)).eval answers = .ok (p.eval answers)
  | done _ => rfl
  | ask q next => by
    rw [attempt, eval, eval_attempt]
    rfl

@[simp] theorem eval_forM {f : α → Prog A ε Unit} : ∀ {xs : List α},
    (forM xs f : Prog A ε Unit).eval answers = forM xs fun x => (f x).eval answers
  | [] => rfl
  | x :: xs => by
    rw [List.forM_cons, List.forM_cons, eval_bind]
    exact congrArg _ (funext fun _ => eval_forM)

@[simp] theorem eval_mapM {f : α → Prog A ε β} : ∀ {xs : List α},
    (xs.mapM f : Prog A ε (List β)).eval answers = xs.mapM fun x => (f x).eval answers
  | [] => rfl
  | x :: xs => by
    rw [List.mapM_cons, List.mapM_cons, eval_bind]
    refine congrArg _ (funext fun _ => ?_)
    rw [eval_bind, eval_mapM]
    rfl

@[simp] theorem eval_foldlM {f : β → α → Prog A ε β} : ∀ {xs : List α} {b : β},
    (xs.foldlM f b : Prog A ε β).eval answers = xs.foldlM (fun b x => (f b x).eval answers) b
  | [], _ => rfl
  | x :: xs, b => by
    rw [List.foldlM_cons, List.foldlM_cons, eval_bind]
    exact congrArg _ (funext fun _ => eval_foldlM)

end Prog

/-! ### Refusals in pure code -/

/-- `if bad { return Err(e) }`. -/
def refuse {ε : Type} (bad : Prop) [Decidable bad] (e : ε) : Except ε Unit :=
  if bad then .error e else .ok ⟨⟩

/-- `if not good: raise e`. -/
def require {ε : Type} (good : Prop) [Decidable good] (e : ε) : Except ε Unit :=
  if good then .ok ⟨⟩ else .error e

/-- `if !good { return Err(e) }`, handing the fact on. -/
def ensure {ε : Type} (good : Prop) [Decidable good] (e : ε) : Except ε (PLift good) :=
  if h : good then .ok ⟨h⟩ else .error e

/-- `o.ok_or(e)?`. -/
def need {ε α : Type} (o : Option α) (e : ε) : Except ε α :=
  match o with
  | some a => .ok a
  | none => .error e

/-- `r.map_err(|_| e)?`. -/
def okOr {ε ε' α : Type} (r : Except ε' α) (e : ε) : Except ε α :=
  match r with
  | .ok a => .ok a
  | .error _ => .error e

/-- `if let Some(a) = o { return Err(e(a)) }`. -/
def refuseSome {ε α : Type} (o : Option α) (e : α → ε) : Except ε Unit :=
  match o with
  | some a => .error (e a)
  | none => .ok ⟨⟩

variable {ε ε' α β : Type}

@[simp] theorem refuse_ok {bad : Prop} [Decidable bad] {e : ε} {u : Unit} :
    refuse bad e = .ok u ↔ ¬ bad := by
  by_cases hb : bad <;> simp [refuse, hb]

@[simp] theorem require_ok {good : Prop} [Decidable good] {e : ε} {u : Unit} :
    require good e = .ok u ↔ good := by
  by_cases hg : good <;> simp [require, hg]

@[simp] theorem ensure_ok {good : Prop} [Decidable good] {e : ε} {h : PLift good} :
    ensure good e = .ok h ↔ good := by
  obtain ⟨h⟩ := h
  exact ⟨fun _ => h, fun hgood => dif_pos hgood⟩

@[simp] theorem need_ok {o : Option α} {e : ε} {a : α} : need o e = .ok a ↔ o = some a := by
  cases o <;> simp [need]

@[simp] theorem okOr_ok {r : Except ε' α} {e : ε} {a : α} : okOr r e = .ok a ↔ r = .ok a := by
  cases r <;> simp [okOr]

@[simp] theorem refuseSome_ok {o : Option α} {e : α → ε} {u : Unit} :
    refuseSome o e = .ok u ↔ o = none := by
  cases o <;> simp [refuseSome]

theorem mapError_ok {r : Except ε α} {f : ε → ε'} {a : α} : r.mapError f = .ok a ↔ r = .ok a := by
  cases r <;> simp [Except.mapError]

theorem ok_of_toOption {r : Except ε α} {a : α} (h : r.toOption = some a) : r = .ok a := by
  cases r with
  | ok b => exact congrArg _ (Option.some.inj h)
  | error e => cases h

theorem except_ok_bind (a : α) (f : α → Except ε β) : ((.ok a : Except ε α) >>= f) = f a := rfl

theorem require_pos {good : Prop} [Decidable good] (h : good) (e : ε) : require good e = .ok ⟨⟩ := if_pos h

theorem except_bind_ok {x : Except ε α} {f : α → Except ε β} {b : β} :
    x >>= f = .ok b ↔ ∃ a, x = .ok a ∧ f a = .ok b := by
  cases x with
  | ok a => exact Iff.intro (fun h => ⟨a, rfl, h⟩) fun ⟨_, ha, h⟩ => by cases ha; exact h
  | error e => exact Iff.intro nofun nofun

/-- A loop of checks succeeds exactly when every check does. -/
theorem except_forM_ok {f : α → Except ε Unit} {u : Unit} : ∀ {xs : List α},
    forM xs f = .ok u ↔ ∀ x ∈ xs, f x = .ok ⟨⟩
  | [] => by simp [pure, Except.pure]
  | x :: xs => by
    rw [List.forM_cons, except_bind_ok]
    simp only [except_forM_ok, List.mem_cons, forall_eq_or_imp]
    exact Iff.intro (fun ⟨_, hx, hxs⟩ => ⟨hx, hxs⟩) fun ⟨hx, hxs⟩ => ⟨⟨⟩, hx, hxs⟩

/-- A map succeeds exactly when every element does, and collects the results in order. -/
theorem except_mapM_ok {f : α → Except ε β} : ∀ {xs : List α} {ys : List β},
    xs.mapM f = .ok ys ↔ List.Forall₂ (fun x y => f x = .ok y) xs ys
  | [], ys => by simp [pure, Except.pure, eq_comm]
  | x :: xs, ys => by
    rw [List.mapM_cons, except_bind_ok]
    constructor
    · rintro ⟨y, hx, h⟩
      rw [except_bind_ok] at h
      obtain ⟨ys', hxs, h⟩ := h
      cases h
      exact .cons hx (except_mapM_ok.mp hxs)
    · intro h
      cases h with
      | cons hx hxs => exact ⟨_, hx, except_bind_ok.mpr ⟨_, except_mapM_ok.mpr hxs, rfl⟩⟩

end Interaction
