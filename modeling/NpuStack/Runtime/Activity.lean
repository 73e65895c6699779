import Mathlib.Data.List.Zip
import NpuStack.Runtime.Device

/-! The activity evidence, for counters of any size and lists of any length.

        before   v₁ ─▶ v₁'   v₂ ─▶ v₂'   …   vₙ ─▶ vₙ'   after      pass with Σ (vᵢ' - vᵢ)

    The loop stops at the first counter that went back, or where the sum leaves 128 bits; both are
    warnings, and the sum that remains is the one over the integers. The same loop on machine words,
    where the subtraction may trap, never traps and computes the same (`busyDelta128_eq`). -/

namespace NpuStack.Runtime
open Interaction Interaction.Prog Text

/-- Both snapshots count the same devices, none went back, and together they advanced by `d`. -/
def Advanced (before after : BusyCounterSnapshot) (d : ℕ) : Prop :=
  ∃ names values values', before = .counters names values ∧ after = .counters names values' ∧
    (∀ p ∈ values.zip values', p.1 ≤ p.2) ∧
    ((values.zip values').map fun p => p.2 - p.1).sum = d

/-! ### The sum -/

/-- The loop yields the sum that it started from plus every increase, and only below 128 bits. -/
theorem busyDelta_ok {pairs : List (ℕ × ℕ)} {delta d : ℕ} (hdelta : delta < 2 ^ 128) :
    busyDelta pairs delta = .ok d ↔
      (∀ p ∈ pairs, p.1 ≤ p.2) ∧ d = delta + (pairs.map fun p => p.2 - p.1).sum ∧ d < 2 ^ 128 := by
  induction pairs generalizing delta with
  | nil =>
    rw [busyDelta, Except.ok.injEq]
    constructor
    · intro h
      subst h
      exact ⟨by simp, by simp, hdelta⟩
    · rintro ⟨_, h, _⟩
      simpa using h.symm
  | cons p rest ih =>
    obtain ⟨before, after⟩ := p
    rw [busyDelta, List.forall_mem_cons, List.map_cons, List.sum_cons]
    split
    · next hlt =>
      constructor
      · intro h
        cases h
      · rintro ⟨⟨hle, _⟩, _⟩
        omega
    · next hlt =>
      split
      · next hbig =>
        constructor
        · intro h
          cases h
        · rintro ⟨_, h, hsmall⟩
          dsimp only at h
          omega
      · next hbig =>
        rw [ih (by omega)]
        constructor
        · rintro ⟨hrest, h, hsmall⟩
          exact ⟨⟨by omega, hrest⟩, by dsimp only; omega, hsmall⟩
        · rintro ⟨⟨_, hrest⟩, h, hsmall⟩
          dsimp only at h
          exact ⟨hrest, by omega, hsmall⟩

/-- The snapshots that yield a busy time. -/
theorem activityDelta_ok {before after : BusyCounterSnapshot} {d : ℕ} :
    activityDelta before after = .ok d ↔ Advanced before after d ∧ 0 < d ∧ d ≤ 2 ^ 64 - 1 := by
  constructor
  · intro h
    rw [activityDelta.eq_def] at h
    split at h
    · cases h
    · cases h
    · next names values names' values' =>
      split at h
      · next hnames =>
        subst hnames
        split at h
        · cases h
        · next delta hdelta =>
          rw [busyDelta_ok (by decide)] at hdelta
          obtain ⟨hle, hsum, _⟩ := hdelta
          split at h
          · cases h
          split at h
          · cases h
            exact ⟨⟨names, values, values', rfl, rfl, hle, by omega⟩, by omega, by omega⟩
          · cases h
      · cases h
    · cases h
  · rintro ⟨⟨names, values, values', rfl, rfl, hle, hsum⟩, hpos, hsmall⟩
    have hdelta : busyDelta (values.zip values') 0 = .ok d := by
      rw [busyDelta_ok (by decide)]
      exact ⟨hle, by omega, by omega⟩
    have hne : d ≠ 0 := by omega
    have hlt : d < 2 ^ 64 := by omega
    simp only [activityDelta, if_true, hdelta, hne, hlt, if_false]

/-- Increases in both directions are no increases. -/
theorem advanced_swap {before after : BusyCounterSnapshot} {d d' : ℕ}
    (h : Advanced before after d) (h' : Advanced after before d') : d = 0 := by
  obtain ⟨names, values, values', rfl, rfl, hle, rfl⟩ := h
  obtain ⟨_, _, _, hafter, hbefore, hle', _⟩ := h'
  cases hafter
  cases hbefore
  rw [List.sum_eq_zero_iff_forall_eq_nat]
  intro n hn
  obtain ⟨p, hp, rfl⟩ := List.mem_map.mp hn
  have hswap : p.swap ∈ values'.zip values := by
    rw [← List.zip_swap]
    exact List.mem_map_of_mem hp
  have hge : p.2 ≤ p.1 := hle' p.swap hswap
  omega

/-! ### The machine's words -/

/-- Subtraction that traps below zero. -/
def trappingSub (a b : BitVec 128) : Option (BitVec 128) :=
  if BitVec.usubOverflow a b then none else some (a - b)

/-- `u128::checked_add`. -/
def checkedAdd (a b : BitVec 128) : Option (BitVec 128) :=
  if BitVec.uaddOverflow a b then none else some (a + b)

/-- The loop on 128-bit words; none when it traps. -/
def busyDelta128 : List (BitVec 128 × BitVec 128) → BitVec 128 → Option (Except String (BitVec 128))
  | [], delta => some (.ok delta)
  | (before, after) :: rest, delta =>
    if after < before then some (.error "ACTIVITY_COUNTER_DECREASED")
    else
      match trappingSub after before with
      | none => none
      | some increase =>
        match checkedAdd delta increase with
        | none => some (.error "ACTIVITY_COUNTER_INVALID")
        | some next => busyDelta128 rest next

theorem trappingSub_of_le {a b : BitVec 128} (h : b ≤ a) :
    trappingSub a b = some (a - b) ∧ (a - b).toNat = a.toNat - b.toNat := by
  have hle : b.toNat ≤ a.toNat := BitVec.le_def.mp h
  refine ⟨?_, BitVec.toNat_sub_of_le h⟩
  rw [trappingSub, BitVec.usubOverflow, if_neg (by simpa using hle)]

/-- The loop on words never traps, and its numbers are those of the loop on numbers. -/
theorem busyDelta128_eq (pairs : List (BitVec 128 × BitVec 128)) (delta : BitVec 128) :
    ∃ r, busyDelta128 pairs delta = some r ∧
      r.map BitVec.toNat = busyDelta (pairs.map fun p => (p.1.toNat, p.2.toNat)) delta.toNat := by
  induction pairs generalizing delta with
  | nil => exact ⟨.ok delta, rfl, rfl⟩
  | cons p rest ih =>
    obtain ⟨before, after⟩ := p
    rw [busyDelta128, List.map_cons, busyDelta]
    by_cases hlt : after < before
    · rw [if_pos hlt, if_pos (BitVec.lt_def.mp hlt)]
      exact ⟨_, rfl, rfl⟩
    · obtain ⟨hsub, hnat⟩ := trappingSub_of_le (BitVec.not_lt.mp hlt)
      rw [if_neg hlt, if_neg (fun h => hlt (BitVec.lt_def.mpr h)), hsub]
      dsimp only
      rw [checkedAdd, BitVec.uaddOverflow, hnat]
      by_cases hbig : delta.toNat + (after.toNat - before.toNat) ≥ 2 ^ 128
      · rw [if_pos (by simpa using hbig), if_pos hbig]
        exact ⟨_, rfl, rfl⟩
      · rw [if_neg (by simpa using hbig), if_neg hbig]
        obtain ⟨r, hr, hmap⟩ := ih (delta + (after - before))
        refine ⟨r, hr, hmap.trans ?_⟩
        rw [BitVec.toNat_add, hnat, Nat.mod_eq_of_lt (by omega)]

/-! ### What the counters give -/

/-- One value for each name, and every value a word. -/
def Counted (snapshot : BusyCounterSnapshot) : Prop :=
  ∀ names values, snapshot = .counters names values →
    names.length = values.length ∧ ∀ v ∈ values, v < 2 ^ 128

theorem parseCounter_lt {bytes : Bytes} {n : ℕ} (h : parseCounter bytes = .ok (some n)) :
    n < 2 ^ 128 := by
  rw [parseCounter] at h
  split at h
  · cases h
  split at h
  · cases h
  · next text _ =>
    dsimp only at h
    split at h
    · split at h
      · next m hm =>
        cases h
        exact parseUnsigned_lt hm
      · cases h
    · cases h

theorem readCounter_lt (path : String) : (readCounter path).Gives Passive fun r =>
    ∀ n, r = .ok (some n) → n < 2 ^ 128 := by
  refine gives_query_bind nofun fun answer => ?_
  match answer with
  | .error .notFound => exact gives_pure nofun
  | .error .permissionDenied => exact gives_pure nofun
  | .error .other => exact gives_pure nofun
  | .ok _ =>
    refine gives_query_bind nofun fun bytes => ?_
    cases bytes with
    | error e => exact gives_pure nofun
    | ok bytes => exact gives_pure fun n hn => parseCounter_lt hn

theorem readCounters_lt (paths : List (String × String)) (read : List (String × ℕ)) (missing : ℕ)
    (hread : ∀ p ∈ read, p.2 < 2 ^ 128) : (readCounters paths read missing).Gives Passive fun r =>
      ∀ read' missing', r = .ok (read', missing') → ∀ p ∈ read', p.2 < 2 ^ 128 := by
  induction paths generalizing read missing with
  | nil =>
    refine gives_pure ?_
    intro read' missing' h
    cases h
    exact hread
  | cons path rest ih =>
    refine gives_bind (readCounter_lt path.2) ?_
    intro counter hcounter
    match counter with
    | .ok (some value) =>
      refine ih _ _ ?_
      intro p hp
      rcases List.mem_append.mp hp with hp | hp
      · exact hread p hp
      · rw [List.mem_singleton.mp hp]
        exact hcounter value rfl
    | .ok none => exact ih _ _ hread
    | .error e => exact gives_pure nofun

/-- Whatever the class directory answers, a snapshot of counters is one of words. -/
theorem readBusyCounters_counted (root : String) :
    (readBusyCounters root).Gives Passive Counted := by
  refine gives_query_bind nofun fun answer => ?_
  match answer with
  | .error .notFound => exact gives_pure nofun
  | .error .permissionDenied => exact gives_pure nofun
  | .error .other => exact gives_pure nofun
  | .ok entries =>
    dsimp only
    split
    · exact gives_pure nofun
    split
    · exact gives_pure nofun
    · refine gives_bind (readCounters_lt _ [] 0 (by simp)) ?_
      intro result hresult
      match result with
      | .error .unavailable => exact gives_pure nofun
      | .error .invalid => exact gives_pure nofun
      | .ok (read, missing) =>
        refine gives_pure ?_
        intro names values h
        split at h
        · cases h
        split at h
        · cases h
        · cases h
          refine ⟨by simp, ?_⟩
          intro v hv
          obtain ⟨p, hp, rfl⟩ := List.mem_map.mp hv
          exact hresult read missing rfl p hp

/-! ### The evidence -/

theorem activityCheck_pass_inj {d d' : ℕ}
    (h : activityCheck .pass [("busy_time_delta", .unsigned d)] =
      activityCheck .pass [("busy_time_delta", .unsigned d')]) : d = d' := by
  simpa [activityCheck, details, Details.extend, Details.insert] using h

theorem activityWarning_inj {code code' : String}
    (h : activityWarning code = activityWarning code') : code = code' := by
  simpa [activityWarning, activityCheck, details, Details.extend, Details.insert] using h

theorem evaluateActivity_pass {before after : BusyCounterSnapshot} {d : ℕ} :
    evaluateActivity before after = activityCheck .pass [("busy_time_delta", .unsigned d)] ↔
      activityDelta before after = .ok d := by
  rw [evaluateActivity]
  cases activityDelta before after with
  | error code =>
    constructor
    · intro h
      cases congrArg DiagnosticCheck.status h
    · intro h
      cases h
  | ok delta =>
    constructor
    · intro h
      rw [activityCheck_pass_inj h]
    · intro h
      cases h
      rfl

/-- A passing check names the busy time of two snapshots. -/
theorem evaluateActivity_status {before after : BusyCounterSnapshot} :
    (evaluateActivity before after).status = .pass ↔ ∃ d, activityDelta before after = .ok d := by
  rw [evaluateActivity]
  cases activityDelta before after with
  | error code => simp [activityWarning, activityCheck]
  | ok delta => simp [activityCheck]

theorem evaluateActivity_warning {before after : BusyCounterSnapshot}
    (h : ¬∃ d, activityDelta before after = .ok d) :
    ∃! code, evaluateActivity before after = activityWarning code := by
  cases hdelta : activityDelta before after with
  | error code =>
    have hcheck : evaluateActivity before after = activityWarning code := by
      rw [evaluateActivity, hdelta]
    refine ⟨code, hcheck, ?_⟩
    intro code' hcode'
    exact activityWarning_inj (hcode'.symm.trans hcheck)
  | ok delta => exact absurd ⟨delta, hdelta⟩ h

/-- A check passes with exactly the busy time two snapshots advanced by, within 64 bits; any other
    pair is a warning with one code, no pair passes both ways, and no 128-bit step traps. -/
theorem evaluateActivity_exact (before after : BusyCounterSnapshot) :
    (∀ d, evaluateActivity before after = activityCheck .pass [("busy_time_delta", .unsigned d)] ↔
      Advanced before after d ∧ 0 < d ∧ d ≤ 2 ^ 64 - 1) ∧
    ((¬∃ d, Advanced before after d ∧ 0 < d ∧ d ≤ 2 ^ 64 - 1) →
      ∃! code, evaluateActivity before after = activityWarning code) ∧
    ¬((evaluateActivity before after).status = .pass ∧
      (evaluateActivity after before).status = .pass) ∧
    ∀ (pairs : List (BitVec 128 × BitVec 128)) (delta : BitVec 128),
      ∃ r, busyDelta128 pairs delta = some r ∧
        r.map BitVec.toNat =
          busyDelta (pairs.map fun p => (p.1.toNat, p.2.toNat)) delta.toNat := by
  refine ⟨?_, ?_, ?_, busyDelta128_eq⟩
  · intro d
    rw [evaluateActivity_pass, activityDelta_ok]
  · intro h
    exact evaluateActivity_warning fun ⟨d, hd⟩ => h ⟨d, activityDelta_ok.mp hd⟩
  · rintro ⟨h, h'⟩
    obtain ⟨d, hd⟩ := evaluateActivity_status.mp h
    obtain ⟨d', hd'⟩ := evaluateActivity_status.mp h'
    obtain ⟨hadvanced, hpos, _⟩ := activityDelta_ok.mp hd
    have hzero : d = 0 := advanced_swap hadvanced (activityDelta_ok.mp hd').1
    omega

end NpuStack.Runtime
