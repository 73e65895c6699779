import Mathlib.Data.List.Nodup
import Mathlib.Logic.Relation
import NpuStack.Schemes.Keyed

/-! Links between keys, followed to a value.

        a ──▶ b ──▶ c = v          every key of the chain reaches v

    The links whose target has a value already are settled round by round. Where no key is used twice
    the rounds end with every link settled exactly when every link reaches a value (`resolve_isSome`),
    and then each key has the value at the end of its chain (`mem_resolve`). A cycle or a link into
    nothing reaches none. -/

namespace Chains

variable {κ β : Type}

/-- The key has a value, or is linked to a key that reaches one. -/
inductive Reaches (ends : List (κ × β)) (links : List (κ × κ)) : κ → β → Prop
  | here {key : κ} {value : β} : (key, value) ∈ ends → Reaches ends links key value
  | there {key target : κ} {value : β} : (key, target) ∈ links → Reaches ends links target value →
      Reaches ends links key value

/-- Following links from the key leads back to it. -/
def Cyclic (links : List (κ × κ)) (key : κ) : Prop := Relation.TransGen (fun k t => (k, t) ∈ links) key key

/-- The key is linked to a key that is neither a value's nor a link's. -/
def Dangling (ends : List (κ × β)) (links : List (κ × κ)) (key : κ) : Prop :=
  ∃ target, (key, target) ∈ links ∧ target ∉ ends.map Prod.fst ∧ target ∉ links.map Prod.fst

/-- No key is used twice. -/
def Apart (ends : List (κ × β)) (links : List (κ × κ)) : Prop :=
  (ends.map Prod.fst ++ links.map Prod.fst).Nodup

variable {ends : List (κ × β)} {links : List (κ × κ)}

theorem Apart.value_unique (h : Apart ends links) {key : κ} {v w : β} (hv : (key, v) ∈ ends)
    (hw : (key, w) ∈ ends) : v = w := by
  have hnd := (List.nodup_append.mp h).1
  exact (Prod.mk.inj (List.inj_on_of_nodup_map hnd hv hw rfl)).2

theorem Apart.target_unique (h : Apart ends links) {key s t : κ} (hs : (key, s) ∈ links)
    (ht : (key, t) ∈ links) : s = t := by
  have hnd := (List.nodup_append.mp h).2.1
  exact (Prod.mk.inj (List.inj_on_of_nodup_map hnd hs ht rfl)).2

theorem Apart.not_linked (h : Apart ends links) {key target : κ} {value : β} (hv : (key, value) ∈ ends) :
    (key, target) ∉ links := by
  intro ht
  exact (List.nodup_append.mp h).2.2 key (List.mem_map_of_mem hv) key (List.mem_map_of_mem ht) rfl

theorem Reaches.mono {ends' : List (κ × β)} {links' : List (κ × κ)} (hends : ∀ e ∈ ends, e ∈ ends')
    (hlinks : ∀ l ∈ links, l ∈ links') {key : κ} {value : β} (h : Reaches ends links key value) :
    Reaches ends' links' key value := by
  induction h with
  | here hmem => exact .here (hends _ hmem)
  | there hlink _ ih => exact .there (hlinks _ hlink) ih

theorem Reaches.unique (h : Apart ends links) {key : κ} {v w : β} (hv : Reaches ends links key v)
    (hw : Reaches ends links key w) : v = w := by
  induction hv with
  | here hv =>
    cases hw with
    | here hw => exact h.value_unique hv hw
    | there hlink _ => exact absurd hlink (h.not_linked hv)
  | there hlink _ ih =>
    cases hw with
    | here hw => exact absurd hlink (h.not_linked hw)
    | there hlink' hw =>
      rw [h.target_unique hlink hlink'] at ih
      exact ih hw

theorem Reaches.mem_keys {key : κ} {value : β} (h : Reaches ends links key value) :
    key ∈ ends.map Prod.fst ∨ key ∈ links.map Prod.fst := by
  cases h with
  | here hmem => exact .inl (List.mem_map_of_mem hmem)
  | there hlink _ => exact .inr (List.mem_map_of_mem hlink)

theorem not_reaches_of_dangling (h : Apart ends links) {key : κ} (hdangling : Dangling ends links key)
    (value : β) : ¬Reaches ends links key value := by
  obtain ⟨target, hlink, hends, hlinks⟩ := hdangling
  intro hreaches
  cases hreaches with
  | here hmem => exact h.not_linked hmem hlink
  | there hlink' htarget =>
    rw [← h.target_unique hlink hlink'] at htarget
    rcases htarget.mem_keys with hkey | hkey
    · exact hends hkey
    · exact hlinks hkey

theorem not_reaches_of_cyclic (h : Apart ends links) {key : κ} (hcyclic : Cyclic links key) (value : β) :
    ¬Reaches ends links key value := by
  intro hreaches
  induction hreaches with
  | here hmem =>
    obtain ⟨target, hlink, -⟩ := Relation.TransGen.head'_iff.mp hcyclic
    exact h.not_linked hmem hlink
  | there hlink _ ih =>
    -- the cycle starts with the one link of the key, so its target lies on the cycle as well
    obtain ⟨target, hlink', hback⟩ := Relation.TransGen.head'_iff.mp hcyclic
    rw [← h.target_unique hlink hlink'] at hback
    exact ih (Relation.TransGen.tail'_iff.mpr ⟨_, hback, hlink⟩)

/-! ### Rounds -/

section
variable [DecidableEq κ]

/-- The links whose target has a value. -/
def ready (ends : List (κ × β)) (links : List (κ × κ)) : List (κ × κ) :=
  links.filter fun link => (ends.lookup link.2).isSome

/-- The values, and those of the links that are ready. -/
def settled (ends : List (κ × β)) (links : List (κ × κ)) : List (κ × β) :=
  ends ++ (ready ends links).filterMap fun link => (ends.lookup link.2).map fun value => (link.1, value)

def pending (ends : List (κ × β)) (links : List (κ × κ)) : List (κ × κ) :=
  links.filter fun link => !(ends.lookup link.2).isSome

theorem length_ready_add_pending (ends : List (κ × β)) (links : List (κ × κ)) :
    (ready ends links).length + (pending ends links).length = links.length := by
  rw [← List.length_append]
  exact (List.filter_append_perm _ links).length_eq

/-- Settle what is ready until no link is left, or none is ready. -/
def resolve (ends : List (κ × β)) (links : List (κ × κ)) : Option (List (κ × β)) :=
  if links = [] then some ends
  else if ready ends links = [] then none
  else resolve (settled ends links) (pending ends links)
termination_by links.length
decreasing_by
  have hlength := length_ready_add_pending ends links
  have hpos : 0 < (ready ends links).length := List.length_pos_iff.mpr ‹_›
  omega

theorem mem_settled {key : κ} {value : β} (h : Apart ends links) : (key, value) ∈ settled ends links ↔
    (key, value) ∈ ends ∨ ∃ target, (key, target) ∈ links ∧ (target, value) ∈ ends := by
  have hnd := (List.nodup_append.mp h).1
  simp only [settled, ready, List.mem_append, List.mem_filterMap, List.mem_filter, Option.map_eq_some_iff,
    Prod.mk.injEq]
  refine or_congr_right ⟨?_, ?_⟩
  · rintro ⟨⟨k, target⟩, ⟨hlink, -⟩, v, hlookup, rfl, rfl⟩
    exact ⟨target, hlink, Keyed.mem_of_lookup hlookup⟩
  · rintro ⟨target, hlink, hvalue⟩
    have hlookup := Keyed.lookup_of_mem hnd hvalue
    exact ⟨(key, target), ⟨hlink, by rw [hlookup]; rfl⟩, value, hlookup, rfl, rfl⟩

theorem mem_pending {key target : κ} : (key, target) ∈ pending ends links ↔
    (key, target) ∈ links ∧ target ∉ ends.map Prod.fst := by
  rw [pending, List.mem_filter]
  refine and_congr_right fun _ => ?_
  simp only [Bool.not_eq_true', Option.isSome_eq_false_iff, Option.isNone_iff_eq_none, List.lookup_eq_none_iff,
    bne_iff_ne, ne_eq, List.mem_map, not_exists, not_and]
  exact ⟨fun h e he heq => h e he heq.symm, fun h e he heq => h e he heq.symm⟩

/-- A round moves keys from the links to the values. -/
theorem Apart.settled (h : Apart ends links) : Apart (settled ends links) (pending ends links) := by
  have hkeys : ((ready ends links).filterMap fun link =>
      (ends.lookup link.2).map fun value => (link.1, value)).map Prod.fst = (ready ends links).map Prod.fst := by
    rw [List.map_filterMap, ← List.filterMap_eq_map]
    refine List.filterMap_congr fun link hlink => ?_
    obtain ⟨value, hvalue⟩ := Option.isSome_iff_exists.mp (List.mem_filter.mp hlink).2
    simp [hvalue]
  have hperm : (ready ends links ++ pending ends links).Perm links := List.filter_append_perm _ links
  rw [Apart, Chains.settled, List.map_append, hkeys, List.append_assoc, ← List.map_append]
  exact ((hperm.map Prod.fst).append_left _).nodup_iff.mpr h

/-- A round changes nothing of what is reached. -/
theorem reaches_settled (h : Apart ends links) {key : κ} {value : β} :
    Reaches (settled ends links) (pending ends links) key value ↔ Reaches ends links key value := by
  constructor
  · intro hreaches
    induction hreaches with
    | here hmem =>
      rcases (mem_settled h).mp hmem with hvalue | ⟨target, hlink, hvalue⟩
      · exact .here hvalue
      · exact .there hlink (.here hvalue)
    | there hlink _ ih => exact .there (mem_pending.mp hlink).1 ih
  · intro hreaches
    induction hreaches with
    | here hmem => exact .here ((mem_settled h).mpr (.inl hmem))
    | @there key target value hlink htarget ih =>
      by_cases hends : target ∈ ends.map Prod.fst
      · obtain ⟨⟨_, v⟩, hvalue, rfl⟩ := List.mem_map.mp hends
        rw [htarget.unique h (.here hvalue)]
        exact .here ((mem_settled h).mpr (.inr ⟨_, hlink, hvalue⟩))
      · exact .there (mem_pending.mpr ⟨hlink, hends⟩) ih

/-- Where nothing is ready only the values are reached. -/
theorem reaches_of_stuck (hstuck : ready ends links = []) {key : κ} {value : β}
    (h : Reaches ends links key value) : (key, value) ∈ ends := by
  induction h with
  | here hmem => exact hmem
  | there hlink _ ih =>
    have hnot := List.filter_eq_nil_iff.mp hstuck _ hlink
    exact absurd (Keyed.lookup_isSome ih) hnot

/-- The rounds end with every key at its value. -/
theorem mem_resolve (h : Apart ends links) {values : List (κ × β)} (hresolve : resolve ends links = some values) :
    (values.map Prod.fst).Nodup ∧ ∀ key value, (key, value) ∈ values ↔ Reaches ends links key value := by
  fun_induction resolve ends links with
  | case1 ends =>
    cases hresolve
    refine ⟨(List.nodup_append.mp h).1, fun key value => ⟨.here, fun hreaches => ?_⟩⟩
    cases hreaches with
    | here hmem => exact hmem
    | there hlink _ => cases hlink
  | case2 => cases hresolve
  | case3 ends links _ _ ih =>
    obtain ⟨hnd, hmem⟩ := ih h.settled hresolve
    exact ⟨hnd, fun key value => (hmem key value).trans (reaches_settled h)⟩

/-- The rounds succeed exactly when every link reaches a value. -/
theorem resolve_isSome (h : Apart ends links) : (resolve ends links).isSome = true ↔
    ∀ link ∈ links, ∃ value, Reaches ends links link.1 value := by
  fun_induction resolve ends links with
  | case1 ends => simp
  | case2 ends links hne hstuck =>
    obtain ⟨link, rest, rfl⟩ := List.exists_cons_of_ne_nil hne
    refine iff_of_false Bool.false_ne_true fun hall => ?_
    obtain ⟨value, hreaches⟩ := hall link List.mem_cons_self
    exact h.not_linked (reaches_of_stuck hstuck hreaches) (List.mem_cons_self (a := link))
  | case3 ends links _ _ ih =>
    rw [ih h.settled]
    constructor
    · intro hall link hlink
      by_cases hends : link.2 ∈ ends.map Prod.fst
      · obtain ⟨⟨_, value⟩, hvalue, heq⟩ := List.mem_map.mp hends
        subst heq
        exact ⟨value, .there hlink (.here hvalue)⟩
      · obtain ⟨value, hreaches⟩ := hall link (mem_pending.mpr ⟨hlink, hends⟩)
        exact ⟨value, (reaches_settled h).mp hreaches⟩
    · intro hall link hlink
      obtain ⟨value, hreaches⟩ := hall link (mem_pending.mp hlink).1
      exact ⟨value, (reaches_settled h).mpr hreaches⟩

end

end Chains
