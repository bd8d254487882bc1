import Mathlib.Logic.Relation

/-!
# Partial machines: reachability under a discipline, invariants, projections

A machine is a partial step function `step : σ → α → Option σ`: `none` means that the action is
not enabled in that state. `Reach step ok s₀` collects the states of the runs from `s₀` whose
actions all satisfy `ok` at the state they are taken in; `ok` is where a client's calling
discipline is stated, and `fun _ _ => True` leaves the machine unrestricted.

Results:
* `Reach.invariant`: an invariant of the enabled, allowed steps holds of every reachable state.
* `Reach.mono`: a weaker discipline reaches more.
* `Reach.project`: if every step of one machine is, through `f`, a stutter or an allowed step of
  another, then `f` maps reachable states to reachable states.
* `Runs.reach`: a list of allowed actions that runs through is such a run; `exec` computes it.
* `Runs.ok_iff`: a counter that grows exactly on the steps that are not allowed tells whether a
  run had one.
-/

namespace Lib.Machine

variable {σ τ α β : Type}

/-- The states of the runs from `s₀` whose actions are enabled and allowed. -/
inductive Reach (step : σ → α → Option σ) (ok : σ → α → Prop) (s₀ : σ) : σ → Prop
  | init : Reach step ok s₀ s₀
  | tail {s s' : σ} (a : α) (hr : Reach step ok s₀ s) (hok : ok s a) (hs : step s a = some s') :
      Reach step ok s₀ s'

/-- `I` holds at the start and is kept by every enabled, allowed step. -/
structure Invariant (step : σ → α → Option σ) (ok : σ → α → Prop) (s₀ : σ) (I : σ → Prop) :
    Prop where
  init : I s₀
  step : ∀ {s s' : σ} (a : α), I s → ok s a → step s a = some s' → I s'

variable {step : σ → α → Option σ} {ok : σ → α → Prop} {s₀ s : σ}

/-- **The invariant rule.** -/
theorem Reach.invariant {I : σ → Prop} (hI : Invariant step ok s₀ I)
    (hr : Reach step ok s₀ s) : I s := by
  induction hr with
  | init => exact hI.init
  | tail a _ hok hs ih => exact hI.step a ih hok hs

/-- The invariant rule, with reachability itself as an earlier invariant. -/
theorem Reach.invariant_of {I J : σ → Prop} (hJ : ∀ s, Reach step ok s₀ s → J s) (h0 : I s₀)
    (hI : ∀ {s s' : σ} (a : α), J s → I s → ok s a → step s a = some s' → I s')
    (hr : Reach step ok s₀ s) : I s := by
  induction hr with
  | init => exact h0
  | tail a hr hok hs ih => exact hI a (hJ _ hr) ih hok hs

theorem Reach.mono {ok' : σ → α → Prop} (h : ∀ s a, ok s a → ok' s a)
    (hr : Reach step ok s₀ s) : Reach step ok' s₀ s := by
  induction hr with
  | init => exact Reach.init
  | tail a _ hok hs ih => exact Reach.tail a ih (h _ _ hok) hs

/-- **Projection**: a machine whose steps are stutters or allowed steps of another, through `f`,
stays inside the other's reachable states. -/
theorem Reach.project {step' : τ → β → Option τ} {ok' : τ → β → Prop} (f : σ → τ)
    (hf : ∀ {s s' : σ} (a : α), Reach step ok s₀ s → ok s a → step s a = some s' →
      f s' = f s ∨ ∃ b, ok' (f s) b ∧ step' (f s) b = some (f s'))
    (hr : Reach step ok s₀ s) : Reach step' ok' (f s₀) (f s) := by
  induction hr with
  | init => exact Reach.init
  | tail a hr hok hs ih =>
    rcases hf a hr hok hs with heq | ⟨b, hb, hstep⟩
    · rw [heq]; exact ih
    · exact Reach.tail b ih hb hstep

/-! ## Runs of a given list of actions -/

/-- The actions, each allowed and enabled where it is taken, lead from `s` to `s'`. -/
def Runs (step : σ → α → Option σ) (ok : σ → α → Prop) : List α → σ → σ → Prop
  | [], s, s' => s = s'
  | a :: as, s, s' => ok s a ∧ ∃ t, step s a = some t ∧ Runs step ok as t s'

theorem Runs.cons {a : α} {as : List α} {t t' : σ} (hok : ok s a) (hs : step s a = some t)
    (h : Runs step ok as t t') : Runs step ok (a :: as) s t' :=
  ⟨hok, t, hs, h⟩

theorem Runs.reach {as : List α} {t t' : σ} (hr : Reach step ok s₀ t)
    (h : Runs step ok as t t') : Reach step ok s₀ t' := by
  induction as generalizing t with
  | nil =>
    have heq : t = t' := h
    rw [← heq]; exact hr
  | cons a as ih =>
    obtain ⟨hok, u, hs, h⟩ := h
    exact ih (Reach.tail a hr hok hs) h

theorem Runs.mono {ok' : σ → α → Prop} (h : ∀ s a, ok s a → ok' s a) {as : List α} {t t' : σ}
    (hr : Runs step ok as t t') : Runs step ok' as t t' := by
  induction as generalizing t with
  | nil => exact hr
  | cons a as ih =>
    obtain ⟨hok, u, hs, hr⟩ := hr
    exact ⟨h _ _ hok, u, hs, ih hr⟩

/-- The state the actions lead to. -/
def exec (step : σ → α → Option σ) : List α → σ → Option σ
  | [], s => some s
  | a :: as, s => (step s a).bind (exec step as)

/-- A run may be computed, where the discipline does not depend on the state. -/
theorem Runs.of_exec {as : List α} {t t' : σ} (hok : ∀ a ∈ as, ∀ s, ok s a)
    (h : exec step as t = some t') : Runs step ok as t t' := by
  induction as generalizing t with
  | nil => exact Option.some.inj h
  | cons a as ih =>
    obtain ⟨u, hs, h⟩ := Option.bind_eq_some_iff.mp h
    exact ⟨hok a List.mem_cons_self t, u, hs, ih (fun b hb => hok b (List.mem_cons_of_mem a hb)) h⟩

section Count

variable {any : σ → α → Prop} {n : σ → Nat}

theorem Runs.count_le (keeps : ∀ {s s' : σ} {a : α}, ok s a → step s a = some s' → n s' = n s)
    (grows : ∀ {s s' : σ} {a : α}, ¬ ok s a → step s a = some s' → n s < n s') {as : List α}
    {t t' : σ} (h : Runs step any as t t') : n t ≤ n t' := by
  induction as generalizing t with
  | nil => exact Nat.le_of_eq (congrArg n h)
  | cons a as ih =>
    obtain ⟨-, u, hs, h⟩ := h
    have hle := ih h
    by_cases hok : ok t a
    · rw [← keeps hok hs]
      exact hle
    · exact Nat.le_of_lt (Nat.lt_of_lt_of_le (grows hok hs) hle)

/-- **Counting what is not allowed**: where `n` stays on the allowed steps and grows on the others,
a run kept `n` iff all its steps were allowed. -/
theorem Runs.ok_iff (keeps : ∀ {s s' : σ} {a : α}, ok s a → step s a = some s' → n s' = n s)
    (grows : ∀ {s s' : σ} {a : α}, ¬ ok s a → step s a = some s' → n s < n s') {as : List α}
    {t t' : σ} (h : Runs step any as t t') : Runs step ok as t t' ↔ n t' = n t := by
  induction as generalizing t with
  | nil =>
    have heq : t = t' := h
    rw [heq]
    exact ⟨fun _ => rfl, fun _ => rfl⟩
  | cons a as ih =>
    obtain ⟨-, u, hs, h⟩ := h
    have hle := Runs.count_le keeps grows h
    constructor
    · rintro ⟨hok, u', hs', h'⟩
      rw [hs, Option.some.injEq] at hs'
      rw [(ih h).mp (hs' ▸ h'), keeps hok hs]
    · intro heq
      by_cases hok : ok t a
      · exact ⟨hok, u, hs, (ih h).mpr (heq.trans (keeps hok hs).symm)⟩
      · have hlt := grows hok hs
        omega

end Count

end Lib.Machine
