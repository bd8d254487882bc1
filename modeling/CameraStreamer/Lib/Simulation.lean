import CameraStreamer.Lib.Machine

/-!
# Simulation and progress of partial machines

Two rules over the machines of `Lib/Machine.lean`.

* **Forward simulation**, `Simulates`: each step of a machine is matched by the abstract actions
  it `shows`, none or several. `Simulates.runs`: then every run is matched by the run of what its
  steps show (`trace`), from related states to related states.
* **Progress**, `Progress`: a rank falls with every step that is not idle and does not rise with
  an idle one, and where the machine is not done some step that is not idle is enabled. Then a run
  has no more such steps than the rank of its first state (`Progress.bounded`), and the machine can
  always be brought to its end (`Progress.completes`).
-/

namespace Lib.Machine

variable {σ τ α β : Type}

/-- What the steps of a run show, in order. -/
def trace (step : σ → α → Option σ) (shows : σ → α → List β) : List α → σ → List β
  | [], _ => []
  | a :: as, s => shows s a ++ ((step s a).map (trace step shows as)).getD []

theorem trace_cons {step : σ → α → Option σ} {shows : σ → α → List β} {a : α} {as : List α}
    {s s' : σ} (hs : step s a = some s') :
    trace step shows (a :: as) s = shows s a ++ trace step shows as s' := by
  simp only [trace, hs, Option.map_some, Option.getD_some]

theorem exec_append (step : σ → α → Option σ) (as bs : List α) (s : σ) :
    exec step (as ++ bs) s = (exec step as s).bind (exec step bs) := by
  induction as generalizing s with
  | nil => rfl
  | cons a as ih =>
    simp only [List.cons_append, exec]
    cases step s a with
    | none => rfl
    | some t => exact ih t

/-! ## Forward simulation -/

/-- `J` is kept, and under it each step from a state related by `R` is matched by what it shows. -/
structure Simulates (step : σ → α → Option σ) (ok : σ → α → Prop) (astep : τ → β → Option τ)
    (shows : σ → α → List β) (J : σ → Prop) (R : σ → τ → Prop) : Prop where
  keeps : ∀ {s s' : σ} (a : α), J s → ok s a → step s a = some s' → J s'
  matched : ∀ {s s' : σ} {t : τ} (a : α), J s → R s t → ok s a → step s a = some s' →
    ∃ t', exec astep (shows s a) t = some t' ∧ R s' t'

section Simulation

variable {step : σ → α → Option σ} {ok : σ → α → Prop} {astep : τ → β → Option τ}
  {shows : σ → α → List β} {J : σ → Prop} {R : σ → τ → Prop}

/-- **The simulation rule.** -/
theorem Simulates.runs (h : Simulates step ok astep shows J R) {as : List α} {s s' : σ} {t : τ}
    (hrun : Runs step ok as s s') (hJ : J s) (hR : R s t) :
    ∃ t', exec astep (trace step shows as s) t = some t' ∧ R s' t' := by
  induction as generalizing s t with
  | nil =>
    have heq : s = s' := hrun
    rw [← heq]
    exact ⟨t, rfl, hR⟩
  | cons a as ih =>
    obtain ⟨hok, u, hs, hrun⟩ := hrun
    obtain ⟨t₁, hex, hR₁⟩ := h.matched a hJ hR hok hs
    obtain ⟨t₂, hex₂, hR₂⟩ := ih hrun (h.keeps a hJ hok hs) hR₁
    refine ⟨t₂, ?_, hR₂⟩
    rw [trace_cons hs, exec_append, hex]
    exact hex₂

end Simulation

/-! ## Progress -/

/-- The steps of a run that are not idle. -/
def busy (idle : σ → α → Bool) (s : σ) (a : α) : List α := if idle s a then [] else [a]

/-- Where no step is idle these are all. -/
theorem Runs.trace_busy {step : σ → α → Option σ} {ok : σ → α → Prop} {as : List α} {s s' : σ}
    (h : Runs step ok as s s') : trace step (busy fun _ _ => false) as s = as := by
  induction as generalizing s with
  | nil => rfl
  | cons a as ih =>
    obtain ⟨-, t, hs, h⟩ := h
    rw [trace_cons hs, ih h]
    rfl

/-- Every step that is not idle brings the end nearer, and there is one as long as the end has not
come. -/
structure Progress (step : σ → α → Option σ) (ok : σ → α → Prop) (J : σ → Prop)
    (idle : σ → α → Bool) (rank : σ → Nat) (done : σ → Prop) : Prop where
  keeps : ∀ {s s' : σ} (a : α), J s → ok s a → step s a = some s' → J s'
  stays : ∀ {s s' : σ} (a : α), J s → ok s a → step s a = some s' → idle s a = true →
    rank s' ≤ rank s
  falls : ∀ {s s' : σ} (a : α), J s → ok s a → step s a = some s' → idle s a = false →
    rank s' < rank s
  enabled : ∀ {s : σ}, J s → ¬ done s → ∃ a s', ok s a ∧ idle s a = false ∧ step s a = some s'

section Progress

variable {step : σ → α → Option σ} {ok : σ → α → Prop} {J : σ → Prop} {idle : σ → α → Bool}
  {rank : σ → Nat} {done : σ → Prop}

theorem Progress.invariant (h : Progress step ok J idle rank done) {as : List α} {s s' : σ}
    (hrun : Runs step ok as s s') (hJ : J s) : J s' := by
  induction as generalizing s with
  | nil =>
    have heq : s = s' := hrun
    rwa [← heq]
  | cons a as ih =>
    obtain ⟨hok, u, hs, hrun⟩ := hrun
    exact ih hrun (h.keeps a hJ hok hs)

/-- What no step raises is no higher at the end of a run. -/
theorem Progress.le_of_step (h : Progress step ok J idle rank done) {f : σ → Nat}
    (hf : ∀ {s s' : σ} (a : α), J s → ok s a → step s a = some s' → f s' ≤ f s) {as : List α}
    {s s' : σ} (hrun : Runs step ok as s s') (hJ : J s) : f s' ≤ f s := by
  induction as generalizing s with
  | nil =>
    have heq : s = s' := hrun
    exact Nat.le_of_eq (congrArg f heq.symm)
  | cons a as ih =>
    obtain ⟨hok, u, hs, hrun⟩ := hrun
    exact Nat.le_trans (ih hrun (h.keeps a hJ hok hs)) (hf a hJ hok hs)

/-- **A run has no more steps that are not idle than the rank it starts with.** -/
theorem Progress.bounded (h : Progress step ok J idle rank done) {as : List α} {s s' : σ}
    (hrun : Runs step ok as s s') (hJ : J s) :
    (trace step (busy idle) as s).length + rank s' ≤ rank s := by
  induction as generalizing s with
  | nil =>
    have heq : s = s' := hrun
    rw [← heq]
    exact Nat.le_of_eq (Nat.zero_add _)
  | cons a as ih =>
    obtain ⟨hok, u, hs, hrun⟩ := hrun
    have hrest := ih hrun (h.keeps a hJ hok hs)
    rw [trace_cons hs, List.length_append]
    cases hidle : idle s a with
    | true =>
      have hle := h.stays a hJ hok hs hidle
      simp only [busy, hidle, if_true, List.length_nil]
      omega
    | false =>
      have hlt := h.falls a hJ hok hs hidle
      simp only [busy, hidle, Bool.false_eq_true, if_false, List.length_singleton]
      omega

/-- **The end can always be reached**, by steps none of which is idle. -/
theorem Progress.completes (h : Progress step ok J idle rank done) {s : σ} (hJ : J s) :
    ∃ as s', Runs step (fun s a => ok s a ∧ idle s a = false) as s s' ∧ done s' := by
  induction hn : rank s using Nat.strongRecOn generalizing s with
  | _ n ih =>
    by_cases hdone : done s
    · exact ⟨[], s, rfl, hdone⟩
    · obtain ⟨a, t, hok, hidle, hs⟩ := h.enabled hJ hdone
      have hlt := h.falls a hJ hok hs hidle
      obtain ⟨as, s', hrun, hend⟩ := ih (rank t) (hn ▸ hlt) (h.keeps a hJ hok hs) rfl
      exact ⟨a :: as, s', Runs.cons ⟨hok, hidle⟩ hs hrun, hend⟩

/-- Where no step that is not idle is enabled, the end has come. -/
theorem Progress.done_of_stuck (h : Progress step ok J idle rank done) {s : σ} (hJ : J s)
    (hstuck : ∀ a s', ok s a → idle s a = false → step s a ≠ some s') : done s := by
  refine Classical.byContradiction fun hdone => ?_
  obtain ⟨a, s', hok, hidle, hs⟩ := h.enabled hJ hdone
  exact hstuck a s' hok hidle hs

end Progress

end Lib.Machine
