import Mathlib.Data.List.Count

/-!
# A ledger of resources

A log of what a program does with resources that have to be given back: acquire one, use it,
release it. `replay` reads the log and keeps the list of resources now open; it fails at an
operation that is not lawful: the use or release of a resource that is not open, or the
acquisition of one while another of its kind is.

* `replay_append`: a log is replayed piece by piece.
* `replay_count`: what was acquired is what was released and what is still open, so a log that
  leaves nothing open has released each acquisition exactly once.
-/

namespace Lib.Ledger

variable {ρ κ : Type}

/-- What a program does with a resource. -/
inductive Op (ρ : Type)
  | acquire (r : ρ)
  | use (r : ρ)
  | release (r : ρ)
  deriving DecidableEq, Repr

variable [DecidableEq ρ] [DecidableEq κ] (kind : ρ → κ)

/-- The open resources after an operation, if it is lawful. -/
def step (o : List ρ) : Op ρ → Option (List ρ)
  | .acquire r => if ∀ x ∈ o, kind x ≠ kind r then some (r :: o) else none
  | .use r => if r ∈ o then some o else none
  | .release r => if r ∈ o then some (o.erase r) else none

/-- The open resources after a log, if all of it is lawful. -/
def replay (o : List ρ) (log : List (Op ρ)) : Option (List ρ) := log.foldlM (step kind) o

variable {kind} {o o' o'' : List ρ} {log log' : List (Op ρ)} {r : ρ}

@[simp] theorem replay_nil : replay kind o [] = some o := rfl

theorem replay_cons {e : Op ρ} :
    replay kind o (e :: log) = (step kind o e).bind fun o => replay kind o log := rfl

theorem replay_append (h : replay kind o log = some o') (h' : replay kind o' log' = some o'') :
    replay kind o (log ++ log') = some o'' := by
  unfold replay at h h' ⊢
  rw [List.foldlM_append, h]
  exact h'

theorem replay_append_eq : replay kind o (log ++ log') =
    (replay kind o log).bind fun o' => replay kind o' log' := by
  unfold replay
  rw [List.foldlM_append]
  rfl

theorem replay_acquire (h : ∀ x ∈ o, kind x ≠ kind r) :
    replay kind o (.acquire r :: log) = replay kind (r :: o) log := by
  rw [replay_cons, step, if_pos h]
  rfl

theorem replay_use (h : r ∈ o) : replay kind o (.use r :: log) = replay kind o log := by
  rw [replay_cons, step, if_pos h]
  rfl

theorem replay_release (h : r ∈ o) :
    replay kind o (.release r :: log) = replay kind (o.erase r) log := by
  rw [replay_cons, step, if_pos h]
  rfl

/-- Uses of open resources leave them open. -/
theorem replay_uses {rs : List ρ} (h : ∀ r ∈ rs, r ∈ o) :
    replay kind o (rs.map Op.use) = some o := by
  induction rs with
  | nil => rfl
  | cons r rs ih =>
    rw [List.map_cons, replay_use (h r List.mem_cons_self)]
    exact ih fun x hx => h x (List.mem_cons_of_mem r hx)

/-- What was acquired is what was released and what is still open. -/
theorem replay_count (h : replay kind o log = some o') (r : ρ) :
    o.count r + log.count (.acquire r) = o'.count r + log.count (.release r) := by
  induction log generalizing o with
  | nil =>
    rw [replay_nil, Option.some.injEq] at h
    rw [h]
    rfl
  | cons e log ih =>
    cases e with
    | acquire x =>
      by_cases hx : ∀ y ∈ o, kind y ≠ kind x
      · rw [replay_acquire hx] at h
        have := ih h
        simp only [List.count_cons, beq_iff_eq, Op.acquire.injEq, reduceCtorEq, if_false] at this ⊢
        omega
      · rw [replay_cons, step, if_neg hx] at h
        exact absurd h (by simp)
    | use x =>
      by_cases hx : x ∈ o
      · rw [replay_use hx] at h
        have := ih h
        simp only [List.count_cons, beq_iff_eq, reduceCtorEq, if_false] at this ⊢
        omega
      · rw [replay_cons, step, if_neg hx] at h
        exact absurd h (by simp)
    | release x =>
      by_cases hx : x ∈ o
      · rw [replay_release hx] at h
        have := ih h
        have hpos := List.count_pos_iff.mpr hx
        simp only [List.count_cons, beq_iff_eq, Op.release.injEq, reduceCtorEq, if_false] at this ⊢
        rw [List.count_erase] at this
        by_cases hxr : x = r
        · subst hxr
          simp at this ⊢
          omega
        · simp [hxr] at this ⊢
          omega
      · rw [replay_cons, step, if_neg hx] at h
        exact absurd h (by simp)

end Lib.Ledger
