import Mathlib.Data.List.Perm.Basic

/-!
# A condition variable

The waiters of a POSIX condition variable, each with a datum of its own: those asleep, and those
that have been woken and do not have the mutex back yet. A signal wakes at least one sleeper if
there is one (which, and how many more, is not said), a broadcast wakes all, a sleeper may wake for
no reason, and one whose deadline passes leaves without having consumed a signal.

`Covered n c` says that, as long as someone is asleep, at least `n` waiters have been woken. With
`n` the number of things to be had it is the invariant behind "no wake-up is lost": each new thing
is signalled (`covered_signal`), each thing taken may cost one woken waiter (`covered_resume`), and
a waiter goes back to sleep only when there is nothing to be had (`covered_zero`).
-/

namespace Lib.CondVar

/-- The waiters. -/
structure Waiters (τ : Type) where
  asleep : List τ
  woken : List τ

namespace Waiters

variable {τ : Type}

/-- A condition variable no one waits on. -/
def empty : Waiters τ := ⟨[], []⟩

/-- A thread goes to sleep. -/
def wait (c : Waiters τ) (t : τ) : Waiters τ := { c with asleep := t :: c.asleep }

/-- A signal wakes the sleepers `woke` and leaves `stay`. -/
def signal [DecidableEq τ] (c : Waiters τ) (woke stay : List τ) : Option (Waiters τ) :=
  if c.asleep.Perm (woke ++ stay) ∧ (c.asleep ≠ [] → woke ≠ []) then
    some ⟨stay, woke ++ c.woken⟩
  else none

/-- A broadcast wakes every sleeper. -/
def broadcast (c : Waiters τ) : Waiters τ := ⟨[], c.asleep ++ c.woken⟩

/-- The `i`-th sleeper wakes for no reason. -/
def spurious (c : Waiters τ) (i : Nat) : Option (Waiters τ) :=
  match c.asleep[i]? with
  | some t => some ⟨c.asleep.eraseIdx i, t :: c.woken⟩
  | none => none

/-- The `i`-th sleeper gives up. -/
def leave (c : Waiters τ) (i : Nat) : Option (τ × Waiters τ) :=
  match c.asleep[i]? with
  | some t => some (t, { c with asleep := c.asleep.eraseIdx i })
  | none => none

/-- The `i`-th woken waiter gets the mutex back. -/
def resume (c : Waiters τ) (i : Nat) : Option (τ × Waiters τ) :=
  match c.woken[i]? with
  | some t => some (t, { c with woken := c.woken.eraseIdx i })
  | none => none

variable {c c' : Waiters τ} {t : τ} {i n : Nat} {woke stay : List τ}

/-! ## Who waits -/

/-- All waiters, asleep or woken. -/
def all (c : Waiters τ) : List τ := c.asleep ++ c.woken

theorem signal_cases [DecidableEq τ] (h : c.signal woke stay = some c') :
    c.asleep.Perm (woke ++ stay) ∧ (c.asleep ≠ [] → woke ≠ []) ∧
      c' = ⟨stay, woke ++ c.woken⟩ := by
  unfold signal at h
  split_ifs at h with hc
  exact ⟨hc.1, hc.2, (Option.some.inj h).symm⟩

theorem spurious_cases (h : c.spurious i = some c') :
    ∃ t, c.asleep[i]? = some t ∧ c' = ⟨c.asleep.eraseIdx i, t :: c.woken⟩ := by
  unfold spurious at h
  split at h
  · rename_i t ht
    exact ⟨t, ht, (Option.some.inj h).symm⟩
  · exact absurd h (by simp)

theorem leave_cases (h : c.leave i = some (t, c')) :
    c.asleep[i]? = some t ∧ c' = { c with asleep := c.asleep.eraseIdx i } := by
  unfold leave at h
  split at h
  · rename_i u hu
    rw [Option.some.injEq, Prod.mk.injEq] at h
    exact ⟨h.1 ▸ hu, h.2.symm⟩
  · exact absurd h (by simp)

theorem resume_cases (h : c.resume i = some (t, c')) :
    c.woken[i]? = some t ∧ c' = { c with woken := c.woken.eraseIdx i } := by
  unfold resume at h
  split at h
  · rename_i u hu
    rw [Option.some.injEq, Prod.mk.injEq] at h
    exact ⟨h.1 ▸ hu, h.2.symm⟩
  · exact absurd h (by simp)

theorem mem_all_signal [DecidableEq τ] (h : c.signal woke stay = some c') {u : τ} :
    u ∈ c'.all ↔ u ∈ c.all := by
  obtain ⟨hperm, -, rfl⟩ := signal_cases h
  simp only [all, List.mem_append, hperm.mem_iff]
  tauto

theorem mem_all_spurious (h : c.spurious i = some c') {u : τ} (hu : u ∈ c'.all) :
    u ∈ c.all := by
  obtain ⟨t, ht, rfl⟩ := spurious_cases h
  simp only [all, List.mem_append, List.mem_cons] at hu ⊢
  rcases hu with hu | rfl | hu
  · exact Or.inl (List.mem_of_mem_eraseIdx hu)
  · exact Or.inl (List.mem_of_getElem? ht)
  · exact Or.inr hu

theorem mem_all_broadcast {u : τ} (hu : u ∈ c.broadcast.all) : u ∈ c.all := by
  simpa [all, broadcast] using hu

theorem mem_all_leave (h : c.leave i = some (t, c')) {u : τ} (hu : u ∈ c'.all) :
    u ∈ c.all := by
  obtain ⟨-, rfl⟩ := leave_cases h
  simp only [all, List.mem_append] at hu ⊢
  exact hu.imp_left List.mem_of_mem_eraseIdx

theorem mem_all_resume (h : c.resume i = some (t, c')) {u : τ} (hu : u ∈ c'.all) :
    u ∈ c.all := by
  obtain ⟨-, rfl⟩ := resume_cases h
  simp only [all, List.mem_append] at hu ⊢
  exact hu.imp_right List.mem_of_mem_eraseIdx

theorem mem_of_resume (h : c.resume i = some (t, c')) : t ∈ c.all := by
  obtain ⟨ht, -⟩ := resume_cases h
  exact List.mem_append_right _ (List.mem_of_getElem? ht)

/-! ## No wake-up is lost -/

/-- While someone is asleep, at least `n` waiters are on their way. -/
def Covered (n : Nat) (c : Waiters τ) : Prop := c.asleep ≠ [] → n ≤ c.woken.length

theorem Covered.mono {m : Nat} (h : Covered n c) (hm : m ≤ n) : Covered m c :=
  fun ha => Nat.le_trans hm (h ha)

theorem covered_zero (c : Waiters τ) : Covered 0 c := fun _ => Nat.zero_le _

/-- A new thing is signalled. -/
theorem covered_signal [DecidableEq τ] (h : Covered n c) (hs : c.signal woke stay = some c') :
    Covered (n + 1) c' := by
  obtain ⟨hperm, hwoke, rfl⟩ := signal_cases hs
  intro hstay
  have hne : c.asleep ≠ [] := by
    intro hnil
    rw [hnil] at hperm
    exact hstay (List.append_eq_nil_iff.mp (List.nil_perm.mp hperm)).2
  have hpos : 0 < woke.length := List.length_pos_iff.mpr (hwoke hne)
  have hle := h hne
  simp only [List.length_append]
  omega

theorem covered_spurious (h : Covered n c) (hs : c.spurious i = some c') : Covered n c' := by
  obtain ⟨t, ht, rfl⟩ := spurious_cases hs
  intro _
  have hle := h (List.ne_nil_of_mem (List.mem_of_getElem? ht))
  simp only [List.length_cons]
  omega

theorem covered_broadcast (n : Nat) (c : Waiters τ) : Covered n c.broadcast :=
  fun h => absurd rfl h

theorem covered_leave (h : Covered n c) (hs : c.leave i = some (t, c')) : Covered n c' := by
  obtain ⟨ht, rfl⟩ := leave_cases hs
  exact fun _ => h (List.ne_nil_of_mem (List.mem_of_getElem? ht))

/-- A woken waiter takes a thing. -/
theorem covered_resume (h : Covered n c) (hs : c.resume i = some (t, c')) :
    Covered (n - 1) c' := by
  obtain ⟨ht, rfl⟩ := resume_cases hs
  intro ha
  have hle := h ha
  obtain ⟨hi, -⟩ := List.getElem?_eq_some_iff.mp ht
  rw [List.length_eraseIdx_of_lt hi]
  omega

end Waiters

end Lib.CondVar
