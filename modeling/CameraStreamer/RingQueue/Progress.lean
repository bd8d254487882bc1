import CameraStreamer.Lib.Simulation
import CameraStreamer.RingQueue.Spsc

/-!
# The producer never waits for the consumer

`push` (`src/ring_queue.cpp:111-166`) shares the mutex with `pop` and `shutdown`, which hold it for
one critical section each, and has one loop, which evicts. `pushWork` is the number of steps the
`push`es under way have left. It falls with each of their steps and no other step changes it, so it
is at most 4 for the `push` that holds the mutex, however many packets are held and whatever the
consumers do (`push_progress`).

* **`push_never_blocks`**: in every reachable state a `push` can enter unless another holds the
  mutex; one that holds the mutex can always step, and returns within 4 steps.
-/

namespace CameraStreamer

open Lib.Machine

namespace QState

variable {s s' : QState} {a : QAction} {capacity maxFrameSize : Nat}

/-- No `push` is called. -/
def NoCall (_ : QState) (a : QAction) : Prop := ∀ x, a ≠ .pushCall x

/-- The steps of other threads. -/
def others (_ : QState) (a : QAction) : Bool := !isPush a

/-- The steps the `push` that holds the mutex has left, at most. -/
def mutexWork (s : QState) : Nat :=
  match s.pushing with
  | some (.evict _) => if s.q.capacity ≤ s.q.count then 4 else 3
  | some (.guard _) => 2
  | some (.write _) => 1
  | none => 0

/-- The steps the `push`es under way have left: those refused have their refusal to count. -/
def pushWork (s : QState) : Nat := s.mutexWork + s.uncounted

theorem mutexWork_le (s : QState) : s.mutexWork ≤ 4 := by
  unfold mutexWork
  split
  · split <;> decide
  · decide
  · decide
  · decide

/-- Each step of a `push` is one less to do. -/
theorem pushWork_falls (hI : s.Inv) (ha : isPush a = true) (hs : s.step a = some s') :
    s'.pushWork < s.pushWork := by
  cases a with
  | pushTest =>
    obtain ⟨x, hpc, ⟨hfull, hu, -⟩ | ⟨hfull, -, rfl⟩ | ⟨hroom, rfl⟩⟩ := pushTest_cases hs
    · cases hu.symm.trans (hI.tail_free_of_full hfull)
    · have hle := hI.count_le
      have hpos := hI.cap_pos
      have hroom : ¬ s.q.evict.capacity ≤ s.q.evict.count := by
        simp only [RingQueue.evict]
        omega
      simp only [pushWork, mutexWork, hpc, if_pos hfull, if_neg hroom]
      omega
    · simp only [pushWork, mutexWork, hpc, if_neg (Nat.not_le.mpr hroom)]
      omega
  | pushGuard =>
    obtain ⟨x, hpc, ⟨-, rfl⟩ | ⟨-, rfl⟩⟩ := pushGuard_cases hs
    · simp only [pushWork, mutexWork, hpc, pushRefuse]
      omega
    · simp only [pushWork, mutexWork, hpc]
      omega
  | pushWrite =>
    obtain ⟨x, hpc, rfl⟩ := pushWrite_cases hs
    simp only [pushWork, mutexWork, hpc]
    omega
  | pushCount =>
    obtain ⟨hu, rfl⟩ := pushCount_cases hs
    have hwork : mutexWork { s with q := s.q.refuse, uncounted := s.uncounted - 1 } =
        s.mutexWork := rfl
    unfold pushWork
    rw [hwork]
    simp only
    omega
  | pushCall x => cases ha
  | pop t => cases ha
  | popBuild i => cases ha
  | popFail i => cases ha
  | release i => cases ha
  | shutdown => cases ha

/-- No other thread gives a `push` more to do. -/
theorem pushWork_stays (hcall : NoCall s a) (ha : isPush a = false) (hs : s.step a = some s') :
    s'.pushWork = s.pushWork := by
  cases a with
  | pushCall x => exact absurd rfl (hcall x)
  | pushTest => exact absurd ha nofun
  | pushGuard => exact absurd ha nofun
  | pushWrite => exact absurd ha nofun
  | pushCount => exact absurd ha nofun
  | pop t =>
    rcases pop_cases hs with rfl | ⟨hpc, -, rfl⟩
    · rfl
    · simp only [pushWork, mutexWork, popTake, hpc]
  | popBuild i =>
    obtain ⟨p, -, rfl⟩ := popBuild_cases hs
    rfl
  | popFail i =>
    obtain ⟨p, -, rfl⟩ := popFail_cases hs
    rfl
  | release i =>
    obtain ⟨p, -, rfl⟩ := release_cases hs
    rfl
  | shutdown =>
    obtain ⟨-, rfl⟩ := shutdown_cases hs
    rfl

/-- A `push` that holds the mutex can step. -/
theorem push_enabled (hI : s.Inv) (hpc : s.pushing.isSome = true) :
    ∃ a s', isPush a = true ∧ s.step a = some s' := by
  obtain ⟨p, hp⟩ := Option.isSome_iff_exists.mp hpc
  cases p with
  | evict x =>
    rcases Nat.lt_or_ge s.q.count s.q.capacity with hroom | hfull
    · exact ⟨.pushTest, _, rfl, step_room hp hroom⟩
    · exact ⟨.pushTest, _, rfl, step_evict hp hfull (hI.tail_free_of_full hfull)⟩
  | guard x => exact ⟨.pushGuard, _, rfl, step_guard hp⟩
  | write x => exact ⟨.pushWrite, _, rfl, step_write hp⟩

/-- A `push` can enter while no other holds the mutex. -/
theorem push_enters (hpc : s.pushing = none) (x : PushArgs) :
    ∃ s', s.step (.pushCall x) = some s' := by
  cases hacc : s.q.accepts x with
  | false => exact ⟨s, by simp [step, pushCall, hacc]⟩
  | true =>
    cases hsd : s.q.shutdown with
    | false => exact ⟨_, step_enter hpc hacc hsd⟩
    | true => exact ⟨s, by simp [step, pushCall, hpc, hacc, hsd]⟩

/-- **The `push`es under way come to their end**, whatever the other threads do. -/
theorem push_progress :
    Progress step NoCall Inv others pushWork fun s => s.pushing = none ∧ s.uncounted = 0 where
  keeps _ hI _ hs := inv_step hI hs
  stays a _ hcall hs hidle := Nat.le_of_eq (pushWork_stays hcall (by simpa [others] using hidle) hs)
  falls a hI _ hs hidle := pushWork_falls hI (by simpa [others] using hidle) hs
  enabled {s} hI hdone := by
    by_cases hpc : s.pushing = none
    · have hu : 0 < s.uncounted := Nat.pos_of_ne_zero fun h => hdone ⟨hpc, h⟩
      exact ⟨.pushCount, _, fun x => nofun, rfl, step_count hu⟩
    · obtain ⟨a, s', ha, hs⟩ := push_enabled hI (Option.isSome_iff_ne_none.mpr hpc)
      refine ⟨a, s', fun x hx => ?_, by rw [others, ha]; rfl, hs⟩
      rw [hx] at ha
      exact absurd ha nofun

/-- What a producer may rely on. -/
structure NeverBlocks (s : QState) : Prop where
  enters : s.pushing = none → ∀ x, ∃ s', s.step (.pushCall x) = some s'
  goesOn : s.pushing.isSome = true → ∃ a s', isPush a = true ∧ s.step a = some s'
  /-- In every run without a new call, the `push` that holds the mutex takes at most 4 more steps,
  and each refused one its step of counting. -/
  bounded : ∀ as s', Runs step NoCall as s s' →
    (trace step (busy others) as s).length ≤ 4 + s.uncounted
  /-- When its own steps are used up a run has brought every `push` to its return. -/
  returns : ∀ as s', Runs step NoCall as s s' →
    (∀ a t, isPush a = true → s'.step a ≠ some t) → s'.pushing = none ∧ s'.uncounted = 0

/-- **The producer never blocks**, over every interleaving and with any number of packets held. -/
theorem push_never_blocks (hc : 0 < capacity) (hr : Reachable Any capacity maxFrameSize s) :
    NeverBlocks s where
  enters hpc x := push_enters hpc x
  goesOn hpc := push_enabled (inv_of_reachable hc hr) hpc
  bounded as s' hrun := by
    have hle := push_progress.bounded hrun (inv_of_reachable hc hr)
    have hmutex := mutexWork_le s
    unfold pushWork at hle
    omega
  returns as s' hrun hstuck := by
    have hI := push_progress.invariant hrun (inv_of_reachable hc hr)
    refine push_progress.done_of_stuck hI fun a t _ hidle => hstuck a t ?_
    simpa [others] using hidle

/-- A full queue behind a held packet. -/
theorem push_never_blocks_behind_held : ∃ s : QState, s.held.length = 1 ∧ NeverBlocks s := by
  obtain ⟨s, hr, -, -, hheld, -⟩ := reach_full_behind_held
  exact ⟨s, hheld, push_never_blocks (by decide) (hr.mono fun _ _ _ => trivial)⟩

end QState

end CameraStreamer
