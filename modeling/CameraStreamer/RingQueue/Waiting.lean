import CameraStreamer.Lib.CondVar
import CameraStreamer.RingQueue.Pop

/-!
# The ring queue and its waiters

`Waiting` puts the condition variable `not_empty_` beside the interleaved queue of `Machine.lean`:
the consumer threads asleep in `pop` (`src/ring_queue.cpp:173-198`), those woken, those whose
deadline has passed, and the calls of `shutdown` between their unlock and their broadcast
(`ring_queue.cpp:250-257`). Any number of producers and consumers, with any timeouts.

* `pushWrite` signals under the mutex; which sleepers wake comes with the action, at least one if
  there is one. Sleepers may also wake for no reason.
* `pop` enters with the mutex and tests; `resume` is a woken thread that has the mutex back and
  tests again. Both wait, return `nullptr`, or take.
* `timeOut` consumes no signal; the thread needs the mutex to return (`giveUp`).

Results:
* `queue_reachable`: the queue beside its waiters is that of `Machine.lean`, so what is proved
  there holds here.
* **`no_lost_wakeup`**: outside the gap of a `shutdown`, while a consumer sleeps the queue is open
  and no more frames are queued than consumers are on their way.
* **`null_pops`**: a `pop` that returns `nullptr` loses nothing unless `malloc` failed.
-/

namespace CameraStreamer

open Lib.Machine Lib.CondVar Lib.Fifo

/-- A step of the queue that neither waits, wakes, nor closes. -/
def QAction.inside : QAction → Bool
  | .pushWrite => false
  | .pop _ => false
  | .shutdown => false
  | _ => true

/-- The queue, and the threads that wait for it. -/
structure Waiting where
  qs : QState
  /-- The threads in `pthread_cond_wait` or `pthread_cond_timedwait`, by their `timeout_ms`. -/
  notEmpty : Waiters Int
  /-- The threads whose wait has timed out and that do not have the mutex back yet. -/
  expired : Nat
  /-- The calls of `shutdown` that have unlocked and not yet broadcast. -/
  gap : Nat

namespace Waiting

/-- One step of some thread. -/
inductive Action
  | queue (a : QAction)
  | pushWrite (woke stay : List Int)
  | pop (timeoutMs : Int)
  | resume (i : Nat)
  | spurious (i : Nat)
  | timeOut (i : Nat)
  | giveUp
  | shutdown
  | broadcast

/-- A constructed queue no one has used yet. -/
def init (capacity maxFrameSize : Nat) : Waiting where
  qs := QState.init (RingQueue.construct capacity maxFrameSize true true)
  notEmpty := .empty
  expired := 0
  gap := 0

/-- A `pop` that has the mutex: it waits, returns `nullptr`, or takes. -/
def test (w : Waiting) (timeoutMs : Int) : Option Waiting :=
  if w.qs.pushing.isSome then none
  else
    match w.qs.q.popTest timeoutMs with
    | .wait => some { w with notEmpty := w.notEmpty.wait timeoutMs }
    | .null => some w
    | .take => some { w with qs := w.qs.popTake }

/-- One step of the queue and its waiters. -/
def step (w : Waiting) : Action → Option Waiting
  | .queue a => if a.inside then (w.qs.step a).map fun qs => { w with qs } else none
  | .pushWrite woke stay =>
    match w.qs.step .pushWrite, w.notEmpty.signal woke stay with
    | some qs, some notEmpty => some { w with qs, notEmpty }
    | _, _ => none
  | .pop t => w.test t
  | .resume i =>
    match w.notEmpty.resume i with
    | some (t, notEmpty) => { w with notEmpty }.test t
    | none => none
  | .spurious i => (w.notEmpty.spurious i).map fun notEmpty => { w with notEmpty }
  | .timeOut i =>
    match w.notEmpty.leave i with
    | some (t, notEmpty) =>
      if 0 < t then some { w with notEmpty, expired := w.expired + 1 } else none
    | none => none
  | .giveUp =>
    if w.expired = 0 ∨ w.qs.pushing.isSome then none
    else some { w with expired := w.expired - 1 }
  | .shutdown => (w.qs.step .shutdown).map fun qs => { w with qs, gap := w.gap + 1 }
  | .broadcast =>
    if w.gap = 0 then none
    else some { w with notEmpty := w.notEmpty.broadcast, gap := w.gap - 1 }

/-- Reachable by any interleaving of producers, consumers and `shutdown`s. -/
def Reachable (capacity maxFrameSize : Nat) (w : Waiting) : Prop :=
  Reach step (fun _ _ => True) (init capacity maxFrameSize) w

/-! ## What each step does -/

variable {w w' : Waiting} {capacity maxFrameSize : Nat}

/-- The outcomes of a test. -/
inductive Tests (w : Waiting) (t : Int) : Waiting → Prop
  | wait (ht : w.qs.q.popTest t = .wait) :
      Tests w t { w with notEmpty := w.notEmpty.wait t }
  | null (ht : w.qs.q.popTest t = .null) : Tests w t w
  | take (ht : w.qs.q.popTest t = .take) (hq : w.qs.step (.pop t) = some w.qs.popTake) :
      Tests w t { w with qs := w.qs.popTake }

theorem test_cases {t : Int} (h : w.test t = some w') : Tests w t w' := by
  unfold test at h
  split_ifs at h with hpc
  split at h
  · rename_i ht
    cases h
    exact .wait ht
  · rename_i ht
    cases h
    exact .null ht
  · rename_i ht
    cases h
    refine .take ht ?_
    simp [QState.step, QState.pop, hpc, ht]

/-- The steps, with what made them possible. -/
inductive Moves (w : Waiting) : Action → Waiting → Prop
  | queue {a : QAction} {qs : QState} (hin : a.inside = true) (hq : w.qs.step a = some qs) :
      Moves w (.queue a) { w with qs }
  | pushWrite {woke stay : List Int} {qs : QState} {notEmpty : Waiters Int}
      (hq : w.qs.step .pushWrite = some qs) (hs : w.notEmpty.signal woke stay = some notEmpty) :
      Moves w (.pushWrite woke stay) { w with qs, notEmpty }
  | pop {t : Int} {w' : Waiting} (ht : Tests w t w') : Moves w (.pop t) w'
  | resume {i : Nat} {t : Int} {notEmpty : Waiters Int} {w' : Waiting}
      (hr : w.notEmpty.resume i = some (t, notEmpty)) (ht : Tests { w with notEmpty } t w') :
      Moves w (.resume i) w'
  | spurious {i : Nat} {notEmpty : Waiters Int} (hs : w.notEmpty.spurious i = some notEmpty) :
      Moves w (.spurious i) { w with notEmpty }
  | timeOut {i : Nat} {t : Int} {notEmpty : Waiters Int}
      (hl : w.notEmpty.leave i = some (t, notEmpty)) :
      Moves w (.timeOut i) { w with notEmpty, expired := w.expired + 1 }
  | giveUp : Moves w .giveUp { w with expired := w.expired - 1 }
  | shutdown {qs : QState} (hq : w.qs.step .shutdown = some qs) :
      Moves w .shutdown { w with qs, gap := w.gap + 1 }
  | broadcast : Moves w .broadcast
      { w with notEmpty := w.notEmpty.broadcast, gap := w.gap - 1 }

theorem step_moves {a : Action} (h : w.step a = some w') : Moves w a w' := by
  cases a with
  | queue a =>
    simp only [step] at h
    split_ifs at h with hin
    obtain ⟨qs, hq, rfl⟩ := Option.map_eq_some_iff.mp h
    exact .queue hin hq
  | pushWrite woke stay =>
    simp only [step] at h
    split at h
    · rename_i qs notEmpty hq hs
      cases h
      exact .pushWrite hq hs
    · exact absurd h (by simp)
  | pop t => exact .pop (test_cases h)
  | resume i =>
    simp only [step] at h
    split at h
    · rename_i t notEmpty hr
      exact .resume hr (test_cases h)
    · exact absurd h (by simp)
  | spurious i =>
    obtain ⟨notEmpty, hs, rfl⟩ := Option.map_eq_some_iff.mp h
    exact .spurious hs
  | timeOut i =>
    simp only [step] at h
    split at h
    · rename_i t notEmpty hl
      split_ifs at h
      cases h
      exact .timeOut hl
    · exact absurd h (by simp)
  | giveUp =>
    simp only [step] at h
    split_ifs at h
    cases h
    exact .giveUp
  | shutdown =>
    obtain ⟨qs, hq, rfl⟩ := Option.map_eq_some_iff.mp h
    exact .shutdown hq
  | broadcast =>
    simp only [step] at h
    split_ifs at h
    cases h
    exact .broadcast

/-! ## The queue among its waiters -/

theorem Tests.queue {t : Int} (h : Tests w t w') :
    w'.qs = w.qs ∨ w.qs.step (.pop t) = some w'.qs := by
  cases h with
  | wait ht => exact Or.inl rfl
  | null ht => exact Or.inl rfl
  | take ht hq => exact Or.inr hq

/-- A step is one of the queue, or leaves it alone. -/
theorem queue_step {a : Action} (h : w.step a = some w') :
    w'.qs = w.qs ∨ ∃ b, w.qs.step b = some w'.qs := by
  cases step_moves h with
  | queue hin hq => exact Or.inr ⟨_, hq⟩
  | pushWrite hq hs => exact Or.inr ⟨_, hq⟩
  | pop ht => exact ht.queue.imp_right fun hq => ⟨_, hq⟩
  | resume hr ht => exact ht.queue.imp_right fun hq => ⟨_, hq⟩
  | spurious hs => exact Or.inl rfl
  | timeOut hl => exact Or.inl rfl
  | giveUp => exact Or.inl rfl
  | shutdown hq => exact Or.inr ⟨_, hq⟩
  | broadcast => exact Or.inl rfl

/-- **The queue among its waiters is the queue of `Machine.lean`.** -/
theorem queue_reachable (hr : Reachable capacity maxFrameSize w) :
    QState.Reachable QState.Any capacity maxFrameSize w.qs :=
  hr.project Waiting.qs fun _ _ _ hs =>
    (queue_step hs).imp_right fun ⟨b, hb⟩ => ⟨b, trivial, hb⟩

/-! ## Wake-ups -/

/-- A step that neither waits, wakes, nor closes adds no frame. -/
theorem inside_step {s s' : QState} {a : QAction} (hin : a.inside = true)
    (hs : s.step a = some s') : s'.q.count ≤ s.q.count ∧ s'.q.shutdown = s.q.shutdown := by
  cases a with
  | pushCall a =>
    rcases QState.pushCall_cases hs with ⟨rfl, -⟩ | ⟨-, -, -, rfl⟩ <;> exact ⟨Nat.le_refl _, rfl⟩
  | pushTest =>
    obtain ⟨a, -, ⟨-, -, rfl⟩ | ⟨-, -, rfl⟩ | ⟨-, rfl⟩⟩ := QState.pushTest_cases hs
    · exact ⟨Nat.le_refl _, rfl⟩
    · exact ⟨Nat.sub_le _ _, rfl⟩
    · exact ⟨Nat.le_refl _, rfl⟩
  | pushGuard =>
    obtain ⟨a, -, ⟨-, rfl⟩ | ⟨-, rfl⟩⟩ := QState.pushGuard_cases hs <;> exact ⟨Nat.le_refl _, rfl⟩
  | pushWrite => exact absurd hin Bool.false_ne_true
  | pushCount => obtain ⟨-, rfl⟩ := QState.pushCount_cases hs; exact ⟨Nat.le_refl _, rfl⟩
  | pop t => exact absurd hin Bool.false_ne_true
  | popBuild i => obtain ⟨p, -, rfl⟩ := QState.popBuild_cases hs; exact ⟨Nat.le_refl _, rfl⟩
  | popFail i => obtain ⟨p, -, rfl⟩ := QState.popFail_cases hs; exact ⟨Nat.le_refl _, rfl⟩
  | release i => obtain ⟨p, -, rfl⟩ := QState.release_cases hs; exact ⟨Nat.le_refl _, rfl⟩
  | shutdown => exact absurd hin Bool.false_ne_true

/-- **The wake-up invariant**: each queued frame has a woken consumer on its way as long as one
sleeps, and no one sleeps on a closed queue once its `shutdown` has broadcast. -/
structure Awake (w : Waiting) : Prop where
  covered : w.notEmpty.Covered w.qs.q.count
  closed : w.qs.q.shutdown = true → w.gap = 0 → w.notEmpty.asleep = []
  timeouts : ∀ t ∈ w.notEmpty.all, t ≠ 0

theorem popTest_wait {q : RingQueue} {t : Int} (h : q.popTest t = .wait) :
    t ≠ 0 ∧ q.count = 0 ∧ q.shutdown = false := by
  unfold RingQueue.popTest at h
  split_ifs at h
  simp_all

/-- A waiter that returns `nullptr` has found nothing to take. -/
theorem popTest_null {q : RingQueue} {t : Int} (hm : 0 < q.count → q.mmapped = true)
    (ht : t ≠ 0) (h : q.popTest t = .null) : q.count = 0 := by
  by_contra hc
  unfold RingQueue.popTest at h
  rw [hm (Nat.pos_of_ne_zero hc)] at h
  split_ifs at h
  simp_all

/-- A test, by a thread whose leaving has cost at most one woken waiter. -/
theorem Tests.awake {t : Int} (h : Tests w t w')
    (hcov : w.notEmpty.Covered (w.qs.q.count - 1))
    (hnull : w.qs.q.popTest t = .null → w.notEmpty.Covered w.qs.q.count)
    (hclosed : w.qs.q.shutdown = true → w.gap = 0 → w.notEmpty.asleep = [])
    (htime : ∀ t ∈ w.notEmpty.all, t ≠ 0) : Awake w' := by
  cases h with
  | wait ht =>
    obtain ⟨ht0, hc, hsd⟩ := popTest_wait ht
    refine ⟨?_, fun h => ?_, fun u hu => ?_⟩
    · simp only [hc]
      exact Waiters.covered_zero _
    · rw [hsd] at h
      exact absurd h Bool.false_ne_true
    · rcases List.mem_cons.mp (show u ∈ t :: w.notEmpty.all from hu) with rfl | hu
      · exact ht0
      · exact htime u hu
  | null ht => exact ⟨hnull ht, hclosed, htime⟩
  | take ht hq => exact ⟨hcov, hclosed, htime⟩

theorem awake_step {a : Action} (hm : 0 < w.qs.q.count → w.qs.q.mmapped = true) (h : Awake w)
    (hs : w.step a = some w') : Awake w' := by
  obtain ⟨hcov, hclosed, htime⟩ := h
  cases step_moves hs with
  | queue hin hq =>
    obtain ⟨hle, hsd⟩ := inside_step hin hq
    exact ⟨hcov.mono hle, fun h => hclosed (hsd ▸ h), htime⟩
  | pushWrite hq hsig =>
    obtain ⟨x, -, rfl⟩ := QState.pushWrite_cases hq
    refine ⟨Waiters.covered_signal hcov hsig, fun hsd hgap => ?_,
      fun t ht => htime t ((Waiters.mem_all_signal hsig).mp ht)⟩
    obtain ⟨hperm, -, rfl⟩ := Waiters.signal_cases hsig
    have hnil := hclosed hsd hgap
    rw [hnil] at hperm
    exact (List.append_eq_nil_iff.mp (List.nil_perm.mp hperm)).2
  | pop ht => exact ht.awake (hcov.mono (Nat.sub_le _ _)) (fun _ => hcov) hclosed htime
  | resume hr ht =>
    have hcov' := Waiters.covered_resume hcov hr
    have ht0 := htime _ (Waiters.mem_of_resume hr)
    obtain ⟨-, rfl⟩ := Waiters.resume_cases hr
    refine ht.awake hcov' (fun hnull => ?_) hclosed
      fun u hu => htime u (Waiters.mem_all_resume hr hu)
    rw [show w.qs.q.count = 0 from popTest_null hm ht0 hnull]
    exact Waiters.covered_zero _
  | spurious hsp =>
    refine ⟨Waiters.covered_spurious hcov hsp, fun hsd hgap => ?_,
      fun t ht => htime t (Waiters.mem_all_spurious hsp ht)⟩
    obtain ⟨t, -, rfl⟩ := Waiters.spurious_cases hsp
    simp [hclosed hsd hgap]
  | timeOut hl =>
    refine ⟨Waiters.covered_leave hcov hl, fun hsd hgap => ?_,
      fun t ht => htime t (Waiters.mem_all_leave hl ht)⟩
    obtain ⟨-, rfl⟩ := Waiters.leave_cases hl
    simp [hclosed hsd hgap]
  | giveUp => exact ⟨hcov, hclosed, htime⟩
  | shutdown hq =>
    obtain ⟨-, rfl⟩ := QState.shutdown_cases hq
    exact ⟨hcov, fun _ hgap => absurd hgap (Nat.succ_ne_zero _), htime⟩
  | broadcast =>
    exact ⟨Waiters.covered_broadcast _ _, fun _ _ => rfl,
      fun t ht => htime t (Waiters.mem_all_broadcast ht)⟩

theorem awake_of_reachable (hc : 0 < capacity) (hr : Reachable capacity maxFrameSize w) :
    Awake w := by
  refine hr.invariant_of (J := fun w => 0 < w.qs.q.count → w.qs.q.mmapped = true)
    (fun _ hr => QState.mmapped_of_count hc (queue_reachable hr)) ⟨?_, ?_, ?_⟩
    fun _ hm h _ hs => awake_step hm h hs
  · exact Waiters.covered_zero _
  · exact fun _ _ => rfl
  · exact fun t ht => absurd ht (by simp [init, Waiters.empty, Waiters.all])

/-- No wake-up has been lost. -/
structure NoLostWakeup (w : Waiting) : Prop where
  /-- While a consumer sleeps, the queue is open and no more frames are queued than consumers are
  woken and on their way. -/
  covered : w.gap = 0 → w.notEmpty.asleep ≠ [] →
    w.qs.q.shutdown = false ∧ w.qs.q.count ≤ w.notEmpty.woken.length
  /-- So no one sleeps for good on a queue that has a frame or is closed. -/
  awake : w.gap = 0 → 0 < w.qs.q.count ∨ w.qs.q.shutdown = true → w.notEmpty.asleep ≠ [] →
    w.notEmpty.woken ≠ []

/-- **No lost wake-up**, for every interleaving of producers, any number of consumers with any
timeouts, and `shutdown`, with spurious wake-ups. -/
theorem no_lost_wakeup (hc : 0 < capacity) (hr : Reachable capacity maxFrameSize w) :
    NoLostWakeup w := by
  have h := awake_of_reachable hc hr
  have hcov : w.gap = 0 → w.notEmpty.asleep ≠ [] →
      w.qs.q.shutdown = false ∧ w.qs.q.count ≤ w.notEmpty.woken.length := by
    intro hgap hne
    refine ⟨?_, h.covered hne⟩
    rw [Bool.eq_false_iff]
    exact fun hsd => hne (h.closed hsd hgap)
  refine ⟨hcov, fun hgap hready hne hnil => ?_⟩
  obtain ⟨hsd, hle⟩ := hcov hgap hne
  rw [hnil] at hle
  rcases hready with hpos | hsd'
  · exact absurd hle (Nat.not_le.mpr hpos)
  · rw [hsd] at hsd'
    exact Bool.false_ne_true hsd'

/-- Two consumers sleep, one frame arrives and wakes one of them. -/
theorem reach_two_asleep : ∃ w : Waiting, Reachable 2 4 w ∧ w.gap = 0 ∧
    w.notEmpty.asleep = [1000] ∧ w.qs.q.count = 1 := by
  have hrun : ∃ w, exec step [.pop (-1), .pop 1000, .queue (.pushCall (sampleArgs 0)),
      .queue .pushTest, .queue .pushGuard, .pushWrite [-1] [1000]] (init 2 4) = some w ∧
      w.gap = 0 ∧ w.notEmpty.asleep = [1000] ∧ w.qs.q.count = 1 :=
    ⟨_, rfl, rfl, rfl, rfl⟩
  obtain ⟨w, hrun, hrest⟩ := hrun
  exact ⟨w, (Runs.of_exec (fun _ _ _ => trivial) hrun).reach Reach.init, hrest⟩

theorem no_lost_wakeup_two_asleep : ∃ w : Waiting, w.gap = 0 ∧ w.notEmpty.asleep = [1000] ∧
    w.qs.q.count = 1 ∧ NoLostWakeup w := by
  obtain ⟨w, hr, hgap, hasleep, hcount⟩ := reach_two_asleep
  exact ⟨w, hgap, hasleep, hcount, no_lost_wakeup (by decide) hr⟩

/-! ## What a `nullptr` costs -/

/-- No accepted frame has disappeared: each is returned, on its way, evicted (and counted in
`frames_dropped_`), or still queued. -/
def Accounted (s : QState) : Prop :=
  (accepted s.hist).Perm
    (s.returned ++ s.taken.map s.q.view ++ evicted s.hist ++ s.q.queued)

theorem accounted_iff {s : QState} (h : s.Traced) : Accounted s ↔ s.lost = [] := by
  have hacc : (accepted s.hist).Perm
      (s.returned ++ s.lost ++ s.taken.map s.q.view ++ evicted s.hist ++ s.q.queued) := by
    rw [replay_conserve h.replay]
    exact ((removed_merge s.hist).perm.trans (h.delivered.append_right _)).append_right _
  constructor
  · intro hperm
    have hlen := hperm.length_eq.symm.trans hacc.length_eq
    simp only [List.length_append] at hlen
    exact List.length_eq_zero_iff.mp (by omega)
  · intro hlost
    rwa [hlost, List.append_nil] at hacc

/-- The allocation of a packet does not fail in this step. -/
def MallocOk (_ : Waiting) (a : Action) : Prop := ∀ i, a ≠ .queue (.popFail i)

theorem Tests.lost {t : Int} (h : Tests w t w') : w'.qs.lost = w.qs.lost := by
  cases h <;> rfl

theorem lost_keeps {a : Action} (hok : MallocOk w a) (hs : w.step a = some w') :
    w'.qs.lost = w.qs.lost := by
  cases step_moves hs with
  | queue hin hq =>
    refine (QState.step_effects hq).lost.resolve_right ?_
    rintro ⟨i, rfl⟩
    exact hok i rfl
  | pushWrite hq hsig =>
    obtain ⟨x, -, rfl⟩ := QState.pushWrite_cases hq
    rfl
  | pop ht => exact ht.lost
  | resume hr ht => exact ht.lost
  | spurious hsp => rfl
  | timeOut hl => rfl
  | giveUp => rfl
  | shutdown hq =>
    obtain ⟨-, rfl⟩ := QState.shutdown_cases hq
    rfl
  | broadcast => rfl

theorem lost_grows {a : Action} (hok : ¬ MallocOk w a) (hs : w.step a = some w') :
    w.qs.lost.length < w'.qs.lost.length := by
  unfold MallocOk at hok
  push Not at hok
  obtain ⟨i, rfl⟩ := hok
  cases step_moves hs with
  | queue hin hq =>
    obtain ⟨p, -, rfl⟩ := QState.popFail_cases hq
    simp

/-- The step is the `nullptr` return of a `pop`. -/
def ReturnsNull (w : Waiting) : Action → Prop
  | .pop t => w.qs.q.popTest t = .null
  | .resume i => ∃ t notEmpty, w.notEmpty.resume i = some (t, notEmpty) ∧
      w.qs.q.popTest t = .null
  | .giveUp => True
  | .queue (.popFail _) => True
  | _ => False

theorem Tests.queue_of_null {t : Int} (h : Tests w t w') (hnull : w.qs.q.popTest t = .null) :
    w'.qs = w.qs := by
  cases h with
  | wait ht => rfl
  | null ht => rfl
  | take ht hq => exact absurd (hnull.symm.trans ht) (by simp)

/-- The `nullptr` of a `pop` that took nothing leaves the queue alone, whoever else is running. -/
theorem null_keeps {a : Action} (hnull : ReturnsNull w a) (hok : MallocOk w a)
    (hs : w.step a = some w') : w'.qs = w.qs := by
  cases step_moves hs with
  | @queue b qs hin hq =>
    cases b with
    | popFail i => exact absurd rfl (hok i)
    | _ => exact absurd hnull id
  | pushWrite hq hsig => exact absurd hnull id
  | pop ht => exact ht.queue_of_null hnull
  | resume hr ht =>
    obtain ⟨t, notEmpty, hr', hnull'⟩ := hnull
    rw [hr, Option.some.injEq, Prod.mk.injEq] at hr'
    exact ht.queue_of_null (hr'.1 ▸ hnull')
  | spurious hsp => exact absurd hnull id
  | timeOut hl => exact absurd hnull id
  | giveUp => rfl
  | shutdown hq => exact absurd hnull id
  | broadcast => exact absurd hnull id

/-- What a `pop` that returns `nullptr` costs. -/
structure NullPops (capacity maxFrameSize : Nat) : Prop where
  /-- A call alone has left everything as it was, unless it failed to allocate. -/
  call : ∀ s, QState.Reachable QState.Any capacity maxFrameSize s → ∀ t env q',
    s.q.pop t env = some (none, q') →
      (RingQueue.Kept s.q q' ↔ ¬ (s.q.Takes t ∧ env.mallocOk = false))
  /-- Among other threads, every other `nullptr` is the end of a call that touched nothing. -/
  exit : ∀ w w' a, w.step a = some w' → ReturnsNull w a → MallocOk w a → w'.qs = w.qs
  /-- Over a run, every accepted frame is accounted for unless an allocation failed. -/
  run : ∀ as w, Runs step (fun _ _ => True) as (init capacity maxFrameSize) w →
    (Accounted w.qs ↔ Runs step MallocOk as (init capacity maxFrameSize) w)

/-- **A `nullptr` loses nothing unless the allocation of a packet fails**: for every call from
every reachable state, and over every run with any number of threads. -/
theorem null_pops (hc : 0 < capacity) : NullPops capacity maxFrameSize where
  call s hr t env q' h := RingQueue.pop_null_kept_iff (QState.mmapped_of_count hc hr) h
  exit _ _ _ hs hnull hok := null_keeps hnull hok hs
  run as w hrun := by
    have hr : Reachable capacity maxFrameSize w := hrun.reach Reach.init
    have hok := Runs.ok_iff (n := fun w => w.qs.lost.length)
      (fun hok hs => congrArg List.length (lost_keeps hok hs)) lost_grows hrun
    rw [accounted_iff (QState.traced_of_reachable hc (queue_reachable hr)), hok]
    exact List.length_eq_zero_iff.symm

theorem null_pops_two : NullPops 2 4 := null_pops (by decide)

/-- **A failed allocation loses a frame**: the `pop` returns `nullptr`, and the frame is neither
queued nor counted as dropped, but as popped. -/
theorem null_pop_counterexample : ¬ ∀ (capacity maxFrameSize : Nat) (s : QState) (t : Int)
    (env : PopEnv) (q' : RingQueue), 0 < capacity →
      QState.Reachable QState.Any capacity maxFrameSize s → s.pushing = none →
      s.q.pop t env = some (none, q') → RingQueue.Kept s.q q' := by
  intro h
  obtain ⟨s, hr, hpc, hcount, hsd⟩ := QState.reach_shutdown_queued
  have hm : 0 < s.q.count → s.q.mmapped = true := QState.mmapped_of_count (by decide) hr
  have hpos : 0 < s.q.count := by omega
  have hnot : ¬ s.q.Withheld (-1) := fun hw => absurd hw.1 (by decide)
  rcases RingQueue.pop_of_ready hm (Or.inr hsd) (-1) ⟨false, false⟩ with
    ⟨-, h0 | hw⟩ | ⟨-, -, hpop⟩
  · omega
  · exact hnot hw
  · have hkept := h 2 4 s (-1) ⟨false, false⟩ _ (by decide) hr hpc hpop
    exact (RingQueue.pop_null_kept_iff hm hpop).mp hkept ⟨⟨hpos, hnot⟩, rfl⟩

end Waiting

end CameraStreamer
