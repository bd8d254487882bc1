import CameraStreamer.RingQueue.Contracts

/-!
# `pop` as one call

`pop` (`src/ring_queue.cpp:168-242`) called on a queue that no other thread touches meanwhile:
its wait branch, the take, and the allocation of the packet. `PopEnv` says what the call meets:
whether the deadline of a timed wait passes, and whether `malloc` succeeds.

* **`pop_modes_agree_iff`**: with nothing to wait for, two timeouts give the same call unless
  frames are queued in a queue that has been shut down and exactly one of the two is 0: only
  `timeout_ms == 0` gives up there.
* `pop_null_kept_iff`: a call that returns `nullptr` has left the queue as it was, unless it took
  a frame it could then not allocate a packet for.
-/

namespace CameraStreamer

open Lib.Machine Lib.Window

/-- What a call of `pop` meets. -/
structure PopEnv where
  /-- `pthread_cond_timedwait` returns `ETIMEDOUT`. -/
  timedOut : Bool
  /-- `malloc(sizeof(FramePacket))` succeeds. -/
  mallocOk : Bool

namespace RingQueue

variable {q : RingQueue}

/-- `pop` as one call (`ring_queue.cpp:168-242`); `none` is a call that does not return. -/
def pop (q : RingQueue) (timeoutMs : Int) (env : PopEnv) :
    Option (Option FramePacket × RingQueue) :=
  match q.popTest timeoutMs with
  | .wait => if 0 < timeoutMs ∧ env.timedOut then some (none, q) else none
  | .null => some (none, q)
  | .take =>
    if env.mallocOk then some (some q.tailPacket, q.popTake)
    else some (none, q.popTake.releaseSlot q.tail)

/-! ## The three wait modes -/

/-- Only a zero timeout keeps a `pop` from the frames of a queue that has been shut down. -/
def Withheld (q : RingQueue) (timeoutMs : Int) : Prop :=
  timeoutMs = 0 ∧ q.shutdown = true ∧ 0 < q.count

/-- A valid queue that has something to take, or has been shut down. -/
theorem popTest_of_ready (hm : 0 < q.count → q.mmapped = true)
    (hready : 0 < q.count ∨ q.shutdown = true) (t : Int) :
    (q.popTest t = .null ∧ (q.count = 0 ∨ q.Withheld t)) ∨
      (q.popTest t = .take ∧ 0 < q.count ∧ ¬ q.Withheld t) := by
  unfold popTest Withheld
  by_cases hc : q.count = 0
  · have hsd : q.shutdown = true := hready.resolve_left (by omega)
    refine Or.inl ⟨?_, Or.inl hc⟩
    split_ifs <;> simp_all
  · have hpos : 0 < q.count := Nat.pos_of_ne_zero hc
    rw [hm hpos]
    by_cases ht : t = 0
    · cases hsd : q.shutdown with
      | true => exact Or.inl ⟨by simp [ht, hc], Or.inr ⟨ht, rfl, hpos⟩⟩
      | false => exact Or.inr ⟨by simp [ht, hc], hpos, fun h => by simp at h⟩
    · exact Or.inr ⟨by simp [ht, hc], hpos, fun h => ht h.1⟩

/-- A call that has nothing to wait for returns at once. -/
theorem pop_of_ready (hm : 0 < q.count → q.mmapped = true)
    (hready : 0 < q.count ∨ q.shutdown = true) (t : Int) (env : PopEnv) :
    (q.pop t env = some (none, q) ∧ (q.count = 0 ∨ q.Withheld t)) ∨
      (0 < q.count ∧ ¬ q.Withheld t ∧ q.pop t env = some
        (if env.mallocOk then (some q.tailPacket, q.popTake)
          else (none, q.popTake.releaseSlot q.tail))) := by
  unfold pop
  rcases popTest_of_ready hm hready t with ⟨ht, hnull⟩ | ⟨ht, hpos, hnot⟩
  · rw [ht]
    exact Or.inl ⟨rfl, hnull⟩
  · rw [ht]
    refine Or.inr ⟨hpos, hnot, ?_⟩
    dsimp only
    split <;> rfl

/-- Taking a frame shows in the count, whether or not the packet can be allocated. -/
theorem pop_take_ne (hpos : 0 < q.count) (env : PopEnv) :
    some (none, q) ≠ some (if env.mallocOk then (some q.tailPacket, q.popTake)
      else (none, q.popTake.releaseSlot q.tail)) := by
  intro h
  have hcount := congrArg RingQueue.count (congrArg Prod.snd (Option.some.inj h))
  cases hok : env.mallocOk <;> simp [hok, popTake, releaseSlot] at hcount <;> omega

/-! ## `nullptr` -/

/-- What a call that came to nothing has left as it was: the frames and their order, the flags,
and the three counters. -/
structure Kept (q q' : RingQueue) : Prop where
  queued : q'.queued = q.queued
  slotInUse : q'.slotInUse = q.slotInUse
  framesPushed : q'.framesPushed = q.framesPushed
  framesDropped : q'.framesDropped = q.framesDropped
  framesPopped : q'.framesPopped = q.framesPopped

/-- The call finds a frame to take. -/
def Takes (q : RingQueue) (timeoutMs : Int) : Prop := 0 < q.count ∧ ¬ q.Withheld timeoutMs

/-- **A call that returns `nullptr`** took nothing, or could not allocate what it took. -/
theorem pop_null_kept_iff (hm : 0 < q.count → q.mmapped = true) {t : Int} {env : PopEnv}
    {q' : RingQueue} (h : q.pop t env = some (none, q')) :
    Kept q q' ↔ ¬ (q.Takes t ∧ env.mallocOk = false) := by
  by_cases hready : 0 < q.count ∨ q.shutdown = true
  · rcases pop_of_ready hm hready t env with ⟨hpop, hnull⟩ | ⟨hpos, hnot, hpop⟩
    · rw [hpop, Option.some.injEq, Prod.mk.injEq] at h
      rw [← h.2]
      refine iff_of_true ⟨rfl, rfl, rfl, rfl, rfl⟩ fun htakes => ?_
      rcases hnull with h0 | hw
      · have := htakes.1.1
        omega
      · exact htakes.1.2 hw
    · rw [hpop] at h
      cases hok : env.mallocOk with
      | true => simp [hok] at h
      | false =>
        simp only [hok, Bool.false_eq_true, if_false, Option.some.injEq, Prod.mk.injEq,
          true_and] at h
        rw [← h]
        refine iff_of_false (fun hk => ?_) fun hn => hn ⟨⟨hpos, hnot⟩, rfl⟩
        have hpopped := hk.framesPopped
        simp [releaseSlot, popTake] at hpopped
  · -- nothing to take and no shutdown: only an expired wait returns
    have h0 : q.count = 0 := by omega
    have hsd : q.shutdown = false := by simpa using fun hh => hready (Or.inr hh)
    have hq' : q' = q := by
      unfold pop popTest at h
      rw [h0, hsd] at h
      split_ifs at h <;> simp_all
    rw [hq']
    refine iff_of_true ⟨rfl, rfl, rfl, rfl, rfl⟩ fun htakes => ?_
    have := htakes.1.1
    omega

end RingQueue

namespace QState

variable {s : QState} {ok : QState → QAction → Prop} {capacity maxFrameSize : Nat}

/-- A queue that holds a frame has its mapping. -/
theorem mmapped_of_count (hc : 0 < capacity) (hr : Reachable ok capacity maxFrameSize s)
    (hpos : 0 < s.q.count) : s.q.mmapped = true := by
  have hlen := (inv_of_reachable hc hr).len_ok 0 hpos
  have hfix := fixed_of_reachable hr
  have h1 : capacity ≠ 0 := by omega
  have h2 : maxFrameSize ≠ 0 := by
    have := hfix.max
    omega
  rw [hfix.mmapped]
  simp [h1, h2]

/-- **The wait modes.** In every reachable state with a frame queued or a shutdown made, two
timeouts give the same result and leave the same queue, unless frames are queued behind a shutdown
and exactly one of the two timeouts is 0. -/
theorem pop_modes_agree_iff (hc : 0 < capacity) (hr : Reachable Any capacity maxFrameSize s)
    (hready : 0 < s.q.count ∨ s.q.shutdown = true) (t₁ t₂ : Int) (env : PopEnv) :
    s.q.pop t₁ env = s.q.pop t₂ env ↔
      ¬ (s.q.shutdown = true ∧ 0 < s.q.count ∧ ¬ (t₁ = 0 ↔ t₂ = 0)) := by
  have hm : 0 < s.q.count → s.q.mmapped = true := mmapped_of_count hc hr
  rcases RingQueue.pop_of_ready hm hready t₁ env with ⟨h₁, hn₁⟩ | ⟨hpos, hw₁, h₁⟩ <;>
    rcases RingQueue.pop_of_ready hm hready t₂ env with ⟨h₂, hn₂⟩ | ⟨hpos', hw₂, h₂⟩
  · rw [h₁, h₂]
    refine iff_of_true rfl ?_
    rintro ⟨-, hpos, hne⟩
    have ht₁ : t₁ = 0 := (hn₁.resolve_left (by omega)).1
    have ht₂ : t₂ = 0 := (hn₂.resolve_left (by omega)).1
    exact hne (iff_of_true ht₁ ht₂)
  · rw [h₁, h₂]
    have hw₁ := hn₁.resolve_left (by omega)
    refine iff_of_false (RingQueue.pop_take_ne hpos' env) fun h => h ⟨hw₁.2.1, hpos', fun he => ?_⟩
    exact hw₂ ⟨he.mp hw₁.1, hw₁.2⟩
  · rw [h₁, h₂]
    have hw₂ := hn₂.resolve_left (by omega)
    refine iff_of_false (fun h => RingQueue.pop_take_ne hpos env h.symm)
      fun h => h ⟨hw₂.2.1, hpos, fun he => ?_⟩
    exact hw₁ ⟨he.mpr hw₂.1, hw₂.2⟩
  · rw [h₁, h₂]
    refine iff_of_true rfl ?_
    rintro ⟨hsd, hpos, hne⟩
    have ht₁ : t₁ ≠ 0 := fun h0 => hw₁ ⟨h0, hsd, hpos⟩
    have ht₂ : t₂ ≠ 0 := fun h0 => hw₂ ⟨h0, hsd, hpos⟩
    exact hne (iff_of_false ht₁ ht₂)

/-- A frame is queued and the queue shut down. -/
theorem reach_shutdown_queued : ∃ s : QState, Reachable Any 2 4 s ∧ s.pushing = none ∧
    s.q.count = 1 ∧ s.q.shutdown = true := by
  have hrun : ∃ s, exec step [.pushCall (sampleArgs 0), .pushTest, .pushGuard, .pushWrite,
      .shutdown] (init (RingQueue.construct 2 4 true true)) = some s ∧ s.pushing = none ∧
      s.q.count = 1 ∧ s.q.shutdown = true :=
    ⟨_, rfl, rfl, rfl, rfl⟩
  obtain ⟨s, hrun, hrest⟩ := hrun
  exact ⟨s, (Runs.of_exec (fun _ _ _ => trivial) hrun).reach Reach.init, hrest⟩

theorem pop_modes_agree_iff_shutdown : ∃ s : QState, s.q.shutdown = true ∧
    (s.q.pop (-1) ⟨false, true⟩ = s.q.pop 1000 ⟨false, true⟩ ↔
      ¬ (s.q.shutdown = true ∧ 0 < s.q.count ∧ ¬ ((-1 : Int) = 0 ↔ (1000 : Int) = 0))) := by
  obtain ⟨s, hr, -, hcount, hsd⟩ := reach_shutdown_queued
  exact ⟨s, hsd, pop_modes_agree_iff (by decide) hr (Or.inr hsd) (-1) 1000 ⟨false, true⟩⟩

/-- **The wait modes disagree**: after a shutdown a zero timeout returns `nullptr` where the other
two return the queued frame. -/
theorem pop_modes_counterexample : ¬ ∀ (capacity maxFrameSize : Nat) (s : QState) (t₁ t₂ : Int)
    (env : PopEnv), 0 < capacity → Reachable Any capacity maxFrameSize s → s.pushing = none →
      (0 < s.q.count ∨ s.q.shutdown = true) → s.q.pop t₁ env = s.q.pop t₂ env := by
  intro h
  obtain ⟨s, hr, hpc, hcount, hsd⟩ := reach_shutdown_queued
  have hagree := h 2 4 s 0 (-1) ⟨false, true⟩ (by decide) hr hpc (Or.inr hsd)
  have hm : 0 < s.q.count → s.q.mmapped = true := mmapped_of_count (by decide) hr
  have hpos : 0 < s.q.count := by omega
  rcases RingQueue.pop_of_ready hm (Or.inr hsd) 0 ⟨false, true⟩ with ⟨h₁, -⟩ | ⟨-, hw, -⟩
  · rcases RingQueue.pop_of_ready hm (Or.inr hsd) (-1) ⟨false, true⟩ with ⟨-, h0 | hw⟩ | ⟨-, -, h₂⟩
    · omega
    · exact absurd hw.1 (by decide)
    · rw [h₁, h₂] at hagree
      exact RingQueue.pop_take_ne hpos ⟨false, true⟩ hagree
  · exact hw ⟨rfl, hsd, hpos⟩

end QState

end CameraStreamer
