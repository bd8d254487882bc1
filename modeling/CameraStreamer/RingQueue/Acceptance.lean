import CameraStreamer.RingQueue.Backpressure
import Mathlib.Data.List.Chain

/-!
# What a reachable queue looks like, and which frames it takes

The representation invariant of `Invariant.lean`, read off for a reader of `src/ring_queue.cpp`,
and what it says about the two refusals of `push` (`ring_queue.cpp:130-135`,
`ring_queue.cpp:143-147`):

* `evicts_once`: over every interleaving an eviction is followed by the acceptance of the frame it
  made room for, so a `push` evicts at most one frame and never evicts and refuses.
* **`ring_represented`**: the cursors, the flags and the queued lengths of every reachable queue;
  the first refusal is dead code, and the loop around it turns at most once.
* **`push_acceptance`**: with one producer and one consumer, a valid `push` is refused exactly
  behind a held packet and `capacity - 1` queued frames, and then changes the drop counter alone.
-/

namespace CameraStreamer

open Lib.Machine Lib.Window Lib.Fifo

/-- After an eviction comes the acceptance it made room for. -/
def AfterEvict (e e' : Event Frame) : Prop := (∃ f, e = .evicted f) → ∃ g, e' = .accepted g

/-- Non-null data and `0 < len <= max_frame_size`. -/
def PushArgs.Valid (maxFrameSize : Nat) (a : PushArgs) : Prop :=
  a.data ≠ none ∧ 0 < a.len.toNat ∧ a.len.toNat ≤ maxFrameSize

namespace QState

variable {s s' : QState} {ok : QState → QAction → Prop} {capacity maxFrameSize : Nat}

/-! ## One eviction, one acceptance -/

/-- The last thing that happened is an eviction. -/
def JustEvicted (s : QState) : Prop := ∃ f, s.hist.getLast? = some (.evicted f)

/-- Every eviction so far has been followed by an acceptance, except that of a `push` still in
progress, which has found room and will find the head free. -/
structure EvictsOnce (s : QState) : Prop where
  chain : s.hist.IsChain AfterEvict
  room : s.JustEvicted →
    s.pushing ≠ none ∧ s.q.count < s.q.capacity ∧ s.q.slotInUse s.q.head = false

theorem not_justEvicted_snoc {h : List (Event Frame)} {e : Event Frame}
    (he : ∀ f, e ≠ .evicted f) : ¬ ∃ f, (h ++ [e]).getLast? = some (.evicted f) := by
  rintro ⟨f, hf⟩
  rw [List.getLast?_concat, Option.some.injEq] at hf
  exact he f hf

theorem chain_snoc {h : List (Event Frame)} {e : Event Frame} (hc : h.IsChain AfterEvict)
    (he : (∃ f, h.getLast? = some (.evicted f)) → ∃ g, e = .accepted g) :
    (h ++ [e]).IsChain AfterEvict := by
  refine hc.append (List.isChain_singleton e) fun x hx y hy => ?_
  rintro ⟨f, rfl⟩
  rw [List.head?_cons, Option.mem_def, Option.some.injEq] at hy
  rw [← hy]
  exact he ⟨f, hx⟩

/-- A step that records nothing, and clears no more than flags. -/
theorem EvictsOnce.of_same (h : EvictsOnce s) (hh : s'.hist = s.hist)
    (hr : s.JustEvicted → s'.pushing ≠ none ∧ s'.q.count = s.q.count ∧
      s'.q.capacity = s.q.capacity ∧ (s.q.slotInUse s.q.head = false →
        s'.q.slotInUse s'.q.head = false)) : EvictsOnce s' := by
  refine ⟨hh ▸ h.chain, fun hj => ?_⟩
  have hj' : s.JustEvicted := by
    unfold JustEvicted at hj ⊢
    rwa [hh] at hj
  obtain ⟨-, hroom, hfree⟩ := h.room hj'
  obtain ⟨hp, hcount, hcap, hu⟩ := hr hj'
  exact ⟨hp, by omega, hu hfree⟩

/-- Clearing a flag leaves a clear flag clear. -/
theorem releaseSlot_clear {q : RingQueue} {i k : Nat} (h : q.slotInUse i = false) :
    (q.releaseSlot k).slotInUse i = false := by
  simp only [RingQueue.releaseSlot]
  by_cases hik : i = k
  · rw [hik, Function.update_self]
  · rw [Function.update_of_ne hik, h]

theorem evictsOnce_step {a : QAction} (hI : s.Inv) (h : EvictsOnce s) (hs : s.step a = some s') :
    EvictsOnce s' := by
  cases a with
  | pushCall a =>
    rcases pushCall_cases hs with ⟨rfl, -⟩ | ⟨-, -, hpc, rfl⟩
    · exact h
    · exact h.of_same rfl fun hj => absurd hpc (h.room hj).1
  | pushTest =>
    obtain ⟨a, hpc, ⟨hfull, hu, rfl⟩ | ⟨hfull, hu, rfl⟩ | ⟨-, rfl⟩⟩ := pushTest_cases hs
    · exact absurd hu (by rw [hI.tail_free_of_full hfull]; exact Bool.false_ne_true)
    · -- the loop evicts from a full queue only, so not right after an eviction
      refine ⟨chain_snoc h.chain fun hj => ?_, fun _ => ⟨?_, ?_, ?_⟩⟩
      · have := (h.room hj).2.1
        omega
      · rw [hpc]
        exact Option.some_ne_none _
      · have h1 := hI.count_le
        have h2 := hI.cap_pos
        simp only [RingQueue.evict]
        omega
      · simp only [RingQueue.evict]
        rw [hI.head_eq_tail_of_full hfull]
        exact hu
    · exact h.of_same rfl fun _ => ⟨Option.some_ne_none _, rfl, rfl, id⟩
  | pushGuard =>
    obtain ⟨a, hpc, ⟨hu, rfl⟩ | ⟨-, rfl⟩⟩ := pushGuard_cases hs
    · have hnot : ¬ s.JustEvicted := fun hj => by
        rw [(h.room hj).2.2] at hu
        exact Bool.false_ne_true hu
      exact ⟨chain_snoc h.chain fun hj => absurd hj hnot,
        fun hj => absurd hj (not_justEvicted_snoc (by simp))⟩
    · exact h.of_same rfl fun _ => ⟨Option.some_ne_none _, rfl, rfl, id⟩
  | pushWrite =>
    obtain ⟨a, -, rfl⟩ := pushWrite_cases hs
    exact ⟨chain_snoc h.chain fun _ => ⟨_, rfl⟩,
      fun hj => absurd hj (not_justEvicted_snoc (by simp))⟩
  | pushCount =>
    obtain ⟨-, rfl⟩ := pushCount_cases hs
    exact h.of_same rfl fun hj => ⟨(h.room hj).1, rfl, rfl, id⟩
  | pop t =>
    rcases pop_cases hs with rfl | ⟨hpc, -, rfl⟩
    · exact h
    · exact ⟨chain_snoc h.chain fun hj => absurd hpc (h.room hj).1,
        fun hj => absurd hj (not_justEvicted_snoc (by simp))⟩
  | popBuild i =>
    obtain ⟨p, -, rfl⟩ := popBuild_cases hs
    exact h.of_same rfl fun hj => ⟨(h.room hj).1, rfl, rfl, id⟩
  | popFail i =>
    obtain ⟨p, -, rfl⟩ := popFail_cases hs
    exact h.of_same rfl fun hj => ⟨(h.room hj).1, rfl, rfl, releaseSlot_clear⟩
  | release i =>
    obtain ⟨p, -, rfl⟩ := release_cases hs
    exact h.of_same rfl fun hj => ⟨(h.room hj).1, rfl, rfl, releaseSlot_clear⟩
  | shutdown =>
    obtain ⟨hpc, rfl⟩ := shutdown_cases hs
    exact h.of_same rfl fun hj => absurd hpc (h.room hj).1

theorem evicts_once (hc : 0 < capacity) (hr : Reachable ok capacity maxFrameSize s) :
    EvictsOnce s := by
  refine hr.invariant_of (fun _ hr => inv_of_reachable hc hr) ⟨List.isChain_nil, ?_⟩
    fun _ hI h _ hs => evictsOnce_step hI h hs
  rintro ⟨f, hf⟩
  simp [init] at hf

/-! ## The representation -/

/-- A reachable queue, field by field. -/
structure Represented (capacity maxFrameSize : Nat) (s : QState) : Prop where
  head_lt : s.q.head < s.q.capacity
  tail_lt : s.q.tail < s.q.capacity
  capacity_eq : s.q.capacity = capacity
  count_le : s.q.count ≤ s.q.capacity
  head_eq : s.q.head = (s.q.tail + s.q.count) % s.q.capacity
  /-- The flags set are those of the packets not yet freed, built or not, each its own. -/
  inUse_iff : ∀ i, s.q.slotInUse i = true ↔ ∃ p ∈ s.taken ++ s.outstanding, p.slotIdx = i
  once : (s.taken ++ s.outstanding).Pairwise fun p p' => p.slotIdx ≠ p'.slotIdx
  outside : ∀ p ∈ s.taken ++ s.outstanding, ∀ i, i < s.q.count →
    p.slotIdx ≠ (s.q.tail + i) % s.q.capacity
  len : ∀ i, i < s.q.count →
    0 < (s.q.slots ((s.q.tail + i) % s.q.capacity)).hdr.len.toNat ∧
      (s.q.slots ((s.q.tail + i) % s.q.capacity)).hdr.len.toNat ≤ maxFrameSize
  /-- The refusal inside the eviction loop is never taken. -/
  tail_free : s.q.capacity ≤ s.q.count → s.q.slotInUse s.q.tail = false
  test_accepts : ∀ a, s.step .pushTest ≠ some (s.pushRefuse a)
  /-- The eviction loop turns at most once: run alone, and interleaved with other threads. -/
  one_turn : s.pushing = none →
    s.q.evictLoop s.q.count = (if s.q.capacity ≤ s.q.count then s.q.evict else s.q, true)
  evicts_once : s.hist.IsChain AfterEvict

/-- The test of the eviction loop does not refuse. -/
theorem pushTest_ne_refuse (hI : s.Inv) (a : PushArgs) :
    s.step .pushTest ≠ some (s.pushRefuse a) := by
  intro hs
  obtain ⟨b, hpc, ⟨hfull, hu, -⟩ | ⟨-, -, heq⟩ | ⟨-, heq⟩⟩ := pushTest_cases hs
  · rw [hI.tail_free_of_full hfull] at hu
    exact Bool.false_ne_true hu
  · have := congrArg QState.pushing heq
    simp [pushRefuse, hpc] at this
  · have := congrArg QState.pushing heq
    simp [pushRefuse] at this

/-- **The representation invariant of the ring**, over every interleaving of `push`, `pop`, failed
allocations, releases in any order, and shutdown. -/
theorem ring_represented (hc : 0 < capacity) (hr : Reachable Any capacity maxFrameSize s) :
    Represented capacity maxFrameSize s := by
  have hI := inv_of_reachable hc hr
  have hfix := fixed_of_reachable hr
  refine
    { head_lt := hI.head_lt, tail_lt := hI.tail_lt, capacity_eq := hfix.cap,
      count_le := hI.count_le, head_eq := hI.head_eq, inUse_iff := fun i => ?_,
      once := List.pairwise_map.mp hI.held_nodup, outside := fun p hp i hi heq => ?_,
      len := fun i hi => hfix.max ▸ hI.len_ok i hi, tail_free := hI.tail_free_of_full,
      test_accepts := pushTest_ne_refuse hI, one_turn := fun hpc => ?_,
      evicts_once := (evicts_once hc hr).chain }
  · exact (hI.inUse_iff i).trans List.mem_map
  · have hm : p.slotIdx ∈ s.heldSlots := List.mem_map_of_mem hp
    rw [heq] at hm
    exact hI.held_out i hi hm
  · have hI' : RingInv s.q none s.heldSlots := by
      unfold Inv at hI
      rwa [hpc] at hI
    exact hI'.evictLoop_eq

/-- Every reachable state of a one-slot queue whose slot has been evicted from and refilled. -/
theorem ring_represented_wrapped : ∃ s : QState, s.offered.length = 2 ∧ Represented 1 4 s := by
  obtain ⟨s, hr, -, -, hoff⟩ := reach_wrapped
  exact ⟨s, hoff, ring_represented (by decide) (hr.mono fun _ _ _ => trivial)⟩

/-! ## Which frames are refused -/

/-- What decides whether a `push` is refused. -/
def Blocked (capacity : Nat) (s : QState) : Prop := s.held ≠ [] ∧ s.q.count = capacity - 1

/-- When a valid `push` before shutdown is refused, and what it does otherwise. -/
structure Acceptance (capacity maxFrameSize : Nat) (s : QState) : Prop where
  refused_iff : ∀ a, a.Valid maxFrameSize → s.pushing = none → s.q.shutdown = false →
    ((s.q.push a).2 = false ↔ s.Blocked capacity)
  refused : ∀ a, a.Valid maxFrameSize → s.pushing = none → s.q.shutdown = false →
    (s.q.push a).2 = false → (s.q.push a).1 = { s.q with framesDropped := s.q.framesDropped + 1 }
  accepted : ∀ a, a.Valid maxFrameSize → s.pushing = none → s.q.shutdown = false →
    (s.q.push a).2 = true → s.q.Accepted a (s.q.push a).1
  /-- Interleaved with other threads it is the same test, made when the head flag is read. -/
  guard : ∀ a, s.pushing = some (.guard a) →
    (s.step .pushGuard = some (s.pushRefuse a) ↔ s.Blocked capacity)
  test_accepts : ∀ a, s.step .pushTest ≠ some (s.pushRefuse a)
  /-- No `push` both evicts and refuses, or evicts twice. -/
  evicts_once : s.hist.IsChain AfterEvict

/-- **Exact acceptance.** In every state that one producer and one consumer can reach, a valid
`push` is refused iff a packet is held and `capacity - 1` frames are queued. -/
theorem push_acceptance (hc : 0 < capacity) (hr : Reachable Spsc capacity maxFrameSize s) :
    Acceptance capacity maxFrameSize s := by
  have hI := inv_of_reachable hc hr
  have hcap := (fixed_of_reachable hr).cap
  have hhead : s.q.slotInUse s.q.head = true ↔ s.Blocked capacity := by
    have := head_inUse_iff hI (held_before_tail hc hr)
    rwa [hcap] at this
  have hspec : ∀ a, a.Valid maxFrameSize → s.pushing = none → s.q.shutdown = false →
      (s.Blocked capacity ∧ s.q.push a = (s.q.refuse, false)) ∨
        (¬ s.Blocked capacity ∧ ∃ q', s.q.push a = (q', true) ∧ s.q.Accepted a q') := by
    intro a ⟨hd, h0, hm⟩ hpc hsd
    have hI' : RingInv s.q none s.heldSlots := by
      unfold Inv at hI
      rwa [hpc] at hI
    rcases hI'.push_spec (accepts_of_valid hc hr hd h0 hm) hsd with ⟨-, hu, hp⟩ | ⟨hfree, hq'⟩
    · exact Or.inl ⟨hhead.mp hu, hp⟩
    · refine Or.inr ⟨fun hb => hfree ⟨?_, hhead.mpr hb⟩, hq'⟩
      rw [hcap, hb.2]
      omega
  refine ⟨fun a ha hpc hsd => ?_, fun a ha hpc hsd hf => ?_, fun a ha hpc hsd ht => ?_,
    fun a hpc => ?_, pushTest_ne_refuse hI, (evicts_once hc hr).chain⟩
  · rcases hspec a ha hpc hsd with ⟨hb, hp⟩ | ⟨hb, q', hp, -⟩ <;> simp [hp, hb]
  · rcases hspec a ha hpc hsd with ⟨-, hp⟩ | ⟨-, q', hp, -⟩
    · rw [hp]; rfl
    · rw [hp] at hf
      exact absurd hf (by simp)
  · rcases hspec a ha hpc hsd with ⟨-, hp⟩ | ⟨-, q', hp, hq'⟩
    · rw [hp] at ht
      exact absurd ht (by simp)
    · rw [hp]; exact hq'
  · rw [step_guard hpc, ← hhead]
    by_cases hu : s.q.slotInUse s.q.head = true
    · simp [hu]
    · simp [hu, pushRefuse]

theorem push_acceptance_behind_held : ∃ s : QState, s.Blocked 2 ∧ Acceptance 2 4 s := by
  obtain ⟨s, hr, -, -, hheld, hcount⟩ := reach_full_behind_held
  refine ⟨s, ⟨?_, hcount⟩, push_acceptance (by decide) hr⟩
  rw [← List.length_pos_iff, hheld]
  exact Nat.one_pos

end QState

end CameraStreamer
