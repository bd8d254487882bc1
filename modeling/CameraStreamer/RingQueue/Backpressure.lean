import CameraStreamer.RingQueue.Contracts

/-!
# Backpressure: which frame a full queue discards

`push` as a whole call, from any state the queue can be in:

* `push_eq`: under the invariant the eviction loop runs at most once and its refusing branch is
  dead, so `push` evicts from a full queue, refuses a held head slot, and stores otherwise.
* `push_spec`: so a `push` either refuses and keeps everything, or accepts and evicts at most one.
* `push_runs`: the whole call is a run of the interleaved machine.
* `held_before_tail`: one consumer holding at most one packet holds the cell right before the
  window, so the head reaches it when `capacity - 1` frames are queued.
* **`push_drop_oldest`**: hence the one state in which the new frame is the one discarded.
* `drop_oldest_counterexample`: that state is reachable.
-/

namespace CameraStreamer

open Lib.Machine Lib.Window Lib.Fifo

/-! ## `push` under the invariant -/

/-- The queue after an accepted `push`: the new frame is the newest, at the cost of the oldest
one when the queue was full. -/
structure RingQueue.Accepted (q : RingQueue) (a : PushArgs) (q' : RingQueue) : Prop where
  queued : q'.queued = q.queued.drop (if q.count = q.capacity then 1 else 0) ++ [a.frame]
  pushed : q'.framesPushed = q.framesPushed + 1
  dropped : q'.framesDropped = q.framesDropped + if q.count = q.capacity then 1 else 0
  popped : q'.framesPopped = q.framesPopped
  slotInUse : q'.slotInUse = q.slotInUse

namespace RingInv

variable {q : RingQueue} {hs : List Nat} {a : PushArgs}

/-- The head of a full queue is its tail. -/
theorem head_eq_tail_of_full {pc : Option PushPc} (h : RingInv q pc hs)
    (hc : q.capacity ≤ q.count) : q.head = q.tail := by
  have hcount : q.count = q.capacity := Nat.le_antisymm h.count_le hc
  rw [h.head_eq, hcount, ← Nat.zero_add q.capacity]
  have := slot_add_self q.capacity q.tail 0
  rw [Nat.zero_add] at this ⊢
  rw [this, slot_zero h.tail_lt]

theorem evictLoop_eq (h : RingInv q none hs) :
    q.evictLoop q.count = (if q.capacity ≤ q.count then q.evict else q, true) := by
  have hcap := h.cap_pos
  split
  · rename_i hc
    obtain ⟨c, hcount⟩ : ∃ c, q.count = c + 1 := ⟨q.count - 1, by omega⟩
    have hle := h.count_le
    rw [hcount]
    simp only [RingQueue.evictLoop]
    rw [if_pos hc, if_neg (by rw [h.tail_free_of_full hc]; exact Bool.false_ne_true)]
    -- one turn has made room, so the next test fails
    cases c with
    | zero => rfl
    | succ c =>
      simp only [RingQueue.evictLoop]
      rw [if_neg (by simp only [RingQueue.evict]; omega)]
  · rename_i hc
    cases hcount : q.count with
    | zero => rfl
    | succ c =>
      simp only [RingQueue.evictLoop]
      rw [if_neg hc]

/-- **The whole call.** -/
theorem push_eq (h : RingInv q none hs) (hacc : q.accepts a = true) (hsd : q.shutdown = false) :
    q.push a =
      if q.capacity ≤ q.count then (q.evict.store a, true)
      else if q.slotInUse q.head then (q.refuse, false)
      else (q.store a, true) := by
  unfold RingQueue.push
  rw [hacc, hsd, h.evictLoop_eq]
  simp only [Bool.not_true, Bool.false_eq_true, if_false]
  split
  · rename_i hc
    rw [if_neg]
    simp only [RingQueue.evict]
    rw [h.head_eq_tail_of_full hc, h.tail_free_of_full hc]
    exact Bool.false_ne_true
  · rfl

/-- What a full queue stores in the place of its oldest frame. -/
theorem accepted_of_full (h : RingInv q none hs) (hacc : q.accepts a = true)
    (hfull : q.capacity ≤ q.count) : q.Accepted a (q.evict.store a) := by
  have hcount : q.count = q.capacity := Nat.le_antisymm h.count_le hfull
  have hpos := h.cap_pos
  -- the evicted queue, about to write, keeps the invariant
  have hev : RingInv q.evict (some (.write a)) hs := by
    have h1 : RingInv q (some (.evict a)) hs := h.setPc fun p hp => by cases hp; exact hacc
    refine (h1.evict (by omega)).setPc fun p hp => ?_
    cases hp
    refine ⟨hacc, ?_, ?_⟩
    · simp only [RingQueue.evict]; omega
    · simp only [RingQueue.evict]
      rw [h.head_eq_tail_of_full hfull]
      exact h.tail_free_of_full hfull
  refine ⟨?_, rfl, ?_, rfl, rfl⟩
  · rw [hev.queued_store, if_pos hcount, h.queued_evict (by omega)]
    rfl
  · rw [if_pos hcount]
    rfl

/-- What a queue with room and a free head stores. -/
theorem accepted_of_room (h : RingInv q none hs) (hacc : q.accepts a = true)
    (hroom : q.count < q.capacity) (hu : q.slotInUse q.head = false) :
    q.Accepted a (q.store a) := by
  have hne : q.count ≠ q.capacity := Nat.ne_of_lt hroom
  have hst : RingInv q (some (.write a)) hs := by
    refine h.setPc fun p hp => ?_
    cases hp
    exact ⟨hacc, hroom, hu⟩
  refine ⟨?_, rfl, ?_, rfl, rfl⟩
  · rw [hst.queued_store, if_neg hne]
    rfl
  · rw [if_neg hne]
    rfl

/-- **What a valid `push` does**: a queue with room and a held head refuses and keeps everything
but the drop counter; every other queue accepts. -/
theorem push_spec (h : RingInv q none hs) (hacc : q.accepts a = true) (hsd : q.shutdown = false) :
    (q.count < q.capacity ∧ q.slotInUse q.head = true ∧ q.push a = (q.refuse, false)) ∨
    (¬ (q.count < q.capacity ∧ q.slotInUse q.head = true) ∧
      ∃ q', q.push a = (q', true) ∧ q.Accepted a q') := by
  rw [h.push_eq hacc hsd]
  by_cases hfull : q.capacity ≤ q.count
  · rw [if_pos hfull]
    exact Or.inr ⟨fun hh => by omega, _, rfl, h.accepted_of_full hacc hfull⟩
  · rw [if_neg hfull]
    by_cases hu : q.slotInUse q.head = true
    · exact Or.inl ⟨Nat.lt_of_not_le hfull, hu, by rw [if_pos hu]⟩
    · refine Or.inr ⟨fun hh => hu hh.2, _, by rw [if_neg hu], ?_⟩
      exact h.accepted_of_room hacc (Nat.lt_of_not_le hfull) (by simpa using hu)

end RingInv

namespace QState

variable {s s' : QState} {capacity maxFrameSize : Nat}

/-! ## The whole call is a run -/

theorem step_enter {a : PushArgs} (hpc : s.pushing = none) (hacc : s.q.accepts a = true)
    (hsd : s.q.shutdown = false) :
    s.step (.pushCall a) =
      some { s with pushing := some (.evict a), offered := s.offered ++ [a.frame] } := by
  simp [step, pushCall, hpc, hacc, hsd]

theorem step_room {a : PushArgs} (hpc : s.pushing = some (.evict a))
    (hc : s.q.count < s.q.capacity) :
    s.step .pushTest = some { s with pushing := some (.guard a) } := by
  simp [step, pushTest, hpc, Nat.not_le.mpr hc]

theorem step_evict {a : PushArgs} (hpc : s.pushing = some (.evict a))
    (hc : s.q.capacity ≤ s.q.count) (hu : s.q.slotInUse s.q.tail = false) :
    s.step .pushTest = some
      { s with
        q := s.q.evict
        hist := s.hist ++ [.evicted (s.q.slots s.q.tail).frame] } := by
  simp [step, pushTest, hpc, hc, hu]

theorem step_guard {a : PushArgs} (hpc : s.pushing = some (.guard a)) :
    s.step .pushGuard = some
      (if s.q.slotInUse s.q.head then s.pushRefuse a
        else { s with pushing := some (.write a) }) := by
  simp only [step, pushGuard, hpc]
  split <;> rfl

theorem step_write {a : PushArgs} (hpc : s.pushing = some (.write a)) :
    s.step .pushWrite = some
      { s with
        q := s.q.store a
        pushing := none
        hist := s.hist ++ [.accepted a.frame]
        filledBy := Function.update s.filledBy s.q.head (some a) } := by
  simp [step, pushWrite, hpc]

theorem step_count (hu : 0 < s.uncounted) :
    s.step .pushCount = some { s with q := s.q.refuse, uncounted := s.uncounted - 1 } := by
  simp [step, pushCount, Nat.pos_iff_ne_zero.mp hu]

/-- A `push` that stands before its head test, run to its end alone. -/
theorem guard_runs {a : PushArgs} (hpc : s.pushing = some (.guard a)) (hunc : s.uncounted = 0) :
    ∃ as t, Runs step Spsc as s t ∧
      t.q = (if s.q.slotInUse s.q.head then s.q.refuse else s.q.store a) ∧
      t.pushing = none ∧ t.uncounted = 0 ∧ t.taken = s.taken ∧ t.outstanding = s.outstanding := by
  by_cases hu : s.q.slotInUse s.q.head = true
  · refine ⟨[.pushGuard, .pushCount], _, Runs.cons trivial (step_guard hpc)
      (Runs.cons trivial (step_count ?_) rfl), ?_⟩
    · simp [hu, pushRefuse]
    · simp [hu, pushRefuse, hunc]
  · refine ⟨[.pushGuard, .pushWrite], _, Runs.cons trivial (step_guard hpc)
      (Runs.cons trivial (step_write (a := a) ?_) rfl), ?_⟩
    · simp [hu]
    · simp [hu, hunc]

/-- **The whole call is a run** of the interleaved queue in which nothing else steps. -/
theorem push_runs {a : PushArgs} (hI : s.Inv) (hpc : s.pushing = none) (hunc : s.uncounted = 0)
    (hacc : s.q.accepts a = true) (hsd : s.q.shutdown = false) :
    ∃ as t, Runs step Spsc as s t ∧ t.q = (s.q.push a).1 ∧ t.pushing = none ∧ t.uncounted = 0 ∧
      t.taken = s.taken ∧ t.outstanding = s.outstanding := by
  have hI' : RingInv s.q none s.heldSlots := by
    unfold Inv at hI
    rwa [hpc] at hI
  rw [hI'.push_eq hacc hsd]
  have henter := step_enter hpc hacc hsd
  by_cases hc : s.q.capacity ≤ s.q.count
  · have hu := hI'.tail_free_of_full hc
    have hhead : s.q.evict.slotInUse s.q.evict.head = false := by
      simp only [RingQueue.evict]
      rw [hI'.head_eq_tail_of_full hc]; exact hu
    have hlt : s.q.evict.count < s.q.evict.capacity := by
      have h1 := hI'.count_le
      have h2 := hI'.cap_pos
      simp only [RingQueue.evict]; omega
    obtain ⟨as, t, hrun, hq, hrest⟩ := guard_runs (a := a)
      (s := { s with
        q := s.q.evict
        pushing := some (.guard a)
        offered := s.offered ++ [a.frame]
        hist := s.hist ++ [.evicted (s.q.slots s.q.tail).frame] }) rfl hunc
    refine ⟨.pushCall a :: .pushTest :: .pushTest :: as, t, ?_, ?_, hrest⟩
    · exact Runs.cons ⟨hpc, hunc⟩ henter (Runs.cons trivial (step_evict rfl hc hu)
        (Runs.cons trivial (step_room rfl hlt) hrun))
    · rw [hq, if_pos hc, if_neg (by rw [hhead]; exact Bool.false_ne_true)]
  · obtain ⟨as, t, hrun, hq, hrest⟩ := guard_runs (a := a)
      (s := { s with pushing := some (.guard a), offered := s.offered ++ [a.frame] }) rfl hunc
    refine ⟨.pushCall a :: .pushTest :: as, t, ?_, ?_, hrest⟩
    · exact Runs.cons ⟨hpc, hunc⟩ henter
        (Runs.cons trivial (step_room rfl (Nat.lt_of_not_le hc)) hrun)
    · rw [hq, if_neg hc]
      split <;> rfl

/-! ## One producer, one consumer -/

/-- The packet held by the single consumer occupies the cell right before the window. -/
structure HeldBeforeTail (s : QState) : Prop where
  one : s.held.length ≤ 1
  before : ∀ p ∈ s.held, slot s.q.capacity p.slotIdx 1 = s.q.tail

theorem held_before_tail_step {a : QAction} (hI : s.Inv) (h : s.HeldBeforeTail)
    (hok : s.Spsc a) (hs : s.step a = some s') : s'.HeldBeforeTail := by
  obtain ⟨hone, hbefore⟩ := h
  cases a with
  | pushCall a => rcases pushCall_cases hs with ⟨rfl, -⟩ | ⟨-, -, -, rfl⟩ <;> exact ⟨hone, hbefore⟩
  | pushTest =>
    obtain ⟨a, -, ⟨-, -, rfl⟩ | ⟨hc, -, rfl⟩ | ⟨-, rfl⟩⟩ := pushTest_cases hs
    · exact ⟨hone, hbefore⟩
    · -- only a full queue is evicted from, and then no packet is held
      have hnil : s.held = [] := List.map_eq_nil_iff.mp (hI.held_nil_of_full hc)
      refine ⟨hone, fun p hp => ?_⟩
      have hp' : p ∈ s.held := hp
      rw [hnil] at hp'
      exact absurd hp' (by simp)
    · exact ⟨hone, hbefore⟩
  | pushGuard => obtain ⟨a, -, ⟨-, rfl⟩ | ⟨-, rfl⟩⟩ := pushGuard_cases hs <;> exact ⟨hone, hbefore⟩
  | pushWrite => obtain ⟨a, -, rfl⟩ := pushWrite_cases hs; exact ⟨hone, hbefore⟩
  | pushCount => obtain ⟨-, rfl⟩ := pushCount_cases hs; exact ⟨hone, hbefore⟩
  | pop t =>
    rcases pop_cases hs with rfl | ⟨-, -, rfl⟩
    · exact ⟨hone, hbefore⟩
    · have hheld : s.popTake.held = [s.q.tailPacket] := by
        have : s.held = [] := hok
        simpa [held, popTake] using this
      refine ⟨by rw [hheld]; exact Nat.le_refl 1, fun p hp => ?_⟩
      rw [hheld, List.mem_singleton] at hp
      rw [hp]; rfl
  | popBuild i =>
    obtain ⟨p, hp, rfl⟩ := popBuild_cases hs
    have hperm := held_perm_popBuild hp
    exact ⟨hperm.length_eq ▸ hone, fun p' hp' => hbefore p' (hperm.mem_iff.mpr hp')⟩
  | popFail i =>
    obtain ⟨p, hp, rfl⟩ := popFail_cases hs
    have hperm := held_perm_popFail hp
    have hlen := hperm.length_eq
    rw [List.length_cons] at hlen
    exact ⟨by simp only [held]; omega,
      fun p' hp' => hbefore p' (hperm.mem_iff.mpr (List.mem_cons_of_mem _ hp'))⟩
  | release i =>
    obtain ⟨p, hp, rfl⟩ := release_cases hs
    have hperm := held_perm_release hp
    have hlen := hperm.length_eq
    rw [List.length_cons] at hlen
    exact ⟨by simp only [held]; omega,
      fun p' hp' => hbefore p' (hperm.mem_iff.mpr (List.mem_cons_of_mem _ hp'))⟩
  | shutdown => obtain ⟨-, rfl⟩ := shutdown_cases hs; exact ⟨hone, hbefore⟩

theorem held_before_tail (hc : 0 < capacity) (hr : Reachable Spsc capacity maxFrameSize s) :
    s.HeldBeforeTail :=
  hr.invariant_of (fun _ hr => inv_of_reachable hc hr)
    ⟨Nat.zero_le 1, fun p hp => absurd hp (by simp [held, init])⟩
    fun _ hI h hok hs => held_before_tail_step hI h hok hs

/-- The head slot is in use exactly when a packet is held and `capacity - 1` frames are queued. -/
theorem head_inUse_iff (hI : s.Inv) (h : s.HeldBeforeTail) :
    s.q.slotInUse s.q.head = true ↔ s.held ≠ [] ∧ s.q.count = s.q.capacity - 1 := by
  have hcap := hI.cap_pos
  rw [hI.inUse_iff]
  constructor
  · intro hm
    obtain ⟨p, hp, hidx⟩ := List.mem_map.mp hm
    have hne : s.held ≠ [] := List.ne_nil_of_mem hp
    refine ⟨hne, ?_⟩
    -- one more cell after the window would be the tail again
    have hlap : slot s.q.capacity s.q.tail (s.q.count + 1) = slot s.q.capacity s.q.tail 0 := by
      rw [← slot_slot, ← hI.head_eq, ← hidx, h.before p hp, slot_zero hI.tail_lt]
    have hnotfull : s.q.count < s.q.capacity := by
      by_contra hfull
      exact hne (List.map_eq_nil_iff.mp (hI.held_nil_of_full (Nat.le_of_not_lt hfull)))
    by_contra hcount
    have := slot_inj (show s.q.count + 1 < s.q.capacity by omega) hcap hlap
    omega
  · rintro ⟨hne, hcount⟩
    obtain ⟨p, hp⟩ := List.exists_mem_of_ne_nil _ hne
    have hidx : p.slotIdx = s.q.head := by
      have hlt := hI.held_lt p.slotIdx (List.mem_map_of_mem hp)
      rw [hI.head_eq, ← h.before p hp, slot_slot, show 1 + s.q.count = 0 + s.q.capacity by omega,
        slot_add_self, slot_zero hlt]
    rw [← hidx]
    exact List.mem_map_of_mem hp

/-- A valid `push` passes the entry checks of a constructed queue. -/
theorem accepts_of_valid {ok : QState → QAction → Prop} {a : PushArgs}
    (hc : 0 < capacity) (hr : Reachable ok capacity maxFrameSize s) (hd : a.data ≠ none)
    (h0 : 0 < a.len.toNat) (hm : a.len.toNat ≤ maxFrameSize) : s.q.accepts a = true := by
  have hfix := fixed_of_reachable hr
  have hlen : a.len ≠ 0 := by
    rintro hz
    rw [hz] at h0
    exact absurd h0 (by decide)
  have hc' : capacity ≠ 0 := by omega
  have hm' : maxFrameSize ≠ 0 := by omega
  simp only [RingQueue.accepts, hfix.mmapped, hfix.max, Bool.and_eq_true, decide_eq_true_eq]
  exact ⟨⟨⟨⟨hc', hm'⟩, Option.isSome_iff_ne_none.mpr hd⟩, hlen⟩, hm⟩

/-- **Which frame is discarded.** From every state one producer and one consumer can reach, a
valid `push` before shutdown is accepted as the newest queued frame, at the cost of the oldest
one when the queue is full; except when the consumer's packet is not yet freed and
`capacity - 1` frames are queued: then the new frame is refused, and nothing else changes but
the drop counter. -/
theorem push_drop_oldest {a : PushArgs} (h2 : 2 ≤ capacity)
    (hr : Reachable Spsc capacity maxFrameSize s) (hpc : s.pushing = none)
    (hsd : s.q.shutdown = false) (hd : a.data ≠ none) (h0 : 0 < a.len.toNat)
    (hm : a.len.toNat ≤ maxFrameSize) :
    (s.held ≠ [] ∧ s.q.count = capacity - 1 ∧ s.q.push a = (s.q.refuse, false)) ∨
    (¬ (s.held ≠ [] ∧ s.q.count = capacity - 1) ∧ ∃ q', s.q.push a = (q', true) ∧
      q'.queued = s.q.queued.drop (if s.q.count = capacity then 1 else 0) ++ [a.frame]) := by
  have hcap : 0 < capacity := by omega
  have hI := inv_of_reachable hcap hr
  have hacc := accepts_of_valid hcap hr hd h0 hm
  have hhead := head_inUse_iff hI (held_before_tail hcap hr)
  have hfix := (fixed_of_reachable hr).cap
  have hI' : RingInv s.q none s.heldSlots := by
    unfold Inv at hI
    rwa [hpc] at hI
  rw [hfix] at hhead
  rcases hI'.push_spec hacc hsd with ⟨hlt, hu, hpush⟩ | ⟨hfree, q', hpush, hq'⟩
  · obtain ⟨hheld, hcount⟩ := hhead.mp hu
    exact Or.inl ⟨hheld, hcount, hpush⟩
  · refine Or.inr ⟨fun h => ?_, q', hpush, ?_⟩
    · exact hfree ⟨by rw [hfix]; omega, hhead.mpr h⟩
    · rw [hq'.queued, hfix]

/-- A capacity-2 queue whose consumer holds the first packet while the second frame is queued. -/
theorem reach_full_behind_held : ∃ s : QState, Reachable Spsc 2 4 s ∧ s.pushing = none ∧
    s.q.shutdown = false ∧ s.held.length = 1 ∧ s.q.count = 1 :=
  ⟨_, Runs.reach Reach.init (show Runs step Spsc
      [.pushCall (sampleArgs 0), .pushTest, .pushGuard, .pushWrite, .pop (-1), .popBuild 0,
        .pushCall (sampleArgs 1), .pushTest, .pushGuard, .pushWrite] _ _ from
      ⟨⟨rfl, rfl⟩, _, rfl, trivial, _, rfl, trivial, _, rfl, trivial, _, rfl, rfl, _, rfl,
        trivial, _, rfl, ⟨rfl, rfl⟩, _, rfl, trivial, _, rfl, trivial, _, rfl, trivial, _, rfl,
        rfl⟩), rfl, rfl, rfl, rfl⟩

theorem push_drop_oldest_full_behind_held : ∃ s : QState, s.held.length = 1 ∧
    ((s.held ≠ [] ∧ s.q.count = 2 - 1 ∧ s.q.push (sampleArgs 2) = (s.q.refuse, false)) ∨
      (¬ (s.held ≠ [] ∧ s.q.count = 2 - 1) ∧ ∃ q', s.q.push (sampleArgs 2) = (q', true) ∧
        q'.queued = s.q.queued.drop (if s.q.count = 2 then 1 else 0) ++
          [(sampleArgs 2).frame])) := by
  obtain ⟨s, hr, hpc, hsd, hheld, -⟩ := reach_full_behind_held
  exact ⟨s, hheld, push_drop_oldest (by decide) hr hpc hsd (by decide) (by decide) (by decide)⟩

/-- **A full queue behind a held packet drops the newest frame**: not every valid `push` before
shutdown is accepted. -/
theorem drop_oldest_counterexample :
    ¬ ∀ (capacity maxFrameSize : Nat) (s : QState) (a : PushArgs), 2 ≤ capacity →
      Reachable Spsc capacity maxFrameSize s → s.pushing = none → s.q.shutdown = false →
      a.data ≠ none → 0 < a.len.toNat → a.len.toNat ≤ maxFrameSize → (s.q.push a).2 = true := by
  intro h
  obtain ⟨s, hr, hpc, hsd, hheld, hcount⟩ := reach_full_behind_held
  have htrue := h 2 4 s (sampleArgs 2) (by decide) hr hpc hsd (by decide) (by decide) (by decide)
  have hI := inv_of_reachable (by decide) hr
  have hcap := (fixed_of_reachable hr).cap
  have hu : s.q.slotInUse s.q.head = true :=
    (head_inUse_iff hI (held_before_tail (by decide) hr)).mpr
      ⟨by rw [← List.length_pos_iff, hheld]; exact Nat.one_pos, by rw [hcount, hcap]⟩
  have hI' : RingInv s.q none s.heldSlots := by
    unfold Inv at hI
    rwa [hpc] at hI
  rw [hI'.push_eq (accepts_of_valid (by decide) hr (by decide) (by decide) (by decide)) hsd,
    if_neg (by omega), if_pos hu] at htrue
  exact absurd htrue (by simp)

end QState

end CameraStreamer
