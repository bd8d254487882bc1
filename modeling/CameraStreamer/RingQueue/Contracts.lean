import CameraStreamer.RingQueue.Fifo

/-!
# The contracts of the ring queue

Read off the invariants, over every interleaving:

* **`zero_copy_stable`**: from the `pop` that takes a slot until its packet is freed, no step
  writes that slot, the packet shows the arguments of the `push` that filled it, and no two
  packets share a slot.
* **`fifo_exact`**: accepted is removed followed by queued, in order, and the counters are the
  lengths of these lists.
* **`returned_in_order`**: one consumer is returned the popped frames in the order of their removal.
  With several the queue fixes the order of removal, and the scheduler that of the returns.
-/

namespace CameraStreamer

open Lib.Machine Lib.Window Lib.Fifo

namespace QState

variable {s s' : QState} {ok : QState → QAction → Prop} {capacity maxFrameSize : Nat}

/-! ## What no step changes -/

/-- The parameters of the queue are the constructor's. -/
structure Fixed (capacity maxFrameSize : Nat) (s : QState) : Prop where
  cap : s.q.capacity = capacity
  max : s.q.maxFrameSize = maxFrameSize
  mmapped : s.q.mmapped = (decide (capacity ≠ 0) && decide (maxFrameSize ≠ 0))

theorem fixed_step {a : QAction} (h : Fixed capacity maxFrameSize s) (hs : s.step a = some s') :
    Fixed capacity maxFrameSize s' := by
  have he := step_effects hs
  exact ⟨he.capacity.trans h.cap, he.maxFrameSize.trans h.max, he.mmapped.trans h.mmapped⟩

theorem fixed_of_reachable (hr : Reachable ok capacity maxFrameSize s) :
    Fixed capacity maxFrameSize s :=
  hr.invariant
    ⟨⟨rfl, rfl, by simp [init, RingQueue.construct]⟩, fun _ h _ hs => fixed_step h hs⟩

/-- A step writes at most the slot it targets, and records who filled it. -/
theorem slots_step {a : QAction} (hs : s.step a = some s') {i : Nat}
    (hi : s.writeTarget ≠ some i) :
    s'.q.slots i = s.q.slots i ∧ s'.filledBy i = s.filledBy i := by
  rcases (step_effects hs).slots with ⟨hsl, hfb⟩ | ⟨x, hpc, hsl, hfb⟩
  · exact ⟨congrFun hsl i, congrFun hfb i⟩
  · have hne : i ≠ s.q.head := fun h => hi (by simp [writeTarget, hpc, h])
    rw [hsl, hfb]
    exact ⟨Function.update_of_ne hne _ _, Function.update_of_ne hne _ _⟩

theorem writeTarget_ne (h : s.Inv) {p : FramePacket} (hp : p ∈ s.held) :
    s.writeTarget ≠ some p.slotIdx := by
  unfold writeTarget
  split
  · rename_i a hpc
    intro heq
    exact slotIdx_ne_head h hpc hp (Option.some.inj heq).symm
  · exact Option.some_ne_none _ ∘ Eq.symm

/-! ## Zero-copy views -/

/-- While a packet is held its slot keeps its bytes. -/
theorem slots_while_held (hI : s.Inv) {p : FramePacket}
    (hr : Reach step (fun t _ => p ∈ t.held) s s') :
    s'.Inv ∧ s'.q.slots p.slotIdx = s.q.slots p.slotIdx ∧
      s'.filledBy p.slotIdx = s.filledBy p.slotIdx := by
  induction hr with
  | init => exact ⟨hI, rfl, rfl⟩
  | tail a _ hp hs ih =>
    obtain ⟨hI', hsl, hfb⟩ := ih
    obtain ⟨hsl', hfb'⟩ := slots_step hs (writeTarget_ne hI' hp)
    exact ⟨inv_step hI' hs, hsl'.trans hsl, hfb'.trans hfb⟩

/-- The view of a held packet: no `push` is about to write its slot, and it shows the arguments
of the accepted `push` that filled the slot, now and along every further run in which the packet
is not freed. -/
structure StableView (s : QState) (p : FramePacket) (a : PushArgs) : Prop where
  not_written : s.writeTarget ≠ some p.slotIdx
  filled : s.filledBy p.slotIdx = some a
  shows : p.Shows s.q a
  stable : ∀ s', Reach step (fun t _ => p ∈ t.held) s s' → p ∈ s'.held →
    s'.writeTarget ≠ some p.slotIdx ∧ s'.q.slots p.slotIdx = s.q.slots p.slotIdx ∧
      s'.filledBy p.slotIdx = some a ∧ p.Shows s'.q a

/-- **Zero-copy views are stable.** Over every interleaving, with any number of packets
outstanding, no two packets share a slot and the view of each is stable. -/
theorem zero_copy_stable (hc : 0 < capacity) (hr : Reachable Any capacity maxFrameSize s) :
    s.heldSlots.Nodup ∧ ∀ p ∈ s.held, ∃ a, StableView s p a := by
  have hI := inv_of_reachable hc hr
  refine ⟨hI.held_nodup, fun p hp => ?_⟩
  obtain ⟨a, hfill, hshow⟩ := (traced_of_reachable hc hr).filled_held p hp
  refine ⟨a, writeTarget_ne hI hp, hfill, hshow, fun s' hrun hp' => ?_⟩
  obtain ⟨hI', hsl, hfb⟩ := slots_while_held hI hrun
  have hview : s'.q.view p = s.q.view p := by
    unfold RingQueue.view
    rw [hsl]
  exact ⟨writeTarget_ne hI' hp', hsl, hfb.trans hfill, hshow.1, hview.trans hshow.2⟩

/-- A frame pushed and popped; its packet is outstanding. -/
theorem reach_popped : ∃ s : QState, Reachable Any 1 4 s ∧ s.held.length = 1 := by
  have hrun : ∃ s, exec step [.pushCall (sampleArgs 0), .pushTest, .pushGuard, .pushWrite, .pop 0,
      .popBuild 0] (init (RingQueue.construct 1 4 true true)) = some s ∧ s.held.length = 1 :=
    ⟨_, rfl, rfl⟩
  obtain ⟨s, hrun, hheld⟩ := hrun
  exact ⟨s, (Runs.of_exec (fun _ _ _ => trivial) hrun).reach Reach.init, hheld⟩

theorem zero_copy_stable_popped : ∃ s : QState, s.held.length = 1 ∧
    s.heldSlots.Nodup ∧ ∀ p ∈ s.held, ∃ a, StableView s p a := by
  obtain ⟨s, hr, hheld⟩ := reach_popped
  exact ⟨s, hheld, zero_copy_stable (by decide) hr⟩

/-! ## FIFO with exact accounting -/

/-- No packet is lost when every allocation succeeds. -/
theorem lost_nil (hr : Reachable AllocOk capacity maxFrameSize s) : s.lost = [] := by
  refine hr.invariant (I := fun s => s.lost = []) ⟨rfl, fun a h hok hs => ?_⟩
  rcases (step_effects hs).lost with hlost | ⟨i, rfl⟩
  · exact hlost.trans h
  · exact absurd rfl (hok i)

/-- Whenever no call is in progress every popped frame has been returned. -/
theorem popped_perm (hc : 0 < capacity) (hr : Reachable AllocOk capacity maxFrameSize s)
    (hq : s.Quiet) : (popped s.hist).Perm s.returned := by
  have hdel := (traced_of_reachable hc hr).delivered
  rw [lost_nil hr, hq.2.2, List.map_nil, List.append_nil, List.append_nil] at hdel
  exact hdel

/-- The queue is a FIFO and its counters are exact. -/
structure ExactFifo (s : QState) : Prop where
  /-- Accepted is removed followed by queued, in order. -/
  fifo : accepted s.hist = removed s.hist ++ s.q.queued
  /-- Removed is an order-preserving merge of popped and evicted. -/
  merge : Merge (popped s.hist) (evicted s.hist) (removed s.hist)
  /-- Every popped frame is returned once; to one consumer in this order (`returned_in_order`). -/
  once : (popped s.hist).Perm s.returned
  pushed : s.q.framesPushed = (accepted s.hist).length
  popped : s.q.framesPopped = s.returned.length
  balance : s.offered.length = s.q.framesPopped + s.q.framesDropped + s.q.count

/-- **FIFO with exact accounting**, whenever no call is in progress. -/
theorem fifo_exact (hc : 0 < capacity) (hr : Reachable AllocOk capacity maxFrameSize s)
    (hq : s.Quiet) : s.ExactFifo := by
  have h := traced_of_reachable hc hr
  have hdel := popped_perm hc hr hq
  obtain ⟨hpc, hunc, -⟩ := hq
  refine ⟨replay_conserve h.replay, removed_merge _, hdel, h.pushed, ?_, ?_⟩
  · rw [h.popped, hdel.length_eq]
  · have hoff := h.offered
    simp only [pendingFrame, hpc, Option.map_none, Option.toList_none, List.append_nil] at hoff
    have hdec := (decided_merge s.hist).length
    have hbal := replay_balance h.replay
    have hdrop := h.dropped
    have hpop := h.popped
    rw [RingQueue.queued_length] at hbal
    rw [hoff]
    omega

/-- Two frames pushed into one slot, the first evicted, the second popped and freed. -/
theorem reach_wrapped : ∃ s : QState, Reachable AllocOk 1 4 s ∧ s.Quiet ∧ s.returned.length = 1 ∧
    s.offered.length = 2 := by
  have hrun : ∃ s, exec step [.pushCall (sampleArgs 0), .pushTest, .pushGuard, .pushWrite,
      .pushCall (sampleArgs 1), .pushTest, .pushTest, .pushGuard, .pushWrite,
      .pop 0, .popBuild 0, .release 0] (init (RingQueue.construct 1 4 true true)) = some s ∧
      s.Quiet ∧ s.returned.length = 1 ∧ s.offered.length = 2 :=
    ⟨_, rfl, ⟨rfl, rfl, rfl⟩, rfl, rfl⟩
  obtain ⟨s, hrun, hrest⟩ := hrun
  refine ⟨s, (Runs.of_exec (fun a ha t i => ?_) hrun).reach Reach.init, hrest⟩
  rintro rfl
  simp at ha

theorem fifo_exact_wrapped : ∃ s : QState, s.offered.length = 2 ∧ s.ExactFifo := by
  obtain ⟨s, hr, hq, -, hoff⟩ := reach_wrapped
  exact ⟨s, hoff, fifo_exact (by decide) hr hq⟩

/-! ## The order of the returns -/

/-- **What a held packet shows does not change.** -/
theorem view_step {a : QAction} (hI : s.Inv) (hs : s.step a = some s') {p : FramePacket}
    (hp : p ∈ s.held) : s'.q.view p = s.q.view p := by
  unfold RingQueue.view
  rw [(slots_step hs (writeTarget_ne hI hp)).1]

/-- The steps of a `push` after its call. -/
def isPush : QAction → Bool
  | .pushTest => true
  | .pushGuard => true
  | .pushWrite => true
  | .pushCount => true
  | _ => false

/-- What the consumer has, and what it has been given. -/
structure SameConsumer (s s' : QState) : Prop where
  taken : s'.taken = s.taken
  outstanding : s'.outstanding = s.outstanding
  returned : s'.returned = s.returned
  lost : s'.lost = s.lost
  popped : popped s'.hist = popped s.hist

/-- A `push` leaves the consumer alone. -/
theorem push_sameConsumer {a : QAction} (ha : isPush a = true) (hs : s.step a = some s') :
    SameConsumer s s' := by
  cases a with
  | pushTest =>
    obtain ⟨a, -, ⟨-, -, rfl⟩ | ⟨-, -, rfl⟩ | ⟨-, rfl⟩⟩ := pushTest_cases hs
    · exact ⟨rfl, rfl, rfl, rfl, by simp [pushRefuse, Event.popped?]⟩
    · exact ⟨rfl, rfl, rfl, rfl, by simp [Event.popped?]⟩
    · exact ⟨rfl, rfl, rfl, rfl, rfl⟩
  | pushGuard =>
    obtain ⟨a, -, ⟨-, rfl⟩ | ⟨-, rfl⟩⟩ := pushGuard_cases hs
    · exact ⟨rfl, rfl, rfl, rfl, by simp [pushRefuse, Event.popped?]⟩
    · exact ⟨rfl, rfl, rfl, rfl, rfl⟩
  | pushWrite =>
    obtain ⟨a, -, rfl⟩ := pushWrite_cases hs
    exact ⟨rfl, rfl, rfl, rfl, by simp [Event.popped?]⟩
  | pushCount =>
    obtain ⟨-, rfl⟩ := pushCount_cases hs
    exact ⟨rfl, rfl, rfl, rfl, rfl⟩
  | _ => exact absurd ha (by simp [isPush])

theorem pushCall_sameConsumer {a : PushArgs} (hs : s.step (.pushCall a) = some s') :
    SameConsumer s s' := by
  rcases pushCall_cases hs with ⟨rfl, -⟩ | ⟨-, -, -, rfl⟩
  · exact ⟨rfl, rfl, rfl, rfl, rfl⟩
  · exact ⟨rfl, rfl, rfl, rfl, rfl⟩

theorem shutdown_sameConsumer (hs : s.step .shutdown = some s') : SameConsumer s s' := by
  obtain ⟨-, rfl⟩ := shutdown_cases hs
  exact ⟨rfl, rfl, rfl, rfl, rfl⟩

/-- One packet is on its way at most, and the frames popped are those whose `pop` has returned, in
order, then that one. -/
structure InOrder (s : QState) : Prop where
  one : s.taken.length ≤ 1
  order : ∃ pre, popped s.hist = pre ++ s.taken.map s.q.view ∧ s.returned.Sublist pre

theorem InOrder.same (hI : s.Inv) {a : QAction} (hs : s.step a = some s') (h : s.InOrder)
    (hc : SameConsumer s s') : s'.InOrder := by
  obtain ⟨pre, hpop, hret⟩ := h.order
  refine ⟨hc.taken ▸ h.one, pre, ?_, hc.returned ▸ hret⟩
  have hview : s.taken.map s'.q.view = s.taken.map s.q.view :=
    List.map_congr_left fun p hp => view_step hI hs (List.mem_append_left _ hp)
  rw [hc.popped, hpop, hc.taken, hview]

/-- The `i`-th packet on its way is the only one. -/
theorem InOrder.taken_eq (h : s.InOrder) {i : Nat} {p : FramePacket}
    (hp : s.taken[i]? = some p) : s.taken = [p] ∧ s.taken.eraseIdx i = [] := by
  have hperm := perm_of_getElem? hp
  have hlen := hperm.length_eq
  have hone := h.one
  rw [List.length_cons] at hlen
  have hnil : s.taken.eraseIdx i = [] := List.length_eq_zero_iff.mp (by omega)
  rw [hnil] at hperm
  exact ⟨List.perm_singleton.mp hperm, hnil⟩

theorem inOrder_step {a : QAction} (hI : s.Inv) (h : s.InOrder) (hok : s.OneConsumer a)
    (hs : s.step a = some s') : s'.InOrder := by
  cases a with
  | pushCall a => exact h.same hI hs (pushCall_sameConsumer hs)
  | pushTest => exact h.same hI hs (push_sameConsumer rfl hs)
  | pushGuard => exact h.same hI hs (push_sameConsumer rfl hs)
  | pushWrite => exact h.same hI hs (push_sameConsumer rfl hs)
  | pushCount => exact h.same hI hs (push_sameConsumer rfl hs)
  | pop t =>
    rcases pop_cases hs with rfl | ⟨-, -, rfl⟩
    · exact h
    · obtain ⟨pre, hpop, hret⟩ := h.order
      have htaken : s.taken = [] := hok
      rw [htaken, List.map_nil, List.append_nil] at hpop
      refine ⟨by simp [popTake, htaken], pre, ?_, hret⟩
      simp only [popTake, popped_snoc, Event.popped?, Option.toList_some, htaken, hpop]
      rfl
  | popBuild i =>
    obtain ⟨p, hp, rfl⟩ := popBuild_cases hs
    obtain ⟨pre, hpop, hret⟩ := h.order
    obtain ⟨htaken, hnil⟩ := h.taken_eq hp
    refine ⟨by simp [hnil], pre ++ [s.q.view p], ?_, List.Sublist.append hret (List.Sublist.refl _)⟩
    simp only [hnil, List.map_nil, List.append_nil]
    rw [hpop, htaken]
    rfl
  | popFail i =>
    obtain ⟨p, hp, rfl⟩ := popFail_cases hs
    obtain ⟨pre, hpop, hret⟩ := h.order
    obtain ⟨htaken, hnil⟩ := h.taken_eq hp
    refine ⟨by simp [hnil], pre ++ [s.q.view p], ?_, hret.trans (List.sublist_append_left _ _)⟩
    simp only [hnil, List.map_nil, List.append_nil]
    rw [hpop, htaken]
    rfl
  | release i =>
    obtain ⟨p, hp, rfl⟩ := release_cases hs
    exact ⟨h.one, h.order⟩
  | shutdown =>
    obtain ⟨-, rfl⟩ := shutdown_cases hs
    exact ⟨h.one, h.order⟩

/-- **One consumer is returned frames in the order they were popped**, those of failed allocations
apart. -/
theorem in_order (hc : 0 < capacity) (hr : Reachable OneConsumer capacity maxFrameSize s) :
    s.InOrder := by
  have h0 : (init (RingQueue.construct capacity maxFrameSize true true)).InOrder :=
    ⟨Nat.zero_le _, [], rfl, List.Sublist.refl _⟩
  exact hr.invariant_of (fun _ hr => inv_of_reachable hc hr) h0 fun _ hI h hok hs =>
    inOrder_step hI h hok hs

/-- **One consumer is returned exactly the frames popped, in order**, whenever no call is in
progress and no allocation has failed. -/
theorem returned_in_order (hc : 0 < capacity)
    (hr : Reachable (fun s a => AllocOk s a ∧ OneConsumer s a) capacity maxFrameSize s)
    (hq : s.Quiet) : s.returned = popped s.hist := by
  obtain ⟨pre, hpop, hret⟩ := (in_order hc (hr.mono fun _ _ hok => hok.2)).order
  have hperm := popped_perm hc (hr.mono fun _ _ hok => hok.1) hq
  rw [hq.2.2, List.map_nil, List.append_nil] at hpop
  rw [← hpop] at hret
  exact hret.eq_of_length hperm.length_eq.symm

end QState

end CameraStreamer
