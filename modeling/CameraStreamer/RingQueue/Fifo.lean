import CameraStreamer.RingQueue.Invariant

/-!
# The ring queue refines the abstract FIFO

The circular array with its cursors and flags, run under every interleaving, is the list queue
of `Lib/Fifo.lean`: the history of its critical sections replays to the frames read off the
`count_` slots from `tail_` (`Traced.replay`). Around this stand

* the counters, against the history (`pushed`, `popped`, `dropped`, `offered`);
* the frames behind the packets: the slot of a packet not yet freed still stores the frame of
  the last `push` accepted into it (`filled_held`), and so does every queued slot
  (`filled_window`).

`traced_of_reachable` proves all of it over every interleaving; `fifo_exact` and
`zero_copy_stable` are the two contracts read off it.
-/

namespace CameraStreamer

open Lib.Machine Lib.Window Lib.Fifo

/-! ## What the primitives do to the queued frames -/

namespace RingInv

variable {q : RingQueue} {pc : Option PushPc} {hs : List Nat}

theorem queued_evict (h : RingInv q pc hs) (hc : 0 < q.count) :
    q.queued = (q.slots q.tail).frame :: q.evict.queued := by
  obtain ⟨c, hc'⟩ : ∃ c, q.count = c + 1 := ⟨q.count - 1, by omega⟩
  unfold RingQueue.queued
  rw [hc', contents_cons _ h.tail_lt]
  simp only [RingQueue.evict, hc', Nat.add_sub_cancel]
  rfl

theorem queued_popTake (h : RingInv q pc hs) (hc : 0 < q.count) :
    q.queued = (q.slots q.tail).frame :: q.popTake.queued :=
  h.queued_evict hc

theorem accepts_data {a : PushArgs} (h : q.accepts a = true) : a.data ≠ none := by
  simp only [RingQueue.accepts, Bool.and_eq_true] at h
  exact Option.isSome_iff_ne_none.mp h.1.1.2

theorem accepts_len {a : PushArgs} (h : q.accepts a = true) : a.len.toNat ≤ q.maxFrameSize := by
  simp only [RingQueue.accepts, Bool.and_eq_true, decide_eq_true_eq] at h
  exact h.2

theorem queued_store {a : PushArgs} (h : RingInv q (some (.write a)) hs) :
    (q.store a).queued = q.queued ++ [a.frame] := by
  obtain ⟨hacc, hc, -⟩ := h.pc_ok _ rfl
  unfold RingQueue.queued
  simp only [RingQueue.store]
  rw [contents_snoc, ← h.head_eq, Function.update_self, Slot.frame_write _ (accepts_data hacc)]
  congr 1
  apply contents_congr
  intro i hi
  rw [Function.update_of_ne (h.slot_ne_head hc hi)]

end RingInv

theorem RingQueue.view_store {q : RingQueue} {a : PushArgs} {p : FramePacket}
    (hp : p.slotIdx ≠ q.head) : (q.store a).view p = q.view p := by
  simp only [RingQueue.view, RingQueue.store]
  rw [Function.update_of_ne hp]

/-- The slot stores what a `push` with these arguments wrote. -/
def Slot.Holds (sl : Slot) (a : PushArgs) : Prop := sl.hdr = a.header ∧ sl.frame = a.frame

/-- The packet shows its holder the arguments of this `push`: the metadata, and `data[0..len)`
as the slot holds it now. -/
def FramePacket.Shows (p : FramePacket) (q : RingQueue) (a : PushArgs) : Prop :=
  p.header = a.header ∧ q.view p = a.frame

namespace QState

variable {s s' : QState}

/-- The frame of the `push` holding the mutex. -/
def pendingFrame (s : QState) : List Frame := (s.pushing.map fun p => p.args.frame).toList

/-- **The history and the counters agree with the state.** -/
structure Traced (s : QState) : Prop where
  replay : Replay s.hist s.q.queued
  pushed : s.q.framesPushed = (accepted s.hist).length
  popped : s.q.framesPopped = (popped s.hist).length
  dropped : s.q.framesDropped + s.uncounted = (evicted s.hist).length + (refused s.hist).length
  offered : s.offered = decided s.hist ++ s.pendingFrame
  /-- Every frame popped is returned, lost to a failed allocation, or on its way. -/
  delivered : (Lib.Fifo.popped s.hist).Perm (s.returned ++ s.lost ++ s.taken.map s.q.view)
  filled_window : ∀ i, i < s.q.count → ∃ a,
    s.filledBy (slot s.q.capacity s.q.tail i) = some a ∧
      (s.q.slots (slot s.q.capacity s.q.tail i)).Holds a
  filled_held : ∀ p ∈ s.held, ∃ a, s.filledBy p.slotIdx = some a ∧ p.Shows s.q a

theorem traced_init (capacity maxFrameSize : Nat) (mmapOk mallocOk : Bool) :
    (init (RingQueue.construct capacity maxFrameSize mmapOk mallocOk)).Traced where
  replay := Replay.nil
  pushed := rfl
  popped := rfl
  dropped := rfl
  offered := rfl
  delivered := List.Perm.refl _
  filled_window i hi := absurd hi (Nat.not_lt_zero i)
  filled_held p hp := absurd hp (by simp [held, init])

/-- No packet not yet freed refers to the slot a `push` is about to write. -/
theorem slotIdx_ne_head {a : PushArgs} (h : s.Inv) (hpc : s.pushing = some (.write a))
    {p : FramePacket} (hp : p ∈ s.held) : p.slotIdx ≠ s.q.head := by
  intro heq
  have hfree := (h.pc_ok _ hpc).2.2
  have huse := (h.inUse_iff p.slotIdx).mpr (List.mem_map_of_mem hp)
  rw [heq, hfree] at huse
  exact absurd huse (by simp)

theorem traced_refuse {a : PushArgs} {p : PushPc} (h : s.Traced) (hpc : s.pushing = some p)
    (ha : p.args = a) : (s.pushRefuse a).Traced := by
  have hoff := h.offered
  have hdr := h.dropped
  simp only [pendingFrame, hpc, Option.map_some, Option.toList_some, ha] at hoff
  refine
    { replay := Replay.refused _ h.replay, pushed := ?_, popped := ?_, dropped := ?_,
      offered := ?_, delivered := ?_, filled_window := h.filled_window,
      filled_held := h.filled_held }
  · simpa [pushRefuse, Event.accepted?] using h.pushed
  · simpa [pushRefuse, Event.popped?] using h.popped
  · simp [pushRefuse, Event.evicted?, Event.refused?]; omega
  · simpa [pushRefuse, pendingFrame, Event.decided?] using hoff
  · simpa [pushRefuse, Event.popped?] using h.delivered

theorem traced_evict (hI : s.Inv) (h : s.Traced) (hc : 0 < s.q.count) :
    Traced { s with
              q := s.q.evict
              hist := s.hist ++ [.evicted (s.q.slots s.q.tail).frame] } := by
  have hoff := h.offered
  have hdr := h.dropped
  have hrep := h.replay
  rw [hI.queued_evict hc] at hrep
  refine
    { replay := Replay.evicted hrep, pushed := ?_, popped := ?_, dropped := ?_, offered := ?_,
      delivered := ?_, filled_window := ?_, filled_held := h.filled_held }
  · simpa [RingQueue.evict, Event.accepted?] using h.pushed
  · simpa [RingQueue.evict, Event.popped?] using h.popped
  · simp [RingQueue.evict, Event.evicted?, Event.refused?]; omega
  · simpa [pendingFrame, Event.decided?] using hoff
  · have hview : s.q.evict.view = s.q.view := rfl
    simpa [Event.popped?, hview] using h.delivered
  · intro i hi
    simp only [RingQueue.evict] at hi ⊢
    rw [show (s.q.tail + 1) % s.q.capacity = slot s.q.capacity s.q.tail 1 from rfl, slot_slot]
    exact h.filled_window (1 + i) (by omega)

theorem traced_write {a : PushArgs} (hI : s.Inv) (h : s.Traced)
    (hpc : s.pushing = some (.write a)) :
    Traced { s with
              q := s.q.store a
              pushing := none
              hist := s.hist ++ [.accepted a.frame]
              filledBy := Function.update s.filledBy s.q.head (some a) } := by
  have hI' := hI
  unfold Inv at hI'
  rw [hpc] at hI'
  obtain ⟨hacc, hc, -⟩ := hI'.pc_ok _ rfl
  have hoff := h.offered
  simp only [pendingFrame, hpc, Option.map_some, Option.toList_some, PushPc.args] at hoff
  have hview : ∀ p ∈ s.held, (s.q.store a).view p = s.q.view p :=
    fun p hp => RingQueue.view_store (slotIdx_ne_head hI hpc hp)
  refine
    { replay := ?_, pushed := ?_, popped := ?_, dropped := ?_, offered := ?_, delivered := ?_,
      filled_window := ?_, filled_held := ?_ }
  · simp only
    rw [hI'.queued_store]
    exact Replay.accepted _ h.replay
  · simpa [RingQueue.store, Event.accepted?] using h.pushed
  · simpa [RingQueue.store, Event.popped?] using h.popped
  · simpa [RingQueue.store, Event.evicted?, Event.refused?] using h.dropped
  · simpa [pendingFrame, Event.decided?] using hoff
  · have htaken : s.taken.map (s.q.store a).view = s.taken.map s.q.view :=
      List.map_congr_left fun p hp => hview p (List.mem_append_left _ hp)
    simpa [Event.popped?, htaken] using h.delivered
  · intro i hi
    simp only [RingQueue.store] at hi ⊢
    by_cases hlast : i = s.q.count
    · rw [hlast, ← hI'.head_eq, Function.update_self, Function.update_self]
      exact ⟨a, rfl, rfl, Slot.frame_write _ (RingInv.accepts_data hacc)⟩
    · have hne := hI'.slot_ne_head hc (show i < s.q.count by omega)
      rw [Function.update_of_ne hne, Function.update_of_ne hne]
      exact h.filled_window i (by omega)
  · intro p hp
    simp only [FramePacket.Shows]
    rw [hview p hp, Function.update_of_ne (slotIdx_ne_head hI hpc hp)]
    exact h.filled_held p hp

theorem traced_popTake (hI : s.Inv) (h : s.Traced) (hc : 0 < s.q.count) : s.popTake.Traced := by
  have hrep := h.replay
  rw [hI.queued_popTake hc] at hrep
  have hoff := h.offered
  have hview : s.q.popTake.view s.q.tailPacket = (s.q.slots s.q.tail).frame := rfl
  refine
    { replay := Replay.popped hrep, pushed := ?_, popped := ?_, dropped := ?_, offered := ?_,
      delivered := ?_, filled_window := ?_, filled_held := ?_ }
  · simpa [popTake, RingQueue.popTake, Event.accepted?] using h.pushed
  · simpa [popTake, RingQueue.popTake, Event.popped?] using h.popped
  · simpa [popTake, RingQueue.popTake, Event.evicted?, Event.refused?] using h.dropped
  · simpa [popTake, pendingFrame, Event.decided?] using hoff
  · simp only [popTake, popped_snoc, Event.popped?, Option.toList_some, List.map_cons, hview]
    exact (h.delivered.append_right _).trans
      ((List.perm_append_singleton _ _).trans List.perm_middle.symm)
  · intro i hi
    simp only [popTake, RingQueue.popTake] at hi ⊢
    rw [show (s.q.tail + 1) % s.q.capacity = slot s.q.capacity s.q.tail 1 from rfl, slot_slot]
    exact h.filled_window (1 + i) (by omega)
  · intro p hp
    rcases List.mem_cons.mp (show p ∈ s.q.tailPacket :: s.held from hp) with rfl | hp
    · have := h.filled_window 0 hc
      rw [slot_zero hI.tail_lt] at this
      exact this
    · exact h.filled_held p hp

/-- **Every step keeps the history and the counters in agreement.** -/
theorem traced_step {a : QAction} (hI : s.Inv) (h : s.Traced) (hs : s.step a = some s') :
    s'.Traced := by
  cases a with
  | pushCall a =>
    rcases pushCall_cases hs with ⟨rfl, -⟩ | ⟨-, -, hpc, rfl⟩
    · exact h
    · have hoff := h.offered
      simp only [pendingFrame, hpc, Option.map_none, Option.toList_none, List.append_nil] at hoff
      exact { h with offered := by simp [pendingFrame, hoff, PushPc.args] }
  | pushTest =>
    obtain ⟨a, hpc, ⟨-, -, rfl⟩ | ⟨hc, -, rfl⟩ | ⟨-, rfl⟩⟩ := pushTest_cases hs
    · exact traced_refuse h hpc rfl
    · exact traced_evict hI h (Nat.lt_of_lt_of_le hI.cap_pos hc)
    · exact { h with offered := by simpa [pendingFrame, hpc, PushPc.args] using h.offered }
  | pushGuard =>
    obtain ⟨a, hpc, ⟨-, rfl⟩ | ⟨-, rfl⟩⟩ := pushGuard_cases hs
    · exact traced_refuse h hpc rfl
    · exact { h with offered := by simpa [pendingFrame, hpc, PushPc.args] using h.offered }
  | pushWrite =>
    obtain ⟨a, hpc, rfl⟩ := pushWrite_cases hs
    exact traced_write hI h hpc
  | pushCount =>
    obtain ⟨hu, rfl⟩ := pushCount_cases hs
    have hdr := h.dropped
    exact { h with dropped := by simp only [RingQueue.refuse]; omega }
  | pop t =>
    rcases pop_cases hs with rfl | ⟨-, hc, rfl⟩
    · exact h
    · exact traced_popTake hI h hc
  | popBuild i =>
    obtain ⟨p, hp, rfl⟩ := popBuild_cases hs
    refine { h with delivered := ?_, filled_held := ?_ }
    · have htaken := (perm_of_getElem? hp).map s.q.view
      refine (h.delivered.trans (htaken.append_left _)).trans ?_
      simp only [List.map_cons, List.append_assoc]
      refine List.Perm.append_left _ ?_
      exact List.perm_middle
    · intro p' hp'
      exact h.filled_held p' ((held_perm_popBuild hp).mem_iff.mpr hp')
  | popFail i =>
    obtain ⟨p, hp, rfl⟩ := popFail_cases hs
    refine { h with delivered := ?_, filled_held := ?_ }
    · have htaken := (perm_of_getElem? hp).map s.q.view
      refine (h.delivered.trans (htaken.append_left _)).trans ?_
      simp only [List.map_cons, List.append_assoc]
      exact List.Perm.refl _
    · intro p' hp'
      exact h.filled_held p' ((held_perm_popFail hp).mem_iff.mpr (List.mem_cons_of_mem _ hp'))
  | release i =>
    obtain ⟨p, hp, rfl⟩ := release_cases hs
    refine { h with filled_held := ?_ }
    intro p' hp'
    exact h.filled_held p' ((held_perm_release hp).mem_iff.mpr (List.mem_cons_of_mem _ hp'))
  | shutdown =>
    obtain ⟨-, rfl⟩ := shutdown_cases hs
    exact { h with }

/-- **Histories and counters agree with the state over every interleaving.** -/
theorem traced_of_reachable {ok : QState → QAction → Prop} {capacity maxFrameSize : Nat}
    (hc : 0 < capacity) (hr : Reachable ok capacity maxFrameSize s) : s.Traced :=
  hr.invariant_of (fun _ hr => inv_of_reachable hc hr)
    (traced_init capacity maxFrameSize true true) fun _ hI h _ hs => traced_step hI h hs

end QState

end CameraStreamer
