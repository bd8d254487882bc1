import CameraStreamer.RingQueue.Backpressure

/-!
# One producer, one consumer

What the consumer of the queue sees when it frees each packet before the next `pop`.

* `view_length`, `offered_valid`: the payload shown has the length the metadata gives, and it is
  within the queue's limit.
* **`returned_sublist_offered`**: the frames are returned in the order they were offered, each at
  most once.
-/

namespace CameraStreamer

open Lib.Machine Lib.Window Lib.Fifo

namespace QState

variable {s : QState} {capacity maxFrameSize : Nat}

/-! ## What a packet shows -/

/-- A slot is filled by a call that passed the entry checks. -/
theorem filled_valid {ok : QState → QAction → Prop} (hc : 0 < capacity)
    (hr : Reachable ok capacity maxFrameSize s) {i : Nat} {x : PushArgs}
    (hx : s.filledBy i = some x) : x.data ≠ none ∧ x.len.toNat ≤ maxFrameSize := by
  have h : ∀ i x, s.filledBy i = some x → x.data ≠ none ∧ x.len.toNat ≤ maxFrameSize := by
    refine hr.invariant_of (J := fun s => s.Inv ∧ Fixed capacity maxFrameSize s)
      (I := fun s => ∀ i x, s.filledBy i = some x → x.data ≠ none ∧ x.len.toNat ≤ maxFrameSize)
      (fun _ hr => ⟨inv_of_reachable hc hr, fixed_of_reachable hr⟩)
      (fun i x hx => absurd hx (by simp [init])) ?_
    intro t t' a hJ h _ hs i x hx
    rcases (step_effects hs).slots with ⟨-, hfb⟩ | ⟨y, hpc, -, hfb⟩
    · exact h i x (congrFun hfb i ▸ hx)
    · rw [hfb] at hx
      by_cases hi : i = t.q.head
      · rw [hi, Function.update_self, Option.some.injEq] at hx
        have hacc := (hJ.1.pc_ok _ hpc).1
        rw [← hx]
        exact ⟨RingInv.accepts_data hacc, hJ.2.max ▸ RingInv.accepts_len hacc⟩
      · rw [Function.update_of_ne hi] at hx
        exact h i x hx
  exact h i x hx

/-- The payload a packet shows has the length its metadata gives. -/
theorem view_length {ok : QState → QAction → Prop} (hc : 0 < capacity)
    (hr : Reachable ok capacity maxFrameSize s) {p : FramePacket} (hp : p ∈ s.held) :
    (s.q.view p).payload.length = p.len.toNat := by
  obtain ⟨a, hfill, hhdr, hview⟩ := (traced_of_reachable hc hr).filled_held p hp
  rw [hview, show p.len = a.len from congrArg SlotHeader.len hhdr]
  exact PushArgs.bytes_length (filled_valid hc hr hfill).1

/-- A frame offered is not empty and within the limit. -/
theorem offered_valid {ok : QState → QAction → Prop}
    (hr : Reachable ok capacity maxFrameSize s) :
    ∀ f ∈ s.offered, 1 ≤ f.payload.length ∧ f.payload.length ≤ maxFrameSize := by
  refine hr.invariant_of (fun _ hr => fixed_of_reachable hr)
    (I := fun s => ∀ f ∈ s.offered, 1 ≤ f.payload.length ∧ f.payload.length ≤ maxFrameSize)
    (fun f hf => absurd hf (by simp [init])) fun a hfix h _ hs f hf => ?_
  rcases (step_effects hs).offered with hoff | ⟨x, -, hacc, hoff⟩
  · exact h f (hoff ▸ hf)
  · rw [hoff] at hf
    rcases List.mem_append.mp hf with hf | hf
    · exact h f hf
    · rw [List.mem_singleton.mp hf]
      have hlen : x.frame.payload.length = x.len.toNat :=
        PushArgs.bytes_length (RingInv.accepts_data hacc)
      simp only [RingQueue.accepts, Bool.and_eq_true, decide_eq_true_eq, hfix.max] at hacc
      rw [hlen]
      exact ⟨Nat.pos_of_ne_zero fun h0 => hacc.1.2 (UInt32.toNat_inj.mp h0), hacc.2⟩

/-! ## Order -/

/-- A consumer that has freed its packet has returned from its `pop`. -/
theorem Spsc.oneConsumer {a : QAction} (h : s.Spsc a) : s.OneConsumer a := by
  cases a with
  | pop _ => exact (List.append_eq_nil_iff.mp h).1
  | _ => trivial

/-- **Frames are returned in the order they were offered**, each at most once. -/
theorem returned_sublist_offered (hc : 0 < capacity)
    (hr : Reachable Spsc capacity maxFrameSize s) : s.returned.Sublist s.offered := by
  have h := traced_of_reachable hc hr
  obtain ⟨pre, hpop, hret⟩ := (in_order hc (hr.mono fun _ _ hok => hok.oneConsumer)).order
  have hpre : pre.Sublist (popped s.hist) := hpop ▸ List.sublist_append_left _ _
  have hoff : (decided s.hist).Sublist s.offered := h.offered ▸ List.sublist_append_left _ _
  exact hret.trans (hpre.trans ((replay_popped_sublist h.replay).trans
    ((decided_merge s.hist).left_sublist.trans hoff)))

end QState

end CameraStreamer
