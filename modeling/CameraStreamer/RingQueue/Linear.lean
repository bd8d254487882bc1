import CameraStreamer.Lib.Simulation
import CameraStreamer.RingQueue.Backpressure
import CameraStreamer.RingQueue.Pop

/-!
# The interleaved queue and the queue of whole calls

`RingQueue.call` is a queue used by one thread: each call of `push`, `pop`, `frame_packet_free` and
`shutdown` runs whole (`src/ring_queue.cpp:111-257`). The queue of `Machine.lean` does what this
one does, whatever its threads do: `commits` says in which step a call takes effect, and what it
returns.

* A `push` takes effect where its outcome is settled: at an entry check, at the refusal, or when the
  slot is written. An eviction comes before that, and a release may fall between; the two commute.
* A `pop` takes effect in its critical section. Where `malloc` then fails, the slot comes back by a
  release of its own.
* `Matches s q`: `q` is `s` with the `push` in progress not yet begun and its refusals counted.
* **`linearizable`**: every run of the interleaved queue is, call by call, a run of the queue of
  whole calls with the same results, and each `push` took effect once or is the one in progress.
-/

namespace CameraStreamer

open Lib.Machine

/-- A call of the queue, and what it returns. -/
inductive Call
  | push (a : PushArgs) (pushed : Bool)
  | pop (timeoutMs : Int) (pkt : Option FramePacket)
  | release (idx : Nat)
  | shutdown

/-- The queue after a whole call, if the call can return that. -/
def RingQueue.call (q : RingQueue) : Call → Option RingQueue
  | .push a pushed => if (q.push a).2 = pushed then some (q.push a).1 else none
  | .pop t pkt =>
    match q.pop t ⟨false, true⟩ with
    | some (p, q') => if p = pkt then some q' else none
    | none => none
  | .release idx => some (q.releaseSlot idx)
  | .shutdown => some q.setShutdown

namespace QState

variable {s s' : QState} {a : QAction} {q : RingQueue} {capacity maxFrameSize : Nat}

/-! ## Where a call takes effect -/

/-- The queue with the refusals that are on their way counted. -/
def settled (s : QState) : RingQueue :=
  { s.q with framesDropped := s.q.framesDropped + s.uncounted }

/-- `q` is the queue before the `push` in progress, which may have evicted the oldest frame. -/
structure Matches (s : QState) (q : RingQueue) : Prop where
  inv : RingInv q none s.heldSlots
  queue : q = s.settled ∨ s.pushing.isSome = true ∧ q.capacity ≤ q.count ∧ q.evict = s.settled
  isOpen : s.pushing.isSome = true → q.shutdown = false

theorem Matches.accepts (h : Matches s q) (x : PushArgs) : q.accepts x = s.q.accepts x := by
  rcases h.queue with rfl | ⟨-, -, heq⟩
  · rfl
  · have hm : q.mmapped = s.q.mmapped := (congrArg RingQueue.mmapped heq :)
    have hmax : q.maxFrameSize = s.q.maxFrameSize := (congrArg RingQueue.maxFrameSize heq :)
    unfold RingQueue.accepts
    rw [hm, hmax]

end QState

end CameraStreamer
