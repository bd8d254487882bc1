import CameraStreamer.Lib.Fifo
import CameraStreamer.Lib.Machine
import CameraStreamer.RingQueue.Basic

/-!
# The ring queue under interleaving

`QState` is the queue shared by its threads, the calls in progress, and a history no code reads.
`QState.step` is one atomic step of some thread:

* a `push` holds the mutex from its shutdown test to its unlock, and reads the two `in_use` flags
  in separate steps (`pushTest`, `pushGuard`), since `releaseSlot` does not take the mutex and may
  run in between. The refusal counter is incremented after the unlock (`pushCount`).
* a `pop` that finds something to take runs its critical section as one step (it accesses a
  shared flag once); building the packet, or failing to allocate it, comes later without the
  mutex.
* `release i` is `frame_packet_free` of the `i`-th outstanding packet.
* `shutdown` is the locked part of `RingQueue::shutdown`.

`Reach` of `Lib/Machine.lean` gives the runs. `OneConsumer` is the discipline of one consumer, and
`Spsc` that of one producer and one consumer that holds at most one packet at a time.
-/

namespace CameraStreamer

open Lib.Machine Lib.Fifo

/-- Where the `push` that holds the mutex stands. -/
inductive PushPc
  /-- Before a test of `count_ >= capacity_`. -/
  | evict (a : PushArgs)
  /-- Before the test of `slot_in_use_[head_]`. -/
  | guard (a : PushArgs)
  /-- Before the header assignments and the `memcpy`. -/
  | write (a : PushArgs)

/-- The arguments of the call. -/
def PushPc.args : PushPc → PushArgs
  | .evict a => a
  | .guard a => a
  | .write a => a

/-- The queue, the calls in progress, and their history. -/
structure QState where
  q : RingQueue
  /-- The `push` holding the mutex. -/
  pushing : Option PushPc
  /-- Refused `push`es that have unlocked and not yet counted. -/
  uncounted : Nat
  /-- Packets of `pop`s between their unlock and their return. -/
  taken : List FramePacket
  /-- Packets returned and not yet freed. -/
  outstanding : List FramePacket
  /-- The frames of the valid `push`es made before shutdown. -/
  offered : List Frame
  /-- What the critical sections did, oldest first. -/
  hist : List (Event Frame)
  /-- The frames of the packets returned, in the order of the returns. -/
  returned : List Frame
  /-- The frames whose packet could not be allocated. -/
  lost : List Frame
  /-- The last accepted `push` into each slot. -/
  filledBy : Nat → Option PushArgs

/-- One step of some thread. -/
inductive QAction
  | pushCall (a : PushArgs)
  | pushTest
  | pushGuard
  | pushWrite
  | pushCount
  | pop (timeoutMs : Int)
  | popBuild (i : Nat)
  | popFail (i : Nat)
  | release (i : Nat)
  | shutdown

namespace QState

/-- A constructed queue no one has used yet. -/
def init (q : RingQueue) : QState where
  q := q
  pushing := none
  uncounted := 0
  taken := []
  outstanding := []
  offered := []
  hist := []
  returned := []
  lost := []
  filledBy := fun _ => none

/-- The packets whose slot has been taken and not yet released. -/
def held (s : QState) : List FramePacket := s.taken ++ s.outstanding

/-- No `push` and no `pop` is in progress. -/
def Quiet (s : QState) : Prop := s.pushing = none ∧ s.uncounted = 0 ∧ s.taken = []

/-- Entry checks, lock, shutdown test (`ring_queue.cpp:114-126`). -/
def pushCall (s : QState) (a : PushArgs) : Option QState :=
  if !s.q.accepts a then some s
  else if s.pushing.isSome then none
  else if s.q.shutdown then some s
  else some { s with pushing := some (.evict a), offered := s.offered ++ [a.frame] }

/-- Unlock and leave with the refusal still to be counted. -/
def pushRefuse (s : QState) (a : PushArgs) : QState :=
  { s with
    pushing := none
    uncounted := s.uncounted + 1
    hist := s.hist ++ [.refused a.frame] }

/-- One turn of `while (count_ >= capacity_)` (`ring_queue.cpp:129-140`). -/
def pushTest (s : QState) : Option QState :=
  match s.pushing with
  | some (.evict a) =>
    if s.q.capacity ≤ s.q.count then
      if s.q.slotInUse s.q.tail then some (s.pushRefuse a)
      else some
        { s with
          q := s.q.evict
          hist := s.hist ++ [.evicted (s.q.slots s.q.tail).frame] }
    else some { s with pushing := some (.guard a) }
  | _ => none

/-- `if (slot_in_use_[head_].load())` (`ring_queue.cpp:143-147`). -/
def pushGuard (s : QState) : Option QState :=
  match s.pushing with
  | some (.guard a) =>
    if s.q.slotInUse s.q.head then some (s.pushRefuse a)
    else some { s with pushing := some (.write a) }
  | _ => none

/-- The slot the next step of the `push` in progress writes. -/
def writeTarget (s : QState) : Option Nat :=
  match s.pushing with
  | some (.write _) => some s.q.head
  | _ => none

/-- Write the head slot, count the frame, unlock (`ring_queue.cpp:149-165`). -/
def pushWrite (s : QState) : Option QState :=
  match s.pushing with
  | some (.write a) => some
    { s with
      q := s.q.store a
      pushing := none
      hist := s.hist ++ [.accepted a.frame]
      filledBy := Function.update s.filledBy s.q.head (some a) }
  | _ => none

/-- `frames_dropped_++` of a refused `push`, after its unlock. -/
def pushCount (s : QState) : Option QState :=
  if s.uncounted = 0 then none
  else some { s with q := s.q.refuse, uncounted := s.uncounted - 1 }

/-- The critical section of a `pop` that takes the tail slot. -/
def popTake (s : QState) : QState :=
  { s with
    q := s.q.popTake
    taken := s.q.tailPacket :: s.taken
    hist := s.hist ++ [.popped (s.q.slots s.q.tail).frame] }

/-- A `pop` that gets the mutex: it goes on waiting (no step), returns `nullptr`, or takes. -/
def pop (s : QState) (timeoutMs : Int) : Option QState :=
  if s.pushing.isSome then none
  else
    match s.q.popTest timeoutMs with
    | .wait => none
    | .null => some s
    | .take => some s.popTake

/-- Build the packet and return it (`ring_queue.cpp:230-241`). -/
def popBuild (s : QState) (i : Nat) : Option QState :=
  match s.taken[i]? with
  | some p => some
    { s with
      taken := s.taken.eraseIdx i
      outstanding := p :: s.outstanding
      returned := s.returned ++ [s.q.view p] }
  | none => none

/-- `malloc` failed: release the slot and return `nullptr` (`ring_queue.cpp:225-229`). -/
def popFail (s : QState) (i : Nat) : Option QState :=
  match s.taken[i]? with
  | some p => some
    { s with
      q := s.q.releaseSlot p.slotIdx
      taken := s.taken.eraseIdx i
      lost := s.lost ++ [s.q.view p] }
  | none => none

/-- `frame_packet_free`. -/
def release (s : QState) (i : Nat) : Option QState :=
  match s.outstanding[i]? with
  | some p => some
    { s with
      q := s.q.releaseSlot p.slotIdx
      outstanding := s.outstanding.eraseIdx i }
  | none => none

/-- The locked part of `shutdown`. -/
def shutdown (s : QState) : Option QState :=
  if s.pushing.isSome then none else some { s with q := s.q.setShutdown }

/-- One step of the interleaved queue. -/
def step (s : QState) : QAction → Option QState
  | .pushCall a => s.pushCall a
  | .pushTest => s.pushTest
  | .pushGuard => s.pushGuard
  | .pushWrite => s.pushWrite
  | .pushCount => s.pushCount
  | .pop t => s.pop t
  | .popBuild i => s.popBuild i
  | .popFail i => s.popFail i
  | .release i => s.release i
  | .shutdown => s.shutdown

/-- Every interleaving: any number of producers, consumers and outstanding packets. -/
def Any (_ : QState) (_ : QAction) : Prop := True

/-- Every packet allocation succeeds. -/
def AllocOk (_ : QState) (a : QAction) : Prop := ∀ i, a ≠ .popFail i

/-- One producer, which returns from a `push` before it makes the next, and one consumer, which
frees its packet before it pops the next. -/
def Spsc (s : QState) : QAction → Prop
  | .pushCall _ => s.pushing = none ∧ s.uncounted = 0
  | .pop _ => s.held = []
  | _ => True

/-- One consumer, which returns from a `pop` before it makes the next, and may hold any number of
packets. -/
def OneConsumer (s : QState) : QAction → Prop
  | .pop _ => s.taken = []
  | _ => True

/-- Reachable from a queue the constructor left valid. -/
def Reachable (ok : QState → QAction → Prop) (capacity maxFrameSize : Nat) (s : QState) : Prop :=
  Reach step ok (init (RingQueue.construct capacity maxFrameSize true true)) s

end QState

end CameraStreamer
