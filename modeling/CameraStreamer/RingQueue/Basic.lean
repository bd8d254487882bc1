import CameraStreamer.Lib.Window

/-!
# The ring queue as the code computes it

Model of `RingQueue` (`src/ring_queue.cpp`, `include/ring_queue.hpp`), one definition per piece
of the source.

* The mapping is `slots : Nat → Slot`, indexed as `slotHdr`/`slotData` index it; only indices
  below `capacity` are ever used (`Invariant.lean` proves it). A slot keeps the `SlotHeader` and
  the `max_frame_size` bytes behind it, so `memcpy` of a short frame leaves the stale tail of an
  earlier longer one in place. That the slots are separate cells is the layout of `Layout.lean`, and
  holds of the bytes exactly where stride times capacity does not overflow (`in_bounds_iff`).
* `slot_in_use_` is `slotInUse : Nat → Bool`.
* The three statistics counters are natural numbers: `2^64` increments are out of reach.
* `push` is the whole call with nothing running beside it. Its pieces (`evict`, `refuse`,
  `store`) are what the interleaved machine of `Machine.lean` is made of.
* `popTest` is the condition under which a `pop` in each of its three wait modes waits, returns
  `nullptr`, or takes a slot; `popTake` is the critical section that takes it.
-/

namespace CameraStreamer

/-- A frame: the arguments of `push` with the payload `data[0..len)`. -/
structure Frame where
  seq : UInt64
  timestampNs : UInt64
  pixelFormat : UInt32
  width : UInt16
  height : UInt16
  payload : List UInt8
  deriving DecidableEq, Repr

/-- `SlotHeader` (`ring_queue.cpp:26-33`). -/
structure SlotHeader where
  seq : UInt64
  timestampNs : UInt64
  pixelFormat : UInt32
  width : UInt16
  height : UInt16
  len : UInt32
  deriving DecidableEq, Repr

/-- One slot of the mapping: the header and the bytes behind it. -/
structure Slot where
  hdr : SlotHeader
  data : List UInt8
  deriving DecidableEq, Repr

/-- The arguments of a `push` call; `data = none` is a null pointer, otherwise the pointer has at
least `len` readable bytes. -/
structure PushArgs where
  seq : UInt64
  timestampNs : UInt64
  data : Option (List UInt8)
  len : UInt32
  pixelFormat : UInt32
  width : UInt16
  height : UInt16
  readable : ∀ d, data = some d → len.toNat ≤ d.length

/-- `data[0..len)`. -/
def PushArgs.bytes (a : PushArgs) : List UInt8 := (a.data.getD []).take a.len.toNat

/-- The frame the caller hands over. -/
def PushArgs.frame (a : PushArgs) : Frame where
  seq := a.seq
  timestampNs := a.timestampNs
  pixelFormat := a.pixelFormat
  width := a.width
  height := a.height
  payload := a.bytes

/-- The header `push` writes for these arguments. -/
def PushArgs.header (a : PushArgs) : SlotHeader :=
  ⟨a.seq, a.timestampNs, a.pixelFormat, a.width, a.height, a.len⟩

theorem PushArgs.bytes_length {a : PushArgs} (h : a.data ≠ none) :
    a.bytes.length = a.len.toNat := by
  cases hd : a.data with
  | none => exact absurd hd h
  | some d =>
    unfold PushArgs.bytes
    rw [hd, Option.getD_some, List.length_take]
    exact Nat.min_eq_left (a.readable d hd)

/-- The frame stored in a slot: header fields and the first `len` bytes of the data. -/
def Slot.frame (s : Slot) : Frame where
  seq := s.hdr.seq
  timestampNs := s.hdr.timestampNs
  pixelFormat := s.hdr.pixelFormat
  width := s.hdr.width
  height := s.hdr.height
  payload := s.data.take s.hdr.len.toNat

/-- The header assignments and the `memcpy` of `push` (`ring_queue.cpp:149-157`). -/
def Slot.write (s : Slot) (a : PushArgs) : Slot where
  hdr := a.header
  data := a.bytes ++ s.data.drop a.len.toNat

/-- What was written is what the slot then stores, whatever it held before. -/
theorem Slot.frame_write (s : Slot) {a : PushArgs} (h : a.data ≠ none) :
    (s.write a).frame = a.frame := by
  unfold Slot.frame Slot.write PushArgs.frame PushArgs.header
  simp only [Frame.mk.injEq, true_and]
  rw [List.take_append_of_le_length (by rw [PushArgs.bytes_length h]),
    List.take_of_length_le (by rw [PushArgs.bytes_length h])]

/-- A packet returned by `pop`: the metadata copied under the mutex; `data` points at the slot
`slotIdx`. -/
structure FramePacket where
  seq : UInt64
  timestampNs : UInt64
  pixelFormat : UInt32
  width : UInt16
  height : UInt16
  len : UInt32
  slotIdx : Nat
  deriving DecidableEq, Repr

/-- The metadata of a packet, as the slot's header had it. -/
def FramePacket.header (p : FramePacket) : SlotHeader :=
  ⟨p.seq, p.timestampNs, p.pixelFormat, p.width, p.height, p.len⟩

/-- The fields of `RingQueue` (`ring_queue.hpp:136-156`); `mmapped` is `mmap_base_ != nullptr`. -/
structure RingQueue where
  mmapped : Bool
  capacity : Nat
  maxFrameSize : Nat
  head : Nat
  tail : Nat
  count : Nat
  slots : Nat → Slot
  slotInUse : Nat → Bool
  shutdown : Bool
  framesPushed : Nat
  framesDropped : Nat
  framesPopped : Nat

namespace RingQueue

/-- A slot of the fresh anonymous mapping: all zero. -/
def zeroSlot (maxFrameSize : Nat) : Slot where
  hdr := ⟨0, 0, 0, 0, 0, 0⟩
  data := List.replicate maxFrameSize 0

/-- The constructor (`ring_queue.cpp:50-90`); `mmapOk` and `mallocOk` say whether the mapping and
the flag array could be allocated. -/
def construct (capacity maxFrameSize : Nat) (mmapOk mallocOk : Bool) : RingQueue where
  mmapped := decide (capacity ≠ 0) && decide (maxFrameSize ≠ 0) && mmapOk && mallocOk
  capacity := capacity
  maxFrameSize := maxFrameSize
  head := 0
  tail := 0
  count := 0
  slots := fun _ => zeroSlot maxFrameSize
  slotInUse := fun _ => false
  shutdown := false
  framesPushed := 0
  framesDropped := 0
  framesPopped := 0

/-- `isValid`. -/
def isValid (q : RingQueue) : Bool := q.mmapped

/-! ## `push` -/

/-- Non-null data and `0 < len <= max_frame_size_`: the entry checks pass
(`ring_queue.cpp:114-119`). -/
def accepts (q : RingQueue) (a : PushArgs) : Bool :=
  q.mmapped && a.data.isSome && decide (a.len ≠ 0) && decide (a.len.toNat ≤ q.maxFrameSize)

/-- The body of the eviction loop: drop the oldest frame (`ring_queue.cpp:136-138`). -/
def evict (q : RingQueue) : RingQueue :=
  { q with
    tail := (q.tail + 1) % q.capacity
    count := q.count - 1
    framesDropped := q.framesDropped + 1 }

/-- `frames_dropped_++` on a refusal (`ring_queue.cpp:133`, `ring_queue.cpp:145`). -/
def refuse (q : RingQueue) : RingQueue := { q with framesDropped := q.framesDropped + 1 }

/-- Write the slot at `head_`, advance `head_`, count the frame (`ring_queue.cpp:149-161`). -/
def store (q : RingQueue) (a : PushArgs) : RingQueue :=
  { q with
    slots := Function.update q.slots q.head ((q.slots q.head).write a)
    head := (q.head + 1) % q.capacity
    count := q.count + 1
    framesPushed := q.framesPushed + 1 }

/-- `while (count_ >= capacity_)` (`ring_queue.cpp:129-140`); the flag is `false` when the loop
leaves because the oldest slot is held. `count_` falls in every turn, so `count_` turns are
enough (`evictLoop_done`). -/
def evictLoop : Nat → RingQueue → RingQueue × Bool
  | 0, q => (q, true)
  | n + 1, q =>
    if q.capacity ≤ q.count then
      if q.slotInUse q.tail then (q, false) else evictLoop n q.evict
    else (q, true)

/-- `push` as one call (`ring_queue.cpp:111-166`). -/
def push (q : RingQueue) (a : PushArgs) : RingQueue × Bool :=
  if !q.accepts a then (q, false)
  else if q.shutdown then (q, false)
  else
    match q.evictLoop q.count with
    | (q, false) => (q.refuse, false)
    | (q, true) => if q.slotInUse q.head then (q.refuse, false) else (q.store a, true)

/-! ## `pop` -/

/-- What a `pop` that holds the mutex does next. -/
inductive PopTest
  | wait
  | null
  | take
  deriving DecidableEq, Repr

/-- The wait branch chosen by `timeout_ms` and the emptiness test behind it
(`ring_queue.cpp:173-203`), up to the next wait. -/
def popTest (q : RingQueue) (timeoutMs : Int) : PopTest :=
  if !q.mmapped then .null
  else if timeoutMs = 0 then
    if q.count = 0 || q.shutdown then .null else .take
  else if q.count = 0 && !q.shutdown then .wait
  else if q.count = 0 then .null
  else .take

theorem count_pos_of_take {q : RingQueue} {t : Int} (h : q.popTest t = .take) : 0 < q.count := by
  apply Nat.pos_of_ne_zero
  intro h0
  unfold popTest at h
  rw [h0] at h
  split_ifs at h <;> simp_all

/-- The packet `pop` builds from the slot at `tail_`. -/
def tailPacket (q : RingQueue) : FramePacket where
  seq := (q.slots q.tail).hdr.seq
  timestampNs := (q.slots q.tail).hdr.timestampNs
  pixelFormat := (q.slots q.tail).hdr.pixelFormat
  width := (q.slots q.tail).hdr.width
  height := (q.slots q.tail).hdr.height
  len := (q.slots q.tail).hdr.len
  slotIdx := q.tail

/-- Mark the slot in use, advance `tail_`, count the pop (`ring_queue.cpp:216-219`). -/
def popTake (q : RingQueue) : RingQueue :=
  { q with
    slotInUse := Function.update q.slotInUse q.tail true
    tail := (q.tail + 1) % q.capacity
    count := q.count - 1
    framesPopped := q.framesPopped + 1 }

/-- `releaseSlot` (`ring_queue.cpp:245-248`); also what `pop` does when `malloc` fails. -/
def releaseSlot (q : RingQueue) (idx : Nat) : RingQueue :=
  { q with slotInUse := Function.update q.slotInUse idx false }

/-- `shutdown` up to its broadcast (`ring_queue.cpp:250-253`). -/
def setShutdown (q : RingQueue) : RingQueue := { q with shutdown := true }

/-! ## What the queue holds -/

/-- The queued frames, oldest first: `count_` slots from `tail_`. -/
def queued (q : RingQueue) : List Frame :=
  Lib.Window.contents (fun i => (q.slots i).frame) q.capacity q.tail q.count

/-- What a packet shows its holder: the metadata, and `data[0..len)` as the slot holds it now. -/
def view (q : RingQueue) (p : FramePacket) : Frame where
  seq := p.seq
  timestampNs := p.timestampNs
  pixelFormat := p.pixelFormat
  width := p.width
  height := p.height
  payload := (q.slots p.slotIdx).data.take p.len.toNat

@[simp] theorem queued_length (q : RingQueue) : q.queued.length = q.count := by
  simp [queued]

/-- The eviction loop ends: with `count_` turns it has either met a held slot or made room. -/
theorem evictLoop_done {q q' : RingQueue} (hcap : 0 < q.capacity) {n : Nat} (hn : q.count ≤ n)
    (h : q.evictLoop n = (q', true)) : q'.count < q'.capacity := by
  induction n generalizing q with
  | zero =>
    simp only [evictLoop, Prod.mk.injEq, and_true] at h
    rw [← h]; omega
  | succ n ih =>
    simp only [evictLoop] at h
    split at h
    · split at h
      · exact absurd h (by simp)
      · exact ih (q := q.evict) hcap (by simp only [evict]; omega) h
    · simp only [Prod.mk.injEq, and_true] at h
      rw [← h]; omega

end RingQueue

/-- A two-byte frame, for concrete runs. -/
def sampleArgs (seq : UInt64) : PushArgs where
  seq := seq
  timestampNs := 1000
  data := some [0xAB, 0xCD]
  len := 2
  pixelFormat := 0x47504A4D
  width := 4
  height := 2
  readable := by
    intro d hd
    cases hd
    decide

end CameraStreamer
