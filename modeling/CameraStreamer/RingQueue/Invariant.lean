import CameraStreamer.RingQueue.Machine
import Mathlib.Data.List.Perm.Basic

/-!
# The representation invariant of the ring queue

`RingInv q pc hs` relates the cursors, the `in_use` flags, the `push` in progress (`pc`) and the
slots of the packets not yet released (`hs`):

* the cursors are in range and `head` is `count` cells after `tail`;
* the flags set are exactly those of `hs`, each once, and no slot of `hs` is in the queue window;
* a `push` about to write has seen room and a free head slot.

A flag is only ever cleared behind the mutex's back, so what a `push` has read about the head
slot stays true until it writes. One lemma per primitive says how it keeps the invariant;
`inv_of_reachable` holds them together over every interleaving.
-/

namespace CameraStreamer

open Lib.Machine Lib.Window

/-- What a `push` in progress has established. -/
def PushPc.Ok (q : RingQueue) : PushPc → Prop
  | .evict a => q.accepts a = true
  | .guard a => q.accepts a = true ∧ q.count < q.capacity
  | .write a => q.accepts a = true ∧ q.count < q.capacity ∧ q.slotInUse q.head = false

/-- **The representation invariant.** -/
structure RingInv (q : RingQueue) (pc : Option PushPc) (hs : List Nat) : Prop where
  cap_pos : 0 < q.capacity
  tail_lt : q.tail < q.capacity
  count_le : q.count ≤ q.capacity
  /-- `head_ = (tail_ + count_) % capacity_`. -/
  head_eq : q.head = slot q.capacity q.tail q.count
  held_lt : ∀ i ∈ hs, i < q.capacity
  held_nodup : hs.Nodup
  inUse_iff : ∀ i, q.slotInUse i = true ↔ i ∈ hs
  held_out : ∀ i, i < q.count → slot q.capacity q.tail i ∉ hs
  len_ok : ∀ i, i < q.count → 0 < (q.slots (slot q.capacity q.tail i)).hdr.len.toNat ∧
    (q.slots (slot q.capacity q.tail i)).hdr.len.toNat ≤ q.maxFrameSize
  pc_ok : ∀ p, pc = some p → p.Ok q

/-- An element of a list, brought to the front. -/
theorem perm_of_getElem? {α : Type} {l : List α} {i : Nat} {x : α} (h : l[i]? = some x) :
    l.Perm (x :: l.eraseIdx i) := by
  obtain ⟨hi, rfl⟩ := List.getElem?_eq_some_iff.mp h
  exact (List.getElem_cons_eraseIdx_perm hi).symm

namespace RingInv

variable {q : RingQueue} {pc : Option PushPc} {hs : List Nat}

theorem head_lt (h : RingInv q pc hs) : q.head < q.capacity := by
  rw [h.head_eq]; exact slot_lt h.cap_pos

/-- The head cell is the one after the window, as long as there is room. -/
theorem slot_ne_head (h : RingInv q pc hs) (hc : q.count < q.capacity) {i : Nat}
    (hi : i < q.count) : slot q.capacity q.tail i ≠ q.head := by
  intro heq
  rw [h.head_eq] at heq
  have := slot_inj (Nat.lt_trans hi hc) hc heq
  omega

/-- A full window leaves no slot to be held. -/
theorem held_nil_of_full (h : RingInv q pc hs) (hc : q.capacity ≤ q.count) : hs = [] := by
  apply List.eq_nil_iff_forall_not_mem.mpr
  intro k hk
  obtain ⟨i, hi, hik⟩ := exists_slot h.tail_lt (h.held_lt k hk)
  exact h.held_out i (by omega) (hik ▸ hk)

/-- **The tail branch is dead**: a full queue's oldest slot is never held. -/
theorem tail_free_of_full (h : RingInv q pc hs) (hc : q.capacity ≤ q.count) :
    q.slotInUse q.tail = false := by
  rw [Bool.eq_false_iff]
  intro hu
  have := (h.inUse_iff q.tail).mp hu
  rw [h.held_nil_of_full hc] at this
  exact absurd this (by simp)

theorem perm {hs' : List Nat} (h : RingInv q pc hs) (hp : hs.Perm hs') : RingInv q pc hs' where
  cap_pos := h.cap_pos
  tail_lt := h.tail_lt
  count_le := h.count_le
  head_eq := h.head_eq
  held_lt i hi := h.held_lt i (hp.mem_iff.mpr hi)
  held_nodup := hp.nodup_iff.mp h.held_nodup
  inUse_iff i := (h.inUse_iff i).trans hp.mem_iff
  held_out i hi hm := h.held_out i hi (hp.mem_iff.mpr hm)
  len_ok := h.len_ok
  pc_ok := h.pc_ok

/-- The mutex changes hands. -/
theorem setPc {pc' : Option PushPc} (h : RingInv q pc hs) (hpc : ∀ p, pc' = some p → p.Ok q) :
    RingInv q pc' hs :=
  { h with pc_ok := hpc }

/-- Dropping the oldest frame of a non-empty queue. -/
theorem evict {a : PushArgs} (h : RingInv q (some (.evict a)) hs) (hc : 0 < q.count) :
    RingInv q.evict (some (.evict a)) hs where
  cap_pos := h.cap_pos
  tail_lt := Nat.mod_lt _ h.cap_pos
  count_le := by have := h.count_le; simp only [RingQueue.evict]; omega
  head_eq := by
    simp only [RingQueue.evict]
    rw [h.head_eq, show (q.tail + 1) % q.capacity = slot q.capacity q.tail 1 from rfl, slot_slot]
    congr 1; omega
  held_lt := h.held_lt
  held_nodup := h.held_nodup
  inUse_iff := h.inUse_iff
  held_out i hi := by
    simp only [RingQueue.evict] at hi ⊢
    rw [show (q.tail + 1) % q.capacity = slot q.capacity q.tail 1 from rfl, slot_slot]
    exact h.held_out (1 + i) (by omega)
  len_ok i hi := by
    simp only [RingQueue.evict] at hi ⊢
    rw [show (q.tail + 1) % q.capacity = slot q.capacity q.tail 1 from rfl, slot_slot]
    exact h.len_ok (1 + i) (by omega)
  pc_ok p hp := by
    cases hp
    exact h.pc_ok _ rfl

theorem refuse (h : RingInv q pc hs) : RingInv q.refuse pc hs where
  cap_pos := h.cap_pos
  tail_lt := h.tail_lt
  count_le := h.count_le
  head_eq := h.head_eq
  held_lt := h.held_lt
  held_nodup := h.held_nodup
  inUse_iff := h.inUse_iff
  held_out := h.held_out
  len_ok := h.len_ok
  pc_ok p hp := by
    have := h.pc_ok p hp
    cases p <;> exact this

theorem setShutdown (h : RingInv q pc hs) : RingInv q.setShutdown pc hs where
  cap_pos := h.cap_pos
  tail_lt := h.tail_lt
  count_le := h.count_le
  head_eq := h.head_eq
  held_lt := h.held_lt
  held_nodup := h.held_nodup
  inUse_iff := h.inUse_iff
  held_out := h.held_out
  len_ok := h.len_ok
  pc_ok p hp := by
    have := h.pc_ok p hp
    cases p <;> exact this

/-- Writing the free head slot of a queue with room. -/
theorem store {a : PushArgs} (h : RingInv q (some (.write a)) hs) :
    RingInv (q.store a) none hs := by
  obtain ⟨hacc, hc, hfree⟩ := h.pc_ok _ rfl
  have hhead : q.head ∉ hs := fun hm => by
    rw [← h.inUse_iff, hfree] at hm; exact absurd hm (by simp)
  have hlen : 0 < a.len.toNat ∧ a.len.toNat ≤ q.maxFrameSize := by
    simp only [RingQueue.accepts, Bool.and_eq_true, decide_eq_true_eq] at hacc
    refine ⟨Nat.pos_of_ne_zero fun h0 => hacc.1.2 ?_, hacc.2⟩
    exact UInt32.toNat_inj.mp h0
  refine
    { cap_pos := h.cap_pos, tail_lt := h.tail_lt, count_le := ?_, head_eq := ?_,
      held_lt := h.held_lt, held_nodup := h.held_nodup, inUse_iff := h.inUse_iff,
      held_out := ?_, len_ok := ?_, pc_ok := fun p hp => absurd hp (by simp) }
  · simp only [RingQueue.store]; omega
  · simp only [RingQueue.store]
    rw [h.head_eq, show (slot q.capacity q.tail q.count + 1) % q.capacity =
      slot q.capacity (slot q.capacity q.tail q.count) 1 from rfl, slot_slot]
  · intro i hi
    simp only [RingQueue.store] at hi ⊢
    by_cases hlast : i = q.count
    · rw [hlast, ← h.head_eq]; exact hhead
    · exact h.held_out i (by omega)
  · intro i hi
    simp only [RingQueue.store] at hi ⊢
    by_cases hlast : i = q.count
    · rw [hlast, ← h.head_eq, Function.update_self]
      exact hlen
    · rw [Function.update_of_ne (h.slot_ne_head hc (by omega))]
      exact h.len_ok i (by omega)

/-- Taking the tail slot of a non-empty queue. -/
theorem popTake (h : RingInv q none hs) (hc : 0 < q.count) :
    RingInv q.popTake none (q.tail :: hs) := by
  have htail : q.tail ∉ hs := by
    have := h.held_out 0 hc
    rwa [slot_zero h.tail_lt] at this
  have hslot : ∀ i,
      slot q.capacity ((q.tail + 1) % q.capacity) i = slot q.capacity q.tail (1 + i) :=
    fun i => by
      rw [show (q.tail + 1) % q.capacity = slot q.capacity q.tail 1 from rfl, slot_slot]
  refine
    { cap_pos := h.cap_pos, tail_lt := Nat.mod_lt _ h.cap_pos, count_le := ?_, head_eq := ?_,
      held_lt := ?_, held_nodup := List.nodup_cons.mpr ⟨htail, h.held_nodup⟩, inUse_iff := ?_,
      held_out := ?_, len_ok := ?_, pc_ok := fun p hp => absurd hp (by simp) }
  · have := h.count_le; simp only [RingQueue.popTake]; omega
  · simp only [RingQueue.popTake]
    rw [h.head_eq, hslot]
    congr 1; omega
  · intro i hi
    rcases List.mem_cons.mp hi with rfl | hi
    · exact h.tail_lt
    · exact h.held_lt i hi
  · intro i
    simp only [RingQueue.popTake, List.mem_cons]
    by_cases hi : i = q.tail
    · simp [hi]
    · rw [Function.update_of_ne hi, h.inUse_iff i]
      simp [hi]
  · intro i hi
    simp only [RingQueue.popTake] at hi ⊢
    rw [hslot, List.mem_cons, not_or]
    refine ⟨fun heq => ?_, h.held_out (1 + i) (by omega)⟩
    -- the window holds each cell once, so no later cell is the tail
    have hlap : 1 + i = 0 := by
      apply slot_inj (n := q.capacity) (t := q.tail) (by have := h.count_le; omega) h.cap_pos
      rw [heq, slot_zero h.tail_lt]
    omega
  · intro i hi
    simp only [RingQueue.popTake] at hi ⊢
    rw [hslot]
    exact h.len_ok (1 + i) (by omega)

/-- Releasing a held slot, at any moment of a `push`. -/
theorem releaseSlot {k : Nat} (h : RingInv q pc (k :: hs)) : RingInv (q.releaseSlot k) pc hs := by
  obtain ⟨hk, hnd⟩ := List.nodup_cons.mp h.held_nodup
  refine
    { cap_pos := h.cap_pos, tail_lt := h.tail_lt, count_le := h.count_le, head_eq := h.head_eq,
      held_lt := fun i hi => h.held_lt i (List.mem_cons_of_mem k hi), held_nodup := hnd,
      inUse_iff := ?_, held_out := fun i hi hm => h.held_out i hi (List.mem_cons_of_mem k hm),
      len_ok := h.len_ok, pc_ok := ?_ }
  · intro i
    simp only [RingQueue.releaseSlot]
    by_cases hi : i = k
    · rw [hi, Function.update_self]
      simp [hk]
    · rw [Function.update_of_ne hi, h.inUse_iff i, List.mem_cons]
      simp [hi]
  · intro p hp
    have hok := h.pc_ok p hp
    cases p with
    | evict a => exact hok
    | guard a => exact hok
    | write a =>
      refine ⟨hok.1, hok.2.1, ?_⟩
      simp only [RingQueue.releaseSlot]
      by_cases hi : q.head = k
      · rw [hi, Function.update_self]
      · rw [Function.update_of_ne hi]; exact hok.2.2

end RingInv

namespace QState

/-- The slots of the packets not yet released. -/
def heldSlots (s : QState) : List Nat := s.held.map FramePacket.slotIdx

/-- The invariant of the interleaved queue. -/
def Inv (s : QState) : Prop := RingInv s.q s.pushing s.heldSlots

/-! ## What each step does

One inversion lemma per action; nothing below unfolds a step again. -/

variable {s s' : QState}

theorem pushCall_cases {a : PushArgs} (h : s.pushCall a = some s') :
    (s' = s ∧ (s.q.accepts a = false ∨ s.q.shutdown = true)) ∨
    (s.q.accepts a = true ∧ s.q.shutdown = false ∧ s.pushing = none ∧
      s' = { s with pushing := some (.evict a), offered := s.offered ++ [a.frame] }) := by
  unfold pushCall at h
  split at h
  · rename_i ha
    exact Or.inl ⟨(Option.some.inj h).symm, Or.inl (by simpa using ha)⟩
  · rename_i ha
    split at h
    · exact absurd h (by simp)
    · rename_i hp
      split at h
      · rename_i hsd
        exact Or.inl ⟨(Option.some.inj h).symm, Or.inr hsd⟩
      · rename_i hsd
        exact Or.inr ⟨by simpa using ha, by simpa using hsd, by simpa using hp,
          (Option.some.inj h).symm⟩

theorem pushTest_cases (h : s.pushTest = some s') :
    ∃ a, s.pushing = some (.evict a) ∧
      ((s.q.capacity ≤ s.q.count ∧ s.q.slotInUse s.q.tail = true ∧ s' = s.pushRefuse a) ∨
        (s.q.capacity ≤ s.q.count ∧ s.q.slotInUse s.q.tail = false ∧
          s' = { s with
                  q := s.q.evict
                  hist := s.hist ++ [.evicted (s.q.slots s.q.tail).frame] }) ∨
        (s.q.count < s.q.capacity ∧ s' = { s with pushing := some (.guard a) })) := by
  unfold pushTest at h
  split at h
  · rename_i a hp
    refine ⟨a, hp, ?_⟩
    split at h
    · rename_i hc
      split at h
      · rename_i hu
        exact Or.inl ⟨hc, hu, (Option.some.inj h).symm⟩
      · rename_i hu
        exact Or.inr (Or.inl ⟨hc, by simpa using hu, (Option.some.inj h).symm⟩)
    · rename_i hc
      exact Or.inr (Or.inr ⟨by omega, (Option.some.inj h).symm⟩)
  · exact absurd h (by simp)

theorem pushGuard_cases (h : s.pushGuard = some s') :
    ∃ a, s.pushing = some (.guard a) ∧
      ((s.q.slotInUse s.q.head = true ∧ s' = s.pushRefuse a) ∨
        (s.q.slotInUse s.q.head = false ∧ s' = { s with pushing := some (.write a) })) := by
  unfold pushGuard at h
  split at h
  · rename_i a hp
    refine ⟨a, hp, ?_⟩
    split at h
    · rename_i hu
      exact Or.inl ⟨hu, (Option.some.inj h).symm⟩
    · rename_i hu
      exact Or.inr ⟨by simpa using hu, (Option.some.inj h).symm⟩
  · exact absurd h (by simp)

theorem pushWrite_cases (h : s.pushWrite = some s') :
    ∃ a, s.pushing = some (.write a) ∧
      s' = { s with
              q := s.q.store a
              pushing := none
              hist := s.hist ++ [.accepted a.frame]
              filledBy := Function.update s.filledBy s.q.head (some a) } := by
  unfold pushWrite at h
  split at h
  · rename_i a hp
    exact ⟨a, hp, (Option.some.inj h).symm⟩
  · exact absurd h (by simp)

theorem pushCount_cases (h : s.pushCount = some s') :
    0 < s.uncounted ∧ s' = { s with q := s.q.refuse, uncounted := s.uncounted - 1 } := by
  unfold pushCount at h
  split at h
  · exact absurd h (by simp)
  · rename_i hu
    exact ⟨Nat.pos_of_ne_zero hu, (Option.some.inj h).symm⟩

theorem pop_cases {t : Int} (h : s.pop t = some s') :
    s' = s ∨ (s.pushing = none ∧ 0 < s.q.count ∧ s' = s.popTake) := by
  unfold pop at h
  split at h
  · exact absurd h (by simp)
  · rename_i hp
    split at h
    · exact absurd h (by simp)
    · exact Or.inl (Option.some.inj h).symm
    · rename_i ht
      exact Or.inr ⟨by simpa using hp, RingQueue.count_pos_of_take ht, (Option.some.inj h).symm⟩

theorem popBuild_cases {i : Nat} (h : s.popBuild i = some s') :
    ∃ p, s.taken[i]? = some p ∧
      s' = { s with
              taken := s.taken.eraseIdx i
              outstanding := p :: s.outstanding
              returned := s.returned ++ [s.q.view p] } := by
  unfold popBuild at h
  split at h
  · rename_i p hp
    exact ⟨p, hp, (Option.some.inj h).symm⟩
  · exact absurd h (by simp)

theorem popFail_cases {i : Nat} (h : s.popFail i = some s') :
    ∃ p, s.taken[i]? = some p ∧
      s' = { s with
              q := s.q.releaseSlot p.slotIdx
              taken := s.taken.eraseIdx i
              lost := s.lost ++ [s.q.view p] } := by
  unfold popFail at h
  split at h
  · rename_i p hp
    exact ⟨p, hp, (Option.some.inj h).symm⟩
  · exact absurd h (by simp)

theorem release_cases {i : Nat} (h : s.release i = some s') :
    ∃ p, s.outstanding[i]? = some p ∧
      s' = { s with
              q := s.q.releaseSlot p.slotIdx
              outstanding := s.outstanding.eraseIdx i } := by
  unfold release at h
  split at h
  · rename_i p hp
    exact ⟨p, hp, (Option.some.inj h).symm⟩
  · exact absurd h (by simp)

theorem shutdown_cases (h : s.shutdown = some s') :
    s.pushing = none ∧ s' = { s with q := s.q.setShutdown } := by
  unfold shutdown at h
  split at h
  · exact absurd h (by simp)
  · rename_i hp
    exact ⟨by simpa using hp, (Option.some.inj h).symm⟩

/-- What a step leaves alone: each shared datum and each list has one action that changes it. -/
structure Effects (s : QState) (a : QAction) (s' : QState) : Prop where
  capacity : s'.q.capacity = s.q.capacity
  maxFrameSize : s'.q.maxFrameSize = s.q.maxFrameSize
  mmapped : s'.q.mmapped = s.q.mmapped
  slots : (s'.q.slots = s.q.slots ∧ s'.filledBy = s.filledBy) ∨
    ∃ x, s.pushing = some (.write x) ∧
      s'.q.slots = Function.update s.q.slots s.q.head ((s.q.slots s.q.head).write x) ∧
      s'.filledBy = Function.update s.filledBy s.q.head (some x)
  offered : s'.offered = s.offered ∨
    ∃ x, a = .pushCall x ∧ s.q.accepts x = true ∧ s'.offered = s.offered ++ [x.frame]
  lost : s'.lost = s.lost ∨ ∃ i, a = .popFail i

/-- A step that changes none of it. -/
theorem Effects.none {a : QAction} (hq : (s'.q.capacity, s'.q.maxFrameSize, s'.q.mmapped) =
      (s.q.capacity, s.q.maxFrameSize, s.q.mmapped)) (hslots : s'.q.slots = s.q.slots)
    (hl : (s'.filledBy, s'.offered, s'.lost) = (s.filledBy, s.offered, s.lost)) :
    Effects s a s' := by
  simp only [Prod.mk.injEq] at hq hl
  exact ⟨hq.1, hq.2.1, hq.2.2, Or.inl ⟨hslots, hl.1⟩, Or.inl hl.2.1, Or.inl hl.2.2⟩

theorem step_effects {a : QAction} (hs : s.step a = some s') : Effects s a s' := by
  cases a with
  | pushCall a =>
    rcases pushCall_cases hs with ⟨rfl, -⟩ | ⟨hacc, -, -, rfl⟩
    · exact Effects.none rfl rfl rfl
    · exact ⟨rfl, rfl, rfl, Or.inl ⟨rfl, rfl⟩, Or.inr ⟨a, rfl, hacc, rfl⟩, Or.inl rfl⟩
  | pushTest =>
    obtain ⟨a, -, ⟨-, -, rfl⟩ | ⟨-, -, rfl⟩ | ⟨-, rfl⟩⟩ := pushTest_cases hs <;>
      exact Effects.none rfl rfl rfl
  | pushGuard =>
    obtain ⟨a, -, ⟨-, rfl⟩ | ⟨-, rfl⟩⟩ := pushGuard_cases hs <;> exact Effects.none rfl rfl rfl
  | pushWrite =>
    obtain ⟨x, hpc, rfl⟩ := pushWrite_cases hs
    exact ⟨rfl, rfl, rfl, Or.inr ⟨x, hpc, rfl, rfl⟩, Or.inl rfl, Or.inl rfl⟩
  | pushCount => obtain ⟨-, rfl⟩ := pushCount_cases hs; exact Effects.none rfl rfl rfl
  | pop t => rcases pop_cases hs with rfl | ⟨-, -, rfl⟩ <;> exact Effects.none rfl rfl rfl
  | popBuild i => obtain ⟨p, -, rfl⟩ := popBuild_cases hs; exact Effects.none rfl rfl rfl
  | popFail i =>
    obtain ⟨p, -, rfl⟩ := popFail_cases hs
    exact ⟨rfl, rfl, rfl, Or.inl ⟨rfl, rfl⟩, Or.inl rfl, Or.inr ⟨i, rfl⟩⟩
  | release i => obtain ⟨p, -, rfl⟩ := release_cases hs; exact Effects.none rfl rfl rfl
  | shutdown => obtain ⟨-, rfl⟩ := shutdown_cases hs; exact Effects.none rfl rfl rfl

/-! ## The invariant over runs -/

/-- A returning `pop` keeps what is held. -/
theorem held_perm_popBuild {i : Nat} {p : FramePacket} (hp : s.taken[i]? = some p) :
    s.held.Perm (s.taken.eraseIdx i ++ p :: s.outstanding) := by
  have h : s.held.Perm (p :: (s.taken.eraseIdx i ++ s.outstanding)) :=
    (perm_of_getElem? hp).append_right _
  exact h.trans List.perm_middle.symm

theorem held_perm_popFail {i : Nat} {p : FramePacket} (hp : s.taken[i]? = some p) :
    s.held.Perm (p :: (s.taken.eraseIdx i ++ s.outstanding)) :=
  (perm_of_getElem? hp).append_right _

theorem held_perm_release {i : Nat} {p : FramePacket} (hp : s.outstanding[i]? = some p) :
    s.held.Perm (p :: (s.taken ++ s.outstanding.eraseIdx i)) :=
  ((perm_of_getElem? hp).append_left _).trans List.perm_middle

theorem inv_init {capacity maxFrameSize : Nat} (hc : 0 < capacity) (mmapOk mallocOk : Bool) :
    (init (RingQueue.construct capacity maxFrameSize mmapOk mallocOk)).Inv where
  cap_pos := hc
  tail_lt := hc
  count_le := Nat.zero_le _
  head_eq := (slot_zero hc).symm
  held_lt i hi := absurd hi (by simp [heldSlots, held, init])
  held_nodup := List.nodup_nil
  inUse_iff i := by simp [heldSlots, held, init, RingQueue.construct]
  held_out i hi := absurd hi (Nat.not_lt_zero i)
  len_ok i hi := absurd hi (Nat.not_lt_zero i)
  pc_ok p hp := absurd hp (by simp [init])

/-- **Every step keeps the invariant.** -/
theorem inv_step {a : QAction} (h : s.Inv) (hs : s.step a = some s') : s'.Inv := by
  cases a with
  | pushCall a =>
    rcases pushCall_cases hs with ⟨rfl, -⟩ | ⟨hacc, -, -, rfl⟩
    · exact h
    · refine h.setPc fun p hp => ?_
      cases hp
      exact hacc
  | pushTest =>
    obtain ⟨a, hpc, ⟨-, -, rfl⟩ | ⟨hc, -, rfl⟩ | ⟨hc, rfl⟩⟩ := pushTest_cases hs
    · exact h.setPc fun p hp => absurd hp (by simp [pushRefuse])
    · unfold Inv at h ⊢
      rw [hpc] at h
      simp only [hpc]
      exact h.evict (Nat.lt_of_lt_of_le h.cap_pos hc)
    · refine h.setPc fun p hp => ?_
      cases hp
      exact ⟨h.pc_ok _ hpc, hc⟩
  | pushGuard =>
    obtain ⟨a, hpc, ⟨-, rfl⟩ | ⟨hu, rfl⟩⟩ := pushGuard_cases hs
    · exact h.setPc fun p hp => absurd hp (by simp [pushRefuse])
    · refine h.setPc fun p hp => ?_
      cases hp
      obtain ⟨hacc, hc⟩ := h.pc_ok _ hpc
      exact ⟨hacc, hc, hu⟩
  | pushWrite =>
    obtain ⟨a, hpc, rfl⟩ := pushWrite_cases hs
    unfold Inv at h
    rw [hpc] at h
    exact h.store
  | pushCount =>
    obtain ⟨-, rfl⟩ := pushCount_cases hs
    exact h.refuse
  | pop t =>
    rcases pop_cases hs with rfl | ⟨hpc, hc, rfl⟩
    · exact h
    · unfold Inv at h
      rw [hpc] at h
      have := h.popTake hc
      rw [← hpc] at this
      exact this
  | popBuild i =>
    obtain ⟨p, hp, rfl⟩ := popBuild_cases hs
    exact h.perm ((held_perm_popBuild hp).map _)
  | popFail i =>
    obtain ⟨p, hp, rfl⟩ := popFail_cases hs
    exact (h.perm ((held_perm_popFail hp).map _)).releaseSlot
  | release i =>
    obtain ⟨p, hp, rfl⟩ := release_cases hs
    exact (h.perm ((held_perm_release hp).map _)).releaseSlot
  | shutdown =>
    obtain ⟨-, rfl⟩ := shutdown_cases hs
    exact h.setShutdown

/-- **The representation invariant holds over every interleaving.** -/
theorem inv_of_reachable {ok : QState → QAction → Prop} {capacity maxFrameSize : Nat}
    (hc : 0 < capacity) (hr : Reachable ok capacity maxFrameSize s) : s.Inv :=
  hr.invariant ⟨inv_init hc true true, fun _ h _ hs => inv_step h hs⟩

end QState

end CameraStreamer
