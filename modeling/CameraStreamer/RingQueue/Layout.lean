import CameraStreamer.Lib.Strided
import CameraStreamer.RingQueue.Spsc
import Mathlib.Data.BitVec

/-!
# The layout of the mapping

The slots of `RingQueue` as bytes of the mapping, with `size_t` arithmetic modulo `2^w`
(`src/ring_queue.cpp:17-65`). Offsets are counted from `mmap_base_`.

* `calcStride_toNat`: short of an overflow of its two additions, the stride is header and frame
  rounded up to 64 bytes.
* `lt_of_fits`: slots that fit have overflowed neither the additions nor the product.
* **`in_bounds_iff`**: in every reachable state `push` writes and a packet exposes bytes of its own
  slot inside the mapping, for disjoint slots, exactly when stride times capacity is below `2^w`.
  The constructor does not check it: `in_bounds_counterexample` is a queue of 1024 frames of 4 MiB
  with 32-bit `size_t`, whose whole mapping is 64 KiB. Where the product wraps to 0 itself, `mmap`
  refuses the length and the queue is not valid.
-/

namespace CameraStreamer

open Lib.Machine Lib.Strided

namespace RingQueue

variable {w : Nat}

/-- `sizeof(SlotHeader)`, packed. -/
def slotHeaderSize : Nat := 8 + 8 + 4 + 2 + 2 + 4

/-- `calcStride` (`ring_queue.cpp:35-38`). -/
def calcStride (maxFrameSize : BitVec w) : BitVec w :=
  let sz := BitVec.ofNat w slotHeaderSize + maxFrameSize
  (sz + 63#w) &&& ~~~63#w

/-- `slotHdr` (`ring_queue.cpp:40-42`). -/
def slotHdr (stride idx : BitVec w) : BitVec w := idx * stride

/-- `slotData` (`ring_queue.cpp:44-46`). -/
def slotData (stride idx : BitVec w) : BitVec w := idx * stride + BitVec.ofNat w slotHeaderSize

/-- The length the constructor asks `mmap` for (`ring_queue.cpp:60-61`). -/
def mapTotal (capacity maxFrameSize : BitVec w) : BitVec w := calcStride maxFrameSize * capacity

/-- Header and frame, rounded up to 64 bytes, as integers. -/
def roundedStride (maxFrameSize : Nat) : Nat := (slotHeaderSize + maxFrameSize + 63) / 64 * 64

/-! ## The stride -/

/-- `& ~63` clears the low six bits. -/
theorem toNat_and_not_63 (x : BitVec w) : (x &&& ~~~63#w).toNat = x.toNat / 64 * 64 := by
  have hshift : x &&& ~~~63#w = x >>> 6 <<< 6 := by
    apply BitVec.eq_of_getLsbD_eq
    intro i hi
    have h63 : (63#w).getLsbD i = decide (i < 6) := by
      rw [BitVec.getLsbD_ofNat, show (63 : Nat) = 2 ^ 6 - 1 from rfl, Nat.testBit_two_pow_sub_one]
      simp [hi]
    rw [BitVec.getLsbD_and, BitVec.getLsbD_not, h63, BitVec.getLsbD_shiftLeft,
      BitVec.getLsbD_ushiftRight]
    by_cases h6 : i < 6
    · simp [h6]
    · simp [h6, hi, show 6 + (i - 6) = i by omega]
  have hle : x.toNat / 64 * 64 ≤ x.toNat := Nat.div_mul_le_self _ _
  rw [hshift, BitVec.toNat_shiftLeft, BitVec.toNat_ushiftRight, Nat.shiftLeft_eq,
    Nat.shiftRight_eq_div_pow, Nat.mod_eq_of_lt (Nat.lt_of_le_of_lt hle x.isLt)]

theorem two_pow_ge (hw : 6 ≤ w) : 64 ≤ 2 ^ w ∧ 64 ∣ 2 ^ w :=
  ⟨Nat.pow_le_pow_right (by omega : 0 < 2) hw, Nat.pow_dvd_pow 2 hw⟩

theorem calcStride_mod (hw : 6 ≤ w) (m : BitVec w) :
    (calcStride m).toNat = (slotHeaderSize + m.toNat + 63) % 2 ^ w / 64 * 64 := by
  have hge := (two_pow_ge hw).1
  unfold calcStride
  rw [toNat_and_not_63, BitVec.toNat_add, BitVec.toNat_add, BitVec.toNat_ofNat, BitVec.toNat_ofNat,
    Nat.mod_eq_of_lt (a := 63) (by omega), Nat.mod_add_mod, Nat.add_assoc (_ % _), Nat.mod_add_mod,
    ← Nat.add_assoc]

/-- The stride without overflow. -/
theorem calcStride_toNat (hw : 6 ≤ w) {m : BitVec w} (h : roundedStride m.toNat < 2 ^ w) :
    (calcStride m).toNat = roundedStride m.toNat := by
  rw [calcStride_mod hw]
  obtain ⟨k, hk⟩ := (two_pow_ge hw).2
  unfold roundedStride at h ⊢
  rw [Nat.mod_eq_of_lt (by omega)]

theorem roundedStride_spec (m : Nat) : slotHeaderSize + m ≤ roundedStride m ∧
    roundedStride m < slotHeaderSize + m + 64 ∧ 64 ∣ roundedStride m :=
  ⟨by unfold roundedStride; omega, by unfold roundedStride; omega, Nat.dvd_mul_left _ _⟩

/-! ## The slots -/

/-- Where slot `i` starts. -/
def slotStart (maxFrameSize : BitVec w) (i : Nat) : Nat :=
  (slotHdr (calcStride maxFrameSize) (BitVec.ofNat w i)).toNat

/-- Offset `o` is a byte of slot `i`, inside the mapping. -/
def InSlot (capacity maxFrameSize : BitVec w) (i : Nat) (o : BitVec w) : Prop :=
  i < capacity.toNat ∧ slotStart maxFrameSize i ≤ o.toNat ∧
    o.toNat < slotStart maxFrameSize i + slotHeaderSize + maxFrameSize.toNat ∧
    o.toNat < (mapTotal capacity maxFrameSize).toNat

/-- The bytes `push` writes: the header of the slot at `head_`, and `memcpy`'s `len` bytes. -/
def Written (maxFrameSize : BitVec w) (i : Nat) (a : PushArgs) (o : BitVec w) : Prop :=
  (∃ k < slotHeaderSize,
    o = slotHdr (calcStride maxFrameSize) (BitVec.ofNat w i) + BitVec.ofNat w k) ∨
  ∃ k < a.len.toNat, o = slotData (calcStride maxFrameSize) (BitVec.ofNat w i) + BitVec.ofNat w k

/-- The bytes a packet exposes: `data[0..len)`. -/
def Exposed (maxFrameSize : BitVec w) (p : FramePacket) (o : BitVec w) : Prop :=
  ∃ k < p.len.toNat,
    o = slotData (calcStride maxFrameSize) (BitVec.ofNat w p.slotIdx) + BitVec.ofNat w k

/-- **The slots lie in the mapping and apart, and every access is to its own slot.** -/
structure InBounds (capacity maxFrameSize : BitVec w) : Prop where
  inside : ∀ i, i < capacity.toNat →
    slotStart maxFrameSize i + slotHeaderSize + maxFrameSize.toNat ≤
      (mapTotal capacity maxFrameSize).toNat
  apart : ∀ i j, i < capacity.toNat → j < capacity.toNat → i ≠ j →
    slotStart maxFrameSize i + slotHeaderSize + maxFrameSize.toNat ≤ slotStart maxFrameSize j ∨
      slotStart maxFrameSize j + slotHeaderSize + maxFrameSize.toNat ≤ slotStart maxFrameSize i
  written : ∀ s, QState.Reachable QState.Any capacity.toNat maxFrameSize.toNat s →
    ∀ a, s.pushing = some (.write a) → ∀ o, Written maxFrameSize s.q.head a o →
      InSlot capacity maxFrameSize s.q.head o
  exposed : ∀ s, QState.Reachable QState.Any capacity.toNat maxFrameSize.toNat s →
    ∀ p ∈ s.held, ∀ o, Exposed maxFrameSize p o → InSlot capacity maxFrameSize p.slotIdx o

variable {capacity maxFrameSize : BitVec w}

theorem slotStart_eq (maxFrameSize : BitVec w) {i : Nat} (hi : i < capacity.toNat) :
    slotStart maxFrameSize i = offset (2 ^ w) (calcStride maxFrameSize).toNat i := by
  unfold slotStart slotHdr offset
  rw [BitVec.toNat_mul, BitVec.toNat_ofNat, Nat.mod_eq_of_lt (Nat.lt_trans hi capacity.isLt)]

theorem mapTotal_toNat : (mapTotal capacity maxFrameSize).toNat =
    (calcStride maxFrameSize).toNat * capacity.toNat % 2 ^ w := by
  unfold mapTotal
  rw [BitVec.toNat_mul]

theorem fits_of_inBounds (h : InBounds capacity maxFrameSize) :
    Fits (2 ^ w) (calcStride maxFrameSize).toNat (slotHeaderSize + maxFrameSize.toNat)
      capacity.toNat where
  inside i hi := by
    rw [← slotStart_eq maxFrameSize hi, ← mapTotal_toNat, ← Nat.add_assoc]
    exact h.inside i hi
  apart i j hi hj hne := by
    rw [← slotStart_eq maxFrameSize hi,
      ← slotStart_eq maxFrameSize hj, ← Nat.add_assoc, ← Nat.add_assoc]
    exact h.apart i j hi hj hne

/-- Slots that fit have not overflowed: neither the rounding nor the product. -/
theorem lt_of_fits (hw : 6 ≤ w) (hc : 0 < capacity.toNat)
    (h : Fits (2 ^ w) (calcStride maxFrameSize).toNat (slotHeaderSize + maxFrameSize.toNat)
      capacity.toNat) : roundedStride maxFrameSize.toNat * capacity.toNat < 2 ^ w := by
  obtain ⟨hge, hdvd⟩ := two_pow_ge hw
  have hin := h.inside 0 hc
  have hmod := Nat.mod_lt ((calcStride maxFrameSize).toNat * capacity.toNat) (by omega : 0 < 2 ^ w)
  -- a sum past the modulus leaves less than 64 to round: a zero stride and an empty mapping
  have hsum : slotHeaderSize + maxFrameSize.toNat + 63 < 2 ^ w := by
    by_contra hlt
    have hzero : (calcStride maxFrameSize).toNat = 0 := by
      rw [calcStride_mod hw, Nat.mod_eq_sub_mod (Nat.not_lt.mp hlt), Nat.mod_eq_of_lt (by omega)]
      omega
    rw [hzero, Nat.zero_mul, Nat.zero_mod] at hin
    unfold slotHeaderSize at hin
    omega
  obtain ⟨hle, hlt, hg⟩ := roundedStride_spec maxFrameSize.toNat
  have hround : roundedStride maxFrameSize.toNat < 2 ^ w := by
    unfold roundedStride
    omega
  rw [calcStride_toNat hw hround] at h
  have hpos : 0 < roundedStride maxFrameSize.toNat := by
    unfold slotHeaderSize at hle
    omega
  exact (fits_iff hpos hle hlt hg hdvd hround hc).mp h

/-- A byte of a slot, without overflow. -/
theorem inSlot_of_lt (hfit : Fits (2 ^ w) (calcStride maxFrameSize).toNat
      (slotHeaderSize + maxFrameSize.toNat) capacity.toNat) {i k : Nat}
    (hi : i < capacity.toNat) (hk : k < slotHeaderSize + maxFrameSize.toNat) :
    InSlot capacity maxFrameSize i
      (slotHdr (calcStride maxFrameSize) (BitVec.ofNat w i) + BitVec.ofNat w k) := by
  have hin := hfit.inside i hi
  rw [← slotStart_eq maxFrameSize hi, ← mapTotal_toNat] at hin
  have hlt := (mapTotal capacity maxFrameSize).isLt
  have hoff : (slotHdr (calcStride maxFrameSize) (BitVec.ofNat w i) + BitVec.ofNat w k).toNat =
      slotStart maxFrameSize i + k := by
    rw [BitVec.toNat_add, BitVec.toNat_ofNat, Nat.add_mod_mod]
    exact Nat.mod_eq_of_lt (by unfold slotStart at hin; omega)
  unfold InSlot
  rw [hoff]
  exact ⟨hi, by omega, by omega, by omega⟩

theorem slotData_add (stride idx : BitVec w) (k : Nat) :
    slotData stride idx + BitVec.ofNat w k =
      slotHdr stride idx + BitVec.ofNat w (slotHeaderSize + k) := by
  unfold slotData slotHdr
  rw [BitVec.ofNat_add, BitVec.add_assoc]

theorem inBounds_of_lt (hw : 6 ≤ w) (hc : 0 < capacity.toNat)
    (h : roundedStride maxFrameSize.toNat * capacity.toNat < 2 ^ w) :
    InBounds capacity maxFrameSize := by
  obtain ⟨hle, -, -⟩ := roundedStride_spec maxFrameSize.toNat
  have hround : roundedStride maxFrameSize.toNat < 2 ^ w :=
    Nat.lt_of_le_of_lt (Nat.le_mul_of_pos_right _ hc) h
  have hfit : Fits (2 ^ w) (calcStride maxFrameSize).toNat
      (slotHeaderSize + maxFrameSize.toNat) capacity.toNat := by
    rw [calcStride_toNat hw hround]
    exact fits_of_lt hle h
  refine
    { inside := fun i hi => ?_, apart := fun i j hi hj hne => ?_,
      written := fun s hr a hpc o ho => ?_, exposed := fun s hr p hp o ho => ?_ }
  · rw [slotStart_eq _ hi, mapTotal_toNat, Nat.add_assoc]
    exact hfit.inside i hi
  · rw [slotStart_eq _ hi, slotStart_eq _ hj, Nat.add_assoc, Nat.add_assoc]
    exact hfit.apart i j hi hj hne
  · have hI := QState.inv_of_reachable hc hr
    have hfix := QState.fixed_of_reachable hr
    have hhead : s.q.head < capacity.toNat := hfix.cap ▸ hI.head_lt
    have hlen : a.len.toNat ≤ maxFrameSize.toNat :=
      hfix.max ▸ RingInv.accepts_len (hI.pc_ok _ hpc).1
    rcases ho with ⟨k, hk, rfl⟩ | ⟨k, hk, rfl⟩
    · exact inSlot_of_lt hfit hhead (by omega)
    · rw [slotData_add]
      exact inSlot_of_lt hfit hhead (by omega)
  · obtain ⟨k, hk, rfl⟩ := ho
    have hI := QState.inv_of_reachable hc hr
    have hslot : p.slotIdx < capacity.toNat :=
      (QState.fixed_of_reachable hr).cap ▸ hI.held_lt _ (List.mem_map_of_mem hp)
    obtain ⟨a, hfill, hhdr, -⟩ := (QState.traced_of_reachable hc hr).filled_held p hp
    have hlen : p.len = a.len := congrArg SlotHeader.len hhdr
    have hmax := (QState.filled_valid hc hr hfill).2
    rw [slotData_add]
    exact inSlot_of_lt hfit hslot (by rw [hlen] at hk; omega)

/-- **In bounds exactly without overflow**, for every width of `size_t` and every queue the
constructor left valid. The `mmap` of a total that has wrapped to 0 fails, so of the queues that
overflow those with a positive total are the valid ones. -/
theorem in_bounds_iff (hw : 6 ≤ w) (capacity maxFrameSize : BitVec w) (mmapOk mallocOk : Bool)
    (h : (construct capacity.toNat maxFrameSize.toNat mmapOk mallocOk).isValid = true) :
    InBounds capacity maxFrameSize ↔
      roundedStride maxFrameSize.toNat * capacity.toNat < 2 ^ w := by
  have hc : 0 < capacity.toNat := by
    simp only [isValid, construct, Bool.and_eq_true, decide_eq_true_eq] at h
    exact Nat.pos_of_ne_zero h.1.1.1
  exact ⟨fun hb => lt_of_fits hw hc (fits_of_inBounds hb), inBounds_of_lt hw hc⟩

/-- The queue of `main` with its defaults fits with 32-bit `size_t` too. -/
theorem in_bounds_iff_default : InBounds 128#32 0x400000#32 ↔
    roundedStride (0x400000#32).toNat * (128#32).toNat < 2 ^ 32 :=
  in_bounds_iff (by decide) 128 0x400000 true true (by decide)

/-- **The constructor accepts a queue that does not fit**: 1024 frames of 4 MiB and 32-bit
`size_t`. -/
theorem in_bounds_counterexample : ¬ ∀ capacity maxFrameSize : BitVec 32,
    (construct capacity.toNat maxFrameSize.toNat true true).isValid = true →
      InBounds capacity maxFrameSize := by
  intro h
  have hin := (h 1024 0x400000 (by decide)).inside 1023 (by decide)
  exact absurd hin (by decide)

end RingQueue

end CameraStreamer
