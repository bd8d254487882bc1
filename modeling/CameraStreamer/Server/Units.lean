import CameraStreamer.Lib.Framing
import CameraStreamer.Protocol

/-!
# What the server takes for a frame

Model of the server's own header definitions (`server/server.cpp:36-64`): its `FrameHeader` read
from 36 bytes by a host of either byte order, and its `ntohll`. Against it stands the reference:
`IsUnit u` says that the bytes `u` are a header with the magic, version 1 and a big-endian
payload length of at most 16 MiB, followed by that many bytes. Units are prefix-free
(`isUnit_prefixFree`), and what the server's decoding computes from the header of a unit is
`decodeUnit`, on either host (`headerFrame_eq`).
-/

namespace CameraStreamer.Server

open Lib.Endian Lib.Framing

/-! ## The header as the server reads it -/

/-- `PROTO_MAGIC`. -/
def protoMagic : List UInt8 := [0x46, 0x52, 0x41, 0x4D]

/-- `PROTO_VERSION`. -/
def protoVersion : UInt16 := 1

/-- `FRAME_HEADER_SIZE = sizeof(FrameHeader)`. -/
def frameHeaderSize : Nat := 36

/-- The payload limit of `handleClient` (`server.cpp:257`). -/
def payloadLimit : Nat := 16 * 1024 * 1024

/-- The server's `struct FrameHeader`, packed. -/
structure FrameHeader where
  magic : List UInt8
  version : UInt16
  headerLen : UInt16
  seq : UInt64
  timestampNs : UInt64
  payloadLen : UInt32
  pixelFormat : UInt32
  width : UInt16
  height : UInt16
  deriving DecidableEq, Repr

/-- The bytes `[off, off + len)`. -/
def field (bs : List UInt8) (off len : Nat) : List UInt8 := (bs.drop off).take len

/-- The packed struct a host finds in 36 received bytes. -/
def FrameHeader.ofBytes (o : ByteOrder) (bs : List UInt8) : FrameHeader where
  magic := field bs 0 4
  version := UInt16.ofNat (load o (field bs 4 2))
  headerLen := UInt16.ofNat (load o (field bs 6 2))
  seq := UInt64.ofNat (load o (field bs 8 8))
  timestampNs := UInt64.ofNat (load o (field bs 16 8))
  payloadLen := UInt32.ofNat (load o (field bs 24 4))
  pixelFormat := UInt32.ofNat (load o (field bs 28 4))
  width := UInt16.ofNat (load o (field bs 32 2))
  height := UInt16.ofNat (load o (field bs 34 2))

/-- `ntohll` (`server.cpp:58-64`). -/
def ntohll (o : ByteOrder) (val : UInt64) : UInt64 :=
  match o with
  | .little =>
    ((ntohl .little (val &&& 0xFFFFFFFF).toUInt32).toUInt64 <<< 32) |||
      (ntohl .little (val >>> 32).toUInt32).toUInt64
  | .big => val

/-- The fields `handleClient` decodes, and the payload it has read (`server.cpp:279-283`). -/
def FrameHeader.frame (o : ByteOrder) (h : FrameHeader) (payload : List UInt8) : Frame where
  seq := ntohll o h.seq
  timestampNs := ntohll o h.timestampNs
  pixelFormat := ntohl o h.pixelFormat
  width := ntohs o h.width
  height := ntohs o h.height
  payload := payload

/-! ## The reference -/

/-- The big-endian payload length of a header. -/
def unitPayloadLen (bs : List UInt8) : Nat := beValue (field bs 24 4)

/-- A header passes the three checks. -/
structure HeaderOk (bs : List UInt8) : Prop where
  magic : field bs 0 4 = protoMagic
  version : beValue (field bs 4 2) = 1
  payload : unitPayloadLen bs ≤ payloadLimit

/-- **A unit**: a valid header and the payload it announces. -/
structure IsUnit (u : List UInt8) : Prop where
  header : HeaderOk (u.take frameHeaderSize)
  length : u.length = frameHeaderSize + unitPayloadLen (u.take frameHeaderSize)

/-- The frame a unit carries. -/
def decodeUnit (u : List UInt8) : Frame where
  seq := UInt64.ofNat (beValue (field u 8 8))
  timestampNs := UInt64.ofNat (beValue (field u 16 8))
  pixelFormat := UInt32.ofNat (beValue (field u 28 4))
  width := UInt16.ofNat (beValue (field u 32 2))
  height := UInt16.ofNat (beValue (field u 34 2))
  payload := u.drop frameHeaderSize

/-- The header length a unit declares. -/
def declaredHeaderLen (u : List UInt8) : Nat := beValue (field u 6 2)

/-! ## Fields -/

theorem field_length {bs : List UInt8} {off len : Nat} (h : off + len ≤ bs.length) :
    (field bs off len).length = len := by
  simp [field]; omega

/-- A field inside the first `n` bytes is a field of these bytes. -/
theorem field_take {bs : List UInt8} {off len n : Nat} (h : off + len ≤ n) :
    field (bs.take n) off len = field bs off len := by
  simp only [field, List.drop_take, List.take_take]
  rw [Nat.min_eq_left (by omega)]

/-- The first field of what is left. -/
theorem field_append_right {as bs : List UInt8} {off len : Nat} (h : as.length ≤ off) :
    field (as ++ bs) off len = field bs (off - as.length) len := by
  unfold field
  rw [List.drop_append, List.drop_eq_nil_of_le h, List.nil_append]

theorem field_append_left {as bs : List UInt8} {len : Nat} (h : as.length = len) :
    field (as ++ bs) 0 len = as := by
  unfold field
  rw [List.drop_zero, ← h, List.take_left]

theorem field_whole {as : List UInt8} {len : Nat} (h : as.length = len) : field as 0 len = as := by
  unfold field
  rw [List.drop_zero, ← h, List.take_length]

theorem declaredHeaderLen_take (u : List UInt8) :
    declaredHeaderLen (u.take frameHeaderSize) = declaredHeaderLen u :=
  congrArg beValue (field_take (by decide))

/-! ## Units are prefix-free -/

theorem IsUnit.size_le {u : List UInt8} (h : IsUnit u) : frameHeaderSize ≤ u.length := by
  have := h.length
  omega

theorem isUnit_prefixFree : PrefixFree IsUnit where
  ne_nil u h hnil := by
    have := h.size_le
    rw [hnil] at this
    exact absurd this (by decide)
  eq_of_prefix u v hu hv huv := by
    have htake : u.take frameHeaderSize = v.take frameHeaderSize := by
      obtain ⟨t, rfl⟩ := huv
      rw [List.take_append_of_le_length hu.size_le]
    exact huv.eq_of_length (by rw [hu.length, hv.length, htake])

/-- A unit at the front of a stream, seen by a reader that has the header and the length. -/
theorem isUnit_take {s : List UInt8} (h : HeaderOk (s.take frameHeaderSize))
    (hlen : frameHeaderSize + unitPayloadLen (s.take frameHeaderSize) ≤ s.length) :
    IsUnit (s.take (frameHeaderSize + unitPayloadLen (s.take frameHeaderSize))) := by
  have hhdr : (s.take (frameHeaderSize + unitPayloadLen (s.take frameHeaderSize))).take
      frameHeaderSize = s.take frameHeaderSize := by
    rw [List.take_take, Nat.min_eq_left (Nat.le_add_right _ _)]
  refine ⟨by rw [hhdr]; exact h, ?_⟩
  rw [hhdr, List.length_take, Nat.min_eq_left hlen]

/-- Any unit at the front of a stream has the stream's first 36 bytes as its header. -/
theorem IsUnit.take_of_prefix {u s : List UInt8} (h : IsUnit u) (hp : u <+: s) :
    u.take frameHeaderSize = s.take frameHeaderSize := by
  obtain ⟨t, rfl⟩ := hp
  rw [List.take_append_of_le_length h.size_le]

/-! ## Decoding on either host -/

section Decode

variable (o : ByteOrder) {bs : List UInt8}

theorem ntohs_ofNat_load (h : bs.length = 2) :
    ntohs o (UInt16.ofNat (load o bs)) = UInt16.ofNat (beValue bs) := by
  have hlt : load o bs < 2 ^ 16 := load_lt (k := 2) h
  unfold ntohs
  rw [UInt16.toNat_ofNat', Nat.mod_eq_of_lt hlt, toNetwork_load h]

theorem ntohl_ofNat_load (h : bs.length = 4) :
    ntohl o (UInt32.ofNat (load o bs)) = UInt32.ofNat (beValue bs) := by
  have hlt : load o bs < 2 ^ 32 := load_lt (k := 4) h
  unfold ntohl
  rw [UInt32.toNat_ofNat', Nat.mod_eq_of_lt hlt, toNetwork_load h]

theorem toNat_ntohll (v : UInt64) : (ntohll o v).toNat = toNetwork o 8 v.toNat := by
  cases o with
  | little => exact toNat_swapped_halves v
  | big => rfl

theorem ntohll_ofNat_load (h : bs.length = 8) :
    ntohll o (UInt64.ofNat (load o bs)) = UInt64.ofNat (beValue bs) := by
  apply UInt64.toNat_inj.mp
  have hlt : load o bs < 2 ^ 64 := load_lt (k := 8) h
  have hval : beValue bs < 2 ^ 64 := by
    have := beValue_lt bs
    rwa [h] at this
  rw [toNat_ntohll, UInt64.toNat_ofNat', Nat.mod_eq_of_lt hlt, toNetwork_load h,
    UInt64.toNat_ofNat', Nat.mod_eq_of_lt hval]

variable (h : bs.length = frameHeaderSize)
include h

theorem ofBytes_version :
    ntohs o (FrameHeader.ofBytes o bs).version = UInt16.ofNat (beValue (field bs 4 2)) :=
  ntohs_ofNat_load o (field_length (by rw [h]; decide))

theorem ofBytes_payloadLen :
    (ntohl o (FrameHeader.ofBytes o bs).payloadLen).toNat = unitPayloadLen bs := by
  have hlen : (field bs 24 4).length = 4 := field_length (by rw [h]; decide)
  have hlt : beValue (field bs 24 4) < 2 ^ 32 := by
    have := beValue_lt (field bs 24 4)
    rwa [hlen] at this
  rw [show (FrameHeader.ofBytes o bs).payloadLen = UInt32.ofNat (load o (field bs 24 4)) from rfl,
    ntohl_ofNat_load o hlen, UInt32.toNat_ofNat', Nat.mod_eq_of_lt hlt]
  rfl

theorem ofBytes_headerLen :
    (ntohs o (FrameHeader.ofBytes o bs).headerLen).toNat = declaredHeaderLen bs := by
  have hlen : (field bs 6 2).length = 2 := field_length (by rw [h]; decide)
  have hlt : beValue (field bs 6 2) < 2 ^ 16 := by
    have := beValue_lt (field bs 6 2)
    rwa [hlen] at this
  rw [show (FrameHeader.ofBytes o bs).headerLen = UInt16.ofNat (load o (field bs 6 2)) from rfl,
    ntohs_ofNat_load o hlen, UInt16.toNat_ofNat', Nat.mod_eq_of_lt hlt]
  rfl

/-- **Either host decodes the header of a unit to its fields.** -/
theorem headerFrame_eq (payload : List UInt8) :
    (FrameHeader.ofBytes o bs).frame o payload =
      { decodeUnit (bs ++ payload) with payload := payload } := by
  have hf : ∀ off len, off + len ≤ frameHeaderSize →
      field (bs ++ payload) off len = field bs off len := by
    intro off len hle
    rw [← field_take (n := frameHeaderSize) hle, ← h, List.take_left]
  simp only [FrameHeader.frame, FrameHeader.ofBytes, decodeUnit, Frame.mk.injEq, and_true]
  rw [hf 8 8 (by decide), hf 16 8 (by decide), hf 28 4 (by decide), hf 32 2 (by decide),
    hf 34 2 (by decide)]
  refine ⟨ntohll_ofNat_load o ?_, ntohll_ofNat_load o ?_, ntohl_ofNat_load o ?_,
    ntohs_ofNat_load o ?_, ntohs_ofNat_load o ?_⟩
  all_goals exact field_length (by rw [h]; decide)

end Decode

end CameraStreamer.Server
