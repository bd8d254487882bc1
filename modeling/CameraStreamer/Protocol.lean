import CameraStreamer.Lib.Endian
import CameraStreamer.RingQueue.Basic

/-!
# The wire protocol, client side

Model of `include/protocol.hpp`. The fields of `FrameHeader` hold host integers in network byte
order; `FrameHeader.toBytes o` is the packed struct as a host of byte order `o` lays it out, which
is what `sslWriteAll(&hdr, sizeof(hdr))` reads. `initFrameHeader_toBytes`: on either host that is
`wireHeader`, the big-endian layout of the header comment.
-/

namespace CameraStreamer

open Lib.Endian

/-! ## `<arpa/inet.h>` -/

def htons (o : ByteOrder) (x : UInt16) : UInt16 := UInt16.ofNat (toNetwork o 2 x.toNat)

def htonl (o : ByteOrder) (x : UInt32) : UInt32 := UInt32.ofNat (toNetwork o 4 x.toNat)

def ntohs (o : ByteOrder) (x : UInt16) : UInt16 := UInt16.ofNat (toNetwork o 2 x.toNat)

def ntohl (o : ByteOrder) (x : UInt32) : UInt32 := UInt32.ofNat (toNetwork o 4 x.toNat)

theorem toNat_htons (o : ByteOrder) (x : UInt16) : (htons o x).toNat = toNetwork o 2 x.toNat := by
  unfold htons
  rw [UInt16.toNat_ofNat', Nat.mod_eq_of_lt]
  exact toNetwork_lt (k := 2) x.toNat_lt

theorem toNat_htonl (o : ByteOrder) (x : UInt32) : (htonl o x).toNat = toNetwork o 4 x.toNat := by
  unfold htonl
  rw [UInt32.toNat_ofNat', Nat.mod_eq_of_lt]
  exact toNetwork_lt (k := 4) x.toNat_lt

/-- Two converted halves, put together the other way round (`(h(lo) << 32) | h(hi)`), are the
converted whole. -/
theorem toNat_swapped_halves (v : UInt64) :
    (((htonl .little (v &&& 0xFFFFFFFF).toUInt32).toUInt64 <<< 32) |||
      (htonl .little (v >>> 32).toUInt32).toUInt64).toNat = toNetwork .little 8 v.toNat := by
  have hv := v.toNat_lt
  have hlo : (v &&& 0xFFFFFFFF).toUInt32.toNat = v.toNat % 256 ^ 4 := by
    rw [UInt64.toNat_toUInt32, UInt64.toNat_and]
    rw [show (0xFFFFFFFF : UInt64).toNat = 2 ^ 32 - 1 from rfl, Nat.and_two_pow_sub_one_eq_mod]
    omega
  have hhi : (v >>> 32).toUInt32.toNat = v.toNat / 256 ^ 4 := by
    rw [UInt64.toNat_toUInt32, UInt64.toNat_shiftRight]
    rw [show (32 : UInt64).toNat % 64 = 32 from rfl, Nat.shiftRight_eq_div_pow]
    omega
  have hh : (htonl .little (v >>> 32).toUInt32).toNat < 2 ^ 32 := UInt32.toNat_lt _
  have hl : (htonl .little (v &&& 0xFFFFFFFF).toUInt32).toNat < 2 ^ 32 := UInt32.toNat_lt _
  rw [UInt64.toNat_or, UInt64.toNat_shiftLeft, UInt32.toNat_toUInt64, UInt32.toNat_toUInt64,
    show (32 : UInt64).toNat % 64 = 32 from rfl, Nat.shiftLeft_eq, Nat.mod_eq_of_lt (by omega),
    ← Nat.shiftLeft_eq, ← Nat.shiftLeft_add_eq_or_of_lt hh, Nat.shiftLeft_eq, toNat_htonl,
    toNat_htonl, hlo, hhi]
  have hhalves := toNetwork_halves (k := 4) (a := v.toNat / 256 ^ 4) (b := v.toNat % 256 ^ 4)
    (Nat.mod_lt _ (by decide))
  rw [Nat.div_add_mod'] at hhalves
  exact hhalves.symm

namespace Protocol

/-- `PROTO_MAGIC`: "FRAM". -/
def protoMagic : List UInt8 := [0x46, 0x52, 0x41, 0x4D]

/-- `PROTO_VERSION`. -/
def protoVersion : UInt16 := 1

/-- `FRAME_HEADER_SIZE = sizeof(FrameHeader)`. -/
def frameHeaderSize : Nat := 36

/-- `MAX_FRAME_SIZE` (`ring_queue.hpp:27`). -/
def maxFrameSize : Nat := 4 * 1024 * 1024

/-- `struct FrameHeader`, packed. -/
structure FrameHeader where
  magic : List UInt8
  version : UInt16
  headerLen : UInt16
  seq : UInt64
  timestampNs : UInt64
  payloadLen : UInt32
  pixelFormat : UInt32
  width : UInt16
  height : UInt16

/-- The packed struct in the memory of a host. -/
def FrameHeader.toBytes (o : ByteOrder) (h : FrameHeader) : List UInt8 :=
  h.magic ++ store o 2 h.version.toNat ++ store o 2 h.headerLen.toNat ++ store o 8 h.seq.toNat ++
    store o 8 h.timestampNs.toNat ++ store o 4 h.payloadLen.toNat ++
    store o 4 h.pixelFormat.toNat ++ store o 2 h.width.toNat ++ store o 2 h.height.toNat

/-- `htonll`. -/
def htonll (o : ByteOrder) (val : UInt64) : UInt64 :=
  match o with
  | .little =>
    ((htonl .little (val &&& 0xFFFFFFFF).toUInt32).toUInt64 <<< 32) |||
      (htonl .little (val >>> 32).toUInt32).toUInt64
  | .big => val

/-- `ntohll`. -/
def ntohll (o : ByteOrder) (val : UInt64) : UInt64 := htonll o val

theorem toNat_htonll (o : ByteOrder) (v : UInt64) :
    (htonll o v).toNat = toNetwork o 8 v.toNat := by
  cases o with
  | little => exact toNat_swapped_halves v
  | big => rfl

/-- `initFrameHeader`. -/
def initFrameHeader (o : ByteOrder) (seq timestampNs : UInt64) (payloadLen pixelFormat : UInt32)
    (width height : UInt16) : FrameHeader where
  magic := protoMagic
  version := htons o protoVersion
  headerLen := htons o (UInt16.ofNat frameHeaderSize)
  seq := htonll o seq
  timestampNs := htonll o timestampNs
  payloadLen := htonl o payloadLen
  pixelFormat := htonl o pixelFormat
  width := htons o width
  height := htons o height

/-! ## The documented layout -/

/-- The header on the wire, big-endian (`protocol.hpp:8-18`). -/
def wireHeader (seq timestampNs : UInt64) (payloadLen pixelFormat : UInt32)
    (width height : UInt16) : List UInt8 :=
  protoMagic ++ beBytes 2 1 ++ beBytes 2 36 ++ beBytes 8 seq.toNat ++ beBytes 8 timestampNs.toNat ++
    beBytes 4 payloadLen.toNat ++ beBytes 4 pixelFormat.toNat ++ beBytes 2 width.toNat ++
    beBytes 2 height.toNat

theorem protoMagic_length : protoMagic.length = 4 := rfl

theorem wireHeader_length (seq timestampNs : UInt64) (payloadLen pixelFormat : UInt32)
    (width height : UInt16) :
    (wireHeader seq timestampNs payloadLen pixelFormat width height).length = frameHeaderSize := by
  simp [wireHeader, protoMagic, frameHeaderSize]

/-- **Either host lays out the documented header.** -/
theorem initFrameHeader_toBytes (o : ByteOrder) (seq timestampNs : UInt64)
    (payloadLen pixelFormat : UInt32) (width height : UInt16) :
    (initFrameHeader o seq timestampNs payloadLen pixelFormat width height).toBytes o =
      wireHeader seq timestampNs payloadLen pixelFormat width height := by
  unfold FrameHeader.toBytes initFrameHeader wireHeader
  simp only [toNat_htons, toNat_htonl, toNat_htonll, store_toNetwork]
  rfl

/-- A frame on the wire: its header, then its payload. -/
def encode (f : Frame) : List UInt8 :=
  wireHeader f.seq f.timestampNs (UInt32.ofNat f.payload.length) f.pixelFormat f.width f.height ++
    f.payload

/-- The bytes a frame takes on the wire. -/
def wireSize (f : Frame) : Nat := frameHeaderSize + f.payload.length

@[simp] theorem encode_length (f : Frame) : (encode f).length = wireSize f := by
  rw [encode, List.length_append, wireHeader_length, wireSize]

end Protocol

end CameraStreamer
