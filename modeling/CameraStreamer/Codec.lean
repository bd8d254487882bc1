import CameraStreamer.Transport

/-!
# The header codec

The two header definitions of the repository against each other: `initFrameHeader`
(`include/protocol.hpp:61-94`) on a host of either byte order, and the server's own `FrameHeader`,
`ntohs`, `ntohl` and `ntohll` (`server/server.cpp:40-65`) on a host of either byte order.

* `decodes_of_lays`: the server reads back what the documented layout holds.
* `reencode_eq`: a header with the magic, version and length of the protocol comes back byte for
  byte.
* **`header_codec`**: encoder and decoder are inverse, for all four pairs of hosts.
-/

namespace CameraStreamer

open Lib.Endian Protocol Server

/-- The 36 bytes of a header as documented: `FRAM`, 1, 36, then the six fields, big-endian. -/
structure Documented (seq timestampNs : UInt64) (payloadLen pixelFormat : UInt32)
    (width height : UInt16) (bs : List UInt8) : Prop where
  length : bs.length = 36
  headerLen : field bs 6 2 = beBytes 2 36
  lays : Lays seq timestampNs payloadLen pixelFormat width height bs

/-- What the server of byte order `o` decodes from 36 bytes. -/
structure Decodes (o : ByteOrder) (bs : List UInt8) (seq timestampNs : UInt64)
    (payloadLen pixelFormat : UInt32) (width height : UInt16) : Prop where
  seq : Server.ntohll o (Server.FrameHeader.ofBytes o bs).seq = seq
  timestampNs : Server.ntohll o (Server.FrameHeader.ofBytes o bs).timestampNs = timestampNs
  payloadLen : ntohl o (Server.FrameHeader.ofBytes o bs).payloadLen = payloadLen
  pixelFormat : ntohl o (Server.FrameHeader.ofBytes o bs).pixelFormat = pixelFormat
  width : ntohs o (Server.FrameHeader.ofBytes o bs).width = width
  height : ntohs o (Server.FrameHeader.ofBytes o bs).height = height

/-- The header a client of byte order `oc` makes of what a server of byte order `os` decodes. -/
def reencode (oc os : ByteOrder) (bs : List UInt8) : List UInt8 :=
  let h := Server.FrameHeader.ofBytes os bs
  (initFrameHeader oc (Server.ntohll os h.seq) (Server.ntohll os h.timestampNs)
    (ntohl os h.payloadLen) (ntohl os h.pixelFormat) (ntohs os h.width)
    (ntohs os h.height)).toBytes oc

/-- 36 bytes with magic `FRAM`, version 1 and header length 36. -/
structure IsHeader (bs : List UInt8) : Prop where
  length : bs.length = 36
  magic : field bs 0 4 = Server.protoMagic
  version : field bs 4 2 = beBytes 2 1
  headerLen : field bs 6 2 = beBytes 2 36

/-! ## Decoding what was encoded -/

section Decode

variable {seq timestampNs : UInt64} {payloadLen pixelFormat : UInt32} {width height : UInt16}
  {bs : List UInt8}

theorem wireHeader_documented (seq timestampNs : UInt64) (payloadLen pixelFormat : UInt32)
    (width height : UInt16) : Documented seq timestampNs payloadLen pixelFormat width height
      (wireHeader seq timestampNs payloadLen pixelFormat width height) where
  length := wireHeader_length _ _ _ _ _ _
  headerLen := by
    unfold wireHeader
    simp only [List.append_assoc]
    simp (disch := simp [Protocol.protoMagic]) only [field_append_right, beBytes_length,
      protoMagic_length, Nat.reduceSub, field_append_left]
  lays := wireHeader_lays _ _ _ _ _ _

theorem ofNat_beValue_16 (v : UInt16) : UInt16.ofNat (beValue (beBytes 2 v.toNat)) = v := by
  rw [beValue_beBytes_of_lt v.toNat_lt, UInt16.ofNat_toNat]

theorem ofNat_beValue_32 (v : UInt32) : UInt32.ofNat (beValue (beBytes 4 v.toNat)) = v := by
  rw [beValue_beBytes_of_lt v.toNat_lt, UInt32.ofNat_toNat]

theorem ofNat_beValue_64 (v : UInt64) : UInt64.ofNat (beValue (beBytes 8 v.toNat)) = v := by
  rw [beValue_beBytes_of_lt v.toNat_lt, UInt64.ofNat_toNat]

/-- **The server reads back what the documented layout holds**, on either host. -/
theorem decodes_of_lays (o : ByteOrder)
    (h : Lays seq timestampNs payloadLen pixelFormat width height bs) :
    Decodes o bs seq timestampNs payloadLen pixelFormat width height where
  seq := by
    simp only [Server.FrameHeader.ofBytes, h.seq]
    rw [ntohll_ofNat_load o (beBytes_length 8 _), ofNat_beValue_64]
  timestampNs := by
    simp only [Server.FrameHeader.ofBytes, h.timestampNs]
    rw [ntohll_ofNat_load o (beBytes_length 8 _), ofNat_beValue_64]
  payloadLen := by
    simp only [Server.FrameHeader.ofBytes, h.payloadLen]
    rw [ntohl_ofNat_load o (beBytes_length 4 _), ofNat_beValue_32]
  pixelFormat := by
    simp only [Server.FrameHeader.ofBytes, h.pixelFormat]
    rw [ntohl_ofNat_load o (beBytes_length 4 _), ofNat_beValue_32]
  width := by
    simp only [Server.FrameHeader.ofBytes, h.width]
    rw [ntohs_ofNat_load o (beBytes_length 2 _), ofNat_beValue_16]
  height := by
    simp only [Server.FrameHeader.ofBytes, h.height]
    rw [ntohs_ofNat_load o (beBytes_length 2 _), ofNat_beValue_16]

end Decode

/-! ## Encoding what was decoded -/

section Reencode

variable {bs : List UInt8}

/-- A field is the big-endian encoding of its value. -/
theorem beBytes_field {off k : Nat} (h : off + k ≤ bs.length) :
    beBytes k (beValue (field bs off k)) = field bs off k := by
  have hval := beBytes_beValue (field bs off k)
  rwa [field_length h] at hval

theorem beValue_field_lt {off k : Nat} (h : off + k ≤ bs.length) :
    beValue (field bs off k) < 256 ^ k := by
  have hlt := beValue_lt (field bs off k)
  rwa [field_length h] at hlt

/-- The first field and the one behind it are one. -/
theorem field_zero_append (j k : Nat) : field bs 0 j ++ field bs j k = field bs 0 (j + k) := by
  unfold field
  rw [List.drop_zero, List.take_add]

/-- **A header comes back byte for byte**: what either server host decodes from it, either client
host encodes to it. -/
theorem reencode_eq (oc os : ByteOrder) (h : IsHeader bs) : reencode oc os bs = bs := by
  have hlen := h.length
  have h16 : ∀ off, off + 2 ≤ 36 →
      beBytes 2 (ntohs os (UInt16.ofNat (load os (field bs off 2)))).toNat = field bs off 2 := by
    intro off hoff
    have hle : off + 2 ≤ bs.length := by omega
    have hlt : beValue (field bs off 2) < 2 ^ 16 := beValue_field_lt hle
    rw [ntohs_ofNat_load os (field_length hle), UInt16.toNat_ofNat',
      Nat.mod_eq_of_lt hlt, beBytes_field hle]
  have h32 : ∀ off, off + 4 ≤ 36 →
      beBytes 4 (ntohl os (UInt32.ofNat (load os (field bs off 4)))).toNat = field bs off 4 := by
    intro off hoff
    have hle : off + 4 ≤ bs.length := by omega
    have hlt : beValue (field bs off 4) < 2 ^ 32 := beValue_field_lt hle
    rw [ntohl_ofNat_load os (field_length hle), UInt32.toNat_ofNat',
      Nat.mod_eq_of_lt hlt, beBytes_field hle]
  have h64 : ∀ off, off + 8 ≤ 36 →
      beBytes 8 (Server.ntohll os (UInt64.ofNat (load os (field bs off 8)))).toNat =
        field bs off 8 := by
    intro off hoff
    have hle : off + 8 ≤ bs.length := by omega
    have hlt : beValue (field bs off 8) < 2 ^ 64 := beValue_field_lt hle
    rw [ntohll_ofNat_load os (field_length hle), UInt64.toNat_ofNat',
      Nat.mod_eq_of_lt hlt, beBytes_field hle]
  unfold reencode
  rw [initFrameHeader_toBytes]
  simp only [wireHeader, Server.FrameHeader.ofBytes]
  rw [h16 32 (by decide), h16 34 (by decide), h32 24 (by decide), h32 28 (by decide),
    h64 8 (by decide), h64 16 (by decide), ← h.headerLen, ← h.version,
    show Protocol.protoMagic = field bs 0 4 from h.magic.symm]
  -- the nine fields are adjacent and make up the 36 bytes
  simp only [field_zero_append, Nat.reduceAdd]
  exact field_whole hlen

end Reencode

/-- **The header codec** between a client host and a server host. -/
structure HeaderCodec (oc os : ByteOrder) : Prop where
  layout : ∀ seq timestampNs payloadLen pixelFormat width height,
    Documented seq timestampNs payloadLen pixelFormat width height
      ((initFrameHeader oc seq timestampNs payloadLen pixelFormat width height).toBytes oc)
  decode : ∀ seq timestampNs payloadLen pixelFormat width height,
    Decodes os ((initFrameHeader oc seq timestampNs payloadLen pixelFormat width height).toBytes oc)
      seq timestampNs payloadLen pixelFormat width height
  reproduce : ∀ bs, IsHeader bs → reencode oc os bs = bs

/-- **Encoder and decoder are inverse**, for hosts of either byte order on either side. -/
theorem header_codec (oc os : ByteOrder) : HeaderCodec oc os where
  layout seq timestampNs payloadLen pixelFormat width height := by
    rw [initFrameHeader_toBytes]
    exact wireHeader_documented seq timestampNs payloadLen pixelFormat width height
  decode seq timestampNs payloadLen pixelFormat width height := by
    rw [initFrameHeader_toBytes]
    exact decodes_of_lays os (wireHeader_lays seq timestampNs payloadLen pixelFormat width height)
  reproduce _ h := reencode_eq oc os h

end CameraStreamer
