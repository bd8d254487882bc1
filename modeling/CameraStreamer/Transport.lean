import CameraStreamer.Server.Parser
import CameraStreamer.TlsClient.Write

/-!
# Frames across a connection

The client's encoder and the server's parser, joined by a byte stream that may be cut anywhere.

* `isUnit_encode`, `decodeUnit_encode`: what the client sends for a frame within its size limit
  is a unit of the server, and carries the frame.
* **`transport_lossless`**: of the frames sent on a connection the server records exactly those
  whose last byte arrived, in order and unchanged, and never leaves at one of its checks. The
  client reports success iff all of them are on the wire, and does where no write fails for good.
-/

namespace CameraStreamer

open Lib.Transfer Lib.Endian Lib.Framing Protocol Server

/-! ## An encoded frame is a unit -/

section Encode

variable (seq timestampNs : UInt64) (payloadLen pixelFormat : UInt32) (width height : UInt16)

/-- What the server finds in a documented header. -/
structure Lays (bs : List UInt8) : Prop where
  magic : field bs 0 4 = Server.protoMagic
  version : field bs 4 2 = beBytes 2 1
  seq : field bs 8 8 = beBytes 8 seq.toNat
  timestampNs : field bs 16 8 = beBytes 8 timestampNs.toNat
  payloadLen : field bs 24 4 = beBytes 4 payloadLen.toNat
  pixelFormat : field bs 28 4 = beBytes 4 pixelFormat.toNat
  width : field bs 32 2 = beBytes 2 width.toNat
  height : field bs 34 2 = beBytes 2 height.toNat

/-- **The two header definitions agree** on where every field is. -/
theorem wireHeader_lays : Lays seq timestampNs payloadLen pixelFormat width height
    (wireHeader seq timestampNs payloadLen pixelFormat width height) := by
  unfold wireHeader
  simp only [List.append_assoc]
  constructor
  · exact field_append_left rfl
  all_goals
    -- step over the fields in front, then the field is the first one
    simp (disch := simp [Protocol.protoMagic]) only [field_append_right, beBytes_length,
      protoMagic_length, Nat.reduceSub, field_append_left, field_whole]

end Encode

/-- A frame the client sends: not empty, and within its size limit. -/
def Sendable (f : Frame) : Prop := 1 ≤ f.payload.length ∧ f.payload.length ≤ maxFrameSize

variable {f : Frame}

theorem toNat_payloadLen (h : Sendable f) :
    (UInt32.ofNat f.payload.length).toNat = f.payload.length := by
  have hmax := h.2
  simp only [maxFrameSize] at hmax
  rw [UInt32.toNat_ofNat', Nat.mod_eq_of_lt (by omega)]

theorem encode_take (f : Frame) : (encode f).take Server.frameHeaderSize =
    wireHeader f.seq f.timestampNs (UInt32.ofNat f.payload.length) f.pixelFormat f.width
      f.height := by
  unfold encode
  rw [List.take_append_of_le_length (by rw [wireHeader_length]; rfl), List.take_of_length_le
    (by rw [wireHeader_length]; rfl)]

/-- **What the client sends for a frame is a unit.** -/
theorem isUnit_encode (h : Sendable f) : IsUnit (encode f) := by
  have hl := wireHeader_lays f.seq f.timestampNs (UInt32.ofNat f.payload.length) f.pixelFormat
    f.width f.height
  have hmax := h.2
  have hlen : unitPayloadLen ((encode f).take Server.frameHeaderSize) = f.payload.length := by
    rw [encode_take, unitPayloadLen, hl.payloadLen, toNat_payloadLen h, beValue_beBytes]
    simp only [maxFrameSize] at hmax
    omega
  refine ⟨⟨?_, ?_, ?_⟩, ?_⟩
  · rw [encode_take]
    exact hl.magic
  · rw [encode_take, hl.version]
    rfl
  · rw [hlen]
    simp only [maxFrameSize] at hmax
    simp only [payloadLimit]
    omega
  · rw [hlen, encode_length]
    rfl

/-- **The unit carries the frame.** -/
theorem decodeUnit_encode (f : Frame) : decodeUnit (encode f) = f := by
  have hl := wireHeader_lays f.seq f.timestampNs (UInt32.ofNat f.payload.length) f.pixelFormat
    f.width f.height
  have hf : ∀ off len, off + len ≤ Server.frameHeaderSize → field (encode f) off len =
      field (wireHeader f.seq f.timestampNs (UInt32.ofNat f.payload.length) f.pixelFormat f.width
        f.height) off len := by
    intro off len hle
    rw [← encode_take, field_take hle]
  have hdrop : (encode f).drop Server.frameHeaderSize = f.payload := by
    unfold encode
    rw [show Server.frameHeaderSize = (wireHeader f.seq f.timestampNs
      (UInt32.ofNat f.payload.length) f.pixelFormat f.width f.height).length by
        rw [wireHeader_length]; rfl, List.drop_left]
  obtain ⟨seq, timestampNs, pixelFormat, width, height, payload⟩ := f
  simp only [decodeUnit, Frame.mk.injEq]
  rw [hf 8 8 (by decide), hf 16 8 (by decide), hf 28 4 (by decide), hf 32 2 (by decide),
    hf 34 2 (by decide), hl.seq, hl.timestampNs, hl.pixelFormat, hl.width, hl.height]
  refine ⟨?_, ?_, ?_, ?_, ?_, hdrop⟩
  · rw [beValue_beBytes_of_lt (k := 8) seq.toNat_lt, UInt64.ofNat_toNat]
  · rw [beValue_beBytes_of_lt (k := 8) timestampNs.toNat_lt, UInt64.ofNat_toNat]
  · rw [beValue_beBytes_of_lt (k := 4) pixelFormat.toNat_lt, UInt32.ofNat_toNat]
  · rw [beValue_beBytes_of_lt (k := 2) width.toNat_lt, UInt16.ofNat_toNat]
  · rw [beValue_beBytes_of_lt (k := 2) height.toNat_lt, UInt16.ofNat_toNat]

/-! ## The connection -/

/-- At a cut inside a frame the loop does not leave at a check: the header, when it is whole, is
the one that was sent. -/
theorem stops_of_cut {ws : List (List UInt8)} {rest : List UInt8} {why : Exit}
    (h : Stops rest why) (hws : ∀ w ∈ ws, IsUnit w) (hrest : rest <+: ws.flatten) :
    why = .headerRead ∨ why = .payloadRead := by
  have hno : ¬ (Server.frameHeaderSize ≤ rest.length ∧
      ¬ HeaderOk (rest.take Server.frameHeaderSize)) := by
    rintro ⟨hlen, hbad⟩
    cases ws with
    | nil =>
      have := hrest.length_le
      simp only [List.flatten_nil, List.length_nil] at this
      exact absurd (Nat.le_trans hlen this) (by decide)
    | cons w ws =>
      have hw := hws w List.mem_cons_self
      rw [List.flatten_cons] at hrest
      have h1 := (List.take_prefix Server.frameHeaderSize rest).trans hrest
      have h2 := (List.take_prefix Server.frameHeaderSize w).trans
        (List.prefix_append w ws.flatten)
      have hl1 := List.length_take_of_le hlen
      have hl2 := List.length_take_of_le hw.size_le
      have heq := (List.prefix_of_prefix_length_le h1 h2 (by omega)).eq_of_length (by omega)
      exact hbad (heq ▸ hw.header)
  cases why with
  | stopped => exact absurd h id
  | headerRead => exact Or.inl rfl
  | payloadRead => exact Or.inr rfl
  | badMagic => exact absurd h hno
  | badVersion => exact absurd h hno
  | tooLarge => exact absurd h hno

/-- Of the frames `fs`, sent on a connection on which `stream` arrived, the server has recorded
those whose last byte arrived, and it has left because the stream ended, not at a check. -/
structure Delivered (fs : List Frame) (stream : List UInt8) (srv : ServerState)
    (out : Exit × Client) : Prop where
  received : ∃ k, out.2.srv.received.map Received.frame =
      srv.received.map Received.frame ++ fs.take k ∧
    ∀ j, j < k ↔ j < fs.length ∧ ((fs.take (j + 1)).map encode).flatten.length ≤ stream.length
  exit : out.1 = .headerRead ∨ out.1 = .payloadRead

/-- **Framed transport is lossless up to the cut**, for every way `SSL_write` splits, retries or
fails, every prefix of what it took that arrives, every way `SSL_read` cuts that up, and hosts of
either byte order. The sender holds nothing back: it reports success iff all frames are on the wire,
and does unless a write has failed for good. -/
theorem transport_lossless (oc os : ByteOrder) (cfg : Config) (envs : Nat → SaveEnv)
    {fs : List Frame} (hfs : ∀ f ∈ fs, Sendable f) (script : List (Except SslError Nat))
    {conn : SslConn} (hconn : conn.stream <+: (TlsClient.sendFrames oc ⟨script, []⟩ fs).2.wire)
    (srv : ServerState) :
    Delivered fs conn.stream srv (handleClient os cfg (fun _ => true) envs conn srv) ∧
      ((TlsClient.sendFrames oc ⟨script, []⟩ fs).1 = true ↔
        (TlsClient.sendFrames oc ⟨script, []⟩ fs).2.wire = (fs.map encode).flatten) ∧
      ((∀ e, Except.error e ∈ script → TlsClient.writeRetries e = true) →
        (TlsClient.sendFrames oc ⟨script, []⟩ fs).1 = true) := by
  have hsent := TlsClient.sendFrames_wire oc ⟨script, []⟩ fs
  have hunit : ∀ w ∈ fs.map encode, IsUnit w := by
    intro w hw
    obtain ⟨f, hf, rfl⟩ := List.mem_map.mp hw
    exact isUnit_encode (hfs f hf)
  have hpre : conn.stream <+: (fs.map encode).flatten := by
    obtain ⟨p, hp, hwire⟩ := hsent.wire
    rw [hwire, List.nil_append] at hconn
    exact hconn.trans hp
  obtain ⟨us, rest, hunits, hstream, htook, -, hends⟩ :=
    handleClient_takes os cfg envs (fun _ => true) conn srv
  have hstops : Stops rest (handleClient os cfg (fun _ => true) envs conn srv).1 := by
    rcases hends with h | ⟨-, h⟩
    · exact h
    · exact absurd h (by simp)
  -- the units taken are the frames wholly before the cut
  have hus : us = (fs.map encode).take (whole (fs.map encode) conn.stream.length) := by
    refine Longest.unique (P := IsUnit) ?_ (longest_take isUnit_prefixFree hunit hpre)
    rw [hstream]
    exact longest_flatten isUnit_prefixFree hunits hstops.no_unit
  refine ⟨⟨?_, ?_⟩, hsent.whole, hsent.succeeds⟩
  · refine ⟨whole (fs.map encode) conn.stream.length, ?_, fun j => ?_⟩
    · rw [htook.received, List.map_append, receivedAll_frames, hus, ← List.map_take,
        List.map_map]
      congr 1
      exact List.map_id'' decodeUnit_encode _
    · rw [lt_whole_iff, List.length_map, List.map_take]
  · generalize whole (fs.map encode) conn.stream.length = k at hus
    rw [hstream, ← List.take_append_drop k (fs.map encode), List.flatten_append, ← hus,
      List.prefix_append_right_inj] at hpre
    exact stops_of_cut hstops (fun w hw => hunit w (List.mem_of_mem_drop hw)) hpre

/-- Two frames. -/
def sampleFrames : List Frame := [(sampleArgs 0).frame, (sampleArgs 1).frame]

/-- What arrives of them, sent with a short write and a retry: all but the last byte. -/
def sampleCut : List UInt8 :=
  (TlsClient.sendFrames .little ⟨[.ok 5, .error .wantWrite], []⟩ sampleFrames).2.wire.take 75

theorem transport_lossless_cut :
    Delivered sampleFrames sampleCut (.start fun _ => none)
      (handleClient .big ⟨[], false⟩ (fun _ => true) (fun _ => ⟨true, []⟩) (.closing sampleCut)
        (.start fun _ => none)) ∧
      (TlsClient.sendFrames .little ⟨[.ok 5, .error .wantWrite], []⟩ sampleFrames).1 = true := by
  have hfs : ∀ f ∈ sampleFrames, Sendable f := by
    intro f hf
    rcases List.mem_cons.mp hf with rfl | hf
    · exact ⟨by decide, by decide⟩
    · rw [List.mem_singleton.mp hf]
      exact ⟨by decide, by decide⟩
  have hconn : (SslConn.closing sampleCut).stream <+: (TlsClient.sendFrames .little
    ⟨[.ok 5, .error .wantWrite], []⟩ sampleFrames).2.wire := List.take_prefix 75 _
  obtain ⟨hdelivered, -, hok⟩ := transport_lossless .little .big ⟨[], false⟩
    (fun _ => ⟨true, []⟩) hfs _ hconn (.start fun _ => none)
  refine ⟨hdelivered, hok fun e he => ?_⟩
  simp only [List.mem_cons, reduceCtorEq, Except.error.injEq, List.not_mem_nil, or_false,
    false_or] at he
  rw [he]
  rfl

end CameraStreamer
