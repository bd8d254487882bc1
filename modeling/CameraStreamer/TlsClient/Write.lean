import CameraStreamer.Protocol
import CameraStreamer.Ssl

/-!
# Writing frames to a connection

Model of `sslWriteAll` (`src/tls_client.cpp:297-333`) and of what `networkLoop` sends for a frame
(`tls_client.cpp:373-400`): `initFrameHeader`, the header, the payload. `Link` is one connection
as the client sees it: what its next `SSL_write` calls return, and the bytes they have taken.

* `sslWriteAll_wire`: whatever the calls do, the wire has grown by the first bytes of the buffer,
  by all of them iff the call returns `true`; and it does where no `SSL_write` fails for good.
* `sendFrames_wire`: the same of the encoded frames of a connection.
-/

namespace CameraStreamer.TlsClient

open Lib.Transfer Lib.Endian Protocol

/-- The `switch` after an `SSL_write` that returned at most 0 (`tls_client.cpp:307-326`): `true`
is `continue`, `false` is `return false`. -/
def writeRetries : SslError → Bool
  | .wantWrite => true
  | .wantRead => true
  | .syscall eintr => eintr
  | .zeroReturn => false
  | .other => false

/-- The sending end of a connection. -/
structure Link where
  script : List (Except SslError Nat)
  wire : List UInt8

/-- `sslWriteAll(data, len)`. An `SSL_write` that succeeds takes at least one byte. -/
def sslWriteAll (l : Link) (data : List UInt8) (len : Nat) : Bool × Link :=
  let out := transferAll (sink writeRetries 1) ⟨l.script, data, l.wire⟩ 0 len
  (out.ok, ⟨out.state.script, out.state.sent⟩)

/-- The bytes of the header `networkLoop` builds for a frame (`tls_client.cpp:374-381`). -/
def frameHeaderBytes (o : ByteOrder) (f : Frame) : List UInt8 :=
  (initFrameHeader o f.seq f.timestampNs (UInt32.ofNat f.payload.length) f.pixelFormat f.width
    f.height).toBytes o

/-- Send the header, then the payload (`tls_client.cpp:384-397`). -/
def sendFrame (o : ByteOrder) (l : Link) (f : Frame) : Bool × Link :=
  match sslWriteAll l (frameHeaderBytes o f) frameHeaderSize with
  | (false, l) => (false, l)
  | (true, l) => sslWriteAll l f.payload f.payload.length

/-- Send frames one after the other, up to the first write that fails. -/
def sendFrames (o : ByteOrder) (l : Link) : List Frame → Bool × Link
  | [] => (true, l)
  | f :: fs =>
    match sendFrame o l f with
    | (false, l) => (false, l)
    | (true, l) => sendFrames o l fs

/-! ## What is on the wire -/

/-- No `SSL_write` fails for good: each error is one after which the call is repeated. -/
def Link.Unbroken (l : Link) : Prop := ∀ e, Except.error e ∈ l.script → writeRetries e = true

/-- The wire has grown by a prefix of `data`, by all of it iff the result is `true`. -/
structure Wrote (l : Link) (data : List UInt8) (r : Bool × Link) : Prop where
  wire : ∃ p, p <+: data ∧ r.2.wire = l.wire ++ p
  whole : r.1 = true ↔ r.2.wire = l.wire ++ data
  script : r.2.script ⊆ l.script
  succeeds : l.Unbroken → r.1 = true

theorem sslWriteAll_wire (l : Link) (data : List UInt8) :
    Wrote l data (sslWriteAll l data data.length) := by
  have hsent := (sink_transferAll writeRetries 1 ⟨l.script, data, l.wire⟩ 0 data.length).2
  obtain ⟨-, hle, hok⟩ := transferAll_ok_iff (sink writeRetries 1) ⟨l.script, data, l.wire⟩ 0
    data.length
  rw [Nat.zero_add] at hle hok
  rw [Nat.sub_zero] at hsent
  refine
    { wire := ⟨_, List.take_prefix _ _, hsent⟩,
      whole := hok.trans ⟨fun hmoved => ?_, fun hall => ?_⟩,
      script := sink_transferAll_script _ _ _ _ _,
      succeeds := fun h => sink_transferAll_ok 1 ⟨l.script, data, l.wire⟩ 0 data.length h }
  · rw [hmoved, List.take_length] at hsent
    exact hsent
  · have htake := congrArg List.length (List.append_cancel_left (hsent.symm.trans hall))
    rw [List.length_take] at htake
    omega

/-- Two writes in a row. -/
theorem Wrote.append {l : Link} {as bs : List UInt8} {r r' : Bool × Link} (h : Wrote l as r)
    (hr : r.1 = true) (h' : Wrote r.2 bs r') : Wrote l (as ++ bs) r' := by
  obtain ⟨p, hp, hwire⟩ := h'.wire
  have hall := h.whole.mp hr
  refine
    { wire := ⟨as ++ p, (List.prefix_append_right_inj as).mpr hp, ?_⟩, whole := ?_,
      script := List.Subset.trans h'.script h.script,
      succeeds := fun hl => h'.succeeds fun e he => hl e (h.script he) }
  · rw [hwire, hall, List.append_assoc]
  · rw [h'.whole, hall, List.append_assoc]

/-- A write that fails leaves a prefix of whatever was to follow. -/
theorem Wrote.failed {l : Link} {as : List UInt8} (bs : List UInt8) {r : Bool × Link}
    (h : Wrote l as r) (hr : r.1 = false) : Wrote l (as ++ bs) r := by
  obtain ⟨p, hp, hwire⟩ := h.wire
  have hne : r.1 ≠ true := by rw [hr]; exact Bool.false_ne_true
  refine
    { wire := ⟨p, hp.trans (List.prefix_append as bs), hwire⟩,
      whole := ⟨fun hok => absurd hok hne, fun hall => absurd ?_ hne⟩, script := h.script,
      succeeds := h.succeeds }
  -- nothing can have been left to follow: the write alone would have been whole
  have heq := List.append_cancel_left (hwire.symm.trans hall)
  have hlen := hp.length_le
  rw [heq, List.length_append] at hlen
  have hnil : bs = [] := List.length_eq_zero_iff.mp (by omega)
  rw [hnil, List.append_nil] at hall
  exact h.whole.mpr hall

theorem frameHeaderBytes_append (o : ByteOrder) (f : Frame) :
    frameHeaderBytes o f ++ f.payload = encode f := by
  unfold frameHeaderBytes encode
  rw [initFrameHeader_toBytes]

theorem frameHeaderBytes_length (o : ByteOrder) (f : Frame) :
    (frameHeaderBytes o f).length = frameHeaderSize := by
  unfold frameHeaderBytes
  rw [initFrameHeader_toBytes, wireHeader_length]

theorem sendFrame_wire (o : ByteOrder) (l : Link) (f : Frame) :
    Wrote l (encode f) (sendFrame o l f) := by
  have hhdr := sslWriteAll_wire l (frameHeaderBytes o f)
  rw [frameHeaderBytes_length] at hhdr
  rw [← frameHeaderBytes_append o]
  unfold sendFrame
  split
  · rename_i l' heq
    rw [heq] at hhdr
    exact hhdr.failed f.payload rfl
  · rename_i l' heq
    rw [heq] at hhdr
    exact hhdr.append rfl (sslWriteAll_wire l' f.payload)

/-- **The wire of a connection is a prefix of the encoded frames**, all of them iff every write
succeeds. -/
theorem sendFrames_wire (o : ByteOrder) (l : Link) (fs : List Frame) :
    Wrote l (fs.map encode).flatten (sendFrames o l fs) := by
  induction fs generalizing l with
  | nil =>
    exact
      { wire := ⟨[], List.nil_prefix, (List.append_nil _).symm⟩,
        whole := ⟨fun _ => (List.append_nil _).symm, fun _ => rfl⟩, script := List.Subset.refl _,
        succeeds := fun _ => rfl }
  | cons f fs ih =>
    have hf := sendFrame_wire o l f
    rw [List.map_cons, List.flatten_cons]
    unfold sendFrames
    split
    · rename_i l' heq
      rw [heq] at hf
      exact hf.failed _ rfl
    · rename_i l' heq
      rw [heq] at hf
      exact hf.append rfl (ih l')

end CameraStreamer.TlsClient
