import CameraStreamer.Client.Machine

/-!
# What the client puts on the wire

`Sent` relates the frames `pop` has returned to the bytes of the connections so far: each
connection carries the beginning of its own run of frames, encoded one after the other, and these
runs, in the order of the connections, are the frames returned. While a frame is being sent, what
is written is the encoding less what is still to go (`remaining`), and that is read through the
packet from its slot.

* `headerOf_append_payload`: the header of a packet and the payload it shows are the encoding of
  the frame it shows.
* `sent_write`, `sent_advance`: what a turn of `sslWriteAll` and the code around it keep.
* **`wires_carry_returned`**: over every run of the process, the wires carry the frames returned.
-/

namespace CameraStreamer

open Lib.Machine Lib.Endian Protocol TlsClient

/-- Frames on the wire, one after the other. -/
def encodeAll (fs : List Frame) : List UInt8 := (fs.map encode).flatten

theorem encodeAll_snoc (fs : List Frame) (f : Frame) :
    encodeAll (fs ++ [f]) = encodeAll fs ++ encode f := by
  simp [encodeAll]

/-- What `SSL_write` was given on a connection. -/
def TlsClient.Wire.bytes (w : Wire) : List UInt8 := w.written ++ w.attempted

/-- All connections so far, in order. -/
def TlsClient.Net.wires (t : Net) : List Wire := t.past ++ t.cur.toList

/-- A write on the connection has failed. -/
def TlsClient.NetPc.broken : NetPc → Bool
  | .failed _ => true
  | .disconnect => true
  | _ => false

namespace Streamer

/-! ## The frame being sent -/

/-- What is still to be written of the frame being sent. -/
def remaining (q : RingQueue) : NetPc → List UInt8
  | .header p rest => rest ++ (q.view p).payload
  | .payload p off => (q.view p).payload.drop off
  | _ => []

/-- It depends on the queue only through what the packet held shows. -/
theorem remaining_congr {q q' : RingQueue} {pc : NetPc}
    (h : ∀ p, pc.packet = some p → q'.view p = q.view p) : remaining q' pc = remaining q pc := by
  cases pc with
  | header p rest => rw [remaining, remaining, h p rfl]
  | payload p off => rw [remaining, remaining, h p rfl]
  | _ => rfl

/-- **The header of a packet and the payload it shows** encode the frame it shows. -/
theorem headerOf_append_payload (o : ByteOrder) {q : RingQueue} {p : FramePacket}
    (h : (q.view p).payload.length = p.len.toNat) :
    Net.headerOf o p ++ (q.view p).payload = encode (q.view p) := by
  unfold Net.headerOf encode
  rw [initFrameHeader_toBytes, h, UInt32.ofNat_toNat]
  rfl

/-- What one `SSL_write` of the payload is given: the packet's payload from there on. -/
theorem payloadFrom_eq (q : RingQueue) (p : FramePacket) (off : Nat) :
    Net.payloadFrom p off (q.slots p.slotIdx).data = (q.view p).payload.drop off :=
  (List.drop_take ..).symm

/-! ## The connections -/

/-- A connection that carries the frames `fs`. -/
structure Sending (q : RingQueue) (pc : NetPc) (w : Wire) (fs : List Frame) : Prop where
  /-- Whatever has been given to `SSL_write` is a beginning of the encoded frames. -/
  begun : w.bytes <+: encodeAll fs
  /-- As long as no write has failed, the rest is still to go. -/
  whole : pc.broken = false → w.attempted = [] ∧ w.written ++ remaining q pc = encodeAll fs

/-- The frames returned so far: those of the past connections, then those of the current one. -/
structure Sent (q : RingQueue) (returned : List Frame) (t : Net) (fss : List (List Frame))
    (fs : List Frame) : Prop where
  returned : returned = fss.flatten ++ fs
  past : List.Forall₂ (fun w gs => w.bytes <+: encodeAll gs) t.past fss
  cur : ∀ w, t.cur = some w → Sending q t.pc w fs
  idle : t.cur = none → fs = []

variable {q q' : RingQueue} {returned : List Frame} {t t' : Net} {fss : List (List Frame)}
  {fs : List Frame}

/-- A step that writes nothing, and leaves as much to go. -/
theorem Sent.move (h : Sent q returned t fss fs) (hpast : t'.past = t.past)
    (hcur : t'.cur = t.cur) (hbroken : t.pc.broken = true → t'.pc.broken = true)
    (hrem : remaining q' t'.pc = remaining q t.pc) : Sent q' returned t' fss fs := by
  refine ⟨h.returned, hpast ▸ h.past, fun w hw => ?_, fun hw => h.idle (hcur ▸ hw)⟩
  obtain ⟨hbegun, hwhole⟩ := h.cur w (hcur ▸ hw)
  refine ⟨hbegun, fun hb => ?_⟩
  rw [hrem]
  refine hwhole (Bool.eq_false_iff.mpr fun hb' => ?_)
  rw [hbroken hb'] at hb
  exact absurd hb (by simp)

/-- The connection is closed: what it carried is settled. -/
theorem Sent.close (h : Sent q returned t fss fs) (hpast : t'.past = t.past ++ t.cur.toList)
    (hcur : t'.cur = none) : ∃ fss' fs', Sent q returned t' fss' fs' := by
  cases hopen : t.cur with
  | none =>
    rw [hopen, Option.toList_none, List.append_nil] at hpast
    exact ⟨fss, fs, h.returned, hpast ▸ h.past, fun w hw => absurd (hcur ▸ hw) (by simp),
      fun _ => h.idle hopen⟩
  | some w =>
    rw [hopen, Option.toList_some] at hpast
    refine ⟨fss ++ [fs], [], ?_, ?_, fun w hw => absurd (hcur ▸ hw) (by simp), fun _ => rfl⟩
    · rw [h.returned, List.flatten_append, List.append_nil]
      simp
    · rw [hpast]
      exact List.rel_append h.past (.cons (h.cur w hopen).begun .nil)

/-- A packet is popped: its frame is the next of the connection. -/
theorem Sent.popped (o : ByteOrder) {p : FramePacket} (h : Sent q returned t fss fs)
    (hpc : t.pc = .pop) (hopen : t.cur ≠ none)
    (hlen : (q.view p).payload.length = p.len.toNat) :
    Sent q (returned ++ [q.view p]) (t.popped o (some p)) fss (fs ++ [q.view p]) := by
  refine ⟨by rw [h.returned, List.append_assoc], h.past, fun w hw => ?_,
    fun hw => absurd hw hopen⟩
  obtain ⟨hbegun, hwhole⟩ := h.cur w hw
  obtain ⟨hatt, hrem⟩ := hwhole (by rw [hpc]; rfl)
  have hnil : remaining q t.pc = [] := by rw [hpc]; rfl
  rw [hnil, List.append_nil] at hrem
  refine ⟨?_, fun _ => ⟨hatt, ?_⟩⟩
  · rw [encodeAll_snoc]
    exact hbegun.trans (List.prefix_append _ _)
  · rw [encodeAll_snoc, hrem]
    exact congrArg _ (headerOf_append_payload o hlen)

/-! ## Writing -/

/-- `SSL_write` takes bytes off the front of what is to go. -/
theorem Sending.wrote {pc pc' : NetPc} {w : Wire} {bs : List UInt8} (h : Sending q pc w fs)
    (hbroken : pc.broken = false) (hrem : remaining q pc = bs ++ remaining q pc') :
    Sending q pc' { w with written := w.written ++ bs } fs := by
  obtain ⟨hatt, hwhole⟩ := h.whole hbroken
  rw [hrem, ← List.append_assoc] at hwhole
  refine ⟨?_, fun _ => ⟨hatt, hwhole⟩⟩
  rw [Wire.bytes, hatt, List.append_nil, ← hwhole]
  exact List.prefix_append _ _

/-- `SSL_write` fails on the front of what is to go. -/
theorem Sending.lost {pc pc' : NetPc} {w : Wire} {bs more : List UInt8} (h : Sending q pc w fs)
    (hbroken : pc.broken = false) (hrem : remaining q pc = bs ++ more)
    (hbroken' : pc'.broken = true) : Sending q pc' { w with attempted := bs } fs := by
  obtain ⟨-, hwhole⟩ := h.whole hbroken
  rw [hrem, ← List.append_assoc] at hwhole
  refine ⟨?_, fun hb => absurd hb (by simp [hbroken'])⟩
  rw [Wire.bytes, ← hwhole]
  exact List.prefix_append _ _

/-- What a turn of `sslWriteAll` does to the connection. -/
theorem Sent.turn (h : Sent q returned t fss fs) {f : Wire → Wire} (hpast : t'.past = t.past)
    (hcur : t'.cur = t.cur.map f)
    (hf : ∀ w, t.cur = some w → Sending q t.pc w fs → Sending q t'.pc (f w) fs) :
    Sent q returned t' fss fs := by
  refine ⟨h.returned, hpast ▸ h.past, fun w hw => ?_, fun hw => ?_⟩
  · rw [hcur] at hw
    obtain ⟨w', hw', rfl⟩ := Option.map_eq_some_iff.mp hw
    exact hf w' hw' (h.cur w' hw')
  · rw [hcur, Option.map_eq_none_iff] at hw
    exact h.idle hw

theorem sent_test {running : Bool} (h : Sent q returned t fss fs) (hpc : t.pc = .head) :
    Sent q returned (t.test running) fss fs := by
  have hbroken : t.pc.broken = true → (t.test running).pc.broken = true := by
    simp [hpc, NetPc.broken]
  unfold Net.test at hbroken ⊢
  split_ifs at hbroken ⊢
  · exact h.move rfl rfl hbroken (by rw [hpc]; rfl)
  · exact h.move rfl rfl hbroken (by rw [hpc]; rfl)
  · exact h.move rfl rfl hbroken (by rw [hpc]; rfl)

/-- A new connection carries nothing yet. -/
theorem sent_connect {cfg : TlsConfig} {env : Net.ConnectEnv} (h : Sent q returned t fss fs)
    (hpc : t.pc = .connecting) (hdown : t.cur = none) :
    Sent q returned (t.connect cfg env) fss fs := by
  have hatt : Net.Attempt t (t.tlsConnect cfg env) := Net.tlsConnect_attempt env
  unfold Net.connect
  split
  · rename_i t' heq
    rw [heq] at hatt
    refine ⟨h.returned, hatt.past ▸ h.past, fun w hw => ?_, fun _ => h.idle hdown⟩
    have hcur : t'.cur = some ⟨[], []⟩ := hatt.opened rfl
    have hw : t'.cur = some w := hw
    rw [hcur, Option.some.injEq] at hw
    rw [← hw, h.idle hdown]
    exact ⟨List.nil_prefix, fun _ => ⟨rfl, rfl⟩⟩
  · rename_i t' heq
    rw [heq] at hatt
    exact h.move hatt.past (hatt.failed rfl) (by simp [hpc, NetPc.broken]) (by rw [hpc]; rfl)

/-- **A turn of `sslWriteAll`** keeps what the connection carries. -/
theorem sent_write {p : FramePacket} {r : Except SslError Nat} (h : Sent q returned t fss fs)
    (hp : t.pc.packet = some p) (hn : t.write r (q.slots p.slotIdx).data = some t') :
    Sent q returned t' fss fs := by
  rcases Net.write_cases hn with ⟨p', rest, hpc, -, hcase⟩ | ⟨p', off, hpc, -, hcase⟩
  · rcases hcase with ⟨n, rfl⟩ | rfl | rfl
    · refine h.turn rfl rfl fun w _ hw => hw.wrote (by rw [hpc]; rfl) ?_
      rw [hpc, remaining, remaining, ← List.append_assoc, List.take_append_drop]
    · exact h.move rfl rfl id rfl
    · exact h.turn rfl rfl fun w _ hw => hw.lost (by rw [hpc]; rfl) (by rw [hpc]; rfl) rfl
  · have hpp : p' = p := by
      rw [hpc] at hp
      exact Option.some.inj hp
    subst hpp
    rw [payloadFrom_eq] at hcase
    rcases hcase with ⟨n, rfl⟩ | rfl | rfl
    · refine h.turn rfl rfl fun w _ hw => hw.wrote (by rw [hpc]; rfl) ?_
      rw [hpc, remaining, remaining, ← List.drop_drop, List.take_append_drop]
    · exact h.move rfl rfl id rfl
    · have hrem : remaining q t.pc = (q.view p').payload.drop off ++ [] := by
        rw [hpc]
        exact (List.append_nil _).symm
      exact h.turn rfl rfl fun w _ hw => hw.lost (by rw [hpc]; rfl) hrem rfl

/-- **The code around the writes** keeps what the connections carry. -/
theorem sent_advance {cfg : TlsConfig} (h : Sent q returned t fss fs)
    (hlen : ∀ p, t.pc.packet = some p → (q.view p).payload.length = p.len.toNat)
    (hn : t.advance cfg = some t') : ∃ fss' fs', Sent q returned t' fss' fs' := by
  obtain ⟨-, hpast, hcur⟩ := Net.tlsDisconnect_rest t
  cases Net.advance_cases hn with
  | retry hpc => exact ⟨fss, fs, h.move rfl rfl (by simp [hpc, NetPc.broken]) (by rw [hpc]; rfl)⟩
  | headerDone hpc =>
    exact ⟨fss, fs, h.move rfl rfl (by simp [hpc, NetPc.broken]) (by rw [hpc]; rfl)⟩
  | @payloadDone p off hpc hoff =>
    refine ⟨fss, fs, h.move rfl rfl (by simp [hpc, NetPc.broken]) ?_⟩
    have hlen := hlen p (by rw [hpc]; rfl)
    rw [hpc]
    exact (List.drop_of_length_le (by omega)).symm
  | giveUp hpc => exact ⟨fss, fs, h.move rfl rfl (fun _ => rfl) (by rw [hpc]; rfl)⟩
  | count hpc => exact ⟨fss, fs, h.move rfl rfl (by simp [hpc, NetPc.broken]) (by rw [hpc]; rfl)⟩
  | free hpc => exact ⟨fss, fs, h.move rfl rfl (by simp [hpc, NetPc.broken]) (by rw [hpc]; rfl)⟩
  | disconnect _ => exact h.close hpast hcur
  | leave _ => exact h.close hpast hcur
  | destroy _ => exact h.close hpast hcur

/-! ## The process -/

variable {c : Config} {s s' : Streamer} {a : Action}

/-- The wires of the process carry the frames returned. -/
def OnWire (s : Streamer) : Prop := ∃ fss fs, Sent s.qs.q s.qs.returned s.net fss fs

/-- A step of the queue alone: the packet held still shows the same. -/
theorem OnWire.queue {qs : QState} {b : QAction} (h : OnWire s) (hI : s.qs.Inv) (hco : Coherent s)
    (hq : s.qs.step b = some qs) (hret : qs.returned = s.qs.returned) :
    ∃ fss fs, Sent qs.q qs.returned s.net fss fs := by
  obtain ⟨fss, fs, h⟩ := h
  refine ⟨fss, fs, hret ▸ h.move rfl rfl id (remaining_congr fun p hp => ?_)⟩
  refine QState.view_step hI hq (List.mem_append_right _ ?_)
  rw [hco.held, hp]
  exact List.mem_singleton_self p

/-- What the invariants of the two sides say here. -/
structure Ready (s : Streamer) : Prop where
  inv : s.qs.Inv
  coherent : Coherent s
  net : s.net.Inv
  view : ∀ p ∈ s.qs.held, (s.qs.q.view p).payload.length = p.len.toNat

theorem ready_of_reachable (hc : 0 < c.queueSize) (hr : Reachable c s) : Ready s where
  inv := QState.inv_of_reachable hc (queue_reachable hr)
  coherent := coherent_of_reachable hr
  net := Net.inv_of_reachable (net_reachable hr)
  view _ hp := QState.view_length hc (queue_reachable hr) hp

theorem Ready.view_packet (h : Ready s) {p : FramePacket} (hp : s.net.pc.packet = some p) :
    (s.qs.q.view p).payload.length = p.len.toNat := by
  refine h.view p (List.mem_append_right _ ?_)
  rw [h.coherent.held, hp]
  exact List.mem_singleton_self p

/-- **Every step keeps the wires true to the frames returned.** -/
theorem onWire_step (hrd : Ready s) (h : OnWire s) (hm : Moves c s a s') : OnWire s' := by
  have hqueue : ∀ {qs : QState} {b : QAction}, s.qs.step b = some qs →
      qs.returned = s.qs.returned → ∃ fss fs, Sent qs.q qs.returned s.net fss fs :=
    h.queue hrd.inv hrd.coherent
  cases hm with
  | idle _ => exact h
  | capture _ _ hq => exact hqueue hq (QState.pushCall_sameConsumer hq).returned
  | push hb hq => exact hqueue hq (QState.push_sameConsumer hb hq).returned
  | shutdown hq => exact hqueue hq (QState.shutdown_sameConsumer hq).returned
  | popTake _ _ hq => exact hqueue hq rfl
  | test hpc =>
    obtain ⟨fss, fs, h⟩ := h
    exact ⟨fss, fs, sent_test h hpc⟩
  | connect hpc =>
    obtain ⟨fss, fs, h⟩ := h
    have hdown := hrd.net
    unfold Net.Inv at hdown
    rw [hpc] at hdown
    exact ⟨fss, fs, sent_connect h hpc hdown.2.2.2.1⟩
  | popNull hpc _ =>
    obtain ⟨fss, fs, h⟩ := h
    exact ⟨fss, fs, h.move rfl rfl (by simp [hpc, NetPc.broken]) (by rw [hpc]; rfl)⟩
  | @popBuild p _ hpc htaken hq =>
    obtain ⟨fss, fs, h⟩ := h
    obtain ⟨p', hp', rfl⟩ := QState.popBuild_cases hq
    have hpp : p' = p := by simpa [htaken] using hp'.symm
    subst hpp
    have hup := hrd.net
    unfold Net.Inv at hup
    rw [hpc] at hup
    obtain ⟨-, -, -, -, -, hopen, -⟩ := hup
    refine ⟨fss, _, h.popped c.order hpc hopen (hrd.view p' ?_)⟩
    rw [QState.held, htaken]
    exact List.mem_append_left _ (List.mem_singleton_self p')
  | popFail hpc hq =>
    obtain ⟨fss, fs, h⟩ := h
    obtain ⟨p, -, rfl⟩ := QState.popFail_cases hq
    exact ⟨fss, fs, h.move rfl rfl (by simp [hpc, NetPc.broken]) (by rw [hpc]; rfl)⟩
  | write hp hn =>
    obtain ⟨fss, fs, h⟩ := h
    exact ⟨fss, fs, sent_write h hp hn⟩
  | free hpc hq hn =>
    obtain ⟨fss, fs, h⟩ := h
    obtain ⟨fss, fs, h⟩ := sent_advance h (fun p hp => hrd.view_packet hp) hn
    obtain ⟨p, -, rfl⟩ := QState.release_cases hq
    exact ⟨fss, fs, h.move rfl rfl id (remaining_congr fun _ _ => rfl)⟩
  | advance _ hn =>
    obtain ⟨fss, fs, h⟩ := h
    exact sent_advance h (fun p hp => hrd.view_packet hp) hn

theorem onWire_of_reachable (hc : 0 < c.queueSize) (hr : Reachable c s) : OnWire s := by
  have h0 : OnWire (init c) :=
    ⟨[], [], rfl, .nil, fun w hw => absurd hw (by simp [init, Net.construct]), fun _ => rfl⟩
  exact hr.invariant_of (fun _ hr => ready_of_reachable hc hr) h0
    fun _ hrd h _ hs => onWire_step hrd h (step_moves hs)

/-- **The wires carry the frames returned**: what each connection was given is a beginning of its
frames, encoded; and these, connection after connection, are the frames `pop` has returned. -/
theorem wires_carry_returned (hc : 0 < c.queueSize) (hr : Reachable c s) :
    ∃ fss, s.qs.returned = fss.flatten ∧
      List.Forall₂ (fun w gs => w.bytes <+: encodeAll gs) s.net.wires fss := by
  obtain ⟨fss, fs, h⟩ := onWire_of_reachable hc hr
  unfold Net.wires
  cases hcur : s.net.cur with
  | none =>
    refine ⟨fss, ?_, ?_⟩
    · rw [h.returned, h.idle hcur, List.append_nil]
    · rw [Option.toList_none, List.append_nil]
      exact h.past
  | some w =>
    refine ⟨fss ++ [fs], ?_, List.rel_append h.past (.cons (h.cur w hcur).begun .nil)⟩
    rw [h.returned, List.flatten_append]
    simp

end Streamer

end CameraStreamer
