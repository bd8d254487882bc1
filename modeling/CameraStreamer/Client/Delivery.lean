import CameraStreamer.Client.Wire

/-!
# The frames counted as sent

`frames_sent_` counts a frame once its header and its payload have been written
(`src/tls_client.cpp:384-401`). `Delivering` says what that means for the bytes of the connections:
each connection has been given its frames whole, up to the one in hand, or, where a write failed,
up to the last (`Wire.whole`).

* `delivering_write`, `delivering_advance`: what a turn of `sslWriteAll` and the code around it
  keep, with the frame in hand written as far as the thread has got.
* **`losses_exact`**: so the frames `pop` has returned are those counted as sent, the one in hand,
  and one for each connection that broke.
-/

namespace CameraStreamer

open Lib.Machine Lib.Fifo Lib.Endian Protocol TlsClient

/-- A write on the connection has failed. -/
def TlsClient.Wire.failed (w : Wire) : Bool := !w.attempted.isEmpty

/-- Of the frames of a connection, those that were written whole. -/
def TlsClient.Wire.whole (w : Wire) (fs : List Frame) : List Frame :=
  if w.failed then fs.dropLast else fs

/-- The last frame of the connection is not counted as sent. -/
def TlsClient.NetPc.unsent : NetPc → Nat
  | .header _ _ => 1
  | .payload _ _ => 1
  | .failed _ => 1
  | .disconnect => 1
  | .sent _ => 1
  | _ => 0

/-- The last frame of the connection may not be whole on the wire. -/
def TlsClient.NetPc.torn : NetPc → Bool
  | .header _ _ => true
  | .payload _ _ => true
  | .failed _ => true
  | .disconnect => true
  | _ => false

/-- A frame has been sent and is not counted yet. -/
def TlsClient.NetPc.uncounted : NetPc → Nat
  | .sent _ => 1
  | _ => 0

/-- A frame is being sent, or has been sent and is not counted yet. -/
def TlsClient.NetPc.inHand : NetPc → Nat
  | .header _ _ => 1
  | .payload _ _ => 1
  | .sent _ => 1
  | _ => 0

namespace Streamer

/-! ## A connection and its frames -/

/-- What a connection was given lies between the frames written whole and all its frames. -/
structure Carried (w : Wire) (fs : List Frame) : Prop where
  begun : w.bytes <+: encodeAll fs
  whole : encodeAll (w.whole fs) <+: w.written
  last : w.failed = true → fs ≠ []

/-- What the open connection has been given, at each place of the loop. -/
def Going (o : ByteOrder) (q : RingQueue) (w : Wire) (fs : List Frame) : NetPc → Prop
  | .header p rest => w.attempted = [] ∧ ∃ gs done, fs = gs ++ [q.view p] ∧
      done ++ rest = Net.headerOf o p ∧ w.written = encodeAll gs ++ done
  | .payload p off => w.attempted = [] ∧ ∃ gs, fs = gs ++ [q.view p] ∧
      w.written = encodeAll gs ++ (Net.headerOf o p ++ (q.view p).payload.take off)
  | .failed _ => w.failed = true ∧ Carried w fs
  | .disconnect => w.failed = true ∧ Carried w fs
  | _ => w.attempted = [] ∧ w.written = encodeAll fs

/-- The connections, their frames, and the count of those sent. -/
structure Delivering (o : ByteOrder) (q : RingQueue) (returned : List Frame) (t : Net)
    (fss : List (List Frame)) (fs : List Frame) : Prop where
  frames : returned = fss.flatten ++ fs
  past : List.Forall₂ Carried t.past fss
  cur : ∀ w, t.cur = some w → Going o q w fs t.pc
  idle : t.cur = none → fs = []
  sent : returned.length =
    t.framesSent + t.pc.unsent + (t.past.filter Wire.failed).length

variable {o : ByteOrder} {q q' : RingQueue} {returned : List Frame} {t t' : Net}
  {fss : List (List Frame)} {fs gs : List Frame} {w : Wire} {p : FramePacket}

theorem failed_eq_false (h : w.attempted = []) : w.failed = false := by
  simp [Wire.failed, h]

theorem failed_eq_true (h : w.attempted ≠ []) : w.failed = true := by
  simp [Wire.failed, h]

theorem whole_of_failed (h : w.failed = true) : w.whole fs = fs.dropLast := if_pos h

theorem whole_of_not_failed (h : w.attempted = []) : w.whole fs = fs := by
  unfold Wire.whole
  rw [failed_eq_false h]
  rfl

/-- Between two frames the connection has been given all of them. -/
theorem carried_of_idle (hatt : w.attempted = []) (hw : w.written = encodeAll fs) :
    Carried w fs := by
  have hbytes : w.bytes = encodeAll fs := by rw [Wire.bytes, hatt, List.append_nil, hw]
  have hwhole : encodeAll (w.whole fs) = w.written := by rw [whole_of_not_failed hatt, hw]
  refine ⟨hbytes ▸ List.prefix_refl _, hwhole ▸ List.prefix_refl _, fun h => ?_⟩
  rw [failed_eq_false hatt] at h
  cases h

/-- A write of the last frame fails. -/
theorem carried_of_lost {f : Frame} {done bs m : List UInt8} (hbs : bs ≠ [])
    (henc : done ++ (bs ++ m) = encode f) (hw : w.written = encodeAll gs ++ done) :
    Carried { w with attempted := bs } (gs ++ [f]) := by
  refine ⟨⟨m, ?_⟩, ?_, fun _ => by simp⟩
  · rw [Wire.bytes, hw, encodeAll_snoc, ← henc]
    simp only [List.append_assoc]
  · rw [whole_of_failed (failed_eq_true hbs), List.dropLast_concat, hw]
    exact List.prefix_append _ _

/-- It depends on the queue only through what the packet held shows. -/
theorem going_congr {pc : NetPc} (h : ∀ p, pc.packet = some p → q'.view p = q.view p)
    (hg : Going o q w fs pc) : Going o q' w fs pc := by
  cases pc with
  | header p rest =>
    simp only [Going, h p rfl]
    exact hg
  | payload p off =>
    simp only [Going, h p rfl]
    exact hg
  | _ => exact hg

/-! ## What each step keeps -/

/-- A step that writes nothing and counts nothing. -/
theorem Delivering.move (h : Delivering o q returned t fss fs) (hpast : t'.past = t.past)
    (hcur : t'.cur = t.cur) (hsent : t'.framesSent + t'.pc.unsent = t.framesSent + t.pc.unsent)
    (hgo : ∀ w, t.cur = some w → Going o q w fs t.pc → Going o q' w fs t'.pc) :
    Delivering o q' returned t' fss fs where
  frames := h.frames
  past := hpast ▸ h.past
  cur w hw := hgo w (hcur ▸ hw) (h.cur w (hcur ▸ hw))
  idle hw := h.idle (hcur ▸ hw)
  sent := by rw [hsent, hpast]; exact h.sent

/-- A turn of `sslWriteAll`. -/
theorem Delivering.turn (h : Delivering o q returned t fss fs) {f : Wire → Wire}
    (hpast : t'.past = t.past) (hcur : t'.cur = t.cur.map f)
    (hsent : t'.framesSent + t'.pc.unsent = t.framesSent + t.pc.unsent)
    (hgo : ∀ w, Going o q w fs t.pc → Going o q (f w) fs t'.pc) :
    Delivering o q returned t' fss fs where
  frames := h.frames
  past := hpast ▸ h.past
  cur w hw := by
    rw [hcur] at hw
    obtain ⟨w', hw', rfl⟩ := Option.map_eq_some_iff.mp hw
    exact hgo w' (h.cur w' hw')
  idle hw := by
    rw [hcur, Option.map_eq_none_iff] at hw
    exact h.idle hw
  sent := by rw [hsent, hpast]; exact h.sent

/-- The connection is closed. -/
theorem Delivering.close (h : Delivering o q returned t fss fs)
    (hpast : t'.past = t.past ++ t.cur.toList) (hcur : t'.cur = none)
    (hcarried : ∀ w, t.cur = some w → Carried w fs)
    (hsent : t'.framesSent + t'.pc.unsent + (t.cur.toList.filter Wire.failed).length =
      t.framesSent + t.pc.unsent) :
    ∃ fss' fs', Delivering o q returned t' fss' fs' := by
  have hcount : returned.length =
      t'.framesSent + t'.pc.unsent + (t'.past.filter Wire.failed).length := by
    have hold := h.sent
    rw [hpast, List.filter_append, List.length_append]
    omega
  cases hopen : t.cur with
  | none =>
    rw [hopen, Option.toList_none, List.append_nil] at hpast
    exact ⟨fss, fs, h.frames, hpast ▸ h.past, fun w hw => absurd (hcur ▸ hw) nofun,
      fun _ => h.idle hopen, hcount⟩
  | some w =>
    rw [hopen, Option.toList_some] at hpast
    refine ⟨fss ++ [fs], [], ?_, ?_, fun w hw => absurd (hcur ▸ hw) nofun, fun _ => rfl, hcount⟩
    · rw [h.frames, List.flatten_append, List.append_nil]
      simp
    · rw [hpast]
      exact List.rel_append h.past (.cons (hcarried w hopen) .nil)

theorem delivering_test {running : Bool} (h : Delivering o q returned t fss fs)
    (hpc : t.pc = .head) : Delivering o q returned (t.test running) fss fs := by
  unfold Net.test
  split_ifs
  · exact h.move rfl rfl (by rw [hpc]; rfl) fun w _ hg => by rw [hpc] at hg; exact hg
  · exact h.move rfl rfl (by rw [hpc]; rfl) fun w _ hg => by rw [hpc] at hg; exact hg
  · exact h.move rfl rfl (by rw [hpc]; rfl) fun w _ hg => by rw [hpc] at hg; exact hg

/-- A new connection carries nothing yet. -/
theorem delivering_connect {cfg : TlsConfig} {env : Net.ConnectEnv}
    (h : Delivering o q returned t fss fs) (hpc : t.pc = .connecting) (hdown : t.cur = none) :
    Delivering o q returned (t.connect cfg env) fss fs := by
  have hatt : Net.Attempt t (t.tlsConnect cfg env) := Net.tlsConnect_attempt env
  have hcount := h.sent
  unfold Net.connect
  split
  · rename_i t' heq
    rw [heq] at hatt
    have hcur : t'.cur = some ⟨[], []⟩ := hatt.opened rfl
    refine ⟨h.frames, hatt.past ▸ h.past, fun w hw => ?_, fun hw => h.idle hdown, ?_⟩
    · have hw : t'.cur = some w := hw
      rw [hcur, Option.some.injEq] at hw
      rw [← hw, h.idle hdown]
      exact ⟨rfl, rfl⟩
    · rw [hpc] at hcount
      rw [hcount, hatt.framesSent, hatt.past]
      rfl
  · rename_i t' heq
    rw [heq] at hatt
    refine h.move hatt.past (hatt.failed rfl) ?_ fun w hw => ?_
    · rw [hpc, hatt.framesSent]
      rfl
    · rw [hdown] at hw
      exact absurd hw nofun

/-- A packet is popped: its frame is the one in hand. -/
theorem Delivering.popped (h : Delivering o q returned t fss fs) (hpc : t.pc = .pop)
    (hopen : t.cur ≠ none) :
    Delivering o q (returned ++ [q.view p]) (t.popped o (some p)) fss (fs ++ [q.view p]) := by
  refine ⟨by rw [h.frames, List.append_assoc], h.past, fun w hw => ?_,
    fun hw => absurd hw hopen, ?_⟩
  · have hg := h.cur w hw
    rw [hpc] at hg
    refine ⟨hg.1, fs, [], rfl, rfl, ?_⟩
    rw [List.append_nil]
    exact hg.2
  · have hcount := h.sent
    rw [hpc] at hcount
    rw [List.length_append, hcount]
    simp only [Net.popped, Net.record, NetPc.unsent, List.length_singleton]
    omega

/-- **A turn of `sslWriteAll`** keeps what the connection has been given. -/
theorem delivering_write {r : Except SslError Nat} (h : Delivering o q returned t fss fs)
    (hp : t.pc.packet = some p) (hlen : (q.view p).payload.length = p.len.toNat)
    (hn : t.write r (q.slots p.slotIdx).data = some t') :
    Delivering o q returned t' fss fs := by
  have henc : Net.headerOf o p ++ (q.view p).payload = encode (q.view p) :=
    headerOf_append_payload o hlen
  rcases Net.write_cases hn with ⟨p', rest, hpc, hrest, hcase⟩ | ⟨p', off, hpc, hoff, hcase⟩
  · have hpp : p' = p := by
      rw [hpc] at hp
      exact Option.some.inj hp
    subst hpp
    rcases hcase with ⟨n, rfl⟩ | rfl | rfl
    · refine h.turn rfl rfl (by rw [hpc]; rfl) fun w hg => ?_
      rw [hpc] at hg
      obtain ⟨hatt, gs, done, rfl, hdone, hw⟩ := hg
      refine ⟨hatt, gs, done ++ rest.take n, rfl, ?_, ?_⟩
      · rw [List.append_assoc, List.take_append_drop, hdone]
      · rw [hw, List.append_assoc]
    · exact h.move rfl rfl rfl fun w _ hg => hg
    · refine h.turn rfl rfl (by rw [hpc]; rfl) fun w hg => ?_
      rw [hpc] at hg
      obtain ⟨hatt, gs, done, rfl, hdone, hw⟩ := hg
      have hne : rest ≠ [] := List.ne_nil_of_length_pos hrest
      refine ⟨failed_eq_true hne, carried_of_lost (m := (q.view p').payload) hne ?_ hw⟩
      rw [← List.append_assoc, hdone, henc]
  · have hpp : p' = p := by
      rw [hpc] at hp
      exact Option.some.inj hp
    subst hpp
    rw [payloadFrom_eq] at hcase
    rcases hcase with ⟨n, rfl⟩ | rfl | rfl
    · refine h.turn rfl rfl (by rw [hpc]; rfl) fun w hg => ?_
      rw [hpc] at hg
      obtain ⟨hatt, gs, rfl, hw⟩ := hg
      refine ⟨hatt, gs, rfl, ?_⟩
      rw [hw, List.append_assoc, List.append_assoc, List.take_add]
    · exact h.move rfl rfl rfl fun w _ hg => hg
    · refine h.turn rfl rfl (by rw [hpc]; rfl) fun w hg => ?_
      rw [hpc] at hg
      obtain ⟨hatt, gs, rfl, hw⟩ := hg
      have hne : (q.view p').payload.drop off ≠ [] := by
        refine List.ne_nil_of_length_pos ?_
        rw [List.length_drop]
        omega
      refine ⟨failed_eq_true hne, carried_of_lost (m := []) hne ?_ hw⟩
      rw [List.append_nil, List.append_assoc, List.take_append_drop, henc]

/-- A connection closed where no write has failed on it. -/
theorem Delivering.close_idle (h : Delivering o q returned t fss fs)
    (hdisc : t'.framesSent = t.framesSent ∧ t'.past = t.past ++ t.cur.toList ∧ t'.cur = none)
    (hpc : t.pc.unsent = 0 ∧ ∀ w, Going o q w fs t.pc → w.attempted = [] ∧
      w.written = encodeAll fs) (hpc' : t'.pc.unsent = 0) :
    ∃ fss' fs', Delivering o q returned t' fss' fs' := by
  obtain ⟨hsent, hpast, hcur⟩ := hdisc
  refine h.close hpast hcur (fun w hw => ?_) ?_
  · obtain ⟨hatt, hwritten⟩ := hpc.2 w (h.cur w hw)
    exact carried_of_idle hatt hwritten
  · rw [hsent, hpc.1, hpc']
    cases hopen : t.cur with
    | none => rfl
    | some w =>
      have hatt := (hpc.2 w (h.cur w hopen)).1
      simp [failed_eq_false hatt]

/-- **The code around the writes** keeps what the connections have been given. -/
theorem delivering_advance {cfg : TlsConfig} (h : Delivering o q returned t fss fs)
    (hnet : t.Inv)
    (hlen : ∀ p, t.pc.packet = some p → (q.view p).payload.length = p.len.toNat)
    (hn : t.advance cfg = some t') : ∃ fss' fs', Delivering o q returned t' fss' fs' := by
  have hdisc := Net.tlsDisconnect_rest t
  cases Net.advance_cases hn with
  | retry hpc =>
    refine ⟨fss, fs, h.move rfl rfl (by rw [hpc]; rfl) fun w _ hg => ?_⟩
    rw [hpc] at hg
    exact hg
  | headerDone hpc =>
    refine ⟨fss, fs, h.move rfl rfl (by rw [hpc]; rfl) fun w _ hg => ?_⟩
    rw [hpc] at hg
    obtain ⟨hatt, gs, done, rfl, hdone, hw⟩ := hg
    refine ⟨hatt, gs, rfl, ?_⟩
    rw [List.append_nil] at hdone
    rw [hw, List.take_zero, List.append_nil, hdone]
  | @payloadDone p off hpc hoff =>
    refine ⟨fss, fs, h.move rfl rfl (by rw [hpc]; rfl) fun w _ hg => ?_⟩
    have hlen := hlen p (by rw [hpc]; rfl)
    rw [hpc] at hg
    obtain ⟨hatt, gs, rfl, hw⟩ := hg
    refine ⟨hatt, ?_⟩
    rw [hw, List.take_of_length_le (by omega), headerOf_append_payload o hlen, encodeAll_snoc]
  | giveUp hpc =>
    refine ⟨fss, fs, h.move rfl rfl (by rw [hpc]; rfl) fun w _ hg => ?_⟩
    rw [hpc] at hg
    exact hg
  | count hpc =>
    refine ⟨fss, fs, h.move rfl rfl (by rw [hpc]; rfl) fun w _ hg => ?_⟩
    rw [hpc] at hg
    exact hg
  | free hpc =>
    refine ⟨fss, fs, h.move rfl rfl (by rw [hpc]; rfl) fun w _ hg => ?_⟩
    rw [hpc] at hg
    exact hg
  | disconnect hpc =>
    obtain ⟨hsent, hpast, hcur⟩ := hdisc
    unfold Net.Inv at hnet
    rw [hpc] at hnet
    obtain ⟨-, -, -, -, -, hopen, -⟩ := hnet
    obtain ⟨w, hw⟩ := Option.ne_none_iff_exists'.mp hopen
    have hg := h.cur w hw
    rw [hpc] at hg
    refine h.close hpast hcur (fun w' hw' => ?_) ?_
    · rw [hw, Option.some.injEq] at hw'
      rw [← hw']
      exact hg.2
    · rw [hw, hpc]
      simp only [hsent, Option.toList_some, List.filter_cons, hg.1, if_true, List.filter_nil,
        List.length_singleton, NetPc.unsent]
  | leave hpc =>
    exact h.close_idle hdisc (by rw [hpc]; exact ⟨rfl, fun _ hg => hg⟩) rfl
  | destroy hpc =>
    exact h.close_idle hdisc (by rw [hpc]; exact ⟨rfl, fun _ hg => hg⟩) rfl

/-! ## The process -/

variable {c : Config} {s s' : Streamer} {a : Action}

/-- The connections of the process and their frames. -/
def Delivers (c : Config) (s : Streamer) : Prop :=
  ∃ fss fs, Delivering c.order s.qs.q s.qs.returned s.net fss fs

/-- A step of the queue alone: the packet held still shows the same. -/
theorem Delivers.queue {qs : QState} {b : QAction} (h : Delivers c s) (hI : s.qs.Inv)
    (hco : Coherent s) (hq : s.qs.step b = some qs) (hret : qs.returned = s.qs.returned) :
    ∃ fss fs, Delivering c.order qs.q qs.returned s.net fss fs := by
  obtain ⟨fss, fs, h⟩ := h
  refine ⟨fss, fs, hret ▸ h.move rfl rfl rfl fun w _ hg => going_congr (fun p hp => ?_) hg⟩
  refine QState.view_step hI hq (List.mem_append_right _ ?_)
  rw [hco.held, hp]
  exact List.mem_singleton_self p

/-- **Every step keeps the count of the frames sent true to the wires.** -/
theorem delivers_step (hrd : Ready s) (h : Delivers c s) (hm : Moves c s a s') :
    Delivers c s' := by
  have hqueue : ∀ {qs : QState} {b : QAction}, s.qs.step b = some qs →
      qs.returned = s.qs.returned →
        ∃ fss fs, Delivering c.order qs.q qs.returned s.net fss fs :=
    h.queue hrd.inv hrd.coherent
  cases hm with
  | idle _ => exact h
  | capture _ _ hq => exact hqueue hq (QState.pushCall_sameConsumer hq).returned
  | push hb hq => exact hqueue hq (QState.push_sameConsumer hb hq).returned
  | shutdown hq => exact hqueue hq (QState.shutdown_sameConsumer hq).returned
  | popTake _ _ hq => exact hqueue hq rfl
  | test hpc =>
    obtain ⟨fss, fs, h⟩ := h
    exact ⟨fss, fs, delivering_test h hpc⟩
  | connect hpc =>
    obtain ⟨fss, fs, h⟩ := h
    have hdown := hrd.net
    unfold Net.Inv at hdown
    rw [hpc] at hdown
    exact ⟨fss, fs, delivering_connect h hpc hdown.2.2.2.1⟩
  | popNull hpc _ =>
    obtain ⟨fss, fs, h⟩ := h
    exact ⟨fss, fs, h.move rfl rfl (by rw [hpc]; rfl) fun w _ hg => by rw [hpc] at hg; exact hg⟩
  | @popBuild p _ hpc htaken hq =>
    obtain ⟨fss, fs, h⟩ := h
    obtain ⟨p', hp', rfl⟩ := QState.popBuild_cases hq
    have hpp : p' = p := by simpa [htaken] using hp'.symm
    subst hpp
    have hup := hrd.net
    unfold Net.Inv at hup
    rw [hpc] at hup
    obtain ⟨-, -, -, -, -, hopen, -⟩ := hup
    exact ⟨fss, _, h.popped hpc hopen⟩
  | popFail hpc hq =>
    obtain ⟨fss, fs, h⟩ := h
    obtain ⟨p, -, rfl⟩ := QState.popFail_cases hq
    exact ⟨fss, fs, h.move rfl rfl (by rw [hpc]; rfl) fun w _ hg => by rw [hpc] at hg; exact hg⟩
  | write hp hn =>
    obtain ⟨fss, fs, h⟩ := h
    exact ⟨fss, fs, delivering_write h hp (hrd.view_packet hp) hn⟩
  | free hpc hq hn =>
    obtain ⟨fss, fs, h⟩ := h
    obtain ⟨fss, fs, h⟩ := delivering_advance h hrd.net (fun p hp => hrd.view_packet hp) hn
    obtain ⟨p, -, rfl⟩ := QState.release_cases hq
    exact ⟨fss, fs, h.move rfl rfl rfl fun w _ hg => going_congr (fun _ _ => rfl) hg⟩
  | advance _ hn =>
    obtain ⟨fss, fs, h⟩ := h
    exact delivering_advance h hrd.net (fun p hp => hrd.view_packet hp) hn

theorem delivers_of_reachable (hc : 0 < c.queueSize) (hr : Reachable c s) : Delivers c s := by
  have h0 : Delivers c (init c) :=
    ⟨[], [], rfl, .nil, fun w hw => absurd hw (by simp [init, Net.construct]), fun _ => rfl, rfl⟩
  exact hr.invariant_of (fun _ hr => ready_of_reachable hc hr) h0
    fun _ hrd h _ hs => delivers_step hrd h (step_moves hs)

/-! ## The wires -/

/-- What of the frames `part.2` of a connection was written whole is `part.1`, at least. -/
structure Part (w : Wire) (part : List Frame × List Frame) : Prop where
  least : encodeAll part.1 <+: w.written
  most : w.bytes <+: encodeAll part.2
  among : part.1 <+: part.2

theorem Carried.part (h : Carried w fs) : Part w (w.whole fs, fs) := by
  refine ⟨h.whole, h.begun, ?_⟩
  unfold Wire.whole
  split
  · exact List.dropLast_prefix fs
  · exact List.prefix_refl fs

/-- A connection that broke has one frame that was not written whole. -/
theorem Carried.length (h : Carried w fs) :
    (w.whole fs).length + ([w].filter Wire.failed).length = fs.length := by
  unfold Wire.whole
  cases hf : w.failed with
  | false => simp [hf]
  | true =>
    have hpos := List.length_pos_of_ne_nil (h.last hf)
    simp only [hf, if_true, List.length_dropLast, List.filter_cons, List.filter_nil,
      List.length_singleton]
    omega

theorem parts_of_carried {ws : List Wire} (h : List.Forall₂ Carried ws fss) :
    ∃ parts, List.Forall₂ Part ws parts ∧ parts.map Prod.snd = fss ∧
      (parts.map Prod.fst).flatten.length + (ws.filter Wire.failed).length =
        fss.flatten.length := by
  induction h with
  | nil => exact ⟨[], .nil, rfl, rfl⟩
  | @cons w fs ws fss hw _ ih =>
    obtain ⟨parts, hparts, hsnd, hlen⟩ := ih
    refine ⟨(w.whole fs, fs) :: parts, .cons hw.part hparts, by rw [List.map_cons, hsnd], ?_⟩
    have hone := hw.length
    have hsplit : (w :: ws).filter Wire.failed =
        [w].filter Wire.failed ++ ws.filter Wire.failed := by
      rw [← List.filter_append, List.singleton_append]
    rw [hsplit]
    simp only [List.map_cons, List.flatten_cons, List.length_append]
    omega

/-- Between two frames all of them are whole. -/
theorem part_of_idle (hatt : w.attempted = []) (hw : w.written = encodeAll fs) :
    Part w (fs, fs) ∧ fs.length + 0 = fs.length ∧ ([w].filter Wire.failed).length = 0 := by
  refine ⟨⟨hw ▸ List.prefix_refl _, (carried_of_idle hatt hw).begun, List.prefix_refl fs⟩, rfl, ?_⟩
  simp [failed_eq_false hatt]

/-- After a write that failed the last frame is not. -/
theorem Carried.part_broken (h : Carried w fs) (hf : w.failed = true) :
    Part w (fs.dropLast, fs) ∧ fs.dropLast.length + 1 = fs.length ∧
      ([w].filter Wire.failed).length = 1 := by
  have hpart := h.part
  have hcount := h.length
  rw [whole_of_failed hf] at hpart hcount
  have hone : ([w].filter Wire.failed).length = 1 := by simp [hf]
  exact ⟨hpart, by omega, hone⟩

/-- Nor is it while it is being written. -/
theorem part_of_open {done m : List UInt8} (hatt : w.attempted = []) (hfs : fs = gs ++ [q.view p])
    (henc : done ++ m = encode (q.view p)) (hw : w.written = encodeAll gs ++ done) :
    Part w (fs.dropLast, fs) ∧ fs.dropLast.length + 1 = fs.length ∧
      ([w].filter Wire.failed).length = 0 := by
  subst hfs
  refine ⟨⟨?_, ⟨m, ?_⟩, List.dropLast_prefix _⟩, by simp, by simp [failed_eq_false hatt]⟩
  · rw [List.dropLast_concat, hw]
    exact List.prefix_append _ _
  · rw [Wire.bytes, hatt, List.append_nil, hw, encodeAll_snoc, ← henc, List.append_assoc]

/-- What the open connection was given, wherever the loop stands. -/
theorem Going.part {pc : NetPc} (h : Going o q w fs pc)
    (hlen : ∀ p, pc.packet = some p → (q.view p).payload.length = p.len.toNat) :
    Part w (if pc.torn then fs.dropLast else fs, fs) ∧
      (if pc.torn then fs.dropLast else fs).length + (if pc.torn then 1 else 0) = fs.length ∧
      ([w].filter Wire.failed).length + pc.inHand = pc.unsent := by
  cases pc with
  | header p rest =>
    obtain ⟨hatt, gs, done, hfs, hdone, hw⟩ := h
    have henc : done ++ (rest ++ (q.view p).payload) = encode (q.view p) := by
      rw [← List.append_assoc, hdone, headerOf_append_payload o (hlen p rfl)]
    obtain ⟨hpart, hcount, hfail⟩ := part_of_open hatt hfs henc hw
    exact ⟨hpart, hcount, by rw [hfail]; rfl⟩
  | payload p off =>
    obtain ⟨hatt, gs, hfs, hw⟩ := h
    have henc : Net.headerOf o p ++ (q.view p).payload.take off ++ (q.view p).payload.drop off =
        encode (q.view p) := by
      rw [List.append_assoc, List.take_append_drop, headerOf_append_payload o (hlen p rfl)]
    obtain ⟨hpart, hcount, hfail⟩ := part_of_open hatt hfs henc hw
    exact ⟨hpart, hcount, by rw [hfail]; rfl⟩
  | failed p =>
    obtain ⟨hpart, hcount, hfail⟩ := h.2.part_broken h.1
    exact ⟨hpart, hcount, by rw [hfail]; rfl⟩
  | disconnect =>
    obtain ⟨hpart, hcount, hfail⟩ := h.2.part_broken h.1
    exact ⟨hpart, hcount, by rw [hfail]; rfl⟩
  | sent p =>
    obtain ⟨hpart, hcount, hfail⟩ := part_of_idle h.1 h.2
    exact ⟨hpart, hcount, by rw [hfail]; rfl⟩
  | _ =>
    obtain ⟨hpart, hcount, hfail⟩ := part_of_idle h.1 h.2
    exact ⟨hpart, hcount, by rw [hfail]; rfl⟩

/-- The frames on the connections, those written whole, and those counted as sent. -/
structure Shipped (s : Streamer) (parts : List (List Frame × List Frame)) : Prop where
  wires : List.Forall₂ Part s.net.wires parts
  returned : s.qs.returned = (parts.map Prod.snd).flatten
  whole : (parts.map Prod.fst).flatten.length = s.net.framesSent + s.net.pc.uncounted
  broken : s.qs.returned.length =
    s.net.framesSent + s.net.pc.inHand + (s.net.wires.filter Wire.failed).length

theorem shipped_of_reachable (hc : 0 < c.queueSize) (hr : Reachable c s) :
    ∃ parts, Shipped s parts := by
  have hrd := ready_of_reachable hc hr
  obtain ⟨fss, fs, h⟩ := delivers_of_reachable hc hr
  obtain ⟨parts, hparts, hsnd, hlen⟩ := parts_of_carried h.past
  have hcount := h.sent
  have hret := congrArg List.length h.frames
  rw [List.length_append] at hret
  cases hcur : s.net.cur with
  | none =>
    have hfs := h.idle hcur
    -- without a connection no frame is in hand
    have hpc : s.net.pc.unsent = 0 ∧ s.net.pc.inHand = 0 ∧ s.net.pc.uncounted = 0 := by
      have hnet := hrd.net
      unfold Net.Inv at hnet
      cases hpc : s.net.pc <;> rw [hpc] at hnet <;> first
        | exact ⟨rfl, rfl, rfl⟩
        | exact absurd hcur hnet.choose_spec.choose_spec.2.2.2.1
    have hwires : s.net.wires = s.net.past := by
      unfold Net.wires
      rw [hcur, Option.toList_none, List.append_nil]
    rw [hfs, List.length_nil] at hret
    refine ⟨parts, by rw [hwires]; exact hparts, ?_, ?_, ?_⟩
    · rw [h.frames, hfs, List.append_nil, hsnd]
    · omega
    · rw [hwires]
      omega
  | some w =>
    obtain ⟨hpart, htorn, hfail⟩ :=
      (h.cur w hcur).part fun p hp => hrd.view_packet hp
    have hpc : s.net.pc.unsent = (if s.net.pc.torn then 1 else 0) + s.net.pc.uncounted := by
      cases s.net.pc <;> rfl
    have hwires : s.net.wires = s.net.past ++ [w] := by
      unfold Net.wires
      rw [hcur, Option.toList_some]
    refine ⟨parts ++ [(if s.net.pc.torn then fs.dropLast else fs, fs)],
      by rw [hwires]; exact List.rel_append hparts (.cons hpart .nil), ?_, ?_, ?_⟩
    · rw [h.frames, List.map_append, hsnd, List.flatten_append]
      simp
    · simp only [List.map_append, List.map_cons, List.map_nil, List.flatten_append,
        List.flatten_cons, List.flatten_nil, List.append_nil, List.length_append]
      omega
    · rw [hwires, List.filter_append, List.length_append]
      omega

/-- Where every frame offered to the queue has gone. -/
structure Losses (s : Streamer) : Prop where
  /-- A packet in the hands of the network thread was sent, is being sent, or was the one frame
  lost with a connection. -/
  returned : s.qs.returned.length =
    s.net.framesSent + s.net.pc.inHand + (s.net.wires.filter Wire.failed).length
  popped : s.qs.q.framesPopped =
    s.qs.returned.length + s.qs.lost.length + s.qs.taken.length
  /-- A frame offered was sent, is on its way, or is lost to backpressure, to a connection, or to
  a failed allocation. -/
  offered : s.qs.offered.length = s.net.framesSent +
    (s.net.pc.inHand + s.qs.taken.length + s.qs.q.count + s.qs.pendingFrame.length) +
    (s.qs.q.framesDropped + s.qs.uncounted + (s.net.wires.filter Wire.failed).length +
      s.qs.lost.length)

theorem losses_of_reachable (hc : 0 < c.queueSize) (hr : Reachable c s) : Losses s := by
  obtain ⟨parts, hship⟩ := shipped_of_reachable hc hr
  have h := QState.traced_of_reachable hc (queue_reachable hr)
  have hpopped := h.popped
  have hdel := h.delivered.length_eq
  have hbal := replay_balance h.replay
  have hdec := (decided_merge s.qs.hist).length
  have hdrop := h.dropped
  have hoff := congrArg List.length h.offered
  rw [RingQueue.queued_length] at hbal
  rw [List.length_append] at hoff
  simp only [List.length_append, List.length_map] at hdel
  have hbroken := hship.broken
  refine ⟨hbroken, by omega, by omega⟩

/-- **Exact losses**: over every run of the client, each frame offered to the queue is sent, on its
way, or dropped by the queue, but for one frame for each connection that broke and one for each
packet that could not be allocated. -/
theorem losses_exact (hc : 0 < c.queueSize) (hr : Reachable c s) : Losses s :=
  losses_of_reachable hc hr

/-- One frame is captured and popped; its header is written, and its payload is not. -/
def breakingRun : List Action :=
  [.capture sampleImage, .push .pushTest, .push .pushGuard, .push .pushWrite, .test true,
    .connect sampleConnect, .popTake, .popBuild, .write (.ok 36), .advance, .write (.error .other),
    .advance, .advance]

theorem losses_exact_broken : ∃ s : Streamer, s.net.framesSent = 0 ∧
    (s.net.wires.filter Wire.failed).length = 1 ∧ Losses s := by
  have hrun : ∃ s, exec (step sampleConfig) breakingRun (init sampleConfig) = some s ∧
      s.net.framesSent = 0 ∧ (s.net.wires.filter Wire.failed).length = 1 :=
    ⟨_, rfl, rfl, rfl⟩
  obtain ⟨s, hrun, hsent, hbroken⟩ := hrun
  exact ⟨s, hsent, hbroken, losses_exact (c := sampleConfig) (by decide)
    ((Runs.of_exec (fun _ _ _ => trivial) hrun).reach Reach.init)⟩

end Streamer

end CameraStreamer
