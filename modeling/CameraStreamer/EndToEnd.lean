import CameraStreamer.Client.Wire
import CameraStreamer.Server.Run

/-!
# From the camera to the server

One client process and one server, joined by the connections the client makes. `Served` is what
the network may do: connections are served in the order they were made, some never reach the
server, and of each that does a beginning of what the client gave to `SSL_write` arrives, cut off
at any byte and cut up by `SSL_read` in any way.

* `captured_numbered`: the frames pushed are numbered from 0 on.
* `handleClient_prefix`: of the frames of a connection, the server records the first ones.
* **`end_to_end`**: so over all connections the server records frames that were pushed, each at
  most once, in the order of their numbers, and unchanged.
-/

namespace CameraStreamer

open Lib.Machine Lib.Endian Lib.Framing Protocol TlsClient

/-! ## The frames pushed -/

namespace Streamer

variable {c : Config} {s s' : Streamer} {a : Action}

/-- The frames pushed are numbered from 0 on, and the queue has been offered some of them. -/
structure Numbered (s : Streamer) : Prop where
  next : s.frameSeq = UInt64.ofNat s.captured.length
  seq : ∀ i f, s.captured[i]? = some f → f.seq = UInt64.ofNat i
  offered : s.qs.offered.Sublist s.captured

/-- A step of the queue that is not the call of `push` offers nothing. -/
theorem Numbered.queue {qs : QState} {b : QAction} (h : Numbered s) (hq : s.qs.step b = some qs)
    (hb : ∀ x, b ≠ .pushCall x) : qs.offered.Sublist s.captured := by
  rcases (QState.step_effects hq).offered with hoff | ⟨x, rfl, -⟩
  · rw [hoff]
    exact h.offered
  · exact absurd rfl (hb x)

theorem Numbered.capture {img : Image} {qs : QState} (h : Numbered s)
    (hq : s.qs.step (.pushCall (pushArgs c s.frameSeq img)) = some qs) :
    Numbered { s with
      qs
      frameSeq := s.frameSeq + 1
      captured := s.captured ++ [(pushArgs c s.frameSeq img).frame] } := by
  refine ⟨?_, fun i f hi => ?_, ?_⟩
  · simp only [List.length_append, List.length_singleton]
    rw [h.next, UInt64.ofNat_add]
    rfl
  · rcases Nat.lt_or_ge i s.captured.length with hlt | hge
    · rw [List.getElem?_append_left hlt] at hi
      exact h.seq i f hi
    · rw [List.getElem?_append_right hge] at hi
      have hlt := (List.getElem?_eq_some_iff.mp hi).1
      rw [List.length_singleton] at hlt
      have heq : i = s.captured.length := by omega
      rw [heq, Nat.sub_self, List.getElem?_cons_zero, Option.some.injEq] at hi
      rw [← hi, heq, ← h.next]
      rfl
  · rcases (QState.step_effects hq).offered with hoff | ⟨x, hx, -, hoff⟩
    · rw [hoff]
      exact h.offered.trans (List.sublist_append_left _ _)
    · cases hx
      rw [hoff]
      exact h.offered.append (List.Sublist.refl _)

theorem numbered_step (h : Numbered s) (hm : Moves c s a s') : Numbered s' := by
  cases hm with
  | idle _ => exact h
  | capture _ _ hq => exact h.capture hq
  | push hb hq => exact ⟨h.next, h.seq, h.queue hq fun x hx => by rw [hx] at hb; cases hb⟩
  | test _ => exact ⟨h.next, h.seq, h.offered⟩
  | connect _ => exact ⟨h.next, h.seq, h.offered⟩
  | popNull _ _ => exact ⟨h.next, h.seq, h.offered⟩
  | popTake _ _ hq => exact ⟨h.next, h.seq, h.queue hq nofun⟩
  | popBuild _ _ hq => exact ⟨h.next, h.seq, h.queue hq nofun⟩
  | popFail _ hq => exact ⟨h.next, h.seq, h.queue hq nofun⟩
  | write _ _ => exact ⟨h.next, h.seq, h.offered⟩
  | free _ hq _ => exact ⟨h.next, h.seq, h.queue hq nofun⟩
  | advance _ _ => exact ⟨h.next, h.seq, h.offered⟩
  | shutdown hq => exact ⟨h.next, h.seq, h.queue hq nofun⟩

theorem captured_numbered (hr : Reachable c s) : Numbered s := by
  have h0 : Numbered (init c) := ⟨rfl, fun i f hi => absurd hi (by simp [init]), .refl _⟩
  exact hr.invariant ⟨h0, fun _ h _ hs => numbered_step h (step_moves hs)⟩

/-- Fewer than `2 ^ 64` frames have different numbers, which grow. -/
theorem Numbered.increasing (h : Numbered s) (hfew : s.captured.length < 2 ^ 64) :
    s.captured.Pairwise fun f g => f.seq < g.seq := by
  refine List.pairwise_iff_getElem.mpr fun i j hi hj hij => ?_
  rw [h.seq i _ (List.getElem?_eq_getElem hi), h.seq j _ (List.getElem?_eq_getElem hj),
    UInt64.lt_iff_toNat_lt, UInt64.toNat_ofNat', UInt64.toNat_ofNat', Nat.mod_eq_of_lt (by omega),
    Nat.mod_eq_of_lt (by omega)]
  exact hij

/-- **The frames returned by `pop`** are some of those pushed, in order. -/
theorem returned_sublist_captured (hc : 0 < c.queueSize) (hr : Reachable c s) :
    s.qs.returned.Sublist s.captured :=
  (QState.returned_sublist_offered hc (queue_reachable hr)).trans (captured_numbered hr).offered

/-- They are within the limits of the protocol. -/
theorem sendable_of_returned (hc : 0 < c.queueSize) (hr : Reachable c s) :
    ∀ f ∈ s.qs.returned, Sendable f := fun f hf =>
  QState.offered_valid (queue_reachable hr) f
    ((QState.returned_sublist_offered hc (queue_reachable hr)).subset hf)

end Streamer

/-! ## The frames recorded -/

namespace Server

/-- **Of the frames of a connection the server records the first ones.** -/
theorem handleClient_prefix (o : ByteOrder) (cfg : Config) (running : Nat → Bool)
    (envs : Nat → SaveEnv) {conn : SslConn} {fs : List Frame} (hfs : ∀ f ∈ fs, Sendable f)
    (hconn : conn.stream <+: encodeAll fs) (srv : ServerState) : ∃ gs, gs <+: fs ∧
      (handleClient o cfg running envs conn srv).2.srv.received.map Received.frame =
        srv.received.map Received.frame ++ gs := by
  obtain ⟨us, rest, hunits, hstream, htook, -⟩ := handleClient_takes o cfg envs running conn srv
  have hunit : ∀ w ∈ fs.map encode, IsUnit w := by
    intro w hw
    obtain ⟨f, hf, rfl⟩ := List.mem_map.mp hw
    exact isUnit_encode (hfs f hf)
  -- nothing follows the encoded frames, so they are the longest splitting of their encoding
  have hlong : Longest IsUnit (fs.map encode) (encodeAll fs) := by
    have h : Longest IsUnit (fs.map encode) (encodeAll fs ++ []) :=
      longest_flatten isUnit_prefixFree hunit
        fun u hu hp => isUnit_prefixFree.ne_nil u hu (List.prefix_nil.mp hp)
    rwa [List.append_nil] at h
  have hus : us <+: fs.map encode :=
    hlong.longest us ⟨hunits, (hstream ▸ List.prefix_append _ _).trans hconn⟩
  refine ⟨us.map decodeUnit, ?_, ?_⟩
  · have hback : (fs.map encode).map decodeUnit = fs := by
      rw [List.map_map]
      exact List.map_id'' decodeUnit_encode fs
    exact hback ▸ hus.map decodeUnit
  · rw [htook.received, List.map_append, receivedAll_frames]

end Server

/-- What the server meets is what the client's connections brought. -/
inductive Served : List Server.AcceptEvent → List Wire → Prop
  /-- The server stops; what follows is not served. -/
  | nil (ws : List Wire) : Served [] ws
  /-- Nothing to do with a connection that is served. -/
  | other {e : Server.AcceptEvent} {es : List Server.AcceptEvent} {ws : List Wire}
      (he : ∀ conn running envs, e ≠ .client conn running envs) (h : Served es ws) :
      Served (e :: es) ws
  /-- A connection the client gives up before it is its own: no byte arrives. -/
  | givenUp {conn : SslConn} {running : Nat → Bool} {envs : Nat → Server.SaveEnv}
      {es : List Server.AcceptEvent} {ws : List Wire} (hw : conn.stream = [])
      (h : Served es ws) : Served (.client conn running envs :: es) ws
  /-- The connection does not get through. -/
  | missed {es : List Server.AcceptEvent} {w : Wire} {ws : List Wire} (h : Served es ws) :
      Served es (w :: ws)
  /-- A beginning of what the client gave to `SSL_write` arrives. -/
  | client {conn : SslConn} {running : Nat → Bool} {envs : Nat → Server.SaveEnv}
      {es : List Server.AcceptEvent} {w : Wire} {ws : List Wire} (hw : conn.stream <+: w.bytes)
      (h : Served es ws) : Served (.client conn running envs :: es) (w :: ws)

open Server in
/-- **A run of the server** records, connection after connection, frames the client sent. -/
theorem acceptLoop_served {o : ByteOrder} {cfg : Server.Config} {es : List AcceptEvent}
    {ws : List Wire} (h : Served es ws) {fss : List (List Frame)}
    (hws : List.Forall₂ (fun w fs => w.bytes <+: encodeAll fs) ws fss)
    (hfs : ∀ f ∈ fss.flatten, Sendable f) (srv : ServerState) :
    ∃ gs, gs.Sublist fss.flatten ∧
      (acceptLoop o cfg es srv).received.map Received.frame =
        srv.received.map Received.frame ++ gs := by
  induction h generalizing fss srv with
  | nil ws => exact ⟨[], List.nil_sublist _, (List.append_nil _).symm⟩
  | @other e es ws he _ ih =>
    have hnone : ∃ gs, gs.Sublist fss.flatten ∧ srv.received.map Received.frame =
        srv.received.map Received.frame ++ gs :=
      ⟨[], List.nil_sublist _, (List.append_nil _).symm⟩
    cases e with
    | selectError eintr =>
      unfold acceptLoop
      split
      · exact ih hws hfs srv
      · exact hnone
    | selectTimeout => exact ih hws hfs srv
    | acceptError eintr =>
      unfold acceptLoop
      split
      · exact ih hws hfs srv
      · exact hnone
    | handshakeFailed => exact ih hws hfs srv
    | client conn running envs => exact absurd rfl (he conn running envs)
  | @givenUp conn running envs es ws hw _ ih =>
    obtain ⟨hs, hhs, hrec⟩ := handleClient_prefix o cfg running envs
      (show ∀ f ∈ [], Sendable f from fun f hf => absurd hf (by simp))
      (hw ▸ List.nil_prefix) srv
    rw [List.prefix_nil.mp hhs, List.append_nil] at hrec
    obtain ⟨gs, hgs, heq⟩ := ih hws hfs (handleClient o cfg running envs conn srv).2.srv
    exact ⟨gs, hgs, hrec ▸ heq⟩
  | missed _ ih =>
    cases hws with
    | @cons _ fs _ fss _ hws =>
      rw [List.flatten_cons] at hfs ⊢
      obtain ⟨gs, hgs, heq⟩ := ih hws (fun f hf => hfs f (List.mem_append_right _ hf)) srv
      exact ⟨gs, hgs.trans (List.sublist_append_right _ _), heq⟩
  | @client conn running envs es w ws hw _ ih =>
    cases hws with
    | @cons _ fs _ fss hwfs hws =>
      rw [List.flatten_cons] at hfs ⊢
      obtain ⟨hs, hhs, hrec⟩ := handleClient_prefix o cfg running envs
        (fun f hf => hfs f (List.mem_append_left _ hf)) (hw.trans hwfs) srv
      obtain ⟨gs, hgs, heq⟩ := ih hws (fun f hf => hfs f (List.mem_append_right _ hf))
        (handleClient o cfg running envs conn srv).2.srv
      refine ⟨hs ++ gs, hhs.sublist.append hgs, ?_⟩
      rw [← List.append_assoc, ← hrec]
      exact heq

/-! ## End to end -/

namespace Streamer

variable {c : Config} {s : Streamer}

open Server in
/-- **End to end.** For every interleaving of the client's threads, every way its connections fail
and are made again, and every way the network cuts them off, the frames the server has recorded
are among those `captureLoop` pushed, byte for byte, and their sequence numbers strictly grow. -/
theorem end_to_end (hc : 0 < c.queueSize) (hr : Reachable c s)
    (hfew : s.captured.length < 2 ^ 64) {es : List AcceptEvent} (hes : Served es s.net.wires)
    (o : ByteOrder) (cfg : Server.Config) (files : Files) :
    let frames := (acceptLoop o cfg es (.start files)).received.map Received.frame
    (frames.Pairwise fun f g => f.seq < g.seq) ∧ frames.Sublist s.captured := by
  obtain ⟨fss, hret, hwires⟩ := wires_carry_returned hc hr
  have hsend : ∀ f ∈ fss.flatten, Sendable f := hret ▸ sendable_of_returned hc hr
  obtain ⟨gs, hgs, heq⟩ := acceptLoop_served (o := o) hes hwires hsend (.start files)
  have hsub : gs.Sublist s.captured := (hret ▸ hgs).trans (returned_sublist_captured hc hr)
  simp only
  rw [heq]
  exact ⟨((captured_numbered hr).increasing hfew).sublist hsub, hsub⟩

/-- One frame is captured, popped, sent and freed. -/
def sendingRun : List Action :=
  [.capture sampleImage, .push .pushTest, .push .pushGuard, .push .pushWrite, .test true,
    .connect sampleConnect, .popTake, .popBuild, .write (.ok 36), .advance, .write (.ok 2),
    .advance, .advance, .advance]

theorem sending_runs : ∃ s w, Reachable sampleConfig s ∧ s.captured.length = 1 ∧
    s.net.framesSent = 1 ∧ s.net.wires = [w] := by
  have hrun : ∃ s w, exec (step sampleConfig) sendingRun (init sampleConfig) = some s ∧
      s.captured.length = 1 ∧ s.net.framesSent = 1 ∧ s.net.wires = [w] :=
    ⟨_, _, rfl, rfl, rfl, rfl⟩
  obtain ⟨s, w, hrun, hrest⟩ := hrun
  exact ⟨s, w, (Runs.of_exec (fun _ _ _ => trivial) hrun).reach Reach.init, hrest⟩

open Server in
theorem end_to_end_sending : ∃ (s : Streamer) (w : Wire), s.net.framesSent = 1 ∧
    s.net.wires = [w] ∧
    let frames := (acceptLoop .big ⟨[], false⟩ [.client (.closing w.bytes) (fun _ => true)
      noFailure] (.start fun _ => none)).received.map Received.frame
    (frames.Pairwise fun f g => f.seq < g.seq) ∧ frames.Sublist s.captured := by
  obtain ⟨s, w, hr, hcap, hsent, hwires⟩ := sending_runs
  refine ⟨s, w, hsent, hwires, ?_⟩
  refine end_to_end (by decide) hr (by rw [hcap]; decide) ?_ .big ⟨[], false⟩ fun _ => none
  rw [hwires]
  exact .client (List.prefix_refl _) (.nil [])

end Streamer

end CameraStreamer
