import CameraStreamer.RingQueue.Spsc
import CameraStreamer.TlsClient.Resources

/-!
# The client process

`Streamer` is the client with its two threads (`src/main.cpp:293-316`): the capture thread numbers
and pushes frames, the network thread pops and sends them, and the ring queue is between them. It
is the queue of `RingQueue/Machine.lean` and the network thread of `TlsClient/Network.lean`, run
side by side; the calls of one into the other are the steps in which both move.

* `capture` is one iteration of `captureLoop` (`src/camera_capture.cpp:135-185`) up to the entry of
  `push`; the steps of the `push` follow, and the next iteration waits for its return.
* `popTake`, then `popBuild` or `popFail`, or `popNull`, is `queue.pop(QUEUE_TIMEOUT_MS)`; a
  `pop` that times out returns null even when a frame has just arrived.
* A step of the network thread that ends in `frame_packet_free` releases the packet's slot.

`Coherent` ties the two together: the packet the network thread holds is the one the queue has
handed out. So the queue is used by one producer and one consumer (`queue_reachable`), the network
thread is that of `Resources.lean` (`net_reachable`), and what is proved of each alone holds here.
-/

namespace CameraStreamer

open Lib.Machine Lib.Endian Protocol TlsClient

/-! ## The capture thread -/

/-- A frame read from the camera, as `push` gets it: encoded, or the raw pixels. -/
structure Image where
  timestampNs : UInt64
  data : List UInt8
  cols : Nat
  rows : Nat

/-- What one iteration of `captureLoop` meets. -/
inductive Capture
  | readFailed
  | empty
  | encodeFailed
  | image (img : Image)

/-- The client's process: its queue, its network thread, and the counter of its capture thread. -/
structure Streamer where
  qs : QState
  net : Net
  frameSeq : UInt64
  /-- The arguments of the `push` calls, in order. -/
  captured : List Frame
  /-- The packets freed, or never built, without their frame being sent. -/
  gaveUp : Nat

namespace Streamer

/-- What does not change during a run. -/
structure Config where
  order : ByteOrder
  tls : TlsConfig
  pixelFormat : UInt32
  queueSize : Nat

/-- The arguments of `push` (`camera_capture.cpp:162-180`). -/
def pushArgs (c : Config) (seq : UInt64) (img : Image) : PushArgs where
  seq := seq
  timestampNs := img.timestampNs
  data := some img.data
  len := UInt32.ofNat img.data.length
  pixelFormat := c.pixelFormat
  width := UInt16.ofNat img.cols
  height := UInt16.ofNat img.rows
  readable := by
    intro d hd
    cases hd
    rw [UInt32.toNat_ofNat']
    exact Nat.mod_le _ _

/-! ## The process -/

/-- A step of some thread. -/
inductive Action
  | capture (r : Capture)
  | push (a : QAction)
  | test (running : Bool)
  | connect (env : Net.ConnectEnv)
  | popNull
  | popTake
  | popBuild
  | popFail
  | write (r : Except SslError Nat)
  | advance
  | shutdown

/-- `QUEUE_TIMEOUT_MS`. -/
def queueTimeoutMs : Int := 1000

/-- The process before its threads start (`main.cpp:255-297`). -/
def init (c : Config) : Streamer where
  qs := .init (RingQueue.construct c.queueSize maxFrameSize true true)
  net := .construct c.tls
  frameSeq := 0
  captured := []
  gaveUp := 0

/-- One iteration of `captureLoop` after its test, up to the call of `push`. -/
def capture (c : Config) (s : Streamer) : Capture → Option Streamer
  | .image img =>
    let args := pushArgs c s.frameSeq img
    (s.qs.pushCall args).map fun qs =>
      { s with qs, frameSeq := s.frameSeq + 1, captured := s.captured ++ [args.frame] }
  | _ => some s

/-- `pop` takes a slot. -/
def popTake (s : Streamer) : Option Streamer :=
  if s.qs.pushing.isSome then none
  else if s.qs.q.popTest queueTimeoutMs = .take then some { s with qs := s.qs.popTake } else none

/-- `pop` returns the packet it has built. -/
def popBuild (c : Config) (s : Streamer) : Option Streamer :=
  match s.qs.taken, s.qs.popBuild 0 with
  | [p], some qs => some { s with qs, net := s.net.popped c.order (some p) }
  | _, _ => none

/-- `pop` could not allocate the packet. -/
def popFail (c : Config) (s : Streamer) : Option Streamer :=
  (s.qs.popFail 0).map fun qs =>
    { s with qs, net := s.net.popped c.order none, gaveUp := s.gaveUp + 1 }

/-- One `SSL_write`; a payload is read from the packet's slot. -/
def write (s : Streamer) (r : Except SslError Nat) : Option Streamer :=
  match s.net.pc.packet with
  | some p => (s.net.write r (s.qs.q.slots p.slotIdx).data).map fun net => { s with net }
  | none => none

/-- The local code of the network thread, with the release of the slot where it frees the packet. -/
def advance (c : Config) (s : Streamer) : Option Streamer :=
  match s.net.advance c.tls with
  | none => none
  | some net =>
    match s.net.pc with
    | .failed _ => (s.qs.release 0).map fun qs => { s with qs, net, gaveUp := s.gaveUp + 1 }
    | .counted _ => (s.qs.release 0).map fun qs => { s with qs, net }
    | _ => some { s with net }

/-- One step of the process. -/
def step (c : Config) (s : Streamer) : Action → Option Streamer
  | .capture r =>
    if s.qs.pushing.isNone ∧ s.qs.uncounted = 0 then s.capture c r else none
  | .push a =>
    if QState.isPush a then (s.qs.step a).map fun qs => { s with qs } else none
  | .test running =>
    if s.net.pc = .head then some { s with net := s.net.test running } else none
  | .connect env =>
    if s.net.pc = .connecting then some { s with net := s.net.connect c.tls env } else none
  | .popNull =>
    if s.net.pc = .pop ∧ s.qs.taken = [] then some { s with net := s.net.popped c.order none }
    else none
  | .popTake => if s.net.pc = .pop ∧ s.qs.taken = [] then s.popTake else none
  | .popBuild => if s.net.pc = .pop then s.popBuild c else none
  | .popFail => if s.net.pc = .pop then s.popFail c else none
  | .write r => s.write r
  | .advance => s.advance c
  | .shutdown => s.qs.shutdown.map fun qs => { s with qs }

/-- The states of the runs of the process. -/
def Reachable (c : Config) (s : Streamer) : Prop :=
  Reach (step c) (fun _ _ => True) (init c) s

/-! ## What each step does -/

variable {c : Config} {s s' : Streamer} {a : Action}

/-- The step, and what it needs. -/
inductive Moves (c : Config) (s : Streamer) : Action → Streamer → Prop
  | idle {r : Capture} (hr : ∀ img, r ≠ .image img) : Moves c s (.capture r) s
  | capture {img : Image} {qs : QState} (hp : s.qs.pushing = none) (hu : s.qs.uncounted = 0)
      (hq : s.qs.step (.pushCall (pushArgs c s.frameSeq img)) = some qs) :
      Moves c s (.capture (.image img))
        { s with
          qs
          frameSeq := s.frameSeq + 1
          captured := s.captured ++ [(pushArgs c s.frameSeq img).frame] }
  | push {b : QAction} {qs : QState} (hb : QState.isPush b = true) (hq : s.qs.step b = some qs) :
      Moves c s (.push b) { s with qs }
  | test {running : Bool} (hpc : s.net.pc = .head) :
      Moves c s (.test running) { s with net := s.net.test running }
  | connect {env : Net.ConnectEnv} (hpc : s.net.pc = .connecting) :
      Moves c s (.connect env) { s with net := s.net.connect c.tls env }
  | popNull (hpc : s.net.pc = .pop) (ht : s.qs.taken = []) :
      Moves c s .popNull { s with net := s.net.popped c.order none }
  | popTake (hpc : s.net.pc = .pop) (ht : s.qs.taken = [])
      (hq : s.qs.step (.pop queueTimeoutMs) = some s.qs.popTake) :
      Moves c s .popTake { s with qs := s.qs.popTake }
  | popBuild {p : FramePacket} {qs : QState} (hpc : s.net.pc = .pop) (ht : s.qs.taken = [p])
      (hq : s.qs.step (.popBuild 0) = some qs) :
      Moves c s .popBuild { s with qs, net := s.net.popped c.order (some p) }
  | popFail {qs : QState} (hpc : s.net.pc = .pop) (hq : s.qs.step (.popFail 0) = some qs) :
      Moves c s .popFail
        { s with qs, net := s.net.popped c.order none, gaveUp := s.gaveUp + 1 }
  | write {p : FramePacket} {r : Except SslError Nat} {net : Net} (hp : s.net.pc.packet = some p)
      (hn : s.net.write r (s.qs.q.slots p.slotIdx).data = some net) :
      Moves c s (.write r) { s with net }
  | free {p : FramePacket} {gone : Nat} {qs : QState} {net : Net}
      (hpc : s.net.pc = .failed p ∧ gone = 1 ∨ s.net.pc = .counted p ∧ gone = 0)
      (hq : s.qs.step (.release 0) = some qs) (hn : s.net.advance c.tls = some net) :
      Moves c s .advance { s with qs, net, gaveUp := s.gaveUp + gone }
  | advance {net : Net} (hpc : ∀ p, s.net.pc ≠ .failed p ∧ s.net.pc ≠ .counted p)
      (hn : s.net.advance c.tls = some net) : Moves c s .advance { s with net }
  | shutdown {qs : QState} (hq : s.qs.step .shutdown = some qs) : Moves c s .shutdown { s with qs }

theorem moves_capture {r : Capture} (h : s.step c (.capture r) = some s') :
    Moves c s (.capture r) s' := by
  simp only [step] at h
  split_ifs at h with hidle
  obtain ⟨hp, hu⟩ := hidle
  cases r with
  | image img =>
    obtain ⟨qs, hq, rfl⟩ := Option.map_eq_some_iff.mp h
    exact .capture (Option.isNone_iff_eq_none.mp hp) hu hq
  | _ =>
    cases h
    exact .idle (by simp)

theorem moves_popTake (h : s.step c .popTake = some s') : Moves c s .popTake s' := by
  simp only [step] at h
  split_ifs at h with hpc
  unfold popTake at h
  split_ifs at h with hp ht
  cases h
  refine .popTake hpc.1 hpc.2 ?_
  simp only [QState.step, QState.pop]
  rw [if_neg hp, ht]

theorem moves_popBuild (h : s.step c .popBuild = some s') : Moves c s .popBuild s' := by
  simp only [step] at h
  split_ifs at h with hpc
  unfold popBuild at h
  split at h
  · rename_i p qs ht hq
    cases h
    exact .popBuild hpc ht hq
  · exact absurd h (by simp)

theorem moves_write {r : Except SslError Nat} (h : s.step c (.write r) = some s') :
    Moves c s (.write r) s' := by
  simp only [step, write] at h
  split at h
  · rename_i p hp
    obtain ⟨net, hn, rfl⟩ := Option.map_eq_some_iff.mp h
    exact .write hp hn
  · exact absurd h (by simp)

theorem moves_advance (h : s.step c .advance = some s') : Moves c s .advance s' := by
  simp only [step, advance] at h
  split at h
  · exact absurd h (by simp)
  · rename_i net hn
    split at h
    · rename_i p hpc
      obtain ⟨qs, hq, rfl⟩ := Option.map_eq_some_iff.mp h
      exact .free (Or.inl ⟨hpc, rfl⟩) hq hn
    · rename_i p hpc
      obtain ⟨qs, hq, rfl⟩ := Option.map_eq_some_iff.mp h
      have hm := Moves.free (Or.inr ⟨hpc, rfl⟩) hq hn
      exact hm
    · rename_i hfailed hcounted
      cases h
      exact .advance (fun p => ⟨hfailed p, hcounted p⟩) hn

theorem step_moves (h : s.step c a = some s') : Moves c s a s' := by
  cases a with
  | capture r => exact moves_capture h
  | push b =>
    simp only [step] at h
    split_ifs at h with hb
    obtain ⟨qs, hq, rfl⟩ := Option.map_eq_some_iff.mp h
    exact .push hb hq
  | test running =>
    simp only [step] at h
    split_ifs at h with hpc
    cases h
    exact .test hpc
  | connect env =>
    simp only [step] at h
    split_ifs at h with hpc
    cases h
    exact .connect hpc
  | popNull =>
    simp only [step] at h
    split_ifs at h with hpc
    cases h
    exact .popNull hpc.1 hpc.2
  | popTake => exact moves_popTake h
  | popBuild => exact moves_popBuild h
  | popFail =>
    simp only [step] at h
    split_ifs at h with hpc
    obtain ⟨qs, hq, rfl⟩ := Option.map_eq_some_iff.mp h
    exact .popFail hpc hq
  | write r => exact moves_write h
  | advance => exact moves_advance h
  | shutdown =>
    obtain ⟨qs, hq, rfl⟩ := Option.map_eq_some_iff.mp h
    exact .shutdown hq

/-! ## The packet at each place -/

section Packet

variable {t t' : Net}

theorem test_packet (running : Bool) : (t.test running).pc.packet = none := by
  unfold Net.test
  split_ifs <;> rfl

theorem connect_packet (cfg : TlsConfig) (env : Net.ConnectEnv) :
    (t.connect cfg env).pc.packet = none := by
  unfold Net.connect
  split <;> rfl

theorem write_packet {r : Except SslError Nat} {slot : List UInt8}
    (h : t.write r slot = some t') : t'.pc.packet = t.pc.packet := by
  rcases Net.write_cases h with ⟨p, rest, hpc, -, hcase⟩ | ⟨p, off, hpc, -, hcase⟩ <;> rw [hpc]
  · rcases hcase with ⟨n, rfl⟩ | rfl | rfl
    · rfl
    · exact congrArg NetPc.packet hpc
    · rfl
  · rcases hcase with ⟨n, rfl⟩ | rfl | rfl
    · rfl
    · exact congrArg NetPc.packet hpc
    · rfl

theorem advance_packet {cfg : TlsConfig} (hpc : ∀ p, t.pc ≠ .failed p ∧ t.pc ≠ .counted p)
    (h : t.advance cfg = some t') : t'.pc.packet = t.pc.packet ∧ t.pc ≠ .pop := by
  cases Net.advance_cases h with
  | giveUp h1 => exact absurd h1 (hpc _).1
  | free h1 => exact absurd h1 (hpc _).2
  | retry h1 => simp [h1, NetPc.packet]
  | headerDone h1 => simp [h1, NetPc.packet]
  | payloadDone h1 _ => simp [h1, NetPc.packet]
  | disconnect h1 => simp [h1, NetPc.packet]
  | count h1 => simp [h1, NetPc.packet]
  | leave h1 => simp [h1, NetPc.packet]
  | destroy h1 => simp [h1, NetPc.packet]

/-- Where the packet is freed nothing is held after. -/
theorem free_packet {cfg : TlsConfig} {p : FramePacket}
    (hpc : t.pc = .failed p ∨ t.pc = .counted p) (h : t.advance cfg = some t') :
    t'.pc.packet = none := by
  cases Net.advance_cases h with
  | giveUp h1 => rfl
  | free h1 => rfl
  | retry h1 => simp [h1] at hpc
  | headerDone h1 => simp [h1] at hpc
  | payloadDone h1 _ => simp [h1] at hpc
  | disconnect h1 => simp [h1] at hpc
  | count h1 => simp [h1] at hpc
  | leave h1 => simp [h1] at hpc
  | destroy h1 => simp [h1] at hpc

end Packet

/-! ## The two together -/

/-- The packet the network thread holds is the one the queue has handed out. -/
structure Coherent (s : Streamer) : Prop where
  held : s.qs.outstanding = s.net.pc.packet.toList
  taken : s.qs.taken ≠ [] → s.net.pc = .pop
  one : s.qs.taken.length ≤ 1

/-- Nothing is on its way while the network thread is elsewhere. -/
theorem Coherent.taken_nil (h : Coherent s) (hpc : s.net.pc ≠ .pop) : s.qs.taken = [] := by
  by_contra hne
  exact hpc (h.taken hne)

theorem Coherent.same {qs : QState} (h : Coherent s) (hc : QState.SameConsumer s.qs qs) :
    qs.outstanding = s.net.pc.packet.toList ∧ (qs.taken ≠ [] → s.net.pc = .pop) ∧
      qs.taken.length ≤ 1 := by
  rw [hc.outstanding, hc.taken]
  exact ⟨h.held, h.taken, h.one⟩

theorem coherent_step (h : Coherent s) (hm : Moves c s a s') : Coherent s' := by
  have hnone : s.net.pc.packet = none → s.qs.outstanding = [] := by
    intro hp
    rw [h.held, hp]
    rfl
  cases hm with
  | idle _ => exact h
  | capture _ _ hq =>
    obtain ⟨hout, htaken, hone⟩ := h.same (QState.pushCall_sameConsumer hq)
    exact ⟨hout, htaken, hone⟩
  | push hb hq =>
    obtain ⟨hout, htaken, hone⟩ := h.same (QState.push_sameConsumer hb hq)
    exact ⟨hout, htaken, hone⟩
  | test hpc =>
    have htaken := h.taken_nil (by simp [hpc])
    refine ⟨?_, fun hne => absurd htaken hne, h.one⟩
    simp only [test_packet]
    exact hnone (by rw [hpc]; rfl)
  | connect hpc =>
    have htaken := h.taken_nil (by simp [hpc])
    refine ⟨?_, fun hne => absurd htaken hne, h.one⟩
    simp only [connect_packet]
    exact hnone (by rw [hpc]; rfl)
  | popNull hpc htaken => exact ⟨hnone (by rw [hpc]; rfl), fun hne => absurd htaken hne, h.one⟩
  | popTake hpc htaken _ =>
    refine ⟨h.held, fun _ => hpc, ?_⟩
    simp [QState.popTake, htaken]
  | @popBuild p _ hpc htaken hq =>
    obtain ⟨p', hp', rfl⟩ := QState.popBuild_cases hq
    have hp : p' = p := by simpa [htaken] using hp'.symm
    refine ⟨?_, fun hne => absurd (by simp [htaken]) hne, by simp [htaken]⟩
    simp only [hnone (by rw [hpc]; rfl), hp]
    rfl
  | popFail hpc hq =>
    obtain ⟨p, hp, rfl⟩ := QState.popFail_cases hq
    have hone := h.one
    have hlen : s.qs.taken.eraseIdx 0 = [] := by
      cases htaken : s.qs.taken with
      | nil => rfl
      | cons q t =>
        rw [htaken, List.length_cons] at hone
        exact List.length_eq_zero_iff.mp (show t.length = 0 by omega)
    exact ⟨hnone (by rw [hpc]; rfl), fun hne => absurd hlen hne, by simp [hlen]⟩
  | write hp hn =>
    have htaken := h.taken_nil fun hpc => by
      rw [hpc] at hp
      exact absurd hp (by simp [NetPc.packet])
    refine ⟨?_, fun hne => absurd htaken hne, h.one⟩
    simp only [write_packet hn]
    exact h.held
  | @free p _ _ _ hpc hq hn =>
    have hplace : s.net.pc = .failed p ∨ s.net.pc = .counted p := hpc.imp And.left And.left
    have hheld : s.qs.outstanding = [p] := by
      rcases hplace with hpc | hpc <;> rw [h.held, hpc] <;> rfl
    have htaken := h.taken_nil (by rcases hplace with hpc | hpc <;> simp [hpc])
    obtain ⟨q, hq', rfl⟩ := QState.release_cases hq
    refine ⟨?_, fun hne => absurd htaken hne, h.one⟩
    simp only [free_packet hplace hn, hheld]
    rfl
  | advance hpc hn =>
    obtain ⟨hsame, hpop⟩ := advance_packet hpc hn
    have htaken := h.taken_nil hpop
    refine ⟨?_, fun hne => absurd htaken hne, h.one⟩
    simp only [hsame]
    exact h.held
  | shutdown hq =>
    obtain ⟨hout, htaken, hone⟩ := h.same (QState.shutdown_sameConsumer hq)
    exact ⟨hout, htaken, hone⟩

theorem coherent_of_reachable (hr : Reachable c s) : Coherent s := by
  have h0 : Coherent (init c) := ⟨rfl, fun hne => absurd rfl hne, Nat.zero_le 1⟩
  exact hr.invariant ⟨h0, fun _ h _ hs => coherent_step h (step_moves hs)⟩

/-- What a step does to the queue is a step of one producer and one consumer. -/
theorem Moves.queue (h : Coherent s) (hm : Moves c s a s') :
    s'.qs = s.qs ∨ ∃ b, s.qs.Spsc b ∧ s.qs.step b = some s'.qs := by
  cases hm with
  | idle _ => exact Or.inl rfl
  | capture hp hu hq => exact Or.inr ⟨.pushCall _, ⟨hp, hu⟩, hq⟩
  | @push b _ hb hq =>
    refine Or.inr ⟨b, ?_, hq⟩
    cases b <;> trivial
  | test _ => exact Or.inl rfl
  | connect _ => exact Or.inl rfl
  | popNull _ _ => exact Or.inl rfl
  | popTake hpc htaken hq =>
    refine Or.inr ⟨.pop queueTimeoutMs, ?_, hq⟩
    have hout := h.held
    rw [hpc] at hout
    exact List.append_eq_nil_iff.mpr ⟨htaken, hout⟩
  | popBuild _ _ hq => exact Or.inr ⟨.popBuild 0, trivial, hq⟩
  | popFail _ hq => exact Or.inr ⟨.popFail 0, trivial, hq⟩
  | write _ _ => exact Or.inl rfl
  | free _ hq _ => exact Or.inr ⟨.release 0, trivial, hq⟩
  | advance _ _ => exact Or.inl rfl
  | shutdown hq => exact Or.inr ⟨.shutdown, trivial, hq⟩

/-- What a step does to the network thread is a step of it. -/
theorem Moves.net (hm : Moves c s a s') :
    s'.net = s.net ∨ ∃ b, Net.step c.order c.tls s.net b = some s'.net := by
  cases hm with
  | idle _ => exact Or.inl rfl
  | capture _ _ _ => exact Or.inl rfl
  | push _ _ => exact Or.inl rfl
  | @test running hpc => exact Or.inr ⟨.test running, if_pos hpc⟩
  | @connect env hpc => exact Or.inr ⟨.connect env, if_pos hpc⟩
  | popNull hpc _ => exact Or.inr ⟨.popped none, if_pos hpc⟩
  | popTake _ _ _ => exact Or.inl rfl
  | @popBuild p _ hpc _ _ => exact Or.inr ⟨.popped (some p), if_pos hpc⟩
  | popFail hpc _ => exact Or.inr ⟨.popped none, if_pos hpc⟩
  | @write _ r _ _ hn => exact Or.inr ⟨.write r _, hn⟩
  | free _ _ hn => exact Or.inr ⟨.advance, hn⟩
  | advance _ hn => exact Or.inr ⟨.advance, hn⟩
  | shutdown _ => exact Or.inl rfl

/-- **The queue of the process** is one with one producer and one consumer. -/
theorem queue_reachable (hr : Reachable c s) :
    QState.Reachable QState.Spsc c.queueSize maxFrameSize s.qs :=
  Reach.project Streamer.qs
    (fun _ hr _ hs => (step_moves hs).queue (coherent_of_reachable hr)) hr

/-- **The network thread of the process** is that of `networkLoop`. -/
theorem net_reachable (hr : Reachable c s) : Net.Reachable c.order c.tls s.net := by
  refine Reach.project Streamer.net (fun _ _ _ hs => ?_) hr
  rcases (step_moves hs).net with h | ⟨b, h⟩
  · exact Or.inl h
  · exact Or.inr ⟨b, trivial, h⟩

/-! ## A client -/

/-- A client with a queue of two slots. -/
def sampleConfig : Config where
  order := .little
  tls := ⟨1000, 30000, (2 * ·)⟩
  pixelFormat := 0x47504A4D
  queueSize := 2

/-- A two-byte image. -/
def sampleImage : Capture := .image ⟨1000, [0xAB, 0xCD], 4, 2⟩

/-- The first connection attempt succeeds. -/
def sampleConnect : Net.ConnectEnv where
  addrs := some [⟨some 3, .ok, 1, 0⟩]
  sslNew := some 0
  hostOk := true
  setFdOk := true
  connectRet := 1

end Streamer

end CameraStreamer
