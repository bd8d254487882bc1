import CameraStreamer.Client.Machine

/-!
# The statistics `main` prints

Every five seconds `main` prints `frames_pushed` as "captured", `frames_dropped` as "dropped" and
`frames_popped` as "sent" (`src/main.cpp:321-330`). `Balanced` is what these labels promise.

* `queue_flow`: pushed plus refused is dropped plus popped plus queued.
* `net_flow`: every frame popped is sent, in flight, given up, or on its way out of `pop`.
* **`stats_balance_iff`**: so the labels hold exactly as long as no `push` has been refused and no
  frame popped has been given up, save while the last frame sent is not yet freed.
* `stats_counterexample`: behind a packet that is being sent, a refused frame is counted in
  "dropped" and not in "captured".

`frames_pushed_` counts the accepted frames, and `captureLoop` itself reports `frame_seq_` as the
number captured (`src/camera_capture.cpp:187`); `frames_popped_` counts the frames handed out, and
`networkLoop` itself reports `frames_sent_` as the number sent (`src/tls_client.cpp:411`).
-/

namespace CameraStreamer

open Lib.Machine Lib.Fifo Protocol TlsClient

/-! ## The queue's counters -/

namespace QState

variable {s s' : QState} {capacity maxFrameSize : Nat}

/-- The next step of the `push` in progress refuses its frame. -/
def refuses (s : QState) : QAction → Bool
  | .pushTest => decide (s.q.capacity ≤ s.q.count) && s.q.slotInUse s.q.tail
  | .pushGuard => s.q.slotInUse s.q.head
  | _ => false

theorem refused_step {b : QAction} (hs : s.step b = some s') :
    (refused s'.hist).length = (refused s.hist).length + if s.refuses b then 1 else 0 := by
  cases b with
  | pushCall a => rcases pushCall_cases hs with ⟨rfl, -⟩ | ⟨-, -, -, rfl⟩ <;> rfl
  | pushTest =>
    obtain ⟨a, -, ⟨hc, hu, rfl⟩ | ⟨hc, hu, rfl⟩ | ⟨hc, rfl⟩⟩ := pushTest_cases hs
    · simp [refuses, hc, hu, pushRefuse, Event.refused?]
    · simp [refuses, hu, Event.refused?]
    · simp [refuses, Nat.not_le.mpr hc]
  | pushGuard =>
    obtain ⟨a, -, ⟨hu, rfl⟩ | ⟨hu, rfl⟩⟩ := pushGuard_cases hs
    · simp [refuses, hu, pushRefuse, Event.refused?]
    · simp [refuses, hu]
  | pushWrite =>
    obtain ⟨a, -, rfl⟩ := pushWrite_cases hs
    simp [refuses, Event.refused?]
  | pushCount => obtain ⟨-, rfl⟩ := pushCount_cases hs; rfl
  | pop t =>
    rcases pop_cases hs with rfl | ⟨-, -, rfl⟩
    · rfl
    · simp [refuses, popTake, Event.refused?]
  | popBuild i => obtain ⟨p, -, rfl⟩ := popBuild_cases hs; rfl
  | popFail i => obtain ⟨p, -, rfl⟩ := popFail_cases hs; rfl
  | release i => obtain ⟨p, -, rfl⟩ := release_cases hs; rfl
  | shutdown => obtain ⟨-, rfl⟩ := shutdown_cases hs; rfl

theorem refused_same {b : QAction} (hb : s.refuses b = false) (hs : s.step b = some s') :
    (refused s'.hist).length = (refused s.hist).length := by
  rw [refused_step hs, hb]
  rfl

/-- **The queue's balance**, when no `push` is between its unlock and its count. -/
theorem queue_flow {ok : QState → QAction → Prop} (hc : 0 < capacity)
    (hr : Reachable ok capacity maxFrameSize s) (hu : s.uncounted = 0) :
    s.q.framesPushed + (refused s.hist).length =
      s.q.framesDropped + s.q.framesPopped + s.q.count := by
  have h := traced_of_reachable hc hr
  have hbal := replay_balance h.replay
  have hdrop := h.dropped
  have hpush := h.pushed
  have hpop := h.popped
  rw [RingQueue.queued_length] at hbal
  omega

end QState

/-! ## The network thread's counter -/

/-- A frame is on its way to the wire: popped, not counted as sent, not given up. -/
def TlsClient.NetPc.inFlight : NetPc → Nat
  | .header _ _ => 1
  | .payload _ _ => 1
  | .failed _ => 1
  | .sent _ => 1
  | _ => 0

/-- The frame is counted as sent, its packet not yet freed (`tls_client.cpp:400-404`). -/
def TlsClient.NetPc.unfreed : NetPc → Bool
  | .counted _ => true
  | _ => false

namespace TlsClient.Net

variable {t t' : Net}

/-- The frames sent or on their way to the wire. -/
def outgoing (t : Net) : Nat := t.framesSent + t.pc.inFlight

theorem outgoing_test (running : Bool) (hpc : t.pc = .head) :
    (t.test running).outgoing = t.outgoing := by
  unfold outgoing test
  rw [hpc]
  split_ifs <;> rfl

theorem outgoing_connect (cfg : TlsConfig) (env : ConnectEnv) (hpc : t.pc = .connecting) :
    (t.connect cfg env).outgoing = t.outgoing := by
  have hsent : (t.tlsConnect cfg env).2.framesSent = t.framesSent :=
    (tlsConnect_attempt env).framesSent
  unfold outgoing connect
  rw [hpc]
  split
  · rename_i heq
    rw [heq] at hsent
    exact hsent
  · rename_i heq
    rw [heq] at hsent
    exact hsent

theorem outgoing_write {r : Except SslError Nat} {slot : List UInt8}
    (h : t.write r slot = some t') : t'.outgoing = t.outgoing := by
  unfold outgoing
  rcases write_cases h with ⟨p, rest, hpc, -, hcase⟩ | ⟨p, off, hpc, -, hcase⟩ <;> rw [hpc]
  · rcases hcase with ⟨n, rfl⟩ | rfl | rfl
    · rfl
    · exact congrArg (t.framesSent + NetPc.inFlight ·) hpc
    · rfl
  · rcases hcase with ⟨n, rfl⟩ | rfl | rfl
    · rfl
    · exact congrArg (t.framesSent + NetPc.inFlight ·) hpc
    · rfl

/-- The local code counts the frame it was sending, or gives it up. -/
theorem outgoing_advance {cfg : TlsConfig} (h : t.advance cfg = some t') :
    (∃ p, t.pc = .failed p) ∧ t'.outgoing + 1 = t.outgoing ∨
      (∀ p, t.pc ≠ .failed p) ∧ t'.outgoing = t.outgoing := by
  unfold outgoing
  have hdisc := (tlsDisconnect_rest t).1
  cases advance_cases h with
  | giveUp hpc =>
    rw [hpc]
    exact Or.inl ⟨⟨_, rfl⟩, rfl⟩
  | retry hpc =>
    rw [hpc]
    exact Or.inr ⟨nofun, rfl⟩
  | headerDone hpc =>
    rw [hpc]
    exact Or.inr ⟨nofun, rfl⟩
  | payloadDone hpc _ =>
    rw [hpc]
    exact Or.inr ⟨nofun, rfl⟩
  | count hpc =>
    rw [hpc]
    exact Or.inr ⟨nofun, rfl⟩
  | free hpc =>
    rw [hpc]
    exact Or.inr ⟨nofun, rfl⟩
  | disconnect hpc =>
    rw [hpc]
    exact Or.inr ⟨nofun, by simp only [hdisc, NetPc.inFlight]⟩
  | leave hpc =>
    rw [hpc]
    exact Or.inr ⟨nofun, by simp only [hdisc, NetPc.inFlight]⟩
  | destroy hpc =>
    rw [hpc]
    exact Or.inr ⟨nofun, by simp only [hdisc, NetPc.inFlight]⟩

end TlsClient.Net

namespace Streamer

variable {c : Config} {s s' : Streamer} {a : Action}

/-! ## The labels -/

/-- The packets the network thread holds: none or one. -/
def held (s : Streamer) : Nat := s.net.pc.packet.toList.length

/-- What the labels promise: captured is dropped plus sent plus what is still queued or held, and
the printed "sent", less the packet held, is the number of frames sent. -/
structure Balanced (s : Streamer) : Prop where
  captured : s.qs.q.framesPushed =
    s.qs.q.framesDropped + s.net.framesSent + (s.qs.q.count + s.held)
  sent : s.qs.q.framesPopped = s.net.framesSent + s.held

/-- The first of these with the printed "sent" in it, in which a packet held is counted twice. -/
def BalancedAsPrinted (s : Streamer) : Prop :=
  s.qs.q.framesPushed = s.qs.q.framesDropped + s.qs.q.framesPopped + (s.qs.q.count + s.held)

/-- The step refuses no frame, and gives none up: a `push` does not meet a slot in use where it
tests for one, a packet is not freed after a failed write, and one can be allocated. -/
def Fine (s : Streamer) : Action → Prop
  | .push b => s.qs.refuses b = false
  | .popFail => False
  | .advance => ∀ p, s.net.pc ≠ .failed p
  | _ => True

/-- The frames refused or given up so far. -/
def missed (s : Streamer) : Nat := (refused s.qs.hist).length + s.gaveUp

/-! ## The flow of frames -/

/-- Every frame popped is sent or on its way, given up, or on its way out of `pop`. -/
def NetFlow (s : Streamer) : Prop :=
  (popped s.qs.hist).length = s.net.outgoing + s.gaveUp + s.qs.taken.length

theorem NetFlow.same {qs : QState} (h : NetFlow s) (hc : QState.SameConsumer s.qs qs) :
    (popped qs.hist).length = s.net.outgoing + s.gaveUp + qs.taken.length := by
  rw [hc.popped, hc.taken]
  exact h

theorem netFlow_step (h : NetFlow s) (hm : Moves c s a s') : NetFlow s' := by
  unfold NetFlow
  have hflow := h
  unfold NetFlow at hflow
  cases hm with
  | idle _ => exact h
  | capture _ _ hq => exact h.same (QState.pushCall_sameConsumer hq)
  | push hb hq => exact h.same (QState.push_sameConsumer hb hq)
  | test hpc => simpa only [Net.outgoing_test _ hpc] using hflow
  | connect hpc => simpa only [Net.outgoing_connect _ _ hpc] using hflow
  | popNull hpc _ =>
    have hout : (s.net.popped c.order none).outgoing = s.net.outgoing := by
      unfold Net.outgoing
      rw [hpc]
      rfl
    simpa only [hout] using hflow
  | popTake _ _ _ =>
    simp only [QState.popTake, popped_snoc, Event.popped?, Option.toList_some, List.length_append,
      List.length_cons, List.length_nil]
    omega
  | @popBuild p _ hpc htaken hq =>
    obtain ⟨p', -, rfl⟩ := QState.popBuild_cases hq
    have hout : (s.net.popped c.order (some p)).outgoing = s.net.outgoing + 1 := by
      unfold Net.outgoing
      rw [hpc]
      rfl
    simp only [hout, htaken, List.eraseIdx_cons_zero, List.length_nil]
    rw [htaken, List.length_singleton] at hflow
    omega
  | popFail hpc hq =>
    obtain ⟨p, hp, rfl⟩ := QState.popFail_cases hq
    have hout : (s.net.popped c.order none).outgoing = s.net.outgoing := by
      unfold Net.outgoing
      rw [hpc]
      rfl
    have hlen := List.length_eraseIdx_of_lt (List.getElem?_eq_some_iff.mp hp).1
    have hpos := (List.getElem?_eq_some_iff.mp hp).1
    simp only [hout, hlen]
    omega
  | write _ hn => simpa only [Net.outgoing_write hn] using hflow
  | free hpc hq hn =>
    obtain ⟨q, -, rfl⟩ := QState.release_cases hq
    simp only
    rcases hpc with ⟨hpc, rfl⟩ | ⟨hpc, rfl⟩
    · rcases Net.outgoing_advance hn with ⟨-, hout⟩ | ⟨hno, -⟩
      · omega
      · exact absurd hpc (hno _)
    · rcases Net.outgoing_advance hn with ⟨⟨q, hq⟩, -⟩ | ⟨-, hout⟩
      · rw [hpc] at hq
        exact absurd hq (by simp)
      · omega
  | advance hpc hn =>
    rcases Net.outgoing_advance hn with ⟨⟨p, hp⟩, -⟩ | ⟨-, hout⟩
    · exact absurd hp (hpc p).1
    · simpa only [hout] using hflow
  | shutdown hq => exact h.same (QState.shutdown_sameConsumer hq)

/-- **Frames flow through the network thread** without loss other than the frames given up. -/
theorem net_flow (hr : Reachable c s) : NetFlow s := by
  have h0 : NetFlow (init c) := rfl
  exact hr.invariant ⟨h0, fun _ h _ hs => netFlow_step h (step_moves hs)⟩

/-! ## Counting the frames missed -/

theorem missed_step (hs : s.step c a = some s') :
    (s.Fine a → s'.missed = s.missed) ∧ (¬ s.Fine a → s.missed < s'.missed) := by
  unfold missed
  cases step_moves hs with
  | idle _ => exact ⟨fun _ => rfl, fun h => absurd trivial h⟩
  | capture _ _ hq =>
    have href := QState.refused_same rfl hq
    exact ⟨fun _ => by simp only [href], fun h => absurd trivial h⟩
  | push _ hq =>
    have href := QState.refused_step hq
    constructor
    · intro hfine
      simp only [QState.refused_same hfine hq]
    · intro hrefuse
      rw [if_pos (by simpa [Fine] using hrefuse)] at href
      simp only
      omega
  | test _ => exact ⟨fun _ => rfl, fun h => absurd trivial h⟩
  | connect _ => exact ⟨fun _ => rfl, fun h => absurd trivial h⟩
  | popNull _ _ => exact ⟨fun _ => rfl, fun h => absurd trivial h⟩
  | popTake _ _ hq =>
    have href := QState.refused_same rfl hq
    exact ⟨fun _ => by simp only [href], fun h => absurd trivial h⟩
  | popBuild _ _ hq =>
    have href := QState.refused_same rfl hq
    exact ⟨fun _ => by simp only [href], fun h => absurd trivial h⟩
  | popFail _ hq =>
    have href := QState.refused_same rfl hq
    exact ⟨fun h => h.elim, fun _ => by simp only; omega⟩
  | write _ _ => exact ⟨fun _ => rfl, fun h => absurd trivial h⟩
  | free hpc hq _ =>
    have href := QState.refused_same rfl hq
    rcases hpc with ⟨hpc, rfl⟩ | ⟨hpc, rfl⟩
    · exact ⟨fun h => absurd hpc (h _), fun _ => by simp only; omega⟩
    · exact ⟨fun _ => by simp only [href]; rfl, fun h => absurd (fun p => by simp [hpc]) h⟩
  | advance hpc _ => exact ⟨fun _ => rfl, fun h => absurd (fun p => (hpc p).1) h⟩
  | shutdown hq =>
    have href := QState.refused_same rfl hq
    exact ⟨fun _ => by simp only [href], fun h => absurd trivial h⟩

/-- A run has missed no frame iff all its steps are fine. -/
theorem runs_fine_iff {as : List Action} (h : Runs (step c) (fun _ _ => True) as (init c) s) :
    Runs (step c) Fine as (init c) s ↔ s.missed = 0 :=
  h.ok_iff (n := missed) (fun hok hs => (missed_step hs).1 hok)
    fun hok hs => (missed_step hs).2 hok

/-! ## The balance -/

/-- In flight is held, unless the packet's frame has just been counted. -/
theorem held_eq (s : Streamer) :
    s.held = s.net.pc.inFlight + if s.net.pc.unfreed then 1 else 0 := by
  unfold held
  cases s.net.pc <;> rfl

/-- The balance, in terms of the frames missed so far. -/
theorem balanced_iff_missed (hc : 0 < c.queueSize) (hr : Reachable c s) (hq : s.qs.Quiet) :
    s.Balanced ↔ (refused s.qs.hist).length = 0 ∧
      s.gaveUp = if s.net.pc.unfreed then 1 else 0 := by
  obtain ⟨-, hunc, htaken⟩ := hq
  have hqueue := QState.queue_flow hc (queue_reachable hr) hunc
  have hpop := (QState.traced_of_reachable hc (queue_reachable hr)).popped
  have hnet := net_flow hr
  have hheld := s.held_eq
  unfold NetFlow Net.outgoing at hnet
  rw [htaken, List.length_nil] at hnet
  generalize (if s.net.pc.unfreed then 1 else 0) = unfreed at hheld ⊢
  constructor
  · rintro ⟨hcap, hsent⟩
    omega
  · rintro ⟨href, hgave⟩
    constructor <;> omega

/-- **The labels hold iff no frame has been missed.** Whenever no `push` and no `pop` is in
progress in a run of the process, and the network thread is not between counting a frame and
freeing its packet, the printed statistics balance iff no step of the run has refused a frame or
given one up. In that gap they do not balance in such a run; they balance when nothing has been
refused and just one frame given up. With the printed "sent" in the first balance, it holds iff
nothing has been refused and no packet is held. -/
theorem stats_balance_iff {as : List Action} (hc : 0 < c.queueSize)
    (hrun : Runs (step c) (fun _ _ => True) as (init c) s) (hq : s.qs.Quiet) :
    (s.net.pc.unfreed = false → (s.Balanced ↔ Runs (step c) Fine as (init c) s)) ∧
    (s.net.pc.unfreed = true → (Runs (step c) Fine as (init c) s → ¬ s.Balanced) ∧
      (s.Balanced ↔ (refused s.qs.hist).length = 0 ∧ s.gaveUp = 1)) ∧
    (s.BalancedAsPrinted ↔ (refused s.qs.hist).length = 0 ∧ s.held = 0) := by
  have hbal := balanced_iff_missed hc (hrun.reach Reach.init) hq
  have hflow := QState.queue_flow hc (queue_reachable (hrun.reach Reach.init)) hq.2.1
  have hfine := runs_fine_iff hrun
  unfold missed at hfine
  refine ⟨?_, ?_, ?_⟩
  · intro hgap
    simp only [hgap, Bool.false_eq_true, if_false] at hbal
    rw [hbal, hfine]
    omega
  · intro hgap
    simp only [hgap, if_true] at hbal
    refine ⟨fun h => ?_, hbal⟩
    rw [hbal]
    have := hfine.mp h
    omega
  · unfold BalancedAsPrinted
    omega

/-! ## A refused frame -/

/-- The first frame is captured, popped and held, a second one is captured and queued. -/
def holdingRun : List Action :=
  [.capture sampleImage, .push .pushTest, .push .pushGuard, .push .pushWrite,
    .test true, .connect sampleConnect, .popTake, .popBuild,
    .capture sampleImage, .push .pushTest, .push .pushGuard, .push .pushWrite]

theorem holding_runs : ∃ s, Runs (step sampleConfig) Fine holdingRun (init sampleConfig) s ∧
    s.qs.Quiet ∧ s.net.pc.unfreed = false ∧ s.held = 1 ∧ s.qs.q.count = 1 := by
  have hrun : ∃ s, exec (step sampleConfig) holdingRun (init sampleConfig) = some s ∧
      s.missed = 0 ∧ s.qs.Quiet ∧ s.net.pc.unfreed = false ∧ s.held = 1 ∧ s.qs.q.count = 1 :=
    ⟨_, rfl, rfl, ⟨rfl, rfl, rfl⟩, rfl, rfl, rfl⟩
  obtain ⟨s, hrun, hmissed, hrest⟩ := hrun
  exact ⟨s, (runs_fine_iff (Runs.of_exec (fun _ _ _ => trivial) hrun)).mpr hmissed, hrest⟩

theorem stats_balance_iff_holding : ∃ s, s.held = 1 ∧ s.Balanced ∧
    Runs (step sampleConfig) Fine holdingRun (init sampleConfig) s := by
  obtain ⟨s, hfine, hquiet, hgap, hheld, -⟩ := holding_runs
  have hrun : Runs (step sampleConfig) (fun _ _ => True) holdingRun (init sampleConfig) s :=
    hfine.mono fun _ _ _ => trivial
  exact ⟨s, hheld, ((stats_balance_iff (by decide) hrun hquiet).1 hgap).mpr hfine, hfine⟩

/-- **Captured two, dropped one, sent none**, with one frame queued and one held: the third frame
pushed behind the held packet is refused, and counted as dropped but not as captured. -/
theorem stats_counterexample : ∃ s, Reachable sampleConfig s ∧ s.qs.q.shutdown = false ∧
    s.qs.Quiet ∧ s.qs.q.framesPushed = 2 ∧ s.qs.q.framesDropped = 1 ∧ s.qs.q.framesPopped = 1 ∧
    s.net.framesSent = 0 ∧ s.qs.q.count = 1 ∧ s.held = 1 ∧ ¬ s.Balanced := by
  have hrun : ∃ s, exec (step sampleConfig) (holdingRun ++
      [.capture sampleImage, .push .pushTest, .push .pushGuard, .push .pushCount])
      (init sampleConfig) = some s ∧ s.qs.q.shutdown = false ∧ s.qs.Quiet ∧
      s.qs.q.framesPushed = 2 ∧ s.qs.q.framesDropped = 1 ∧ s.qs.q.framesPopped = 1 ∧
      s.net.framesSent = 0 ∧ s.qs.q.count = 1 ∧ s.held = 1 :=
    ⟨_, rfl, rfl, ⟨rfl, rfl, rfl⟩, rfl, rfl, rfl, rfl, rfl, rfl⟩
  obtain ⟨s, hrun, hsd, hquiet, hpush, hdrop, hpop, hsent, hcount, hheld⟩ := hrun
  refine ⟨s, (Runs.of_exec (fun _ _ _ => trivial) hrun).reach Reach.init, hsd, hquiet, hpush,
    hdrop, hpop, hsent, hcount, hheld, ?_⟩
  rintro ⟨hcaptured, -⟩
  omega

end Streamer

end CameraStreamer
