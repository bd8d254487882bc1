import CameraStreamer.Client.Process
import CameraStreamer.Client.Steps
import CameraStreamer.RingQueue.Progress

/-!
# The work of the network thread

Once `running` is `false` the network thread goes on to the end of the frame in hand and leaves its
loop at the next test (`src/tls_client.cpp:342-413`).

* `NetPc.work`: the steps it has left; the bytes of the frame in hand are the most of it.
* `nears_network`: it falls with each of them, but an `SSL_write` that asks to be called again.
* `network_enabled`: inside the loop the thread can always go on.
-/

namespace CameraStreamer

open Lib.Machine Lib.Endian Protocol TlsClient

/-! ## The network thread -/

/-- The steps the network thread has left once `running` is `false`, at most; `taken` is the slot
its `pop` has taken. -/
def TlsClient.NetPc.work (taken : List FramePacket) : NetPc → Nat
  | .head => 2
  | .connecting => 9 + frameHeaderSize + maxFrameSize
  | .backoff => 3
  | .pop =>
    match taken with
    | [] => 8 + frameHeaderSize + maxFrameSize
    | p :: _ => 7 + frameHeaderSize + p.len.toNat
  | .header p rest => 6 + p.len.toNat + rest.length
  | .payload p off => 5 + (p.len.toNat - off)
  | .failed _ => 4
  | .disconnect => 3
  | .sent _ => 4
  | .counted _ => 3
  | .leaving => 1
  | .done => 0
  | .destroyed => 0

/-- The frames it may still send. -/
def TlsClient.NetPc.mayCount : NetPc → Nat
  | .connecting => 1
  | .pop => 1
  | .header _ _ => 1
  | .payload _ _ => 1
  | .sent _ => 1
  | _ => 0

/-- The answer of `SSL_write` is to be called again. -/
def asksAgain : Except SslError Nat → Bool
  | .ok _ => false
  | .error e => writeRetries e

namespace TlsClient.Net

variable {cfg : TlsConfig} {s s' : Net}

theorem taken_bounds {n k : Nat} (hn : 0 < n) : 0 < taken n k ∧ taken n k ≤ n := by
  unfold taken
  omega

/-- A turn of `sslWriteAll` brings the frame nearer to its end, unless it is to be repeated. -/
theorem write_work (taken' : List FramePacket) {r : Except SslError Nat} {slot : List UInt8}
    (h : s.write r slot = some s') :
    if asksAgain r then s'.pc = s.pc
    else s'.pc.work taken' < s.pc.work taken' ∧ s'.pc.mayCount ≤ s.pc.mayCount := by
  unfold write at h
  split at h
  · rename_i p rest hpc
    split at h
    · exact absurd h nofun
    · rename_i hlen
      split at h
      · rename_i k
        cases h
        obtain ⟨hpos, hle⟩ := taken_bounds (k := k) (Nat.pos_of_ne_zero hlen)
        simp only [asksAgain, hpc, NetPc.work, NetPc.mayCount, List.length_drop, Bool.false_eq_true,
          if_false]
        omega
      · rename_i e
        split at h
        · rename_i hretry
          cases h
          simp only [asksAgain, hretry, if_true]
          rfl
        · rename_i hretry
          cases h
          simp only [asksAgain, hretry, hpc, NetPc.work, NetPc.mayCount, Bool.false_eq_true,
            if_false]
          omega
  · rename_i p off hpc
    split at h
    · exact absurd h nofun
    · rename_i hlen
      split at h
      · rename_i k
        cases h
        obtain ⟨hpos, hle⟩ := taken_bounds (k := k) (Nat.sub_pos_of_lt (Nat.lt_of_not_le hlen))
        simp only [asksAgain, hpc, NetPc.work, NetPc.mayCount, Bool.false_eq_true, if_false]
        omega
      · rename_i e
        split at h
        · rename_i hretry
          cases h
          simp only [asksAgain, hretry, if_true]
          rfl
        · rename_i hretry
          cases h
          simp only [asksAgain, hretry, hpc, NetPc.work, NetPc.mayCount, Bool.false_eq_true,
            if_false]
          omega
  · exact absurd h nofun

/-- So does the code around the writes. -/
theorem advance_work (taken' : List FramePacket) (hdone : s.pc ≠ .done)
    (h : s.advance cfg = some s') :
    s'.pc.work taken' < s.pc.work taken' ∧ s'.framesSent + s'.pc.mayCount ≤
      s.framesSent + s.pc.mayCount := by
  have hsent := (tlsDisconnect_rest s).1
  cases advance_cases h with
  | retry hpc => simp [hpc, NetPc.work, NetPc.mayCount]
  | headerDone hpc => simp [hpc, NetPc.work, NetPc.mayCount]
  | payloadDone hpc _ =>
    simp only [hpc, NetPc.work, NetPc.mayCount]
    omega
  | giveUp hpc => simp [hpc, NetPc.work, NetPc.mayCount, freePacket, record]
  | disconnect hpc => simp [hpc, NetPc.work, NetPc.mayCount, hsent]
  | count hpc => simp [hpc, NetPc.work, NetPc.mayCount]
  | free hpc => simp [hpc, NetPc.work, NetPc.mayCount, freePacket, record]
  | leave hpc => simp [hpc, NetPc.work, NetPc.mayCount, hsent]
  | destroy hpc => exact absurd hpc hdone

end TlsClient.Net

namespace Streamer

variable {c : Config} {s s' : Streamer} {a : Action}

/-- The steps the network thread has left. -/
def netWork (s : Streamer) : Nat := s.net.pc.work s.qs.taken

/-- The frames sent, and those that may still be. -/
def maySend (s : Streamer) : Nat := s.net.framesSent + s.net.pc.mayCount

/-- An `SSL_write` that asks to be called again. -/
def Action.idle : Action → Bool
  | .write r => asksAgain r
  | _ => false

/-- What a step of the network thread does to the work left. -/
structure Nears (idle : Bool) (s s' : Streamer) : Prop where
  work : if idle then s'.netWork = s.netWork else s'.netWork < s.netWork
  sent : s'.maySend ≤ s.maySend
  push : s'.qs.pushWork = s.qs.pushWork
  captured : s'.captured = s.captured

theorem tailPacket_len (hI : s.qs.Inv) (hcount : 0 < s.qs.q.count)
    (hmax : s.qs.q.maxFrameSize = maxFrameSize) : s.qs.q.tailPacket.len.toNat ≤ maxFrameSize := by
  have hlen := (hI.len_ok 0 hcount).2
  rw [hmax] at hlen
  rwa [Lib.Window.slot_zero hI.tail_lt] at hlen

/-- A `pop` that takes a slot finds one. -/
theorem count_pos_of_popTake {t : Int} (hq : s.qs.step (.pop t) = some s.qs.popTake) :
    0 < s.qs.q.count := by
  rcases QState.pop_cases hq with heq | ⟨-, htake, -⟩
  · have hlen := congrArg (fun q => q.taken.length) heq
    simp only [QState.popTake, List.length_cons] at hlen
    omega
  · exact htake

theorem headerOf_length (o : ByteOrder) (p : FramePacket) :
    (Net.headerOf o p).length = frameHeaderSize := by
  rw [Net.headerOf, initFrameHeader_toBytes, wireHeader_length]

/-- **A step of the network thread** once `running` is `false`. -/
theorem nears_network (hI : s.qs.Inv) (hmax : s.qs.q.maxFrameSize = maxFrameSize)
    (hco : Coherent s) (hm : Moves c s a s') (ha : a.ofNetwork = true)
    (htest : ∀ r, a = .test r → r = false) (hdone : s.net.pc ≠ .done) :
    Nears a.idle s s' := by
  cases hm with
  | idle _ => exact absurd ha nofun
  | capture _ _ _ => exact absurd ha nofun
  | push _ _ => exact absurd ha nofun
  | shutdown _ => exact absurd ha nofun
  | @test running hpc =>
    have hrun := htest running rfl
    subst hrun
    refine ⟨?_, ?_, rfl, rfl⟩
    · simp [Action.idle, netWork, Net.test, hpc, NetPc.work]
    · simp [maySend, Net.test, hpc, NetPc.mayCount]
  | @connect env hpc =>
    have hatt : Net.Attempt s.net (s.net.tlsConnect c.tls env) := Net.tlsConnect_attempt env
    have htaken := hco.taken_nil (by rw [hpc]; exact nofun)
    have hsent := hatt.framesSent
    unfold Net.connect
    split
    · rename_i t heq
      rw [heq] at hsent
      have hsent : t.framesSent = s.net.framesSent := hsent
      refine ⟨?_, ?_, rfl, rfl⟩
      · simp [Action.idle, netWork, hpc, htaken, NetPc.work]
      · simp [maySend, hpc, NetPc.mayCount, hsent]
    · rename_i t heq
      rw [heq] at hsent
      have hsent : t.framesSent = s.net.framesSent := hsent
      refine ⟨?_, ?_, rfl, rfl⟩
      · simp only [Action.idle, netWork, hpc, NetPc.work, Bool.false_eq_true, if_false]
        omega
      · simp [maySend, hpc, NetPc.mayCount, hsent]
  | popNull hpc htaken =>
    refine ⟨?_, ?_, rfl, rfl⟩
    · simp only [Action.idle, netWork, Net.popped, hpc, htaken, NetPc.work, Bool.false_eq_true,
        if_false]
      omega
    · simp [maySend, Net.popped, hpc, NetPc.mayCount]
  | popTake hpc htaken hq =>
    have hlen := tailPacket_len hI (count_pos_of_popTake hq) hmax
    refine ⟨?_, Nat.le_refl _, QState.pushWork_stays (fun _ h => by cases h) rfl hq, rfl⟩
    simp only [Action.idle, netWork, QState.popTake, hpc, htaken, NetPc.work, Bool.false_eq_true,
      if_false]
    omega
  | @popBuild p qs hpc htaken hq =>
    refine ⟨?_, ?_, QState.pushWork_stays (fun _ h => by cases h) rfl hq, rfl⟩
    · simp only [Action.idle, netWork, Net.popped, Net.record, hpc, htaken, NetPc.work,
        headerOf_length, Bool.false_eq_true, if_false]
      omega
    · simp [maySend, Net.popped, Net.record, hpc, NetPc.mayCount]
  | popFail hpc hq =>
    have hpush := QState.pushWork_stays (fun _ h => by cases h) rfl hq
    refine ⟨?_, ?_, hpush, rfl⟩
    · simp only [Action.idle, netWork, Net.popped, hpc, NetPc.work, Bool.false_eq_true, if_false]
      split <;> omega
    · simp [maySend, Net.popped, hpc, NetPc.mayCount]
  | @write p r net hp hn =>
    have hwork := Net.write_work s.qs.taken hn
    have hsent : net.framesSent = s.net.framesSent := by
      rcases Net.write_cases hn with ⟨_, _, -, -, ⟨n, rfl⟩ | rfl | rfl⟩ |
        ⟨_, _, -, -, ⟨n, rfl⟩ | rfl | rfl⟩ <;> rfl
    cases hidle : asksAgain r with
    | true =>
      rw [hidle] at hwork
      have hpc : net.pc = s.net.pc := hwork
      refine ⟨?_, ?_, rfl, rfl⟩
      · simp [Action.idle, hidle, netWork, hpc]
      · simp [maySend, hpc, hsent]
    | false =>
      rw [hidle] at hwork
      obtain ⟨hlt, hmay⟩ := hwork
      refine ⟨?_, ?_, rfl, rfl⟩
      · simp only [Action.idle, hidle, netWork, Bool.false_eq_true, if_false]
        exact hlt
      · simp only [maySend, hsent]
        omega
  | @free p gone qs net hpc hq hn =>
    obtain ⟨hwork, hsent⟩ := Net.advance_work s.qs.taken hdone hn
    have htaken : qs.taken = s.qs.taken := by
      obtain ⟨p, -, rfl⟩ := QState.release_cases hq
      rfl
    refine ⟨?_, hsent, QState.pushWork_stays (fun _ h => by cases h) rfl hq, rfl⟩
    simp only [Action.idle, netWork, htaken, Bool.false_eq_true, if_false]
    exact hwork
  | advance hpc hn =>
    obtain ⟨hwork, hsent⟩ := Net.advance_work s.qs.taken hdone hn
    exact ⟨hwork, hsent, rfl, rfl⟩

/-- What the other threads do leaves the work of the network thread. -/
theorem netWork_stays (hm : Moves c s a s') (ha : a.ofNetwork = false) :
    s'.netWork = s.netWork ∧ s'.maySend = s.maySend := by
  cases hm with
  | idle _ => exact ⟨rfl, rfl⟩
  | capture _ _ hq =>
    refine ⟨?_, rfl⟩
    simp only [netWork, (QState.pushCall_sameConsumer hq).taken]
  | push hb hq =>
    refine ⟨?_, rfl⟩
    simp only [netWork, (QState.push_sameConsumer hb hq).taken]
  | shutdown hq =>
    refine ⟨?_, rfl⟩
    simp only [netWork, (QState.shutdown_sameConsumer hq).taken]
  | _ => exact absurd ha nofun

/-- The local code can run wherever there is some, if the packet to free is there. -/
theorem advance_enabled {net : Net} (hn : s.net.advance c.tls = some net)
    (hfree : ∀ p, s.net.pc.packet = some p → ∃ qs, s.qs.release 0 = some qs) :
    ∃ a s', Client.Process.isNetwork a = true ∧ a.idle = false ∧ s.step c a = some s' := by
  refine ⟨.advance, ?_⟩
  simp only [step, advance, hn]
  split
  · rename_i p hpc
    obtain ⟨qs, hqs⟩ := hfree p (by rw [hpc]; rfl)
    exact ⟨_, rfl, rfl, by rw [hqs]; rfl⟩
  · rename_i p hpc
    obtain ⟨qs, hqs⟩ := hfree p (by rw [hpc]; rfl)
    exact ⟨_, rfl, rfl, by rw [hqs]; rfl⟩
  · exact ⟨_, rfl, rfl, rfl⟩

/-- Inside `networkLoop`, and not at its test, the network thread can go on. -/
theorem network_enabled (c : Config) (hco : Coherent s) (hpc : s.net.pc ≠ .head)
    (hdone : s.net.pc ≠ .done ∧ s.net.pc ≠ .destroyed) :
    ∃ a s', Client.Process.isNetwork a = true ∧ a.idle = false ∧ s.step c a = some s' := by
  have hfree : ∀ p, s.net.pc.packet = some p → ∃ qs, s.qs.release 0 = some qs := by
    intro p hp
    have hout := hco.held
    rw [hp] at hout
    exact ⟨_, by simp only [QState.release, hout]; rfl⟩
  cases hplace : s.net.pc with
  | head => exact absurd hplace hpc
  | done => exact absurd hplace hdone.1
  | destroyed => exact absurd hplace hdone.2
  | connecting => exact ⟨.connect ⟨none, none, true, true, 1⟩, _, rfl, rfl, if_pos hplace⟩
  | pop =>
    cases htaken : s.qs.taken with
    | nil => exact ⟨.popNull, _, rfl, rfl, if_pos ⟨hplace, htaken⟩⟩
    | cons p t =>
      have hone := hco.one
      rw [htaken, List.length_cons] at hone
      have ht : t = [] := List.length_eq_zero_iff.mp (by omega)
      rw [ht] at htaken
      exact ⟨.popBuild, _, rfl, rfl, by
        simp only [step, hplace, if_true, popBuild, htaken, QState.popBuild]; rfl⟩
  | header p rest =>
    cases rest with
    | nil => exact advance_enabled (by unfold Net.advance; rw [hplace]; rfl) hfree
    | cons b rest =>
      exact ⟨.write (.ok 1), _, rfl, rfl, by
        simp only [step, write, hplace, NetPc.packet, Net.write]; rfl⟩
  | payload p off =>
    rcases Nat.lt_or_ge off p.len.toNat with hlt | hge
    · exact ⟨.write (.ok 1), _, rfl, rfl, by
        simp only [step, write, hplace, NetPc.packet, Net.write, if_neg (Nat.not_le.mpr hlt)]
        rfl⟩
    · exact advance_enabled (by unfold Net.advance; rw [hplace]; exact if_pos hge) hfree
  | backoff => exact advance_enabled (by unfold Net.advance; rw [hplace]) hfree
  | failed p => exact advance_enabled (by unfold Net.advance; rw [hplace]) hfree
  | disconnect => exact advance_enabled (by unfold Net.advance; rw [hplace]) hfree
  | sent p => exact advance_enabled (by unfold Net.advance; rw [hplace]) hfree
  | counted p => exact advance_enabled (by unfold Net.advance; rw [hplace]) hfree
  | leaving => exact advance_enabled (by unfold Net.advance; rw [hplace]) hfree

end Streamer

end CameraStreamer
