import CameraStreamer.Client.Wire
import CameraStreamer.RingQueue.Contracts

/-!
# What a step of the streamer leaves alone

Each thread of the streamer writes its own part of the state: the capture thread the producer's side
of the queue, the network thread its connection. `main` reads both.

* `Moves.sameNet`, `Moves.sameProducer`: the part of one thread is left by the steps of the other.
* `connect_wires`, `write_wires`, `advance_wires`: `tlsConnect` alone makes connections.
-/

namespace CameraStreamer

open Lib.Machine Lib.Endian Protocol TlsClient

/-! ## What a step of the streamer leaves alone -/

namespace QState

variable {s s' : QState} {a : QAction}

/-- Only `shutdown` shuts a queue down. -/
theorem shutdown_same (hs : s.step a = some s') (ha : a ≠ .shutdown) :
    s'.q.shutdown = s.q.shutdown := by
  cases a with
  | pushCall x => rcases pushCall_cases hs with ⟨rfl, -⟩ | ⟨-, -, -, rfl⟩ <;> rfl
  | pushTest => obtain ⟨x, -, ⟨-, -, rfl⟩ | ⟨-, -, rfl⟩ | ⟨-, rfl⟩⟩ := pushTest_cases hs <;> rfl
  | pushGuard => obtain ⟨x, -, ⟨-, rfl⟩ | ⟨-, rfl⟩⟩ := pushGuard_cases hs <;> rfl
  | pushWrite => obtain ⟨x, -, rfl⟩ := pushWrite_cases hs; rfl
  | pushCount => obtain ⟨-, rfl⟩ := pushCount_cases hs; rfl
  | pop t => rcases pop_cases hs with rfl | ⟨-, -, rfl⟩ <;> rfl
  | popBuild i => obtain ⟨p, -, rfl⟩ := popBuild_cases hs; rfl
  | popFail i => obtain ⟨p, -, rfl⟩ := popFail_cases hs; rfl
  | release i => obtain ⟨p, -, rfl⟩ := release_cases hs; rfl
  | shutdown => exact absurd rfl ha

/-- The producer is left alone. -/
structure SameProducer (s s' : QState) : Prop where
  pushing : s'.pushing = s.pushing
  uncounted : s'.uncounted = s.uncounted

end QState

namespace Streamer

variable {c : Config} {s s' : Streamer} {a : Action}

/-- An action of the capture thread. -/
def Action.isCapture : Action → Bool
  | .capture _ => true
  | .push _ => true
  | _ => false

/-- An action of the network thread. -/
def Action.ofNetwork : Action → Bool
  | .capture _ => false
  | .push _ => false
  | .shutdown => false
  | _ => true

/-- What the capture thread and `shutdown` do leaves the network thread where it is. -/
theorem Moves.sameNet (hm : Moves c s a s') (ha : a.isCapture = true ∨ a = .shutdown) :
    s'.net = s.net := by
  cases hm with
  | idle _ => rfl
  | capture _ _ _ => rfl
  | push _ _ => rfl
  | shutdown _ => rfl
  | _ => rcases ha with ha | ha <;> exact absurd ha nofun

/-- What the network thread and `shutdown` do leaves a `push` where it is. -/
theorem Moves.sameProducer (hm : Moves c s a s') (ha : a.isCapture = false) :
    QState.SameProducer s.qs s'.qs := by
  cases hm with
  | idle _ => exact absurd ha nofun
  | capture _ _ _ => exact absurd ha nofun
  | push _ _ => exact absurd ha nofun
  | test _ => exact ⟨rfl, rfl⟩
  | connect _ => exact ⟨rfl, rfl⟩
  | popNull _ _ => exact ⟨rfl, rfl⟩
  | popTake _ _ _ => exact ⟨rfl, rfl⟩
  | popBuild _ _ hq =>
    obtain ⟨p, -, rfl⟩ := QState.popBuild_cases hq
    exact ⟨rfl, rfl⟩
  | popFail _ hq =>
    obtain ⟨p, -, rfl⟩ := QState.popFail_cases hq
    exact ⟨rfl, rfl⟩
  | write _ _ => exact ⟨rfl, rfl⟩
  | free _ hq _ =>
    obtain ⟨p, -, rfl⟩ := QState.release_cases hq
    exact ⟨rfl, rfl⟩
  | advance _ _ => exact ⟨rfl, rfl⟩
  | shutdown hq =>
    obtain ⟨-, rfl⟩ := QState.shutdown_cases hq
    exact ⟨rfl, rfl⟩

/-- Only `shutdown` shuts the queue down. -/
theorem Moves.shutdown_same (hm : Moves c s a s') (ha : a ≠ .shutdown) :
    s'.qs.q.shutdown = s.qs.q.shutdown := by
  cases hm with
  | idle _ => rfl
  | capture _ _ hq => exact QState.shutdown_same hq nofun
  | push hb hq => exact QState.shutdown_same hq fun h => by rw [h] at hb; cases hb
  | test _ => rfl
  | connect _ => rfl
  | popNull _ _ => rfl
  | popTake _ _ hq => exact QState.shutdown_same hq nofun
  | popBuild _ _ hq => exact QState.shutdown_same hq nofun
  | popFail _ hq => exact QState.shutdown_same hq nofun
  | write _ _ => rfl
  | free _ hq _ => exact QState.shutdown_same hq nofun
  | advance _ _ => rfl
  | shutdown _ => exact absurd rfl ha

/-- A queue once shut down stays so. -/
theorem Moves.shut (hm : Moves c s a s') (h : s.qs.q.shutdown = true) :
    s'.qs.q.shutdown = true := by
  by_cases ha : a = .shutdown
  · subst ha
    cases hm with
    | shutdown hq =>
      obtain ⟨-, rfl⟩ := QState.shutdown_cases hq
      rfl
  · exact (hm.shutdown_same ha).trans h

end Streamer

/-! ## The connections made -/

namespace TlsClient.Net

variable {o : ByteOrder} {cfg : TlsConfig} {s s' : Net} {env : ConnectEnv}

/-- Every check of `tlsConnect` passed, the name check and the handshake among them. -/
def ConnectEnv.Passed (env : ConnectEnv) : Prop :=
  env.hostOk = true ∧ env.setFdOk = true ∧ env.connectRet = 1

/-- `tlsConnect` returns `true` only where all of them passed. -/
theorem tlsConnect_passed (h : (s.tlsConnect cfg env).1 = true) : env.Passed := by
  unfold tlsConnect at h
  simp only at h
  split at h
  · exact absurd h nofun
  · split at h
    · exact absurd h nofun
    · split at h
      · exact absurd h nofun
      · rename_i hhost
        split at h
        · exact absurd h nofun
        · rename_i hfd
          split at h
          · exact absurd h nofun
          · rename_i hret
            exact ⟨by simpa using hhost, by simpa using hfd, not_not.mp hret⟩

theorem connect_wires (hdown : s.cur = none) :
    (s.connect cfg env).wires.length =
      s.wires.length + if (s.tlsConnect cfg env).1 then 1 else 0 := by
  have hatt : Attempt s (s.tlsConnect cfg env) := tlsConnect_attempt env
  unfold connect
  split
  · rename_i t heq
    rw [heq] at hatt
    have hcur : t.cur = some ⟨[], []⟩ := hatt.opened rfl
    have hpast : t.past = s.past := hatt.past
    simp [wires, heq, hcur, hpast, hdown]
  · rename_i t heq
    rw [heq] at hatt
    have hcur : t.cur = s.cur := hatt.failed rfl
    have hpast : t.past = s.past := hatt.past
    simp [wires, heq, hcur, hpast]

theorem test_wires (running : Bool) : (s.test running).wires = s.wires := by
  unfold test
  split_ifs <;> rfl

/-- What is written on a connection makes no other. -/
theorem map_wires {f : Wire → Wire} (hpast : s'.past = s.past) (hcur : s'.cur = s.cur.map f) :
    s'.wires.length = s.wires.length := by
  unfold wires
  rw [hpast, hcur]
  cases s.cur <;> simp

theorem write_wires {r : Except SslError Nat} {slot : List UInt8} (h : s.write r slot = some s') :
    s'.wires.length = s.wires.length := by
  rcases write_cases h with ⟨p, rest, -, -, ⟨n, rfl⟩ | rfl | rfl⟩ | ⟨p, off, -, -, hcase⟩
  · exact map_wires rfl rfl
  · rfl
  · exact map_wires rfl rfl
  · rcases hcase with ⟨n, rfl⟩ | rfl | rfl
    · exact map_wires rfl rfl
    · rfl
    · exact map_wires rfl rfl

theorem disconnect_wires (s : Net) : s.tlsDisconnect.wires = s.wires := by
  obtain ⟨-, hpast, hcur⟩ := tlsDisconnect_rest s
  unfold wires
  rw [hpast, hcur, Option.toList_none, List.append_nil]

theorem advance_wires (h : s.advance cfg = some s') : s'.wires = s.wires := by
  cases advance_cases h with
  | retry _ => rfl
  | headerDone _ => rfl
  | payloadDone _ _ => rfl
  | giveUp _ => rfl
  | count _ => rfl
  | free _ => rfl
  | disconnect _ => exact disconnect_wires s
  | leave _ => exact disconnect_wires s
  | destroy _ => exact disconnect_wires s

end TlsClient.Net

end CameraStreamer
