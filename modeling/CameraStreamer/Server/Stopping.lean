import CameraStreamer.Lib.Simulation
import CameraStreamer.Server.Serving

/-!
# The server stops

Once `g_running` is `false` the connection being served ends with the frame in hand, and `main`
leaves its loop at the next test. The calls of the system are taken to return; a client that is
silent keeps `SSL_read` waiting, which the server does not guard against.

* **`shutdown_completes`**: from any state in which `g_running` is `false` every run comes to the
  end of `main` within seven steps, further signals apart; at most one more frame is received, and
  at most one more connection is accepted, of which nothing is read.
-/

namespace CameraStreamer.Server

open Lib.Machine Lib.Ledger Lib.Endian

variable {o : ByteOrder} {cfg : Config} {files : Files}

/-- The steps `main` has left once `g_running` is `false`. -/
def MainPc.work : MainPc → Nat
  | .select => 7
  | .accept => 6
  | .handshake => 5
  | .turn _ => 5
  | .head _ => 4
  | .hangup _ => 3
  | .loop => 2
  | .close => 1
  | .exited => 0

/-- The connections it may still accept. -/
def MainPc.mayAccept : MainPc → Nat
  | .select => 1
  | .accept => 1
  | .handshake => 1
  | _ => 0

/-- The frames it may still receive. -/
def MainPc.mayReceive : MainPc → Nat
  | .turn _ => 1
  | _ => 0

theorem work_afterError (eintr : Bool) : (afterError eintr).work ≤ 2 := by
  cases eintr <;> decide

theorem mayAccept_afterError (eintr : Bool) : (afterError eintr).mayAccept = 0 := by
  cases eintr <;> rfl

theorem work_next (r : Ready) : r.next.work ≤ 6 := by
  cases r with
  | error eintr => exact Nat.le_trans (work_afterError eintr) (by decide)
  | timeout => decide
  | ready => decide

theorem mayAccept_next (r : Ready) : r.next.mayAccept ≤ 1 := by
  cases r with
  | error eintr => exact Nat.le_trans (Nat.le_of_eq (mayAccept_afterError eintr)) (by decide)
  | timeout => decide
  | ready => decide

namespace Process

variable {p p' : Process} {a : Action}

/-- Nothing but another signal leaves the work as it is. -/
def idle (_ : Process) : Action → Bool
  | .signal => true
  | _ => false

def work (p : Process) : Nat := p.pc.work

/-- The connections accepted and those that may still be. -/
def mayAccept (p : Process) : Nat := p.served.length + p.pc.mayAccept

/-- The frames received and those that may still be. -/
def mayReceive (p : Process) : Nat := p.now.framesReceived + p.pc.mayReceive

/-- What a step does while `g_running` is `false`. -/
structure Nears (idle : Bool) (p p' : Process) : Prop where
  running : p'.running = false
  work : if idle then p'.work = p.work else p'.work < p.work
  accept : p'.mayAccept ≤ p.mayAccept
  receive : p'.mayReceive ≤ p.mayReceive

/-- A turn takes at most one frame. -/
theorem turn_received {c c' : Client} {env : SaveEnv} {r : Option Exit}
    (h : c.turn o cfg env = (r, c')) : c'.srv.framesReceived ≤
      c.srv.framesReceived + if r = none then 1 else 0 := by
  rcases turn_cases o cfg env c with ⟨why, d, heq, -, hsrv⟩ | ⟨u, d, heq, -, -, -, -, htook⟩
  · rw [heq] at h
    cases h
    rw [hsrv]
    exact Nat.le_add_right _ _
  · rw [heq] at h
    cases h
    exact Nat.le_of_eq htook.framesReceived

theorem received_afterError (eintr : Bool) (ops : List (Op Obj)) :
    (p.goto (afterError eintr) ops).mayReceive = p.srv.framesReceived := by
  cases eintr <;> rfl

theorem received_next (r : Ready) (ops : List (Op Obj)) :
    (p.goto r.next ops).mayReceive = p.srv.framesReceived := by
  cases r with
  | error eintr => exact received_afterError eintr ops
  | timeout => rfl
  | ready => rfl

/-- **Each step brings the end nearer.** -/
theorem nears_step (hrun : p.running = false) (hm : Moves o cfg p a p') :
    Nears (idle p a) p p' := by
  cases hm with
  | signal => exact ⟨rfl, rfl, Nat.le_refl _, Nat.le_refl _⟩
  | loop hpc =>
    rw [hrun]
    refine ⟨hrun, ?_, ?_, ?_⟩
    · simp [idle, work, goto, hpc, MainPc.work]
    · simp [mayAccept, goto, hpc, MainPc.mayAccept]
    · simp [mayReceive, now, goto, hpc, MainPc.mayReceive]
  | head hpc =>
    rw [hrun]
    refine ⟨hrun, ?_, ?_, ?_⟩
    · simp [idle, work, goto, hpc, MainPc.work]
    · simp [mayAccept, goto, hpc, MainPc.mayAccept]
    · simp [mayReceive, now, goto, hpc, MainPc.mayReceive]
  | @select r hpc =>
    refine ⟨hrun, ?_, ?_, ?_⟩
    · have hlt : r.next.work < p.pc.work := by
        rw [hpc]
        exact Nat.lt_succ_of_le (work_next r)
      exact hlt
    · rw [mayAccept, mayAccept, hpc]
      exact Nat.add_le_add_left (mayAccept_next r) _
    · rw [received_next, mayReceive, now, hpc]
      exact Nat.le_add_right _ _
  | @refused eintr hpc =>
    refine ⟨hrun, ?_, ?_, ?_⟩
    · have hlt : (afterError eintr).work < p.pc.work := by
        rw [hpc]
        exact Nat.lt_of_le_of_lt (work_afterError eintr) (by decide)
      exact hlt
    · have hle : (afterError eintr).mayAccept ≤ p.pc.mayAccept := by
        rw [mayAccept_afterError]
        exact Nat.zero_le _
      exact Nat.add_le_add_left hle _
    · rw [received_afterError, mayReceive, now, hpc]
      exact Nat.le_add_right _ _
  | accepted hpc =>
    refine ⟨hrun, ?_, ?_, ?_⟩
    · simp [idle, work, goto, hpc, MainPc.work]
    · simp [mayAccept, goto, hpc, MainPc.mayAccept]
    · simp [mayReceive, now, goto, hpc, MainPc.mayReceive]
  | failed hpc =>
    refine ⟨hrun, ?_, ?_, ?_⟩
    · simp [idle, work, hangUp, goto, hpc, MainPc.work]
    · simp [mayAccept, hangUp, goto, hpc, MainPc.mayAccept]
    · simp [mayReceive, now, hangUp, goto, hpc, MainPc.mayReceive]
  | shaken hpc =>
    refine ⟨hrun, ?_, ?_, ?_⟩
    · simp [idle, work, goto, hpc, MainPc.work]
    · simp [mayAccept, goto, hpc, MainPc.mayAccept]
    · simp [mayReceive, now, goto, hpc, MainPc.mayReceive]
  | goes hpc hturn =>
    have htook := turn_received hturn
    refine ⟨hrun, ?_, ?_, ?_⟩
    · simp [idle, work, goto, hpc, MainPc.work]
    · simp [mayAccept, goto, hpc, MainPc.mayAccept]
    · simpa [mayReceive, now, goto, hpc, MainPc.mayReceive] using htook
  | leaves hpc hturn =>
    have htook := turn_received hturn
    refine ⟨hrun, ?_, ?_, ?_⟩
    · simp [idle, work, goto, hpc, MainPc.work]
    · simp [mayAccept, goto, hpc, MainPc.mayAccept]
    · simp only [reduceCtorEq, if_false, Nat.add_zero] at htook
      simp only [mayReceive, now, goto, hpc, MainPc.mayReceive]
      omega
  | hangup hpc =>
    refine ⟨hrun, ?_, ?_, ?_⟩
    · simp [idle, work, hangUp, goto, hpc, MainPc.work]
    · simp [mayAccept, hangUp, goto, hpc, MainPc.mayAccept]
    · simp [mayReceive, now, hangUp, goto, hpc, MainPc.mayReceive, wipe_srv]
  | close hpc =>
    refine ⟨hrun, ?_, ?_, ?_⟩
    · simp [idle, work, goto, hpc, MainPc.work]
    · simp [mayAccept, goto, hpc, MainPc.mayAccept]
    · simp [mayReceive, now, goto, hpc, MainPc.mayReceive]

/-! ## The end -/

/-- Somewhere in `main` a step can always be taken. -/
theorem step_enabled (o : ByteOrder) (cfg : Config) (h : p.pc ≠ .exited) :
    ∃ a p', p.idle a = false ∧ p.step o cfg a = some p' := by
  cases hpc : p.pc with
  | loop => exact ⟨.test, _, rfl, by simp only [step, hpc]; rfl⟩
  | select => exact ⟨.select .timeout, _, rfl, by simp only [step, hpc]; rfl⟩
  | accept => exact ⟨.accept (.ok ()), _, rfl, by simp only [step, hpc]; rfl⟩
  | handshake => exact ⟨.handshake true none, _, rfl, by simp only [step, hpc]; rfl⟩
  | head c => exact ⟨.test, _, rfl, by simp only [step, hpc]; rfl⟩
  | turn c =>
    rcases turn_cases o cfg (noFailure 0) c with ⟨why, d, heq, -⟩ | ⟨u, d, heq, -⟩
    · exact ⟨.turn (noFailure 0), _, rfl, by simp only [step, hpc, heq]; rfl⟩
    · exact ⟨.turn (noFailure 0), _, rfl, by simp only [step, hpc, heq]; rfl⟩
  | hangup c => exact ⟨.hangup, _, rfl, by simp only [step, hpc]; rfl⟩
  | close => exact ⟨.close, _, rfl, by simp only [step, hpc]; rfl⟩
  | exited => exact absurd hpc h

theorem stops_progress (o : ByteOrder) (cfg : Config) :
    Progress (step o cfg) (fun _ _ => True) (fun p => p.running = false) idle work
      fun p => p.pc = .exited where
  keeps _ hrun _ hs := (nears_step hrun (step_moves hs)).running
  stays a hrun _ hs hidle := by
    have hwork := (nears_step hrun (step_moves hs)).work
    rw [if_pos hidle] at hwork
    exact Nat.le_of_eq hwork
  falls a hrun _ hs hidle := by
    have hwork := (nears_step hrun (step_moves hs)).work
    rwa [if_neg (by rw [hidle]; exact Bool.false_ne_true)] at hwork
  enabled _ hexit := by
    obtain ⟨a, p', hidle, hs⟩ := step_enabled o cfg hexit
    exact ⟨a, p', trivial, hidle, hs⟩

/-- How the server ends, from a state in which `g_running` is `false`. -/
structure Stops (o : ByteOrder) (cfg : Config) (p : Process) : Prop where
  /-- Signals apart, a run takes no more than `work` steps. -/
  bounded : ∀ as p', Runs (step o cfg) (fun _ _ => True) as p p' →
    (trace (step o cfg) (busy idle) as p).length ≤ p.work
  /-- It stops only where `main` has returned. -/
  completes : ∀ as p', Runs (step o cfg) (fun _ _ => True) as p p' →
    (∀ a q, p'.idle a = false → p'.step o cfg a ≠ some q) → p'.pc = .exited
  /-- At most the connection that is waiting is still accepted. -/
  accepted : ∀ as p', Runs (step o cfg) (fun _ _ => True) as p p' →
    p'.served.length ≤ p.served.length + p.pc.mayAccept
  /-- At most the frame in hand is still received. -/
  received : ∀ as p', Runs (step o cfg) (fun _ _ => True) as p p' →
    p'.now.framesReceived ≤ p.now.framesReceived + p.pc.mayReceive

/-- **The server stops**, wherever the signal falls. -/
theorem shutdown_completes (o : ByteOrder) (cfg : Config) (hrun : p.running = false) :
    Stops o cfg p := by
  have hprog := stops_progress o cfg
  refine ⟨fun as p' hruns => ?_, fun as p' hruns hstuck => ?_, fun as p' hruns => ?_,
    fun as p' hruns => ?_⟩
  · exact Nat.le_of_add_right_le (hprog.bounded hruns hrun)
  · exact hprog.done_of_stuck (hprog.invariant hruns hrun) fun a q _ hidle => hstuck a q hidle
  · have hmay := hprog.le_of_step (fun a hrun _ hs => (nears_step hrun (step_moves hs)).accept)
      hruns hrun
    exact Nat.le_of_add_right_le hmay
  · have hmay := hprog.le_of_step (fun a hrun _ hs => (nears_step hrun (step_moves hs)).receive)
      hruns hrun
    exact Nat.le_of_add_right_le hmay

theorem shutdown_completes_serving : ∃ p : Process, p.served.length = 1 ∧
    Stops .little ⟨[], false⟩ p := by
  obtain ⟨p, -, hserved, hrun, -⟩ := serving_reachable
  exact ⟨p, hserved, shutdown_completes .little _ hrun⟩

end Process

end CameraStreamer.Server
