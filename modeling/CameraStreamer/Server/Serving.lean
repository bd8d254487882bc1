import CameraStreamer.Server.Archive
import CameraStreamer.Server.Descriptors

/-!
# The server program serves as the accept loop does

`acceptLoop` runs `handleClient` whole, with `g_running` given for each turn. The process of
`Process.lean` takes one turn after the other and has one `g_running`, which a signal clears at any
time. At every moment it has done what `acceptLoop` does with the connections so far.

* `Comes`: from where a connection has come to, `handleClient` goes on as it does from its start.
* `Inv`, `inv_step`: kept by each step, the signal included.
* **`serves`**: over every run and at every moment, the statistics and the files are those of the
  streams of the connections so far, each cut into units on its own; only the connection the signal
  falls in may be cut short.
-/

namespace CameraStreamer.Server

open Lib.Machine Lib.Ledger Lib.Endian Lib.Framing

variable {o : ByteOrder} {cfg : Config} {files : Files}

/-! ## `handleClient` turn by turn -/

section Turns

variable {running : Nat → Bool} {envs : Nat → SaveEnv} {c c' : Client}

theorem loop_stopped (hrun : running c.clientFrames = false) :
    c.loop o cfg running envs = (.stopped, c) := by
  rw [Client.loop, if_neg (by rw [hrun]; exact Bool.false_ne_true)]

theorem loop_goes (hrun : running c.clientFrames = true)
    (hturn : c.turn o cfg (envs c.clientFrames) = (none, c')) :
    c.loop o cfg running envs = c'.loop o cfg running envs := by
  rw [Client.loop, if_pos hrun]
  split
  · rename_i d hd
    rw [hd] at hturn
    cases hturn
    rfl
  · rename_i why d hd
    rw [hd] at hturn
    cases hturn

theorem loop_leaves {why : Exit} (hrun : running c.clientFrames = true)
    (hturn : c.turn o cfg (envs c.clientFrames) = (some why, c')) :
    c.loop o cfg running envs = (why, c') := by
  rw [Client.loop, if_pos hrun]
  split
  · rename_i d hd
    rw [hd] at hturn
    cases hturn
  · rename_i why' d hd
    rw [hd] at hturn
    cases hturn
    rfl

theorem wipe_srv (c : Client) : c.wipe.srv = c.srv := by
  unfold Client.wipe
  split <;> rfl

end Turns

/-- The connection has come to `c`: whatever its turns find from here on, `handleClient` goes on
from there. -/
def Comes (o : ByteOrder) (cfg : Config) (srv : ServerState) (conn : SslConn)
    (envs : Nat → SaveEnv) (c : Client) : Prop :=
  ∀ running envs', (∀ i < c.clientFrames, running i = true ∧ envs' i = envs i) →
    Client.loop o cfg running envs' ⟨conn, [], 0, srv, []⟩ = c.loop o cfg running envs'

theorem Comes.goes {srv : ServerState} {conn : SslConn} {envs : Nat → SaveEnv} {c c' : Client}
    {env : SaveEnv} (h : Comes o cfg srv conn envs c) (hturn : c.turn o cfg env = (none, c')) :
    Comes o cfg srv conn (Function.update envs c.clientFrames env) c' := by
  have hframes : c'.clientFrames = c.clientFrames + 1 := by
    rcases turn_cases o cfg env c with ⟨why, d, heq, -⟩ | ⟨u, d, heq, -, -, -, hframes, -⟩
    · rw [heq] at hturn
      cases hturn
    · rw [heq] at hturn
      cases hturn
      exact hframes
  intro running envs' hagree
  rw [hframes] at hagree
  obtain ⟨hrun, henv⟩ := hagree c.clientFrames (Nat.lt_succ_self _)
  rw [Function.update_self] at henv
  have hearlier : ∀ i < c.clientFrames, running i = true ∧ envs' i = envs i := by
    intro i hi
    obtain ⟨hrun, henv⟩ := hagree i (Nat.lt_succ_of_lt hi)
    exact ⟨hrun, by rwa [Function.update_of_ne (Nat.ne_of_lt hi)] at henv⟩
  rw [h running envs' hearlier]
  exact loop_goes hrun (by rw [henv]; exact hturn)

/-! ## The connections of a process -/

/-- A session as the accept loop meets it. -/
def Session.event (s : Session) : AcceptEvent := .client s.conn s.running s.envs

@[simp] theorem sessions_map_event (ss : List Session) : sessions (ss.map Session.event) = ss := by
  induction ss with
  | nil => rfl
  | cons s ss ih => exact congrArg (s :: ·) ih

theorem acceptLoop_snoc (ss : List Session) (s : Session) (srv : ServerState) :
    acceptLoop o cfg ((ss ++ [s]).map Session.event) srv =
      (handleClient o cfg s.running s.envs s.conn
        (acceptLoop o cfg (ss.map Session.event) srv)).2.srv := by
  induction ss generalizing srv with
  | nil => rfl
  | cons _ _ ih => exact ih _

/-- A connection of which `n` turns have been taken. -/
def Session.upTo (conn : SslConn) (envs : Nat → SaveEnv) (n : Nat) : Session :=
  ⟨conn, fun i => decide (i < n), envs⟩

theorem Comes.upTo {srv : ServerState} {conn : SslConn} {envs : Nat → SaveEnv} {c : Client}
    (h : Comes o cfg srv conn envs c) : (handleClient o cfg
      (Session.upTo conn envs c.clientFrames).running envs conn srv).2 = c.wipe := by
  have hloop := h (Session.upTo conn envs c.clientFrames).running envs
    fun i hi => ⟨decide_eq_true hi, rfl⟩
  unfold handleClient
  rw [hloop, loop_stopped (decide_eq_false (Nat.lt_irrefl _))]

/-- It ends with a turn that leaves the loop. -/
theorem Comes.leaves {srv : ServerState} {conn : SslConn} {envs : Nat → SaveEnv} {c c' : Client}
    {env : SaveEnv} {why : Exit} (h : Comes o cfg srv conn envs c)
    (hturn : c.turn o cfg env = (some why, c')) : (handleClient o cfg (fun _ => true)
      (Function.update envs c.clientFrames env) conn srv).2 = c'.wipe := by
  have hloop := h (fun _ => true) (Function.update envs c.clientFrames env)
    fun i hi => ⟨rfl, Function.update_of_ne (Nat.ne_of_lt hi) env envs⟩
  unfold handleClient
  rw [hloop, loop_leaves rfl (by rw [Function.update_self]; exact hturn)]

namespace Process

variable {p p' : Process} {a : Action}

/-- A connection is being served. -/
structure Midway (o : ByteOrder) (cfg : Config) (ss : List Session) (p : Process) (c : Client) :
    Prop where
  comes : ∃ conn envs, Comes o cfg p.srv conn envs c ∧ p.served = ss.map Session.conn ++ [conn]
  earlier : ∀ s ∈ ss, s.Running

/-- `handleClient` has left its loop. -/
structure Left (o : ByteOrder) (cfg : Config) (ss : List Session) (p : Process) (c : Client) :
    Prop where
  left : ∃ s : Session, (handleClient o cfg s.running s.envs s.conn p.srv).2 = c.wipe ∧
    p.served = (ss ++ [s]).map Session.conn ∧ (p.running = true → s.Running)
  earlier : ∀ s ∈ ss, s.Running

/-- No connection is being served; the signal may have fallen in the last. -/
structure Between (ss : List Session) (p : Process) : Prop where
  served : p.served = ss.map Session.conn
  earlier : ∀ s ∈ ss.dropLast, s.Running
  whole : p.running = true → ∀ s ∈ ss, s.Running

/-- Nor has the signal fallen in one. -/
structure Waiting (ss : List Session) (p : Process) : Prop where
  served : p.served = ss.map Session.conn
  whole : ∀ s ∈ ss, s.Running

/-- What goes with each place of `main`. -/
def At (o : ByteOrder) (cfg : Config) (ss : List Session) (p : Process) : MainPc → Prop
  | .loop => Between ss p
  | .select => Waiting ss p
  | .accept => Waiting ss p
  | .handshake => Waiting ss p
  | .head c => Midway o cfg ss p c
  | .turn c => Midway o cfg ss p c
  | .hangup c => Left o cfg ss p c
  | .close => Between ss p
  | .exited => Between ss p

/-- **The invariant**: `ss` are the connections closed so far. -/
structure Inv (o : ByteOrder) (cfg : Config) (files : Files) (ss : List Session) (p : Process) :
    Prop where
  srv : p.srv = acceptLoop o cfg (ss.map Session.event) (.start files)
  place : At o cfg ss p p.pc

variable {ss : List Session}

theorem Waiting.between (h : Waiting ss p) : Between ss p :=
  ⟨h.served, fun s hs => h.whole s (List.mem_of_mem_dropLast hs), fun _ => h.whole⟩

/-- What waits goes on waiting, or leaves the accept loop. -/
theorem Waiting.goto {pc : MainPc} {ops : List (Op Obj)} (h : Waiting ss p)
    (hpc : pc = .loop ∨ pc = .accept ∨ pc = .close) : At o cfg ss (p.goto pc ops) pc := by
  have hwait : Waiting ss (p.goto pc ops) := ⟨h.served, h.whole⟩
  rcases hpc with rfl | rfl | rfl
  · exact hwait.between
  · exact hwait
  · exact hwait.between

theorem afterError_cases (eintr : Bool) :
    afterError eintr = .loop ∨ afterError eintr = .accept ∨ afterError eintr = .close := by
  cases eintr
  · exact .inr (.inr rfl)
  · exact .inl rfl

theorem next_cases (r : Ready) : r.next = .loop ∨ r.next = .accept ∨ r.next = .close := by
  cases r with
  | error eintr => exact afterError_cases eintr
  | timeout => exact .inl rfl
  | ready => exact .inr (.inl rfl)

/-- A signal. -/
theorem At.stop {pc : MainPc} (h : At o cfg ss p pc) :
    At o cfg ss { p with running := false } pc := by
  cases pc with
  | loop => exact ⟨h.served, h.earlier, fun hrun => by cases hrun⟩
  | select => exact ⟨h.served, h.whole⟩
  | accept => exact ⟨h.served, h.whole⟩
  | handshake => exact ⟨h.served, h.whole⟩
  | head c => exact ⟨h.comes, h.earlier⟩
  | turn c => exact ⟨h.comes, h.earlier⟩
  | hangup c =>
    obtain ⟨⟨s, hs, hserved, -⟩, hearlier⟩ := h
    exact ⟨⟨s, hs, hserved, fun hrun => by cases hrun⟩, hearlier⟩
  | close => exact ⟨h.served, h.earlier, fun hrun => by cases hrun⟩
  | exited => exact ⟨h.served, h.earlier, fun hrun => by cases hrun⟩

/-- The connection is closed. -/
theorem Left.closed {c : Client} (h : Inv o cfg files ss p) (hleft : Left o cfg ss p c)
    (ops : List (Op Obj)) : ∃ ss', Inv o cfg files ss' (p.hangUp c.wipe.srv ops) := by
  obtain ⟨⟨s, hs, hserved, hrun⟩, hearlier⟩ := hleft
  refine ⟨ss ++ [s], ?_, hserved, fun x hx => ?_, fun hp x hx => ?_⟩
  · rw [acceptLoop_snoc, ← h.srv, hs]
    rfl
  · rw [List.dropLast_concat] at hx
    exact hearlier x hx
  · rcases List.mem_append.mp hx with hx | hx
    · exact hearlier x hx
    · rw [List.mem_singleton.mp hx]
      exact hrun hp

/-- **Each step** keeps the invariant; a connection that ends joins those closed. -/
theorem inv_step (h : Inv o cfg files ss p) (hm : Moves o cfg p a p') :
    ∃ ss', Inv o cfg files ss' p' := by
  have hat := h.place
  cases hm with
  | signal => exact ⟨ss, h.srv, hat.stop⟩
  | loop hpc =>
    have hat : Between ss p := by rwa [hpc] at hat
    cases hrun : p.running with
    | true => exact ⟨ss, h.srv, hat.served, hat.whole hrun⟩
    | false => exact ⟨ss, h.srv, hat.served, hat.earlier, hat.whole⟩
  | @head c hpc =>
    have hat : Midway o cfg ss p c := by rwa [hpc] at hat
    obtain ⟨⟨conn, envs, hcomes, hserved⟩, hearlier⟩ := hat
    cases hrun : p.running with
    | true => exact ⟨ss, h.srv, ⟨conn, envs, hcomes, hserved⟩, hearlier⟩
    | false =>
      refine ⟨ss, h.srv, ⟨.upTo conn envs c.clientFrames, hcomes.upTo, ?_, fun hp => ?_⟩, hearlier⟩
      · rw [List.map_append]
        exact hserved
      · exact absurd (hrun.symm.trans hp) Bool.false_ne_true
  | @select r hpc =>
    have hat : Waiting ss p := by rwa [hpc] at hat
    exact ⟨ss, h.srv, hat.goto (next_cases r)⟩
  | @refused eintr hpc =>
    have hat : Waiting ss p := by rwa [hpc] at hat
    exact ⟨ss, h.srv, hat.goto (afterError_cases eintr)⟩
  | accepted hpc =>
    have hat : Waiting ss p := by rwa [hpc] at hat
    exact ⟨ss, h.srv, hat.served, hat.whole⟩
  | @failed made hpc =>
    have hat : Waiting ss p := by rwa [hpc] at hat
    have hwait : Waiting ss (p.hangUp p.srv (p.shake made)) := ⟨hat.served, hat.whole⟩
    exact ⟨ss, h.srv, hwait.between⟩
  | @shaken made conn hpc =>
    have hat : Waiting ss p := by rwa [hpc] at hat
    refine ⟨ss, h.srv, ⟨conn, noFailure, fun _ _ _ => rfl, ?_⟩, hat.whole⟩
    exact congrArg (· ++ [conn]) hat.served
  | @goes c c' env hpc hturn =>
    have hat : Midway o cfg ss p c := by rwa [hpc] at hat
    obtain ⟨⟨conn, envs, hcomes, hserved⟩, hearlier⟩ := hat
    exact ⟨ss, h.srv, ⟨conn, _, hcomes.goes hturn, hserved⟩, hearlier⟩
  | @leaves c c' env why hpc hturn =>
    have hat : Midway o cfg ss p c := by rwa [hpc] at hat
    obtain ⟨⟨conn, envs, hcomes, hserved⟩, hearlier⟩ := hat
    refine ⟨ss, h.srv, ⟨⟨conn, fun _ => true, Function.update envs c.clientFrames env⟩,
      hcomes.leaves hturn, ?_, fun _ => rfl⟩, hearlier⟩
    rw [List.map_append]
    exact hserved
  | @hangup c hpc =>
    have hat : Left o cfg ss p c := by rwa [hpc] at hat
    exact hat.closed h p.uses
  | close hpc =>
    have hat : Between ss p := by rwa [hpc] at hat
    exact ⟨ss, h.srv, hat.served, hat.earlier, hat.whole⟩

theorem inv_of_reachable (hr : Reachable o cfg files p) : ∃ ss, Inv o cfg files ss p := by
  obtain ⟨env, p₀, hboot, hr⟩ := hr
  obtain ⟨hpc, -, hsrv, hserved, -⟩ := booted hboot
  have hstart : Inv o cfg files [] p₀ := by
    refine ⟨hsrv, ?_⟩
    rw [hpc]
    have hnone : ∀ s ∈ ([] : List Session), s.Running := fun _ hs => absurd hs List.not_mem_nil
    exact ⟨hserved, hnone, fun _ => hnone⟩
  have hinv : Invariant (step o cfg) (fun _ _ => True) p₀ fun p => ∃ ss, Inv o cfg files ss p :=
    ⟨⟨[], hstart⟩, fun _ h _ hs => h.elim fun _ h => inv_step h (step_moves hs)⟩
  exact hr.invariant (I := fun p => ∃ ss, Inv o cfg files ss p) hinv

/-! ## The run -/

/-- A connection is in the loop of `handleClient`. -/
def serving (p : Process) : Bool :=
  match p.pc with
  | .head _ => true
  | .turn _ => true
  | _ => false

/-- The accept loop over the same connections. -/
structure Refines (o : ByteOrder) (cfg : Config) (files : Files) (ss : List Session) (p : Process) :
    Prop where
  served : p.served = ss.map Session.conn
  now : p.now = acceptLoop o cfg (ss.map Session.event) (.start files)
  earlier : ∀ s ∈ ss.dropLast, s.Running
  whole : p.running = true → p.serving = false → ∀ s ∈ ss, s.Running

theorem Between.refines (h : Inv o cfg files ss p) (hb : Between ss p) (hnow : p.now = p.srv) :
    Refines o cfg files ss p :=
  ⟨hb.served, hnow.trans h.srv, hb.earlier, fun hrun _ => hb.whole hrun⟩

theorem Midway.refines {c : Client} (h : Inv o cfg files ss p) (hm : Midway o cfg ss p c)
    (hnow : p.now = c.srv) (hserving : p.serving = true) : ∃ ss, Refines o cfg files ss p := by
  obtain ⟨⟨conn, envs, hcomes, hserved⟩, hearlier⟩ := hm
  refine ⟨ss ++ [.upTo conn envs c.clientFrames], ?_, ?_, fun s hs => ?_, fun _ hno => ?_⟩
  · rw [hserved, List.map_append]
    rfl
  · rw [hnow, acceptLoop_snoc, ← h.srv, ← wipe_srv c]
    exact congrArg Client.srv hcomes.upTo.symm
  · rw [List.dropLast_concat] at hs
    exact hearlier s hs
  · cases hserving.symm.trans hno

theorem Left.refines {c : Client} (h : Inv o cfg files ss p) (hl : Left o cfg ss p c)
    (hnow : p.now = c.srv) : ∃ ss, Refines o cfg files ss p := by
  obtain ⟨ss', h'⟩ := hl.closed h p.uses
  have hb : Between ss' (p.hangUp c.wipe.srv p.uses) := h'.place
  exact ⟨ss', hb.served, (hnow.trans (wipe_srv c).symm).trans h'.srv, hb.earlier,
    fun hrun _ => hb.whole hrun⟩

/-- **Refinement**: at every moment the process has done what the accept loop does with the
connections so far. -/
theorem refines (h : Inv o cfg files ss p) : ∃ ss, Refines o cfg files ss p := by
  have hat := h.place
  cases hpc : p.pc with
  | loop =>
    have hat : Between ss p := by rwa [hpc] at hat
    exact ⟨ss, hat.refines h (by rw [now, hpc])⟩
  | select =>
    have hat : Waiting ss p := by rwa [hpc] at hat
    exact ⟨ss, hat.between.refines h (by rw [now, hpc])⟩
  | accept =>
    have hat : Waiting ss p := by rwa [hpc] at hat
    exact ⟨ss, hat.between.refines h (by rw [now, hpc])⟩
  | handshake =>
    have hat : Waiting ss p := by rwa [hpc] at hat
    exact ⟨ss, hat.between.refines h (by rw [now, hpc])⟩
  | head c =>
    have hat : Midway o cfg ss p c := by rwa [hpc] at hat
    exact hat.refines h (by rw [now, hpc]) (by rw [serving, hpc])
  | turn c =>
    have hat : Midway o cfg ss p c := by rwa [hpc] at hat
    exact hat.refines h (by rw [now, hpc]) (by rw [serving, hpc])
  | hangup c =>
    have hat : Left o cfg ss p c := by rwa [hpc] at hat
    exact hat.refines h (by rw [now, hpc])
  | close =>
    have hat : Between ss p := by rwa [hpc] at hat
    exact ⟨ss, hat.refines h (by rw [now, hpc])⟩
  | exited =>
    have hat : Between ss p := by rwa [hpc] at hat
    exact ⟨ss, hat.refines h (by rw [now, hpc])⟩

/-- What arrives on a connection. -/
def streamOf (conn : SslConn) : List UInt8 := conn.stream

/-- What a run has made of the streams of its connections. -/
structure Serves (cfg : Config) (files : Files) (p : Process) (uss : List (List (List UInt8)))
    (new : List Saved) : Prop where
  /-- Each is cut into units on its own, from its front. -/
  splits : List.Forall₂ (Splits IsUnit) uss (p.served.map streamOf)
  /-- Of each but the last these are all the units. -/
  earlier : List.Forall₂ (Longest IsUnit) uss.dropLast (p.served.dropLast.map streamOf)
  /-- Of the last too, once it is closed and no signal has come. -/
  whole : p.running = true → p.serving = false →
    List.Forall₂ (Longest IsUnit) uss (p.served.map streamOf)
  /-- The statistics and the files are those of the units. -/
  archives : Archives cfg uss.flatten (.start files) p.now new

theorem serves_of_reachable (hr : Reachable o cfg files p) :
    ∃ uss new, Serves cfg files p uss new := by
  obtain ⟨ss, h⟩ := inv_of_reachable hr
  obtain ⟨ss, hserved, hnow, hearlier, hwhole⟩ := refines h
  obtain ⟨uss, new, hcut, harch, -⟩ :=
    archives_of_run o cfg (ss.map Session.event) (.start files)
  rw [sessions_map_event] at hcut
  rw [← hnow] at harch
  have hstreams : p.served.map streamOf = ss.map Session.stream := by
    rw [hserved, List.map_map]
    rfl
  have hbut : p.served.dropLast.map streamOf = ss.dropLast.map Session.stream := by
    rw [List.map_dropLast, hstreams, List.map_dropLast]
  have hlast : List.Forall₂ (fun us s => Session.Cut us s) uss.dropLast ss.dropLast := by
    rw [List.dropLast_eq_take, List.dropLast_eq_take, hcut.length_eq]
    exact List.forall₂_take _ hcut
  refine ⟨uss, new, hstreams ▸ splits_of_cut hcut, hbut ▸ longest_of_cut hlast hearlier,
    fun hrun hno => hstreams ▸ longest_of_cut hcut (hwhole hrun hno), harch⟩

/-- **The server serves its streams**, over every run, at every moment and wherever a signal
falls. -/
theorem serves (hr : Reachable o cfg files p) : ∃ uss new, Serves cfg files p uss new :=
  serves_of_reachable hr

/-- A connection is being served when the signal comes. -/
def servingRun : List Action :=
  [.test, .select .ready, .accept (.ok ()), .handshake true (some (.closing [])), .test, .signal]

theorem serving_reachable : ∃ p : Process, Reachable .little ⟨[], false⟩ (fun _ => none) p ∧
    p.served.length = 1 ∧ p.running = false ∧ p.pc = .turn ⟨.closing [], [], 0, p.srv, []⟩ := by
  have hrun : ∃ p₀ p, boot ⟨[], false⟩ ⟨true, ⟨true, true, true, true⟩, true, true, true⟩
      (fun _ => none) = .starts p₀ ∧ exec (step .little ⟨[], false⟩) servingRun p₀ = some p ∧
        p.served.length = 1 ∧ p.running = false ∧ p.pc = .turn ⟨.closing [], [], 0, p.srv, []⟩ :=
    ⟨_, _, rfl, rfl, rfl, rfl, rfl⟩
  obtain ⟨p₀, p, hboot, hrun, hrest⟩ := hrun
  exact ⟨p, ⟨_, p₀, hboot, (Runs.of_exec (fun _ _ _ => trivial) hrun).reach .init⟩, hrest⟩

theorem serves_serving : ∃ p : Process, p.served.length = 1 ∧
    ∃ uss new, Serves ⟨[], false⟩ (fun _ => none) p uss new := by
  obtain ⟨p, hr, hserved, -⟩ := serving_reachable
  exact ⟨p, hserved, serves hr⟩

end Process

end CameraStreamer.Server
