import CameraStreamer.Server.Stopping

/-!
# A connection is served to its end

As long as no signal comes, `handleClient` goes on until the stream of the connection ends or breaks
the protocol, and `main` is back in its accept loop. `SSL_read` and the calls of the system are
taken to return; a client that is silent keeps `SSL_read` waiting, which the server does not guard
against.

* `underway_step`: what each step keeps, and what it brings nearer.
* **`connection_completes`**: every run comes to the end of the connection, within a number of steps
  linear in what arrives on it, and leaves what its units say.
-/

namespace CameraStreamer.Server

open Lib.Machine Lib.Ledger Lib.Endian Lib.Framing

variable {o : ByteOrder} {cfg : Config}

/-- A unit is no shorter than its header. -/
theorem IsUnit.header_le {u : List UInt8} (h : IsUnit u) : frameHeaderSize ≤ u.length :=
  h.length ▸ Nat.le_add_right _ _

namespace Process

variable {p p' q : Process} {a : Action} {c₀ c : Client}

/-- The steps left of the connection being served. -/
def toServe (p : Process) : Nat :=
  match p.pc with
  | .head c => 2 * (c.conn.stream.length / frameHeaderSize) + 3
  | .turn c => 2 * (c.conn.stream.length / frameHeaderSize) + 2
  | .hangup _ => 1
  | _ => 0

/-- A step before the connection is closed, and no signal. -/
def Within (p : Process) (a : Action) : Prop := p.pc ≠ .loop ∧ a ≠ .signal

/-- Units have been taken from the front of the stream. -/
def Taken (cfg : Config) (c₀ c : Client) : Prop :=
  ∃ us new, (∀ u ∈ us, IsUnit u) ∧ c₀.conn.stream = us.flatten ++ c.conn.stream ∧
    Archives cfg us c₀.srv c.srv new

/-- All of them have. -/
def Emptied (cfg : Config) (c₀ : Client) (srv : ServerState) : Prop :=
  ∃ us new, Longest IsUnit us c₀.conn.stream ∧ Archives cfg us c₀.srv srv new

/-- What goes with each place of `main` while the connection is served. -/
def Far (cfg : Config) (c₀ : Client) (p : Process) : MainPc → Prop
  | .head c => Taken cfg c₀ c
  | .turn c => Taken cfg c₀ c
  | .hangup c => Emptied cfg c₀ c.srv
  | .loop => Emptied cfg c₀ p.srv
  | _ => False

/-- The connection that stood at `c₀` is being served, or has just been closed. -/
structure Underway (cfg : Config) (c₀ : Client) (q p : Process) : Prop where
  running : p.running = true
  served : p.served = q.served
  place : Far cfg c₀ p p.pc

/-- A turn that takes a frame. -/
theorem Taken.goes (h : Taken cfg c₀ c) {env : SaveEnv} {c' : Client}
    (hturn : c.turn o cfg env = (none, c')) : Taken cfg c₀ c' ∧
      c'.conn.stream.length / frameHeaderSize < c.conn.stream.length / frameHeaderSize := by
  obtain ⟨us, new, hunits, hstream, harch⟩ := h
  rcases turn_cases o cfg env c with ⟨why, d, heq, -⟩ | ⟨u, d, heq, hu, hcut, -, -, htook⟩
  · rw [heq] at hturn
    cases hturn
  · rw [heq] at hturn
    cases hturn
    obtain ⟨more, hmore, -⟩ := archives_took htook
    refine ⟨⟨us ++ [u], new ++ more, fun x hx => ?_, ?_, harch.trans hmore⟩, ?_⟩
    · rcases List.mem_append.mp hx with hx | hx
      · exact hunits x hx
      · exact List.mem_singleton.mp hx ▸ hu
    · rw [hstream, hcut, List.flatten_append, List.flatten_singleton, List.append_assoc]
    · have hlen := congrArg List.length hcut
      have hle := hu.header_le
      rw [List.length_append] at hlen
      have hpos : 0 < frameHeaderSize := by decide
      calc c'.conn.stream.length / frameHeaderSize
          < c'.conn.stream.length / frameHeaderSize + 1 := Nat.lt_succ_self _
        _ = (c'.conn.stream.length + frameHeaderSize) / frameHeaderSize :=
          (Nat.add_div_right _ hpos).symm
        _ ≤ c.conn.stream.length / frameHeaderSize := Nat.div_le_div_right (by omega)

/-- A turn that leaves the loop. -/
theorem Taken.leaves (h : Taken cfg c₀ c) {env : SaveEnv} {c' : Client} {why : Exit}
    (hturn : c.turn o cfg env = (some why, c')) : Emptied cfg c₀ c'.srv := by
  obtain ⟨us, new, hunits, hstream, harch⟩ := h
  rcases turn_cases o cfg env c with ⟨why', d, heq, hstops, hsrv⟩ | ⟨u, d, heq, -⟩
  · rw [heq] at hturn
    cases hturn
    refine ⟨us, new, ?_, hsrv ▸ harch⟩
    rw [hstream]
    exact longest_flatten isUnit_prefixFree hunits hstops.no_unit
  · rw [heq] at hturn
    cases hturn

/-- **Each step** of the connection. -/
theorem underway_step (h : Underway cfg c₀ q p) (hok : Within p a) (hm : Moves o cfg p a p') :
    Underway cfg c₀ q p' ∧ p'.toServe < p.toServe := by
  have hplace := h.place
  cases hm with
  | signal => exact absurd rfl hok.2
  | loop hpc => exact absurd hpc hok.1
  | @head c hpc =>
    rw [hpc] at hplace
    rw [h.running]
    refine ⟨⟨h.running, h.served, hplace⟩, ?_⟩
    simp [toServe, goto, hpc]
  | @goes c c' env hpc hturn =>
    rw [hpc] at hplace
    obtain ⟨htaken, hlt⟩ := Taken.goes hplace hturn
    refine ⟨⟨h.running, h.served, htaken⟩, ?_⟩
    simp only [toServe, goto, hpc]
    omega
  | @leaves c c' env why hpc hturn =>
    rw [hpc] at hplace
    refine ⟨⟨h.running, h.served, Taken.leaves hplace hturn⟩, ?_⟩
    simp only [toServe, goto, hpc]
    omega
  | @hangup c hpc =>
    rw [hpc] at hplace
    have hsrv : Emptied cfg c₀ c.wipe.srv := by
      rw [wipe_srv]
      exact hplace
    refine ⟨⟨h.running, h.served, hsrv⟩, ?_⟩
    simp [toServe, hangUp, goto, hpc]
  | select hpc => rw [hpc] at hplace; exact hplace.elim
  | refused hpc => rw [hpc] at hplace; exact hplace.elim
  | accepted hpc => rw [hpc] at hplace; exact hplace.elim
  | failed hpc => rw [hpc] at hplace; exact hplace.elim
  | shaken hpc => rw [hpc] at hplace; exact hplace.elim
  | close hpc => rw [hpc] at hplace; exact hplace.elim

theorem serves_progress (o : ByteOrder) (cfg : Config) (c₀ : Client) (q : Process) :
    Progress (step o cfg) Within (Underway cfg c₀ q) (fun _ _ => false) toServe
      fun p => p.pc = .loop where
  keeps _ h hok hs := (underway_step h hok (step_moves hs)).1
  stays _ _ _ _ hidle := by cases hidle
  falls _ h hok hs _ := (underway_step h hok (step_moves hs)).2
  enabled {p} h hloop := by
    have hexit : p.pc ≠ .exited := by
      intro hpc
      have hplace := h.place
      rw [hpc] at hplace
      exact hplace
    obtain ⟨a, p', hidle, hs⟩ := step_enabled o cfg hexit
    refine ⟨a, p', ⟨hloop, fun ha => ?_⟩, rfl, hs⟩
    subst ha
    cases hidle

/-- How a connection that stands at `c` ends. -/
structure Finishes (o : ByteOrder) (cfg : Config) (p : Process) (c : Client) : Prop where
  /-- A turn takes a header at least, and two steps. -/
  bounded : ∀ as p', Runs (step o cfg) Within as p p' →
    as.length ≤ 2 * (c.conn.stream.length / frameHeaderSize) + 3
  /-- A run stops only where the connection is closed. -/
  completes : ∀ as p', Runs (step o cfg) Within as p p' →
    (∀ a q, Within p' a → p'.step o cfg a ≠ some q) → p'.pc = .loop
  /-- Then all units of the stream, and nothing else, have been recorded. -/
  records : ∀ as p', Runs (step o cfg) Within as p p' → p'.pc = .loop →
    Emptied cfg c p'.srv ∧ p'.served = p.served ∧ p'.running = true

theorem underway_head (hpc : p.pc = .head c) (hrun : p.running = true) : Underway cfg c p p := by
  refine ⟨hrun, rfl, ?_⟩
  rw [hpc]
  exact ⟨[], [], fun u hu => absurd hu List.not_mem_nil, rfl, .refl cfg c.srv⟩

/-- **Every connection is served to its end**, if no signal comes before and `SSL_read` returns. -/
theorem connection_completes (o : ByteOrder) (cfg : Config) (hpc : p.pc = .head c)
    (hrun : p.running = true) : Finishes o cfg p c := by
  have hprog := serves_progress o cfg c p
  have hstart : Underway cfg c p p := underway_head hpc hrun
  refine ⟨fun as p' hruns => ?_, fun as p' hruns hstuck => ?_, fun as p' hruns hloop => ?_⟩
  · have hbound := hprog.bounded hruns hstart
    rw [hruns.trace_busy] at hbound
    have hrank : p.toServe = 2 * (c.conn.stream.length / frameHeaderSize) + 3 := by
      rw [toServe, hpc]
    omega
  · exact hprog.done_of_stuck (hprog.invariant hruns hstart) fun a q hok _ => hstuck a q hok
  · have hend := hprog.invariant hruns hstart
    have hplace := hend.place
    rw [hloop] at hplace
    exact ⟨hplace, hend.served, hend.running⟩

/-- A connection over which `stream` arrives has been accepted. -/
theorem accepted_reachable (o : ByteOrder) (cfg : Config) (files : Files) (stream : List UInt8) :
    ∃ p : Process, Reachable o cfg files p ∧ p.running = true ∧ p.served = [.closing stream] ∧
      p.pc = .head ⟨.closing stream, [], 0, .start files, []⟩ := by
  have hrun : ∃ p₀ p, boot cfg ⟨true, ⟨true, true, true, true⟩, true, true, true⟩ files =
      .starts p₀ ∧ exec (step o cfg)
        [.test, .select .ready, .accept (.ok ()), .handshake true (some (.closing stream))] p₀ =
          some p ∧ p.running = true ∧ p.served = [.closing stream] ∧
        p.pc = .head ⟨.closing stream, [], 0, .start files, []⟩ := by
    obtain ⟨dir, save⟩ := cfg
    cases save
    · exact ⟨_, _, rfl, rfl, rfl, rfl, rfl⟩
    · exact ⟨_, _, rfl, rfl, rfl, rfl, rfl⟩
  obtain ⟨p₀, p, hboot, hrun, hrest⟩ := hrun
  exact ⟨p, ⟨_, p₀, hboot, (Runs.of_exec (fun _ _ _ => trivial) hrun).reach .init⟩, hrest⟩

/-- It can be served to its end. -/
theorem served_reachable (o : ByteOrder) (cfg : Config) (files : Files) (stream : List UInt8) :
    ∃ p : Process, Reachable o cfg files p ∧ p.running = true ∧ p.pc = .loop ∧
      p.served = [.closing stream] := by
  obtain ⟨p, ⟨env, p₀, hboot, hr⟩, hrun, hserved, hpc⟩ := accepted_reachable o cfg files stream
  obtain ⟨as, p', hruns, hloop⟩ :=
    (serves_progress o cfg _ p).completes (underway_head hpc hrun)
  have hend := (serves_progress o cfg _ p).invariant (hruns.mono fun _ _ h => h.1)
    (underway_head hpc hrun)
  exact ⟨p', ⟨env, p₀, hboot, (hruns.mono fun _ _ _ => trivial).reach hr⟩, hend.running, hloop,
    hend.served.trans hserved⟩

theorem connection_completes_accepted : ∃ (p : Process) (c : Client), p.served.length = 1 ∧
    Finishes .little ⟨[], false⟩ p c := by
  obtain ⟨p, -, hrun, hserved, hpc⟩ :=
    accepted_reachable .little ⟨[], false⟩ (fun _ => none) [0, 1]
  exact ⟨p, _, by rw [hserved]; rfl, connection_completes .little _ hpc hrun⟩

end Process

end CameraStreamer.Server
