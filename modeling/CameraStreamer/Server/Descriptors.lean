import CameraStreamer.Server.Process

/-!
# The server's descriptors and OpenSSL objects

`Process.opened` says what there is at each place of `main`. A step leads from one to the other,
unless it is a handshake for which `SSL_new` returned `NULL`.

* `books_step`, `books_run`: the log of a run, replayed, gives what is open.
* **`gives_back`**: whatever the system answers, an early return leaves nothing open, and a run uses
  only what is open, serves one connection at a time and gives back everything at its end, exactly
  if `SSL_new` never fails: its result is not looked at.
-/

namespace CameraStreamer.Server

open Lib.Machine Lib.Ledger Lib.Endian

variable {o : ByteOrder} {cfg : Config} {files : Files}

/-- No step but a failed `SSL_new`. -/
def Action.made : Action → Bool
  | .handshake made _ => made
  | _ => true

/-! ## The start -/

theorem createSslContext_cases (env : CtxEnv) :
    (∃ ops, createSslContext env = (false, ops) ∧ replay Obj.var [] ops = some []) ∨
      ∃ ops, createSslContext env = (true, ops) ∧ replay Obj.var [] ops = some [.sslCtx] := by
  unfold createSslContext
  split_ifs
  · exact .inl ⟨_, rfl, rfl⟩
  · exact .inl ⟨_, rfl, rfl⟩
  · exact .inl ⟨_, rfl, rfl⟩
  · exact .inl ⟨_, rfl, rfl⟩
  · exact .inr ⟨_, rfl, rfl⟩

/-- How the start ends, with the books. -/
theorem boot_cases (cfg : Config) (env : BootEnv) (files : Files) :
    (∃ log, boot cfg env files = .exits log ∧ replay Obj.var [] log = some []) ∨
      ∃ log, boot cfg env files = .starts ⟨.loop, true, .start files, 0, log, []⟩ ∧
        replay Obj.var [] log = some [.listener, .sslCtx] := by
  unfold boot
  split
  · exact .inl ⟨_, rfl, rfl⟩
  · rcases createSslContext_cases env.ctx with ⟨ops, hctx, hops⟩ | ⟨ops, hctx, hops⟩
    · rw [hctx]
      exact .inl ⟨_, rfl, hops⟩
    · rw [hctx]
      have hlistener : replay Obj.var []
          (ops ++ [.acquire .listener, .use .listener, .use .listener]) =
            some [.listener, .sslCtx] := replay_append hops rfl
      dsimp only
      split_ifs
      · exact .inl ⟨_, rfl, replay_append hops rfl⟩
      · exact .inl ⟨_, rfl, replay_append hlistener rfl⟩
      · exact .inl ⟨_, rfl, replay_append hlistener rfl⟩
      · exact .inr ⟨_, rfl, replay_append hlistener rfl⟩

namespace Process

variable {p p' : Process} {a : Action}

/-- A process that has come to the accept loop. -/
theorem booted {env : BootEnv} (h : boot cfg env files = .starts p) :
    p.pc = .loop ∧ p.running = true ∧ p.srv = .start files ∧ p.served = [] ∧
      replay Obj.var [] p.log = some [.listener, .sslCtx] := by
  rcases boot_cases cfg env files with ⟨log, hboot, -⟩ | ⟨log, hboot, hlog⟩
  · rw [hboot] at h
    cases h
  · rw [hboot] at h
    cases h
    exact ⟨rfl, rfl, rfl, rfl, hlog⟩

/-! ## The steps -/

/-- What is open at each place of `main`. -/
def opened (p : Process) : List Obj :=
  match p.pc with
  | .handshake => [.socket p.closed, .listener, .sslCtx]
  | .head _ => [.ssl p.closed, .socket p.closed, .listener, .sslCtx]
  | .turn _ => [.ssl p.closed, .socket p.closed, .listener, .sslCtx]
  | .hangup _ => [.ssl p.closed, .socket p.closed, .listener, .sslCtx]
  | .exited => []
  | _ => [.listener, .sslCtx]

/-- Between two connections. -/
theorem opened_afterError (eintr : Bool) (ops : List (Op Obj)) :
    (p.goto (afterError eintr) ops).opened = [.listener, .sslCtx] := by
  cases eintr <;> rfl

theorem opened_next (r : Ready) (ops : List (Op Obj)) :
    (p.goto r.next ops).opened = [.listener, .sslCtx] := by
  cases r with
  | error eintr => exact opened_afterError eintr ops
  | timeout => rfl
  | ready => rfl

/-- The calls of a handshake, up to a failed `SSL_new`. -/
theorem replay_shake (made : Bool) : replay Obj.var [.socket p.closed, .listener, .sslCtx]
    (p.shake made) =
      if made then some [.ssl p.closed, .socket p.closed, .listener, .sslCtx] else none := by
  cases made <;> simp [shake, uses, replay_cons, Lib.Ledger.step, Obj.var]

theorem replay_uses : replay Obj.var [.ssl p.closed, .socket p.closed, .listener, .sslCtx] p.uses =
    some [.ssl p.closed, .socket p.closed, .listener, .sslCtx] := by
  simp [uses, replay_use]

/-- The end of a connection. -/
theorem replay_releases (n : Nat) : replay Obj.var [.ssl n, .socket n, .listener, .sslCtx]
    [.release (.ssl n), .release (.socket n)] = some [.listener, .sslCtx] := by
  simp [replay_release]

/-- **Each step of `main`** leads from what is open to what is open, unless `SSL_new` fails. -/
theorem books_step (hm : Moves o cfg p a p') : ∃ ops, p'.log = p.log ++ ops ∧
    replay Obj.var p.opened ops = if a.made then some p'.opened else none := by
  cases hm with
  | signal => exact ⟨[], (List.append_nil _).symm, rfl⟩
  | loop hpc =>
    refine ⟨_, rfl, ?_⟩
    rw [opened, hpc]
    cases p.running <;> rfl
  | head hpc =>
    refine ⟨_, rfl, ?_⟩
    rw [opened, hpc]
    cases p.running <;> rfl
  | select hpc => exact ⟨_, rfl, by rw [opened, hpc, opened_next]; rfl⟩
  | refused hpc => exact ⟨_, rfl, by rw [opened, hpc, opened_afterError]; rfl⟩
  | accepted hpc =>
    refine ⟨_, rfl, ?_⟩
    rw [opened, hpc]
    rfl
  | @failed made hpc =>
    refine ⟨_, rfl, ?_⟩
    rw [opened, hpc, replay_append_eq, replay_shake]
    cases made with
    | true => exact replay_releases p.closed
    | false => rfl
  | shaken hpc =>
    refine ⟨_, rfl, ?_⟩
    rw [opened, hpc]
    exact replay_shake _
  | goes hpc hturn =>
    refine ⟨_, rfl, ?_⟩
    rw [opened, hpc]
    exact replay_uses
  | leaves hpc hturn =>
    refine ⟨_, rfl, ?_⟩
    rw [opened, hpc]
    exact replay_uses
  | hangup hpc =>
    refine ⟨_, rfl, ?_⟩
    rw [opened, hpc]
    exact replay_append replay_uses (replay_releases p.closed)
  | close hpc => exact ⟨_, rfl, by rw [opened, hpc]; rfl⟩

/-- So does a run. -/
theorem books_run {as : List Action} (hrun : Runs (step o cfg) (fun _ _ => True) as p p') :
    ∃ ops, p'.log = p.log ++ ops ∧
      replay Obj.var p.opened ops = if as.all Action.made then some p'.opened else none := by
  induction as generalizing p with
  | nil =>
    have heq : p = p' := hrun
    rw [heq]
    exact ⟨[], (List.append_nil _).symm, rfl⟩
  | cons a as ih =>
    obtain ⟨-, t, hs, hrun⟩ := hrun
    obtain ⟨ops, hlog, hops⟩ := books_step (step_moves hs)
    obtain ⟨more, hlog', hmore⟩ := ih hrun
    refine ⟨ops ++ more, by rw [hlog', hlog, List.append_assoc], ?_⟩
    rw [replay_append_eq, hops, List.all_cons]
    cases a.made with
    | true => exact hmore
    | false => rfl

/-! ## The books -/

/-- The books of the program and what is open at their end: a start that fails, or a run. -/
inductive Books (o : ByteOrder) (cfg : Config) (files : Files) :
    List Action → List (Op Obj) → List Obj → Prop
  | exits {env : BootEnv} {log : List (Op Obj)} (h : boot cfg env files = .exits log) :
      Books o cfg files [] log []
  | runs {env : BootEnv} {p₀ p : Process} {as : List Action}
      (hboot : boot cfg env files = .starts p₀)
      (hrun : Runs (step o cfg) (fun _ _ => True) as p₀ p) : Books o cfg files as p.log p.opened

/-- What the books say of the objects. -/
structure Balanced (as : List Action) (log : List (Op Obj)) (res : List Obj) : Prop where
  /-- What is used is open, and nothing open is lost, exactly if no `SSL_new` has failed. -/
  lawful : replay Obj.var [] log = if as.all Action.made then some res else none
  /-- Then what is not open has been given back once for each time it was made. -/
  counts : as.all Action.made = true → ∀ x,
    log.count (.acquire x) = res.count x + log.count (.release x)

/-- **Everything is given back**, whatever the system answers and whenever a signal comes. -/
theorem gives_back {as : List Action} {log : List (Op Obj)} {res : List Obj}
    (h : Books o cfg files as log res) : Balanced as log res := by
  have hlawful : replay Obj.var [] log = if as.all Action.made then some res else none := by
    cases h with
    | @exits env _ hboot =>
      rcases boot_cases cfg env files with ⟨_, hexits, hlog⟩ | ⟨_, hstarts, -⟩
      · rw [hexits] at hboot
        cases hboot
        exact hlog
      · rw [hstarts] at hboot
        cases hboot
    | @runs env p₀ p _ hboot hrun =>
      obtain ⟨hpc, -, -, -, hlog⟩ := booted hboot
      obtain ⟨ops, hops, hreplay⟩ := books_run hrun
      have hopened : p₀.opened = [.listener, .sslCtx] := by rw [opened, hpc]
      rw [hops, replay_append_eq, hlog, ← hopened]
      exact hreplay
  refine ⟨hlawful, fun hmade x => ?_⟩
  rw [if_pos hmade] at hlawful
  have hcount := replay_count hlawful x
  rwa [List.count_nil, Nat.zero_add] at hcount

/-- A client fails its handshake, another is served when the signal comes. -/
def sampleRun : List Action :=
  [.test, .select .ready, .accept (.ok ()), .handshake true none, .test, .select .ready,
    .accept (.ok ()), .handshake true (some (.closing [])), .signal, .test, .hangup, .test, .close]

theorem sample_books : ∃ log, Books .little ⟨[], false⟩ (fun _ => none) sampleRun log [] := by
  have hrun : ∃ p₀ p, boot ⟨[], false⟩ ⟨true, ⟨true, true, true, true⟩, true, true, true⟩
      (fun _ => none) = .starts p₀ ∧ exec (step .little ⟨[], false⟩) sampleRun p₀ = some p ∧
        p.opened = [] :=
    ⟨_, _, rfl, rfl, rfl⟩
  obtain ⟨p₀, p, hboot, hrun, hopened⟩ := hrun
  have hbooks := Books.runs hboot (Runs.of_exec (fun _ _ _ => trivial) hrun)
  rw [hopened] at hbooks
  exact ⟨_, hbooks⟩

theorem gives_back_served : ∃ log, Balanced sampleRun log [] :=
  sample_books.imp fun _ h => gives_back h

end Process

end CameraStreamer.Server
