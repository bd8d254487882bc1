import CameraStreamer.Lib.Ledger
import CameraStreamer.Lib.Machine
import CameraStreamer.Server.Run

/-!
# The server program

Model of the server's `main` (`server/server.cpp:380-519`) and of `createSslContext`
(`server.cpp:115-146`). `boot` runs to the accept loop. From there `Process.step` is one step of
`main` or the delivery of a signal, which may fall between any two of them; a connection is served
turn by turn, each by `Client.turn` of `HandleClient.lean`.

* `log` records the descriptors and OpenSSL objects made, used and given back.
* `served` records the connections handed to `handleClient`. No code reads either.
* The code does not look at the result of `SSL_new`; `handshake false` is where it returns `NULL`.
* The results of `sigaction`, `setsockopt`, `inet_ntop` and `SSL_shutdown` are not looked at
  either and are left out, as are the log lines and the clock.
-/

namespace CameraStreamer.Server

open Lib.Machine Lib.Ledger Lib.Endian

/-! ## Descriptors and objects -/

/-- What the program makes and has to give back. -/
inductive Obj
  | sslCtx
  /-- `server_fd`. -/
  | listener
  /-- The `client_fd` of the `n`-th connection. -/
  | socket (n : Nat)
  /-- Its `SSL`. -/
  | ssl (n : Nat)
  deriving DecidableEq, Repr

/-- The variables of `main` they are kept in. -/
inductive Var
  | sslCtx
  | serverFd
  | clientFd
  | ssl
  deriving DecidableEq, Repr

/-- The variable an object is kept in: a second object must not take its place. -/
def Obj.var : Obj → Var
  | .sslCtx => .sslCtx
  | .listener => .serverFd
  | .socket _ => .clientFd
  | .ssl _ => .ssl

/-! ## The start -/

/-- What the calls of `createSslContext` return. -/
structure CtxEnv where
  ctxNew : Bool
  useCertificateFile : Bool
  usePrivateKeyFile : Bool
  checkPrivateKey : Bool

/-- `createSslContext`, and what it makes and frees. -/
def createSslContext (env : CtxEnv) : Bool × List (Op Obj) :=
  if !env.ctxNew then (false, [])
  else if !env.useCertificateFile then
    (false, [.acquire .sslCtx, .use .sslCtx, .use .sslCtx, .release .sslCtx])
  else if !env.usePrivateKeyFile then
    (false, [.acquire .sslCtx, .use .sslCtx, .use .sslCtx, .use .sslCtx, .release .sslCtx])
  else if !env.checkPrivateKey then
    (false,
      [.acquire .sslCtx, .use .sslCtx, .use .sslCtx, .use .sslCtx, .use .sslCtx, .release .sslCtx])
  else (true, [.acquire .sslCtx, .use .sslCtx, .use .sslCtx, .use .sslCtx, .use .sslCtx])

/-- Where `main` stands. -/
inductive MainPc
  /-- Before the test of the accept loop. -/
  | loop
  | select
  | accept
  /-- A connection is accepted: before `SSL_new`. -/
  | handshake
  /-- Before the test of `handleClient`. -/
  | head (c : Client)
  /-- In a turn of its loop. -/
  | turn (c : Client)
  /-- Its loop is left. -/
  | hangup (c : Client)
  /-- The accept loop is left. -/
  | close
  /-- `main` has returned. -/
  | exited

/-- The process from the accept loop on. -/
structure Process where
  pc : MainPc
  /-- `g_running`. -/
  running : Bool
  /-- `g_stats` and the files, as the last connection left them. -/
  srv : ServerState
  /-- The connections closed so far. -/
  closed : Nat
  log : List (Op Obj)
  served : List SslConn

/-- What the calls before the accept loop return. -/
structure BootEnv where
  /-- `mkdir` makes the directory or finds it there. -/
  mkdirOk : Bool
  ctx : CtxEnv
  socketOk : Bool
  bindOk : Bool
  listenOk : Bool

/-- How the start ends: with `EXIT_FAILURE`, or at the accept loop. -/
inductive Boot
  | exits (log : List (Op Obj))
  | starts (p : Process)

/-- `main` up to the accept loop (`server.cpp:386-450`). -/
def boot (cfg : Config) (env : BootEnv) (files : Files) : Boot :=
  if cfg.saveFrames && !env.mkdirOk then .exits []
  else
    match createSslContext env.ctx with
    | (false, ops) => .exits ops
    | (true, ops) =>
      if !env.socketOk then .exits (ops ++ [.release .sslCtx])
      else
        let ops := ops ++ [.acquire .listener, .use .listener, .use .listener]
        if !env.bindOk then .exits (ops ++ [.release .listener, .release .sslCtx])
        else if !env.listenOk then
          .exits (ops ++ [.use .listener, .release .listener, .release .sslCtx])
        else .starts
          { pc := .loop
            running := true
            srv := .start files
            closed := 0
            log := ops ++ [.use .listener]
            served := [] }

/-! ## The steps -/

/-- What `select` returns. -/
inductive Ready
  | error (eintr : Bool)
  | timeout
  | ready
  deriving DecidableEq, Repr

/-- Where `main` goes on after a call that failed. -/
def afterError (eintr : Bool) : MainPc := if eintr then .loop else .close

/-- Where it goes on after `select`. -/
def Ready.next : Ready → MainPc
  | .error eintr => afterError eintr
  | .timeout => .loop
  | .ready => .accept

/-- A step of `main`, or the delivery of a signal. -/
inductive Action
  | signal
  /-- The test of `g_running` in `main` or in `handleClient`. -/
  | test
  | select (r : Ready)
  /-- `accept`: a connection, or an error. -/
  | accept (r : Except Bool Unit)
  /-- `SSL_new`, `SSL_set_fd` and `SSL_accept`: whether there is an `SSL`, and the connection if
  the handshake succeeds. -/
  | handshake (made : Bool) (conn : Option SslConn)
  | turn (env : SaveEnv)
  | hangup
  | close

namespace Process

variable (o : ByteOrder) (cfg : Config) (p : Process)

/-- `main` goes on. -/
def goto (pc : MainPc) (ops : List (Op Obj)) : Process := { p with pc, log := p.log ++ ops }

/-- The `SSL` of the connection is freed and its descriptor closed. -/
def hangUp (srv : ServerState) (ops : List (Op Obj)) : Process :=
  { p.goto .loop (ops ++ [.release (.ssl p.closed), .release (.socket p.closed)]) with
    srv
    closed := p.closed + 1 }

/-- A call that uses the connection. -/
def uses : List (Op Obj) := [.use (.ssl p.closed), .use (.socket p.closed)]

/-- `SSL_new`, `SSL_set_fd` and `SSL_accept`. -/
def shake (made : Bool) : List (Op Obj) :=
  .use .sslCtx :: (if made then [.acquire (.ssl p.closed)] else []) ++ (p.uses ++ p.uses)

/-- One step of the process. -/
def step : Action → Option Process
  | .signal => some { p with running := false }
  | .test =>
    match p.pc with
    | .loop => some (p.goto (if p.running then .select else .close) [])
    | .head c => some (p.goto (if p.running then .turn c else .hangup c) [])
    | _ => none
  | .select r =>
    match p.pc with
    | .select => some (p.goto r.next [.use .listener])
    | _ => none
  | .accept r =>
    match p.pc with
    | .accept =>
      match r with
      | .error eintr => some (p.goto (afterError eintr) [.use .listener])
      | .ok () => some (p.goto .handshake [.use .listener, .acquire (.socket p.closed)])
    | _ => none
  | .handshake made conn =>
    match p.pc with
    | .handshake =>
      match conn with
      | none => some (p.hangUp p.srv (p.shake made))
      | some conn =>
        some
          { p.goto (.head ⟨conn, [], 0, p.srv, []⟩) (p.shake made) with
            served := p.served ++ [conn] }
    | _ => none
  | .turn env =>
    match p.pc with
    | .turn c =>
      match c.turn o cfg env with
      | (none, c') => some (p.goto (.head c') p.uses)
      | (some _, c') => some (p.goto (.hangup c') p.uses)
    | _ => none
  | .hangup =>
    match p.pc with
    | .hangup c => some (p.hangUp c.wipe.srv p.uses)
    | _ => none
  | .close =>
    match p.pc with
    | .close => some (p.goto .exited [.release .listener, .release .sslCtx])
    | _ => none

/-- `g_stats` and the files now. -/
def now : ServerState :=
  match p.pc with
  | .head c => c.srv
  | .turn c => c.srv
  | .hangup c => c.srv
  | _ => p.srv

/-- The states of the runs of the program. -/
def Reachable (files : Files) (p : Process) : Prop :=
  ∃ env p₀, boot cfg env files = .starts p₀ ∧ Reach (step o cfg) (fun _ _ => True) p₀ p

variable {o cfg p}

/-- **What a step can do.** -/
inductive Moves (o : ByteOrder) (cfg : Config) (p : Process) : Action → Process → Prop
  | signal : Moves o cfg p .signal { p with running := false }
  | loop (hpc : p.pc = .loop) :
      Moves o cfg p .test (p.goto (if p.running then .select else .close) [])
  | head {c : Client} (hpc : p.pc = .head c) :
      Moves o cfg p .test (p.goto (if p.running then .turn c else .hangup c) [])
  | select {r : Ready} (hpc : p.pc = .select) :
      Moves o cfg p (.select r) (p.goto r.next [.use .listener])
  | refused {eintr : Bool} (hpc : p.pc = .accept) :
      Moves o cfg p (.accept (.error eintr)) (p.goto (afterError eintr) [.use .listener])
  | accepted (hpc : p.pc = .accept) :
      Moves o cfg p (.accept (.ok ()))
        (p.goto .handshake [.use .listener, .acquire (.socket p.closed)])
  | failed {made : Bool} (hpc : p.pc = .handshake) :
      Moves o cfg p (.handshake made none) (p.hangUp p.srv (p.shake made))
  | shaken {made : Bool} {conn : SslConn} (hpc : p.pc = .handshake) :
      Moves o cfg p (.handshake made (some conn))
        { p.goto (.head ⟨conn, [], 0, p.srv, []⟩) (p.shake made) with served := p.served ++ [conn] }
  | goes {c c' : Client} {env : SaveEnv} (hpc : p.pc = .turn c)
      (hturn : c.turn o cfg env = (none, c')) : Moves o cfg p (.turn env) (p.goto (.head c') p.uses)
  | leaves {c c' : Client} {env : SaveEnv} {why : Exit} (hpc : p.pc = .turn c)
      (hturn : c.turn o cfg env = (some why, c')) :
      Moves o cfg p (.turn env) (p.goto (.hangup c') p.uses)
  | hangup {c : Client} (hpc : p.pc = .hangup c) :
      Moves o cfg p .hangup (p.hangUp c.wipe.srv p.uses)
  | close (hpc : p.pc = .close) :
      Moves o cfg p .close (p.goto .exited [.release .listener, .release .sslCtx])

theorem step_moves {a : Action} {p' : Process} (hs : p.step o cfg a = some p') :
    Moves o cfg p a p' := by
  cases a with
  | signal => cases hs; exact .signal
  | test =>
    simp only [step] at hs
    split at hs
    · rename_i hpc; cases hs; exact .loop hpc
    · rename_i hpc; cases hs; exact .head hpc
    · cases hs
  | select r =>
    simp only [step] at hs
    split at hs
    · rename_i hpc; cases hs; exact .select hpc
    · cases hs
  | accept r =>
    simp only [step] at hs
    split at hs
    · rename_i hpc
      cases r with
      | error eintr => cases hs; exact .refused hpc
      | ok u => cases hs; exact .accepted hpc
    · cases hs
  | handshake made conn =>
    simp only [step] at hs
    split at hs
    · rename_i hpc
      cases conn with
      | none => cases hs; exact .failed hpc
      | some conn => cases hs; exact .shaken hpc
    · cases hs
  | turn env =>
    simp only [step] at hs
    split at hs
    · rename_i hpc
      split at hs
      · rename_i hturn; cases hs; exact .goes hpc hturn
      · rename_i hturn; cases hs; exact .leaves hpc hturn
    · cases hs
  | hangup =>
    simp only [step] at hs
    split at hs
    · rename_i hpc; cases hs; exact .hangup hpc
    · cases hs
  | close =>
    simp only [step] at hs
    split at hs
    · rename_i hpc; cases hs; exact .close hpc
    · cases hs

end Process

end CameraStreamer.Server
