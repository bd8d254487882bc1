import CameraStreamer.Lib.Ledger
import CameraStreamer.Lib.Machine
import CameraStreamer.TlsClient.Write

/-!
# The network thread

Model of `createTcpConnection`, `tlsConnect`, `tlsDisconnect` and `networkLoop`
(`src/tls_client.cpp:113-295`, `tls_client.cpp:342-413`) and of the destructor. `Net` is the
`TlsClient` object together with the place `networkLoop` has reached; `Net.step` is one step of
it: a test of `running`, a connection attempt, a `pop`, one `SSL_write`, or the local code up to
the next of these. What the system, OpenSSL and the queue answer comes with the action.

* `log` records every socket, SSL object and packet acquired, used and released. A null or
  negative handle is logged like any other, and is never acquired.
* `past` and `cur` are the connections and what was written on them; no code reads them.
* A payload is read from the packet's slot at each `SSL_write`, as the slot is then.
* `reconnect_multiplier` is a `float`: `scale` is the product converted back to `uint32_t`.
* The `sleepMs` after a failed attempt leaves the object alone; `Backoff.lean` records what it is
  given.
* `frames_sent_` and `bytes_sent_` are natural numbers: `2^64` bytes are out of reach.

The SSL context, which `initialize` creates and the destructor frees, is left out, and so are the
log lines.
-/

namespace CameraStreamer.TlsClient

open Lib.Ledger Lib.Machine Lib.Endian Protocol

/-! ## The object -/

/-- `TlsConfig`, as far as `networkLoop` reads it. -/
structure TlsConfig where
  reconnectBaseMs : Nat
  reconnectMaxMs : Nat
  /-- `static_cast<uint32_t>(delay * reconnect_multiplier)`. -/
  scale : Nat → Nat

/-- `TlsState`. -/
inductive TlsState
  | disconnected
  | connecting
  | connected
  | error
  deriving DecidableEq, Repr

/-- What has to be given back. -/
inductive Res
  | socket (fd : Int)
  | ssl (ptr : Option Nat)
  | packet (p : FramePacket)
  deriving DecidableEq, Repr

/-- The three kinds of it. -/
inductive ResKind
  | socket
  | ssl
  | packet
  deriving DecidableEq, Repr

def Res.kind : Res → ResKind
  | .socket _ => .socket
  | .ssl _ => .ssl
  | .packet _ => .packet

/-- A connection: the bytes `SSL_write` reported as written, and those of a last write that
failed. -/
structure Wire where
  written : List UInt8
  attempted : List UInt8
  deriving DecidableEq, Repr

/-- Where `networkLoop` stands. -/
inductive NetPc
  /-- Before the test of `running`. -/
  | head
  /-- In `tlsConnect`. -/
  | connecting
  /-- `tlsConnect` has failed: before the sleep. -/
  | backoff
  /-- In `queue.pop`. -/
  | pop
  /-- In `sslWriteAll` of the header, with `rest` to go. -/
  | header (p : FramePacket) (rest : List UInt8)
  /-- In `sslWriteAll` of the payload, at offset `off`. -/
  | payload (p : FramePacket) (off : Nat)
  /-- A write has failed: before `frame_packet_free`. -/
  | failed (p : FramePacket)
  /-- Before the `tlsDisconnect` after a failed write. -/
  | disconnect
  /-- Both writes are done: before `frames_sent_++`. -/
  | sent (p : FramePacket)
  /-- The frame is counted: before `frame_packet_free`. -/
  | counted (p : FramePacket)
  /-- The loop is left: before its last `tlsDisconnect`. -/
  | leaving
  /-- `networkLoop` has returned. -/
  | done
  /-- The destructor has run. -/
  | destroyed
  deriving DecidableEq, Repr

/-- The packet the thread holds. -/
def NetPc.packet : NetPc → Option FramePacket
  | .header p _ => some p
  | .payload p _ => some p
  | .failed p => some p
  | .sent p => some p
  | .counted p => some p
  | _ => none

/-- `TlsClient` (`tls_client.hpp:94-103`), the place of its thread, and their history. -/
structure Net where
  pc : NetPc
  ssl : Option Nat
  sockfd : Int
  state : TlsState
  reconnectDelayMs : Nat
  framesSent : Nat
  bytesSent : Nat
  log : List (Op Res)
  past : List Wire
  cur : Option Wire

namespace Net

/-- The constructor. -/
def construct (cfg : TlsConfig) : Net where
  pc := .head
  ssl := none
  sockfd := -1
  state := .disconnected
  reconnectDelayMs := cfg.reconnectBaseMs
  framesSent := 0
  bytesSent := 0
  log := []
  past := []
  cur := none

/-! ## Connecting -/

/-- The result of `connect` on a non-blocking socket: 0, `EINPROGRESS`, or another error. -/
inductive ConnectRet
  | ok
  | inProgress
  | failed
  deriving DecidableEq, Repr

/-- What happens with one address: the descriptor `socket` returns if it succeeds, and the results
of `connect`, `poll` and `SO_ERROR`. -/
structure AddrResult where
  socket : Option Nat
  connect : ConnectRet
  pollRet : Int
  sockErr : Int

/-- The socket is closed and the next address tried. -/
def abandon (fd : Nat) (r : Int × List (Op Res)) : Int × List (Op Res) :=
  (r.1, .acquire (.socket fd) :: .release (.socket fd) :: r.2)

/-- The loop over the addresses (`tls_client.cpp:129-184`): the descriptor it ends with, and what
it did with the others. -/
def tryAddrs : List AddrResult → Int × List (Op Res)
  | [] => (-1, [])
  | a :: rest =>
    match a.socket with
    | none => tryAddrs rest
    | some fd =>
      match a.connect with
      | .ok => (fd, [.acquire (.socket fd)])
      | .failed => abandon fd (tryAddrs rest)
      | .inProgress =>
        if a.pollRet ≤ 0 then abandon fd (tryAddrs rest)
        else if a.sockErr ≠ 0 then abandon fd (tryAddrs rest)
        else (fd, [.acquire (.socket fd)])

/-- `createTcpConnection`; `none` is a failed `getaddrinfo`. -/
def createTcpConnection : Option (List AddrResult) → Int × List (Op Res)
  | none => (-1, [])
  | some addrs => tryAddrs addrs

/-- What the calls of one `tlsConnect` return: `getaddrinfo` and the address loop, `SSL_new`,
`X509_VERIFY_PARAM_set1_host`, `SSL_set_fd` and `SSL_connect`. -/
structure ConnectEnv where
  addrs : Option (List AddrResult)
  sslNew : Option Nat
  hostOk : Bool
  setFdOk : Bool
  connectRet : Int

/-- Log what is done with resources. -/
def record (s : Net) (ops : List (Op Res)) : Net := { s with log := s.log ++ ops }

/-- `close(sockfd_); sockfd_ = -1`. -/
def closeSocket (s : Net) : Net :=
  { s.record [.release (.socket s.sockfd)] with sockfd := -1 }

/-- `SSL_free(ssl_); ssl_ = nullptr`. -/
def freeSsl (s : Net) : Net :=
  { s.record [.release (.ssl s.ssl)] with ssl := none }

/-- `tlsConnect`. -/
def tlsConnect (cfg : TlsConfig) (env : ConnectEnv) (s : Net) : Bool × Net :=
  let r := createTcpConnection env.addrs
  let s := { s.record r.2 with sockfd := r.1 }
  if s.sockfd < 0 then (false, s)
  else
    match env.sslNew with
    | none => (false, { s with ssl := none }.closeSocket)
    | some p =>
      let s := { s.record [.acquire (.ssl (some p))] with ssl := some p }
      if !env.hostOk then (false, s.freeSsl.closeSocket)
      else if !env.setFdOk then (false, s.freeSsl.closeSocket)
      else if env.connectRet ≠ 1 then (false, s.freeSsl.closeSocket)
      else
        (true,
          { s with
            state := .connected
            reconnectDelayMs := cfg.reconnectBaseMs
            cur := some ⟨[], []⟩ })

/-- `tlsDisconnect`. -/
def tlsDisconnect (s : Net) : Net :=
  let s := if s.ssl.isSome then (s.record [.use (.ssl s.ssl)]).freeSsl else s
  let s := if 0 ≤ s.sockfd then s.closeSocket else s
  { s with state := .disconnected, past := s.past ++ s.cur.toList, cur := none }

/-! ## The loop -/

/-- The test of `running`, and the branch on the connection state (`tls_client.cpp:345-349`). -/
def test (s : Net) (running : Bool) : Net :=
  if !running then { s with pc := .leaving }
  else if s.state ≠ .connected then { s with state := .connecting, pc := .connecting }
  else { s with pc := .pop }

/-- `if (!tlsConnect())` (`tls_client.cpp:351`). -/
def connect (cfg : TlsConfig) (s : Net) (env : ConnectEnv) : Net :=
  match s.tlsConnect cfg env with
  | (true, s) => { s with pc := .pop }
  | (false, s) => { s with pc := .backoff }

/-- The delay after a failed attempt (`tls_client.cpp:355-360`). -/
def nextDelay (cfg : TlsConfig) (delay : Nat) : Nat :=
  if cfg.reconnectMaxMs < cfg.scale delay then cfg.reconnectMaxMs else cfg.scale delay

/-- The header of a packet (`tls_client.cpp:374-381`). -/
def headerOf (o : ByteOrder) (p : FramePacket) : List UInt8 :=
  (initFrameHeader o p.seq p.timestampNs p.len p.pixelFormat p.width p.height).toBytes o

/-- `pop` returns (`tls_client.cpp:367-371`). -/
def popped (o : ByteOrder) (s : Net) : Option FramePacket → Net
  | none => { s with pc := .head }
  | some p =>
    { s.record [.acquire (.packet p)] with pc := .header p (headerOf o p) }

/-- `SSL_write` has been called on `ssl_`. -/
def callWrite (s : Net) : Net := s.record [.use (.ssl s.ssl)]

/-- How many of `n` bytes a successful `SSL_write` takes. -/
def taken (n k : Nat) : Nat := min (max 1 k) n

/-- `SSL_write` has taken `bs`. -/
def wrote (s : Net) (bs : List UInt8) : Net :=
  { s.callWrite with cur := s.cur.map fun w => { w with written := w.written ++ bs } }

/-- `SSL_write` of `bs` has failed for good. -/
def lost (s : Net) (bs : List UInt8) : Net :=
  { s.callWrite with cur := s.cur.map fun w => { w with attempted := bs } }

/-- The packet's payload from `off` on, as its slot has it. -/
def payloadFrom (p : FramePacket) (off : Nat) (slot : List UInt8) : List UInt8 :=
  (slot.drop off).take (p.len.toNat - off)

/-- The payload is read through the packet. -/
def usePacket (s : Net) (p : FramePacket) : Net := s.record [.use (.packet p)]

/-- One turn of `sslWriteAll` (`tls_client.cpp:301-330`), of the header or of the payload. -/
def write (s : Net) (r : Except SslError Nat) (slot : List UInt8) : Option Net :=
  match s.pc with
  | .header p rest =>
    if rest.length = 0 then none
    else
      match r with
      | .ok k => some
        { s.wrote (rest.take (taken rest.length k)) with
          pc := .header p (rest.drop (taken rest.length k)) }
      | .error e =>
        if writeRetries e then some s.callWrite else some { s.lost rest with pc := .failed p }
  | .payload p off =>
    if p.len.toNat ≤ off then none
    else
      match r with
      | .ok k => some
        { (s.usePacket p).wrote ((payloadFrom p off slot).take (taken (p.len.toNat - off) k)) with
          pc := .payload p (off + taken (p.len.toNat - off) k) }
      | .error e =>
        if writeRetries e then some (s.usePacket p).callWrite
        else some { (s.usePacket p).lost (payloadFrom p off slot) with pc := .failed p }
  | _ => none

/-- `frame_packet_free(pkt)`. -/
def freePacket (s : Net) (p : FramePacket) : Net := s.record [.release (.packet p)]

/-- The local code up to the next call. -/
def advance (cfg : TlsConfig) (s : Net) : Option Net :=
  match s.pc with
  | .backoff => some { s with reconnectDelayMs := nextDelay cfg s.reconnectDelayMs, pc := .head }
  | .header p rest => if rest.length = 0 then some { s with pc := .payload p 0 } else none
  | .payload p off => if p.len.toNat ≤ off then some { s with pc := .sent p } else none
  | .failed p => some { s.freePacket p with pc := .disconnect }
  | .disconnect => some { s.tlsDisconnect with pc := .head }
  | .sent p => some
    { s with
      framesSent := s.framesSent + 1
      bytesSent := s.bytesSent + (frameHeaderSize + p.len.toNat)
      pc := .counted p }
  | .counted p => some { s.freePacket p with pc := .head }
  | .leaving => some { s.tlsDisconnect with pc := .done }
  | .done => some { s.tlsDisconnect with pc := .destroyed }
  | _ => none

/-- An action of the network thread, with what its environment answers. -/
inductive Action
  | test (running : Bool)
  | connect (env : ConnectEnv)
  | popped (pkt : Option FramePacket)
  | write (r : Except SslError Nat) (slot : List UInt8)
  | advance

/-- One step of the network thread. -/
def step (o : ByteOrder) (cfg : TlsConfig) (s : Net) : Action → Option Net
  | .test running => if s.pc = .head then some (s.test running) else none
  | .connect env => if s.pc = .connecting then some (s.connect cfg env) else none
  | .popped pkt => if s.pc = .pop then some (s.popped o pkt) else none
  | .write r slot => s.write r slot
  | .advance => s.advance cfg

/-- Reachable by a run of `networkLoop` and then the destructor, whatever the answers. -/
def Reachable (o : ByteOrder) (cfg : TlsConfig) (s : Net) : Prop :=
  Reach (step o cfg) (fun _ _ => True) (construct cfg) s

/-! ## What each step does -/

variable {o : ByteOrder} {cfg : TlsConfig} {s s' : Net}

/-- A failed attempt leaves all but the two handles and the log; a successful one opens a
connection and sets the delay back. -/
theorem tlsConnect_cases (cfg : TlsConfig) (s : Net) (env : ConnectEnv) :
    (∃ ssl sockfd log, s.tlsConnect cfg env =
      (false, { s with ssl := ssl, sockfd := sockfd, log := log })) ∨
    ∃ ssl sockfd log, s.tlsConnect cfg env =
      (true,
        { s with
          ssl := ssl
          sockfd := sockfd
          log := log
          state := .connected
          reconnectDelayMs := cfg.reconnectBaseMs
          cur := some ⟨[], []⟩ }) := by
  unfold tlsConnect
  simp only
  split
  · exact Or.inl ⟨_, _, _, rfl⟩
  · split
    · exact Or.inl ⟨_, _, _, rfl⟩
    · split
      · exact Or.inl ⟨_, _, _, rfl⟩
      · split
        · exact Or.inl ⟨_, _, _, rfl⟩
        · split
          · exact Or.inl ⟨_, _, _, rfl⟩
          · exact Or.inr ⟨_, _, _, rfl⟩

/-- `tlsDisconnect` closes the connection. -/
theorem tlsDisconnect_cases (s : Net) : ∃ ssl sockfd log, s.tlsDisconnect =
    { s with
      ssl := ssl
      sockfd := sockfd
      log := log
      state := .disconnected
      past := s.past ++ s.cur.toList
      cur := none } := by
  unfold tlsDisconnect
  by_cases hssl : s.ssl.isSome = true
  · rw [if_pos hssl]
    dsimp only
    split <;> exact ⟨_, _, _, rfl⟩
  · rw [if_neg hssl]
    dsimp only
    split <;> exact ⟨_, _, _, rfl⟩

/-- An attempt to connect opens a connection no byte was written on, or none. -/
structure Attempt (s : Net) (r : Bool × Net) : Prop where
  framesSent : r.2.framesSent = s.framesSent
  past : r.2.past = s.past
  opened : r.1 = true → r.2.cur = some ⟨[], []⟩
  failed : r.1 = false → r.2.cur = s.cur

theorem tlsConnect_attempt (env : ConnectEnv) : Attempt s (s.tlsConnect cfg env) := by
  rcases tlsConnect_cases cfg s env with ⟨ssl, sockfd, log, heq⟩ | ⟨ssl, sockfd, log, heq⟩
  · rw [heq]
    exact ⟨rfl, rfl, fun h => absurd h (by simp), fun _ => rfl⟩
  · rw [heq]
    exact ⟨rfl, rfl, fun _ => rfl, fun h => absurd h (by simp)⟩

/-- `tlsDisconnect` closes the connection and counts nothing. -/
theorem tlsDisconnect_rest (s : Net) :
    s.tlsDisconnect.framesSent = s.framesSent ∧
      s.tlsDisconnect.past = s.past ++ s.cur.toList ∧ s.tlsDisconnect.cur = none := by
  obtain ⟨ssl, sockfd, log, heq⟩ := tlsDisconnect_cases s
  rw [heq]
  exact ⟨rfl, rfl, rfl⟩

/-- One turn of `sslWriteAll`: some bytes go, the call is repeated, or the frame is given up. -/
theorem write_cases {r : Except SslError Nat} {slot : List UInt8} (h : s.write r slot = some s') :
    (∃ p rest, s.pc = .header p rest ∧ 0 < rest.length ∧
      ((∃ n, s' = { s.wrote (rest.take n) with pc := .header p (rest.drop n) }) ∨
        s' = s.callWrite ∨ s' = { s.lost rest with pc := .failed p })) ∨
    (∃ p off, s.pc = .payload p off ∧ off < p.len.toNat ∧
      ((∃ n, s' = { (s.usePacket p).wrote ((payloadFrom p off slot).take n) with
          pc := .payload p (off + n) }) ∨
        s' = (s.usePacket p).callWrite ∨
        s' = { (s.usePacket p).lost (payloadFrom p off slot) with pc := .failed p })) := by
  unfold write at h
  split at h
  · rename_i p rest hpc
    split at h
    · exact absurd h (by simp)
    · rename_i hlen
      refine Or.inl ⟨p, rest, hpc, Nat.pos_of_ne_zero hlen, ?_⟩
      split at h
      · exact Or.inl ⟨_, (Option.some.inj h).symm⟩
      · split at h
        · exact Or.inr (Or.inl (Option.some.inj h).symm)
        · exact Or.inr (Or.inr (Option.some.inj h).symm)
  · rename_i p off hpc
    split at h
    · exact absurd h (by simp)
    · rename_i hlen
      refine Or.inr ⟨p, off, hpc, Nat.lt_of_not_le hlen, ?_⟩
      split at h
      · exact Or.inl ⟨_, (Option.some.inj h).symm⟩
      · split at h
        · exact Or.inr (Or.inl (Option.some.inj h).symm)
        · exact Or.inr (Or.inr (Option.some.inj h).symm)
  · exact absurd h (by simp)

/-- The local code: one move at each place that has one. -/
inductive Advances (cfg : TlsConfig) (s : Net) : Net → Prop
  | retry (hpc : s.pc = .backoff) : Advances cfg s
      { s with reconnectDelayMs := nextDelay cfg s.reconnectDelayMs, pc := .head }
  | headerDone {p : FramePacket} (hpc : s.pc = .header p []) :
      Advances cfg s { s with pc := .payload p 0 }
  | payloadDone {p : FramePacket} {off : Nat} (hpc : s.pc = .payload p off)
      (hoff : p.len.toNat ≤ off) : Advances cfg s { s with pc := .sent p }
  | giveUp {p : FramePacket} (hpc : s.pc = .failed p) :
      Advances cfg s { s.freePacket p with pc := .disconnect }
  | disconnect (hpc : s.pc = .disconnect) : Advances cfg s { s.tlsDisconnect with pc := .head }
  | count {p : FramePacket} (hpc : s.pc = .sent p) : Advances cfg s
      { s with
        framesSent := s.framesSent + 1
        bytesSent := s.bytesSent + (frameHeaderSize + p.len.toNat)
        pc := .counted p }
  | free {p : FramePacket} (hpc : s.pc = .counted p) :
      Advances cfg s { s.freePacket p with pc := .head }
  | leave (hpc : s.pc = .leaving) : Advances cfg s { s.tlsDisconnect with pc := .done }
  | destroy (hpc : s.pc = .done) : Advances cfg s { s.tlsDisconnect with pc := .destroyed }

theorem advance_cases (h : s.advance cfg = some s') : Advances cfg s s' := by
  unfold advance at h
  split at h
  case h_10 => exact absurd h (by simp)
  all_goals rename_i hpc
  case h_2 =>
    split at h
    · rename_i hlen
      cases h
      rw [List.length_eq_zero_iff.mp hlen] at hpc
      exact .headerDone hpc
    · exact absurd h (by simp)
  case h_3 =>
    split at h
    · rename_i hoff
      cases h
      exact .payloadDone hpc hoff
    · exact absurd h (by simp)
  all_goals cases h
  case h_1 => exact .retry hpc
  case h_4 => exact .giveUp hpc
  case h_5 => exact .disconnect hpc
  case h_6 => exact .count hpc
  case h_7 => exact .free hpc
  case h_8 => exact .leave hpc
  case h_9 => exact .destroy hpc

end Net

end CameraStreamer.TlsClient
