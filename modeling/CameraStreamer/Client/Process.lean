import CameraStreamer.Client.Args
import CameraStreamer.Client.Machine

/-!
# The client program

Model of the client's `main` (`src/main.cpp:226-353`) with its threads, and of what it calls:
`CameraCapture::open`, `start` and `stop` (`src/camera_capture.cpp:28-113`), `TlsClient::initialize`
and `createSslContext` (`src/tls_client.cpp:52-111`), and the constructor and destructor of
`RingQueue`. `boot` runs to the creation of the first thread. From there `Process.step` is one step
of `main`, of a thread, or of the signal handler; between the two threads it is the `Streamer` of
`Client/Machine.lean`.

* `log` records each object and thread made, used and given back. What a step may use is an upper
  bound (`touches`).
* `handshakes` records the connection attempts that succeeded, with the context they used.
* A test of `g_running` by a thread reads the flag; `main` sees the end of its `sleep` at any time.
* The results of `sigaction` and of setting camera properties are not looked at by the code and are
  left out, as are the log lines. That of setting the protocol version is not looked at either, but
  decides what the context demands.
-/

namespace CameraStreamer.Client

open Lib.Machine Lib.Ledger Lib.Endian Lib.CommandLine Protocol TlsClient

variable {w : Nat}

/-! ## The camera -/

/-- What `cap_.open` is given. -/
inductive Source
  | index (i : Int)
  | path (s : List Char)
  deriving DecidableEq, Repr

/-- `device_index` (`camera_capture.cpp:30-35`): the device if `strtol` reads it whole, cut to the
range of `long` and then to that of `int`. -/
def deviceIndex (device : List Char) : Int :=
  match numeral (device.dropWhile isSpace) with
  | some v => (min (max v (-2 ^ 63)) (2 ^ 63 - 1)).bmod UInt32.size
  | none => -1

/-- The source `open` tries, with and without V4L2. -/
def cameraSource (device : List Char) : Source :=
  if 0 ≤ deviceIndex device then .index (deviceIndex device) else .path device

/-- `CameraCapture`, as far as the program depends on it. -/
structure Camera where
  opened : Bool
  streaming : Bool
  pixelFormat : UInt32
  deriving DecidableEq, Repr

/-- `PixelFormat::JPEG`. -/
def jpegFormat : UInt32 := 0x47504A4D

/-- `PixelFormat::BGR24`. -/
def bgr24Format : UInt32 := 0x33524742

/-- The constructor. -/
def Camera.construct : Camera := ⟨false, false, 0⟩

/-- `open`; `opens` is `cap_.open`, whose second argument says whether V4L2 is asked for. -/
def Camera.open (config : Config w) (opens : Source → Bool → Bool) (cam : Camera) :
    Bool × Camera :=
  let source := cameraSource config.device
  if opens source true || opens source false then
    (true,
      { cam with
        opened := true
        pixelFormat := if config.useJpeg then jpegFormat else bgr24Format })
  else (false, cam)

/-- `start`. -/
def Camera.start (cam : Camera) : Bool × Camera :=
  if cam.opened then (true, { cam with streaming := true }) else (false, cam)

/-- `stop`. -/
def Camera.stop (cam : Camera) : Camera :=
  if cam.streaming then { cam with streaming := false } else cam

/-! ## Objects and threads -/

/-- The two threads. -/
inductive Worker
  | capture
  | network
  deriving DecidableEq, Repr

/-- What the program makes and has to give back. -/
inductive Obj
  | queue
  /-- `mmap_base_`. -/
  | mapping
  /-- `slot_in_use_`. -/
  | flags
  /-- `mutex_` and `not_empty_`. -/
  | sync
  | capture
  /-- The open device of `cap_`. -/
  | camera
  | tls
  | sslCtx
  | thread (t : Worker)
  deriving DecidableEq, Repr

/-! ## The SSL context -/

/-- `TLS1_2_VERSION`. -/
def tls12Version : Nat := 0x0303

/-- The version demanded after `SSL_CTX_set_min_proto_version`: none where it is refused. -/
def minProtoVersion (accepted : Bool) : Nat := if accepted then tls12Version else 0

/-- What the client sets in an `SSL_CTX`. -/
structure SslContext where
  minProtoVersion : Nat
  /-- The CA bundle loaded. -/
  caBundle : Option (List Char)
  defaultPaths : Bool
  verifyPeer : Bool
  verifyDepth : Option Nat
  cipherList : Bool
  deriving DecidableEq, Repr

/-- `SSL_CTX_new`: nothing is required of the peer. -/
def SslContext.fresh : SslContext := ⟨0, none, false, false, none, false⟩

/-- What the calls of `createSslContext` return. -/
structure CtxEnv where
  ctxNew : Bool
  setMinProtoVersion : Bool
  loadVerifyLocations : Bool
  defaultVerifyPaths : Bool
  setCipherList : Bool

/-- A string that is there and not empty. -/
def isGiven (s : Option (List Char)) : Bool := s ≠ none && s ≠ some []

/-- The end of `createSslContext` (`tls_client.cpp:98-110`). -/
def SslContext.secure (ctx : SslContext) (env : CtxEnv) : SslContext :=
  { ctx with verifyPeer := true, verifyDepth := some 4, cipherList := env.setCipherList }

/-- `createSslContext`, and what it makes and frees. -/
def createSslContext (config : Config w) (env : CtxEnv) : Option SslContext × List (Op Obj) :=
  if !env.ctxNew then (none, [])
  else
    -- the code does not look at the result
    let ctx := { SslContext.fresh with minProtoVersion := minProtoVersion env.setMinProtoVersion }
    if isGiven config.caPath then
      if !env.loadVerifyLocations then (none, [.acquire .sslCtx, .release .sslCtx])
      else (some ({ ctx with caBundle := config.caPath }.secure env), [.acquire .sslCtx])
    else
      (some ({ ctx with defaultPaths := env.defaultVerifyPaths }.secure env), [.acquire .sslCtx])

/-- `TlsClient::initialize`. -/
def tlsInitialize (config : Config w) (env : CtxEnv) : Option SslContext × List (Op Obj) :=
  if !isGiven config.host || config.port = 0 then (none, []) else createSslContext config env

/-! ## The queue -/

/-- `new RingQueue` (`ring_queue.cpp:50-90`). -/
def queueNew (config : Config w) (mmapOk mallocOk : Bool) : List (Op Obj) :=
  .acquire .queue ::
    if config.queueSize.toNat = 0 ∨ maxFrameSize = 0 then []
    else if !mmapOk then []
    else if !mallocOk then [.acquire .mapping, .release .mapping]
    else [.acquire .mapping, .acquire .flags, .acquire .sync]

/-- `delete queue` (`ring_queue.cpp:92-109`). -/
def queueDelete (valid : Bool) : List (Op Obj) :=
  (if valid then [.release .sync, .release .flags, .release .mapping] else []) ++
    [.release .queue]

/-! ## The process -/

/-- Where `main` stands. -/
inductive MainPc
  /-- Before the first `pthread_create`. -/
  | createCapture
  /-- Before the second. -/
  | createNetwork
  /-- The second has failed: before `g_running = false`. -/
  | abort
  | abortShutdown
  | abortJoin
  /-- Before the test of the main loop. -/
  | loop
  /-- In `sleep(5)`. -/
  | asleep
  /-- Before the test in front of `getStats`. -/
  | stats
  /-- The loop is left: before `g_running = false`. -/
  | stop
  | shutdown
  | joinCapture
  | joinNetwork
  | deleteTls
  | deleteCapture
  | deleteQueue
  /-- `main` has returned, with `EXIT_SUCCESS` or `EXIT_FAILURE`. -/
  | exited (success : Bool)
  deriving DecidableEq, Repr

/-- Where the capture thread stands. -/
inductive CapturePc
  /-- It has not been created. -/
  | absent
  /-- Before the test of `captureLoop`, or in a `push` before it. -/
  | test
  /-- In an iteration, before its `push`. -/
  | read
  /-- `captureLoop` has returned. -/
  | returned
  deriving DecidableEq, Repr

/-- The process from the creation of the first thread on. -/
structure Process where
  pc : MainPc
  /-- `g_running`. -/
  running : Bool
  camera : Camera
  capture : CapturePc
  /-- `ssl_ctx_`. -/
  ctx : Option SslContext
  streamer : Streamer
  log : List (Op Obj)
  handshakes : List (Option SslContext × Net.ConnectEnv)

/-- The network thread has been created. -/
def MainPc.networkCreated : MainPc → Bool
  | .createCapture => false
  | .createNetwork => false
  | .abort => false
  | .abortShutdown => false
  | .abortJoin => false
  | .exited success => success
  | _ => true

/-- The client with its threads, for a configuration. -/
def streamerConfig (o : ByteOrder) (tls : TlsConfig) (config : Config w) : Streamer.Config where
  order := o
  tls := tls
  pixelFormat := if config.useJpeg then jpegFormat else bgr24Format
  queueSize := config.queueSize.toNat

/-! ## The start -/

/-- What the calls before the first `pthread_create` return. -/
structure BootEnv where
  mmapOk : Bool
  mallocOk : Bool
  opens : Source → Bool → Bool
  ctx : CtxEnv

/-- How the start ends: with `EXIT_FAILURE`, or at the first `pthread_create`. -/
inductive Boot
  | exits (log : List (Op Obj))
  | starts (p : Process)

/-- `main` up to the first `pthread_create` (`main.cpp:254-297`). -/
def boot (o : ByteOrder) (tls : TlsConfig) (config : Config w) (env : BootEnv) : Boot :=
  let q := RingQueue.construct config.queueSize.toNat maxFrameSize env.mmapOk env.mallocOk
  let log := queueNew config env.mmapOk env.mallocOk ++ [.use .queue]
  if !q.isValid then .exits (log ++ queueDelete false)
  else
    let log := log ++ [.acquire .capture]
    match Camera.construct.open config env.opens with
    | (false, _) => .exits log
    | (true, cam) =>
      let log := log ++ [.acquire .camera, .use .capture, .acquire .tls]
      match tlsInitialize config env.ctx with
      | (none, ops) => .exits (log ++ ops)
      | (some ctx, ops) =>
        match cam.start with
        | (false, _) => .exits (log ++ ops ++ [.use .capture])
        | (true, cam) => .starts
          { pc := .createCapture
            running := true
            camera := cam
            capture := .absent
            ctx := some ctx
            streamer := { Streamer.init (streamerConfig o tls config) with qs := .init q }
            log := log ++ ops ++ [.use .capture]
            handshakes := [] }

/-! ## The steps -/

namespace Process

/-- The objects a step of a thread, or of `main` in `shutdown`, may use. -/
def touches : Streamer.Action → List Obj
  | .capture _ => [.capture, .camera, .queue, .sync]
  | .push _ => [.capture, .queue, .sync, .flags, .mapping]
  | .test _ => [.tls]
  | .connect _ => [.tls, .sslCtx]
  | .popNull => [.tls, .queue, .sync]
  | .popTake => [.tls, .queue, .sync, .flags, .mapping]
  | .popBuild => [.tls, .queue]
  | .popFail => [.tls, .queue, .flags]
  | .write _ => [.tls, .mapping]
  | .advance => [.tls, .queue, .flags]
  | .shutdown => [.queue, .sync]

/-- What `networkLoop` does between two tests of `running`. -/
def isNetwork : Streamer.Action → Bool
  | .connect _ => true
  | .popNull => true
  | .popTake => true
  | .popBuild => true
  | .popFail => true
  | .write _ => true
  | .advance => true
  | _ => false

/-- A step of the streamer. -/
def act (c : Streamer.Config) (p : Process) (a : Streamer.Action) : Option Process :=
  (p.streamer.step c a).map fun streamer =>
    { p with streamer, log := p.log ++ (touches a).map Op.use }

/-- `main` goes on. -/
def goto (p : Process) (pc : MainPc) (ops : List (Op Obj)) : Process :=
  { p with pc, log := p.log ++ ops }

/-- One step of `main`; `created` is the result of a `pthread_create`. -/
def main (c : Streamer.Config) (p : Process) (created : Bool) : Option Process :=
  match p.pc with
  | .createCapture =>
    if created then
      some { p.goto .createNetwork [.acquire (.thread .capture)] with capture := .test }
    else some (p.goto (.exited false) [])
  | .createNetwork =>
    if created then some (p.goto .loop [.acquire (.thread .network)]) else some (p.goto .abort [])
  | .abort => some { p.goto .abortShutdown [] with running := false }
  | .abortShutdown => (p.act c .shutdown).map fun p => p.goto .abortJoin []
  | .abortJoin =>
    if p.capture = .returned then
      some (p.goto (.exited false) [.release (.thread .capture)])
    else none
  | .loop => if p.running then some (p.goto .asleep []) else some (p.goto .stop [])
  | .asleep => some (p.goto .stats [])
  | .stats => some (p.goto .loop (if p.running then [.use .queue] else []))
  | .stop => some { p.goto .shutdown [] with running := false }
  | .shutdown => (p.act c .shutdown).map fun p => p.goto .joinCapture []
  | .joinCapture =>
    if p.capture = .returned then some (p.goto .joinNetwork [.release (.thread .capture)])
    else none
  | .joinNetwork =>
    if p.streamer.net.pc = .done then some (p.goto .deleteTls [.release (.thread .network)])
    else none
  | .deleteTls =>
    (p.streamer.step c .advance).map fun streamer =>
      { p.goto .deleteCapture
          ((if p.ctx.isSome then [.release .sslCtx] else []) ++ [.release .tls]) with
        streamer
        ctx := none }
  | .deleteCapture =>
    some
      { p.goto .deleteQueue
          ((if p.camera.opened then [.release .camera] else []) ++ [.release .capture]) with
        camera := { p.camera.stop with opened := false } }
  | .deleteQueue => some (p.goto (.exited true) (queueDelete p.streamer.qs.q.isValid))
  | .exited _ => none

/-- A step of `main`, of a thread, or the delivery of a signal. -/
inductive Action
  | signal
  | main (created : Bool)
  /-- The test of `captureLoop`. -/
  | captureTest
  /-- The rest of its iteration, up to the entry of `push`. -/
  | capture (r : Capture)
  | push (a : QAction)
  /-- The test of `networkLoop`. -/
  | networkTest
  | network (a : Streamer.Action)

/-- The handshakes after a step of the network thread. -/
def handshakesAfter (c : Streamer.Config) (p : Process) (a : Streamer.Action) :
    List (Option SslContext × Net.ConnectEnv) :=
  match a with
  | .connect env =>
    if (p.streamer.net.tlsConnect c.tls env).1 then p.handshakes ++ [(p.ctx, env)]
    else p.handshakes
  | _ => p.handshakes

/-- One step of the process. -/
def step (c : Streamer.Config) (p : Process) : Action → Option Process
  | .signal => some { p with running := false }
  | .main created => p.main c created
  | .captureTest =>
    if p.capture = .test ∧ p.streamer.qs.pushing.isNone ∧ p.streamer.qs.uncounted = 0 then
      some
        { p with
          capture := if p.running && p.camera.streaming then .read else .returned
          log := p.log ++ [.use .capture] }
    else none
  | .capture r =>
    if p.capture = .read then (p.act c (.capture r)).map fun p => { p with capture := .test }
    else none
  | .push a => p.act c (.push a)
  | .networkTest =>
    if p.pc.networkCreated then p.act c (.test p.running) else none
  | .network a =>
    if p.pc.networkCreated ∧ isNetwork a ∧ p.streamer.net.pc ≠ .done then
      (p.act c a).map fun p' => { p' with handshakes := p.handshakesAfter c a }
    else none

/-- The states of the runs of the program. -/
def Reachable (o : ByteOrder) (tls : TlsConfig) (config : Config w) (p : Process) : Prop :=
  ∃ env p₀, boot o tls config env = .starts p₀ ∧
    Reach (step (streamerConfig o tls config)) (fun _ _ => True) p₀ p

end Process

end CameraStreamer.Client
