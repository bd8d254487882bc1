import CameraStreamer.Client.Process
import CameraStreamer.Client.Steps

/-!
# The invariant of the client process

`MainPc.opened` says what there is at each place of `main` (`src/main.cpp:226-353`), and
`Process.Inv` what goes with it: the books of the objects, where the threads are, the flags, and the
handshakes behind the connections.

* `inv_main`: each step of `main` keeps it.
* `inv_capture`, `inv_network`: so does each step of the threads, `main` being anywhere.
* `inv_step`: the two together.
-/

namespace CameraStreamer

open Lib.Machine Lib.Ledger Lib.Endian Protocol TlsClient

namespace Client

/-! ## What there is at each place of `main` -/

variable {w : Nat} {config : Config w} {env : CtxEnv} {c : Streamer.Config}

/-- What a running thread may use. -/
def core : List Obj := [.sslCtx, .tls, .camera, .capture, .sync, .flags, .mapping, .queue]

/-- The objects and threads there are, the last made first. -/
def MainPc.opened : MainPc → List Obj
  | .createCapture => core
  | .createNetwork => .thread .capture :: core
  | .abort => .thread .capture :: core
  | .abortShutdown => .thread .capture :: core
  | .abortJoin => .thread .capture :: core
  | .joinNetwork => .thread .network :: core
  | .deleteTls => core
  | .deleteCapture => [.camera, .capture, .sync, .flags, .mapping, .queue]
  | .deleteQueue => [.sync, .flags, .mapping, .queue]
  | .exited success => if success then [] else core
  | _ => .thread .network :: .thread .capture :: core

/-- `g_running` has been set to `false`. -/
def MainPc.stopped : MainPc → Bool
  | .abortShutdown => true
  | .abortJoin => true
  | .shutdown => true
  | .joinCapture => true
  | .joinNetwork => true
  | .deleteTls => true
  | .deleteCapture => true
  | .deleteQueue => true
  | .exited success => success
  | _ => false

/-- The queue has been shut down. -/
def MainPc.shut : MainPc → Bool
  | .abortShutdown => false
  | .shutdown => false
  | pc => pc.stopped

/-- The destructor of the TLS client has run. -/
def MainPc.destroyed : MainPc → Bool
  | .deleteCapture => true
  | .deleteQueue => true
  | .exited success => success
  | _ => false

/-- Where there is a thread there is all it may use. -/
theorem core_of_thread {pc : MainPc} {t : Worker} (h : .thread t ∈ pc.opened) :
    ∀ o ∈ core, o ∈ pc.opened := by
  intro o ho
  cases pc with
  | deleteTls => exact ho
  | createCapture => exact ho
  | exited success =>
    cases success with
    | true => exact absurd h (by simp [MainPc.opened])
    | false => exact ho
  | deleteCapture => exact absurd h (by simp [MainPc.opened])
  | deleteQueue => exact absurd h (by simp [MainPc.opened])
  | createNetwork => exact List.mem_cons_of_mem _ ho
  | abort => exact List.mem_cons_of_mem _ ho
  | abortShutdown => exact List.mem_cons_of_mem _ ho
  | abortJoin => exact List.mem_cons_of_mem _ ho
  | joinNetwork => exact List.mem_cons_of_mem _ ho
  | _ => exact List.mem_cons_of_mem _ (List.mem_cons_of_mem _ ho)

/-- No step uses more than that. -/
theorem touches_core (a : Streamer.Action) : ∀ o ∈ Process.touches a, o ∈ core := by
  cases a <;> simp [Process.touches, core]

/-! ## The context -/

/-- What the client demands of a peer. -/
structure SslContext.Secure (config : Config w) (env : CtxEnv) (ctx : SslContext) : Prop where
  /-- Unless OpenSSL has refused the setting, which the code does not look at. -/
  version : env.setMinProtoVersion = true → ctx.minProtoVersion = tls12Version
  peer : ctx.verifyPeer = true
  depth : ctx.verifyDepth = some 4
  bundle : isGiven config.caPath = true → ctx.caBundle = config.caPath

/-- `initialize` makes a context that demands all of it, or leaves none behind. -/
theorem tlsInitialize_cases (config : Config w) (env : CtxEnv) {res : List Obj}
    (h : .sslCtx ∉ res) :
    (∃ ops, tlsInitialize config env = (none, ops) ∧ replay id res ops = some res) ∨
    ∃ ctx ops, tlsInitialize config env = (some ctx, ops) ∧ ctx.Secure config env ∧
      replay id res ops = some (.sslCtx :: res) := by
  have hne : ∀ x ∈ res, id x ≠ id Obj.sslCtx := fun x hx heq => by
    rw [id, id] at heq
    exact h (heq ▸ hx)
  unfold tlsInitialize createSslContext
  split_ifs with hconfig hnew hca hload
  · exact .inl ⟨_, rfl, rfl⟩
  · exact .inl ⟨_, rfl, rfl⟩
  · refine .inl ⟨_, rfl, ?_⟩
    rw [replay_acquire hne, replay_release List.mem_cons_self, List.erase_cons_head]
    rfl
  · refine .inr ⟨_, _, rfl, ⟨congrArg minProtoVersion, rfl, rfl, fun _ => rfl⟩, ?_⟩
    rw [replay_acquire hne]
    rfl
  · refine .inr ⟨_, _, rfl, ⟨congrArg minProtoVersion, rfl, rfl, fun hgiven => absurd hgiven hca⟩,
      ?_⟩
    rw [replay_acquire hne]
    rfl

/-- A handshake that succeeded, under a context that demands a verified peer. -/
def Verified (config : Config w) (env : CtxEnv) (h : Option SslContext × Net.ConnectEnv) : Prop :=
  (∃ ctx, h.1 = some ctx ∧ ctx.Secure config env) ∧ h.2.Passed

/-! ## The invariant -/

namespace Process

variable {p p' : Process}

/-- The network thread has not returned. -/
def networkAlive (p : Process) : Prop :=
  p.pc.networkCreated = true ∧ p.streamer.net.pc ≠ .done ∧ p.streamer.net.pc ≠ .destroyed

/-- The objects, the threads and the flags at each place of `main`. -/
structure Inv (config : Config w) (env : CtxEnv) (c : Streamer.Config) (p : Process) : Prop where
  streamer : Streamer.Reachable c p.streamer
  books : replay id [] p.log = some p.pc.opened
  capture : p.capture = .test ∨ p.capture = .read → .thread .capture ∈ p.pc.opened
  pushing : p.capture ≠ .test → p.streamer.qs.pushing = none ∧ p.streamer.qs.uncounted = 0
  network : p.networkAlive → .thread .network ∈ p.pc.opened
  destroyed : p.streamer.net.pc = .destroyed ↔ p.pc.destroyed = true
  ctx : .sslCtx ∈ p.pc.opened → ∃ ctx, p.ctx = some ctx ∧ ctx.Secure config env
  camera : .camera ∈ p.pc.opened → p.camera.opened = true
  stopped : p.pc.stopped = true → p.running = false
  shut : p.pc.shut = true → p.streamer.qs.q.shutdown = true
  count : p.handshakes.length = p.streamer.net.wires.length
  verified : ∀ h ∈ p.handshakes, Verified config env h

/-- A step of a thread. -/
theorem inv_thread {a : Streamer.Action} {s' : Streamer} {capture' : CapturePc}
    {handshakes' : List (Option SslContext × Net.ConnectEnv)} (h : p.Inv config env c)
    (hs : p.streamer.step c a = some s')
    (huse : ∀ o ∈ touches a, o ∈ p.pc.opened)
    (hcapture : capture' = .test ∨ capture' = .read → .thread .capture ∈ p.pc.opened)
    (hpushing : capture' ≠ .test → s'.qs.pushing = none ∧ s'.qs.uncounted = 0)
    (hnetwork : p.pc.networkCreated = true → s'.net.pc ≠ .done → s'.net.pc ≠ .destroyed →
      .thread .network ∈ p.pc.opened)
    (hdestroyed : s'.net.pc = .destroyed ↔ p.streamer.net.pc = .destroyed)
    (hcount : handshakes'.length = s'.net.wires.length)
    (hverified : ∀ x ∈ handshakes', Verified config env x) :
    Inv config env c
      { p with
        streamer := s'
        log := p.log ++ (touches a).map Op.use
        capture := capture'
        handshakes := handshakes' } where
  streamer := h.streamer.tail a trivial hs
  books := replay_append h.books (replay_uses huse)
  capture := hcapture
  pushing := hpushing
  network halive := hnetwork halive.1 halive.2.1 halive.2.2
  destroyed := hdestroyed.trans h.destroyed
  ctx := h.ctx
  camera := h.camera
  stopped := h.stopped
  shut hpc := (Streamer.step_moves hs).shut (h.shut hpc)
  count := hcount
  verified := hverified

/-- A step of `main` that leaves the streamer alone. -/
theorem inv_goto {pc : MainPc} {ops : List (Op Obj)} {running' : Bool} {capture' : CapturePc}
    (h : p.Inv config env c) (hops : replay id p.pc.opened ops = some pc.opened)
    (hcapture : capture' = .test ∨ capture' = .read → .thread .capture ∈ pc.opened)
    (hpushing : capture' ≠ .test → p.streamer.qs.pushing = none ∧ p.streamer.qs.uncounted = 0)
    (hnetwork : pc.networkCreated = true → p.streamer.net.pc ≠ .done →
      p.streamer.net.pc ≠ .destroyed → .thread .network ∈ pc.opened)
    (hdestroyed : p.pc.destroyed = true ↔ pc.destroyed = true)
    (hopened : ∀ o ∈ core, o ∈ pc.opened → o ∈ p.pc.opened)
    (hstopped : pc.stopped = true → running' = false)
    (hshut : pc.shut = true → p.streamer.qs.q.shutdown = true) :
    Inv config env c { p.goto pc ops with running := running', capture := capture' } where
  streamer := h.streamer
  books := replay_append h.books hops
  capture := hcapture
  pushing := hpushing
  network halive := hnetwork halive.1 halive.2.1 halive.2.2
  destroyed := h.destroyed.trans hdestroyed
  ctx ho := h.ctx (hopened _ (by decide) ho)
  camera ho := h.camera (hopened _ (by decide) ho)
  stopped := hstopped
  shut := hshut
  count := h.count
  verified := h.verified

/-- Such a step to a place before the queue is shut down. -/
theorem inv_open {pc : MainPc} {ops : List (Op Obj)} {running' : Bool} {capture' : CapturePc}
    (h : p.Inv config env c) (hops : replay id p.pc.opened ops = some pc.opened)
    (hcapture : capture' = .test ∨ capture' = .read → .thread .capture ∈ pc.opened)
    (hpushing : capture' ≠ .test → p.streamer.qs.pushing = none ∧ p.streamer.qs.uncounted = 0)
    (hnetwork : pc.networkCreated = true → p.streamer.net.pc ≠ .done →
      p.streamer.net.pc ≠ .destroyed → .thread .network ∈ pc.opened)
    (hdestroyed : p.pc.destroyed = true ↔ pc.destroyed = true)
    (hopened : ∀ o ∈ core, o ∈ pc.opened → o ∈ p.pc.opened) (hshut : pc.shut = false)
    (hstopped : pc.stopped = false ∨ running' = false) :
    Inv config env c { p.goto pc ops with running := running', capture := capture' } :=
  inv_goto h hops hcapture hpushing hnetwork hdestroyed hopened
    (fun hs => hstopped.resolve_left (by rw [hs]; decide))
    (fun hs => absurd (hshut.symm.trans hs) Bool.false_ne_true)

/-- `queue->shutdown()`. -/
theorem inv_shutdown {pc : MainPc} (h : p.Inv config env c) (hopen : ∀ o ∈ core, o ∈ p.pc.opened)
    (hpc : pc.opened = p.pc.opened) (hcreated : pc.networkCreated = p.pc.networkCreated)
    (hdestroyed : pc.destroyed = p.pc.destroyed) (hrun : p.running = false)
    (hp : (p.act c .shutdown).map (fun p => p.goto pc []) = some p') : Inv config env c p' := by
  obtain ⟨t, ht, rfl⟩ := Option.map_eq_some_iff.mp hp
  obtain ⟨s', hs, rfl⟩ := Option.map_eq_some_iff.mp ht
  have hm := Streamer.step_moves hs
  have hnet := hm.sameNet (.inr rfl)
  have hprod := hm.sameProducer rfl
  have hshut : s'.qs.q.shutdown = true := by
    cases hm with
    | shutdown hq =>
      obtain ⟨-, rfl⟩ := QState.shutdown_cases hq
      rfl
  have hthread := inv_thread h hs (fun o ho => hopen o (touches_core _ o ho)) h.capture
    (fun hne => by rw [hprod.pushing, hprod.uncounted]; exact h.pushing hne)
    (by rw [hnet]; exact fun h1 h2 h3 => h.network ⟨h1, h2, h3⟩) (by rw [hnet])
    (by rw [hnet]; exact h.count) h.verified
  exact inv_goto hthread (congrArg some hpc.symm) (fun hc => hpc ▸ hthread.capture hc)
    hthread.pushing
    (fun h1 h2 h3 => hpc ▸ hthread.network ⟨hcreated ▸ h1, h2, h3⟩)
    (by rw [hdestroyed]) (fun o _ ho => hpc ▸ ho) (fun _ => hrun) fun _ => hshut

/-- Where the capture thread is not, it is not running. -/
theorem Inv.capture_idle (h : p.Inv config env c) (hno : .thread .capture ∉ p.pc.opened) :
    ¬ (p.capture = .test ∨ p.capture = .read) :=
  fun hc => hno (h.capture hc)

/-- The queue was valid when the first thread was created, and stays so. -/
theorem Inv.valid (h : p.Inv config env c) (hc : 0 < c.queueSize) :
    p.streamer.qs.q.isValid = true := by
  have hmapped := (QState.fixed_of_reachable (Streamer.queue_reachable h.streamer)).mmapped
  rw [RingQueue.isValid, hmapped]
  simp [Nat.pos_iff_ne_zero.mp hc, maxFrameSize]

/-- Where the network thread has been joined and not yet destroyed, it has returned. -/
theorem Inv.net_done (h : p.Inv config env c) (hpc : p.pc = .deleteTls) :
    p.streamer.net.pc = .done := by
  by_contra hne
  have hnd : p.streamer.net.pc ≠ .destroyed := fun hd => by
    have hfalse := h.destroyed.mp hd
    rw [hpc] at hfalse
    exact absurd hfalse nofun
  have hmem := h.network ⟨by rw [hpc]; rfl, hne, hnd⟩
  rw [hpc] at hmem
  exact absurd hmem (by decide)

/-- `delete tls`. -/
theorem inv_deleteTls (h : p.Inv config env c) (hpc : p.pc = .deleteTls) {created : Bool}
    (hp : p.main c created = some p') : Inv config env c p' := by
  unfold main at hp
  rw [hpc] at hp
  obtain ⟨s', hs, rfl⟩ := Option.map_eq_some_iff.mp hp
  have hopened : ∀ o, o ∈ p.pc.opened ↔ o ∈ core := fun o => by rw [hpc]; rfl
  obtain ⟨ctx, hctx, -⟩ := h.ctx ((hopened _).mpr (by decide))
  have hdone := h.net_done hpc
  have hm := Streamer.step_moves hs
  have hnet : s'.net.pc = .destroyed ∧ s'.net.wires = p.streamer.net.wires := by
    cases hm with
    | free hfree _ _ => rcases hfree with ⟨hf, -⟩ | ⟨hf, -⟩ <;> rw [hdone] at hf <;> cases hf
    | advance _ hn =>
      refine ⟨?_, Net.advance_wires hn⟩
      unfold Net.advance at hn
      rw [hdone] at hn
      cases hn
      rfl
  have hprod := hm.sameProducer rfl
  have hidle := h.capture_idle fun hmem => absurd ((hopened _).mp hmem) (by decide)
  have hops : replay id core ((if p.ctx.isSome then [.release .sslCtx] else []) ++
      [.release .tls]) = some MainPc.deleteCapture.opened := by
    rw [hctx]
    rfl
  exact
    { streamer := h.streamer.tail .advance trivial hs
      books := replay_append h.books (by rw [hpc]; exact hops)
      capture := fun hc => absurd hc hidle
      pushing := fun hne => by
        rw [hprod.pushing, hprod.uncounted]
        exact h.pushing hne
      network := fun halive => absurd hnet.1 halive.2.2
      destroyed := ⟨fun _ => rfl, fun _ => hnet.1⟩
      ctx := fun ho => absurd ho (by simp [goto, MainPc.opened])
      camera := fun _ => h.camera ((hopened _).mpr (by decide))
      stopped := fun _ => h.stopped (by rw [hpc]; rfl)
      shut := fun _ => hm.shut (h.shut (by rw [hpc]; rfl))
      count := by rw [hnet.2]; exact h.count
      verified := h.verified }

/-- `delete capture`. -/
theorem inv_deleteCapture (h : p.Inv config env c) (hpc : p.pc = .deleteCapture) {created : Bool}
    (hp : p.main c created = some p') : Inv config env c p' := by
  have hdestroyed := h.destroyed.mpr (by rw [hpc]; rfl)
  have hcam := h.camera (by rw [hpc]; decide)
  have hidle := h.capture_idle (by rw [hpc]; decide)
  unfold main at hp
  rw [hpc] at hp
  cases hp
  exact
    { streamer := h.streamer
      books := replay_append h.books (by rw [hpc, hcam]; rfl)
      capture := fun hc => absurd hc hidle
      pushing := h.pushing
      network := fun halive => absurd hdestroyed halive.2.2
      destroyed := ⟨fun _ => rfl, fun _ => hdestroyed⟩
      ctx := fun ho => absurd ho (by simp [goto, MainPc.opened])
      camera := fun ho => absurd ho (by simp [goto, MainPc.opened])
      stopped := fun _ => h.stopped (by rw [hpc]; rfl)
      shut := fun _ => h.shut (by rw [hpc]; rfl)
      count := h.count
      verified := h.verified }

/-- **Each step of `main`** keeps the invariant. -/
theorem inv_main (hc : 0 < c.queueSize) (h : p.Inv config env c) {created : Bool}
    (hp : p.main c created = some p') : Inv config env c p' := by
  have hmain := hp
  unfold main at hp
  split at hp
  case h_1 hpc =>
    split at hp
    · cases hp
      refine inv_open h (by rw [hpc]; rfl) (fun _ => by decide) (fun hne => absurd rfl hne)
        (fun hnet => by cases hnet) (by rw [hpc]; decide) (by rw [hpc]; decide) rfl (.inl rfl)
    · cases hp
      have hidle := h.capture_idle (by rw [hpc]; decide)
      exact inv_open h (by rw [hpc]; rfl) (fun hcap => absurd hcap hidle) h.pushing
        (fun hnet => by cases hnet) (by rw [hpc]; decide) (by rw [hpc]; decide) rfl (.inl rfl)
  case h_2 hpc =>
    split at hp
    · cases hp
      refine inv_open h (by rw [hpc]; rfl) (fun _ => by decide) h.pushing (fun _ _ _ => by decide)
        (by rw [hpc]; decide) (by rw [hpc]; decide) rfl (.inl rfl)
    · cases hp
      exact inv_open h (by rw [hpc]; rfl) (fun _ => by decide) h.pushing
        (fun hnet => by cases hnet) (by rw [hpc]; decide) (by rw [hpc]; decide) rfl (.inl rfl)
  case h_3 hpc =>
    cases hp
    exact inv_open h (by rw [hpc]; rfl) (fun _ => by decide) h.pushing
      (fun hnet => by cases hnet) (by rw [hpc]; decide) (by rw [hpc]; decide) rfl (.inr rfl)
  case h_4 hpc =>
    exact inv_shutdown h (by rw [hpc]; decide) (by rw [hpc]; rfl) (by rw [hpc]; rfl)
      (by rw [hpc]; rfl) (h.stopped (by rw [hpc]; rfl)) hp
  case h_5 hpc =>
    split at hp
    · rename_i hret
      cases hp
      exact inv_open h (by rw [hpc]; rfl) (by rw [hret]; rintro (hc | hc) <;> cases hc) h.pushing
        (fun hnet => by cases hnet) (by rw [hpc]; decide) (by rw [hpc]; decide) rfl (.inl rfl)
    · cases hp
  case h_6 hpc =>
    split at hp <;>
    · cases hp
      exact inv_open h (by rw [hpc]; rfl) (fun _ => by decide) h.pushing (fun _ _ _ => by decide)
        (by rw [hpc]; decide) (by rw [hpc]; decide) rfl (.inl rfl)
  case h_7 hpc =>
    cases hp
    exact inv_open h (by rw [hpc]; rfl) (fun _ => by decide) h.pushing (fun _ _ _ => by decide)
      (by rw [hpc]; decide) (by rw [hpc]; decide) rfl (.inl rfl)
  case h_8 hpc =>
    cases hp
    refine inv_open h ?_ (fun _ => by decide) h.pushing (fun _ _ _ => by decide)
      (by rw [hpc]; decide) (by rw [hpc]; decide) rfl (.inl rfl)
    rw [hpc]
    split <;> rfl
  case h_9 hpc =>
    cases hp
    exact inv_open h (by rw [hpc]; rfl) (fun _ => by decide) h.pushing (fun _ _ _ => by decide)
      (by rw [hpc]; decide) (by rw [hpc]; decide) rfl (.inr rfl)
  case h_10 hpc =>
    exact inv_shutdown h (by rw [hpc]; decide) (by rw [hpc]; rfl) (by rw [hpc]; rfl)
      (by rw [hpc]; rfl) (h.stopped (by rw [hpc]; rfl)) hp
  case h_11 hpc =>
    split at hp
    · rename_i hret
      cases hp
      exact inv_goto h (by rw [hpc]; rfl) (by rw [hret]; rintro (hc | hc) <;> cases hc) h.pushing
        (fun _ _ _ => by decide) (by rw [hpc]; decide) (by rw [hpc]; decide)
        (fun _ => h.stopped (by rw [hpc]; rfl)) fun _ => h.shut (by rw [hpc]; rfl)
    · cases hp
  case h_12 hpc =>
    split at hp
    · rename_i hdone
      have hidle := h.capture_idle (by rw [hpc]; decide)
      cases hp
      exact inv_goto h (by rw [hpc]; rfl) (fun hcap => absurd hcap hidle) h.pushing
        (fun _ hne _ => absurd hdone hne) (by rw [hpc]; decide) (by rw [hpc]; decide)
        (fun _ => h.stopped (by rw [hpc]; rfl)) fun _ => h.shut (by rw [hpc]; rfl)
    · cases hp
  case h_13 hpc => exact inv_deleteTls h hpc hmain
  case h_14 hpc => exact inv_deleteCapture h hpc hmain
  case h_15 hpc =>
    have hidle := h.capture_idle (by rw [hpc]; decide)
    have hdestroyed := h.destroyed.mpr (by rw [hpc]; rfl)
    rw [h.valid hc] at hp
    cases hp
    exact inv_goto h (by rw [hpc]; rfl) (fun hcap => absurd hcap hidle) h.pushing
      (fun _ _ hne => absurd hdestroyed hne) (by rw [hpc]; decide) (by rw [hpc]; decide)
      (fun _ => h.stopped (by rw [hpc]; rfl)) fun _ => h.shut (by rw [hpc]; rfl)
  case h_16 => cases hp

/-- The capture thread makes a step in its `push` only when it is in one. -/
theorem Inv.in_push (h : p.Inv config env c) {b : QAction} {s' : Streamer}
    (hs : p.streamer.step c (.push b) = some s') : p.capture = .test := by
  by_contra hne
  obtain ⟨hp, hu⟩ := h.pushing hne
  cases Streamer.step_moves hs with
  | push hb hq =>
    cases b with
    | pushTest => exact absurd hq (by simp [QState.step, QState.pushTest, hp])
    | pushGuard => exact absurd hq (by simp [QState.step, QState.pushGuard, hp])
    | pushWrite => exact absurd hq (by simp [QState.step, QState.pushWrite, hp])
    | pushCount => exact absurd hq (by simp [QState.step, QState.pushCount, hu])
    | _ => cases hb

/-- **Each step of the capture thread** keeps the invariant. -/
theorem inv_capture (h : p.Inv config env c) {a : Streamer.Action} (ha : a.isCapture = true)
    {s' : Streamer} (hs : p.streamer.step c a = some s')
    (hcap : p.capture = .test ∨ p.capture = .read) :
    Inv config env c
      { p with
        streamer := s'
        log := p.log ++ (touches a).map Op.use
        capture := .test } := by
  have hthread := h.capture hcap
  have hnet := (Streamer.step_moves hs).sameNet (.inl ha)
  exact inv_thread h hs (fun o ho => core_of_thread hthread o (touches_core a o ho))
    (fun _ => hthread) (fun hne => absurd rfl hne)
    (by rw [hnet]; exact fun h1 h2 h3 => h.network ⟨h1, h2, h3⟩) (by rw [hnet])
    (by rw [hnet]; exact h.count) h.verified

/-- A step of the network thread leads from inside `networkLoop` to inside it, or to its return. -/
theorem network_place {a : Streamer.Action} {s s' : Streamer} (hm : Streamer.Moves c s a s')
    (ha : a.ofNetwork = true) (hdone : s.net.pc ≠ .done) :
    s.net.pc ≠ .destroyed ∧ s'.net.pc ≠ .destroyed := by
  cases hm with
  | idle _ => exact absurd ha nofun
  | capture _ _ _ => exact absurd ha nofun
  | push _ _ => exact absurd ha nofun
  | shutdown _ => exact absurd ha nofun
  | test hpc =>
    refine ⟨by rw [hpc]; exact nofun, ?_⟩
    simp only [Net.test]
    split_ifs <;> exact nofun
  | connect hpc =>
    refine ⟨by rw [hpc]; exact nofun, ?_⟩
    simp only [Net.connect]
    split <;> exact nofun
  | popNull hpc _ => exact ⟨by rw [hpc]; exact nofun, nofun⟩
  | popTake hpc _ _ => exact ⟨by rw [hpc]; exact nofun, by rw [hpc]; exact nofun⟩
  | popBuild hpc _ _ => exact ⟨by rw [hpc]; exact nofun, nofun⟩
  | popFail hpc _ => exact ⟨by rw [hpc]; exact nofun, nofun⟩
  | write hp hn =>
    have hsame := Streamer.write_packet hn
    constructor
    · intro hpc
      rw [hpc] at hp
      exact absurd hp nofun
    · intro hpc
      rw [hpc, hp] at hsame
      exact absurd hsame nofun
  | free hpc _ hn =>
    rcases hpc with ⟨hpc, -⟩ | ⟨hpc, -⟩
    all_goals
      refine ⟨by rw [hpc]; exact nofun, ?_⟩
      unfold Net.advance at hn
      rw [hpc] at hn
      cases hn
      exact nofun
  | advance _ hn =>
    cases Net.advance_cases hn with
    | destroy hpc => exact absurd hpc hdone
    | retry hpc => exact ⟨by rw [hpc]; exact nofun, nofun⟩
    | headerDone hpc => exact ⟨by rw [hpc]; exact nofun, nofun⟩
    | payloadDone hpc _ => exact ⟨by rw [hpc]; exact nofun, nofun⟩
    | giveUp hpc => exact ⟨by rw [hpc]; exact nofun, nofun⟩
    | disconnect hpc => exact ⟨by rw [hpc]; exact nofun, nofun⟩
    | count hpc => exact ⟨by rw [hpc]; exact nofun, nofun⟩
    | free hpc => exact ⟨by rw [hpc]; exact nofun, nofun⟩
    | leave hpc => exact ⟨by rw [hpc]; exact nofun, nofun⟩

/-- **Each step of the network thread** keeps the invariant. -/
theorem inv_network (h : p.Inv config env c) {a : Streamer.Action}
    (ha : a.ofNetwork = true) (hcreated : p.pc.networkCreated = true)
    (hdone : p.streamer.net.pc ≠ .done) {s' : Streamer} (hs : p.streamer.step c a = some s')
    {handshakes' : List (Option SslContext × Net.ConnectEnv)}
    (hcount : handshakes'.length = s'.net.wires.length)
    (hverified : ∀ x ∈ handshakes', Verified config env x) :
    Inv config env c
      { p with
        streamer := s'
        log := p.log ++ (touches a).map Op.use
        handshakes := handshakes' } := by
  have hm := Streamer.step_moves hs
  obtain ⟨hplace, hplace'⟩ := network_place hm ha hdone
  have hthread := h.network ⟨hcreated, hdone, hplace⟩
  have hprod := hm.sameProducer (by cases a <;> first | rfl | exact absurd ha nofun)
  exact inv_thread h hs (fun o ho => core_of_thread hthread o (touches_core a o ho)) h.capture
    (fun hne => by rw [hprod.pushing, hprod.uncounted]; exact h.pushing hne)
    (fun _ _ _ => hthread) ⟨fun hd => absurd hd hplace', fun hd => absurd hd hplace⟩ hcount
    hverified

/-- But for a connection attempt, the network thread makes no connection. -/
theorem network_wires {a : Streamer.Action} {s s' : Streamer} (hm : Streamer.Moves c s a s')
    (hconnect : ∀ env, a ≠ .connect env) : s'.net.wires.length = s.net.wires.length := by
  cases hm with
  | idle _ => rfl
  | capture _ _ _ => rfl
  | push _ _ => rfl
  | shutdown _ => rfl
  | test _ => rw [Net.test_wires]
  | connect _ => exact absurd rfl (hconnect _)
  | popNull _ _ => rfl
  | popTake _ _ _ => rfl
  | popBuild _ _ _ => rfl
  | popFail _ _ => rfl
  | write _ hn => exact Net.write_wires hn
  | free _ _ hn => exact congrArg List.length (Net.advance_wires hn)
  | advance _ hn => exact congrArg List.length (Net.advance_wires hn)

/-- A connection is made by a handshake that succeeded, under the context of the client. -/
theorem inv_handshakes (h : p.Inv config env c) (hcreated : p.pc.networkCreated = true)
    (hdone : p.streamer.net.pc ≠ .done) {a : Streamer.Action} {s' : Streamer}
    (hm : Streamer.Moves c p.streamer a s') :
    (p.handshakesAfter c a).length = s'.net.wires.length ∧
      ∀ x ∈ p.handshakesAfter c a, Verified config env x := by
  by_cases hconnect : ∃ env, a = .connect env
  · obtain ⟨env, rfl⟩ := hconnect
    cases hm with
    | connect hpc =>
      have hinv := Net.inv_of_reachable (Streamer.net_reachable h.streamer)
      unfold Net.Inv at hinv
      rw [hpc] at hinv
      have hthread := h.network ⟨hcreated, hdone, by rw [hpc]; exact nofun⟩
      have hctx := h.ctx (core_of_thread hthread _ (by decide))
      have hwires : (p.streamer.net.connect c.tls env).wires.length = _ :=
        Net.connect_wires hinv.2.2.2.1
      simp only [handshakesAfter]
      rw [hwires]
      split
      · rename_i hok
        rw [List.length_append, h.count]
        refine ⟨rfl, fun x hx => ?_⟩
        rcases List.mem_append.mp hx with hx | hx
        · exact h.verified x hx
        · rw [List.mem_singleton.mp hx]
          exact ⟨hctx, Net.tlsConnect_passed hok⟩
      · exact ⟨h.count, h.verified⟩
  · have hsame : p.handshakesAfter c a = p.handshakes := by
      cases a <;> first | rfl | exact absurd ⟨_, rfl⟩ hconnect
    rw [hsame, network_wires hm fun env heq => hconnect ⟨env, heq⟩]
    exact ⟨h.count, h.verified⟩

/-- **Each step of the process** keeps the invariant. -/
theorem inv_step (hc : 0 < c.queueSize) (h : p.Inv config env c) {a : Action}
    (hs : p.step c a = some p') : Inv config env c p' := by
  cases a with
  | signal =>
    cases hs
    exact { h with stopped := fun _ => rfl }
  | main created => exact inv_main hc h hs
  | captureTest =>
    simp only [step] at hs
    split at hs
    · rename_i hidle
      cases hs
      obtain ⟨hcap, hp, hu⟩ := hidle
      have hthread := h.capture (.inl hcap)
      have huse : replay id p.pc.opened [.use .capture] = some p.pc.opened := by
        rw [replay_use (core_of_thread hthread _ (by decide))]
        rfl
      exact
        { h with
          books := replay_append h.books huse
          capture := fun _ => hthread
          pushing := fun _ => ⟨Option.isNone_iff_eq_none.mp hp, hu⟩ }
    · exact absurd hs nofun
  | capture r =>
    simp only [step] at hs
    split_ifs at hs with hcap
    obtain ⟨t, ht, rfl⟩ := Option.map_eq_some_iff.mp hs
    obtain ⟨s', hs', rfl⟩ := Option.map_eq_some_iff.mp ht
    exact inv_capture h rfl hs' (.inr hcap)
  | push b =>
    obtain ⟨s', hs', rfl⟩ := Option.map_eq_some_iff.mp hs
    have hcap := h.in_push hs'
    have hthread := inv_capture h (a := .push b) rfl hs' (.inl hcap)
    rwa [← hcap] at hthread
  | networkTest =>
    simp only [step] at hs
    split_ifs at hs with hcreated
    obtain ⟨s', hs', rfl⟩ := Option.map_eq_some_iff.mp hs
    have hm := Streamer.step_moves hs'
    have hdone : p.streamer.net.pc ≠ .done := by
      cases hm with
      | test hpc => rw [hpc]; exact nofun
    refine inv_network h rfl hcreated hdone hs' ?_ h.verified
    rw [network_wires hm fun _ => nofun]
    exact h.count
  | network a =>
    simp only [step] at hs
    split_ifs at hs with hnet
    obtain ⟨hcreated, ha, hdone⟩ := hnet
    obtain ⟨t, ht, rfl⟩ := Option.map_eq_some_iff.mp hs
    obtain ⟨s', hs', rfl⟩ := Option.map_eq_some_iff.mp ht
    have hm := Streamer.step_moves hs'
    have hof : a.ofNetwork = true := by
      cases a <;> first | rfl | exact absurd ha nofun
    obtain ⟨hcount, hverified⟩ := inv_handshakes h hcreated hdone hm
    exact inv_network h hof hcreated hdone hs' hcount hverified

end Process

end Client

end CameraStreamer
