import CameraStreamer.Client.Invariant

/-!
# The life of the client's objects and threads

`main` reaches the place where its threads run only with a valid queue, an open camera and a TLS
context, and the invariant of `Invariant.lean` holds from there on.

* `boot_cases`: an early return comes before the first thread. It leaves nothing behind where the
  queue is not valid, and what was made so far where the camera does not open or `initialize` fails.
* **`lifecycle`**: over every run and every answer of the system, no step uses an object that does
  not exist, threads are joined before what they use is deleted, and a run that ends in success has
  given back everything, the network thread's sockets, SSL objects and packets included.
* **`verified_before_sent`**: every connection bytes are written on has a handshake that succeeded,
  under a context that demands a verified peer. The result of `SSL_CTX_set_min_proto_version`, which
  the code does not look at, decides whether it demands TLS 1.2 too.
-/

namespace CameraStreamer

open Lib.Machine Lib.Ledger Lib.Endian Protocol TlsClient

namespace Client

namespace Process

/-! ## The runs -/

variable {w : Nat} {config : Config w} {env : CtxEnv} {c : Streamer.Config} {p p' : Process}
  {o : ByteOrder} {tls : TlsConfig}

/-- A valid queue has slots and was given its memory. -/
theorem construct_valid {n m : Nat} {mmapOk mallocOk : Bool}
    (h : (RingQueue.construct n m mmapOk mallocOk).isValid = true) :
    n ≠ 0 ∧ m ≠ 0 ∧ mmapOk = true ∧ mallocOk = true := by
  simp only [RingQueue.isValid, RingQueue.construct, Bool.and_eq_true, decide_eq_true_eq] at h
  exact ⟨h.1.1.1, h.1.1.2, h.1.2, h.2⟩

/-- What a valid queue is made of. -/
theorem replay_queueNew {mmapOk mallocOk : Bool}
    (h : (RingQueue.construct config.queueSize.toNat maxFrameSize mmapOk mallocOk).isValid = true) :
    replay id [] (queueNew config mmapOk mallocOk ++ [.use .queue]) =
      some [.sync, .flags, .mapping, .queue] := by
  obtain ⟨hn, hm, rfl, rfl⟩ := construct_valid h
  unfold queueNew
  rw [if_neg (not_or.mpr ⟨hn, hm⟩)]
  rfl

/-- An invalid queue is deleted whole. -/
theorem replay_queueDelete {mmapOk mallocOk : Bool}
    (h : (RingQueue.construct config.queueSize.toNat maxFrameSize mmapOk mallocOk).isValid =
      false) :
    replay id [] (queueNew config mmapOk mallocOk ++ [.use .queue] ++ queueDelete false) =
      some [] := by
  unfold queueNew
  split_ifs with hbad hmmap hmalloc
  · rfl
  · rfl
  · rfl
  · have hvalid : (RingQueue.construct config.queueSize.toNat maxFrameSize mmapOk
        mallocOk).isValid = true := by
      rw [not_or] at hbad
      simp only [RingQueue.isValid, RingQueue.construct]
      simp_all
    rw [hvalid] at h
    cases h

/-- A camera opened can be started, and has the format of the configuration. -/
theorem open_cases (config : Config w) (opens : Source → Bool → Bool) :
    (∃ cam, Camera.construct.open config opens = (false, cam)) ∨
    ∃ cam, Camera.construct.open config opens = (true, cam) ∧ cam.opened = true ∧
      cam.start = (true, { cam with streaming := true }) := by
  unfold Camera.open
  dsimp only
  split
  · exact .inr ⟨_, rfl, rfl, rfl⟩
  · exact .inl ⟨_, rfl⟩

/-- **The start**: it fails with nothing but what was made so far, or leads to what there is before
the first thread. -/
theorem boot_cases (o : ByteOrder) (tls : TlsConfig) (config : Config w) (env : BootEnv) :
    (∃ log res, boot o tls config env = .exits log ∧ replay id [] log = some res ∧
      ∀ t, .thread t ∉ res) ∨
    ∃ p, boot o tls config env = .starts p ∧ 0 < config.queueSize.toNat ∧
      p.pc = .createCapture ∧ Inv config env.ctx (streamerConfig o tls config) p := by
  unfold boot
  dsimp only
  cases hvalid : (RingQueue.construct config.queueSize.toNat maxFrameSize env.mmapOk
      env.mallocOk).isValid with
  | false => exact .inl ⟨_, [], rfl, replay_queueDelete hvalid, fun t => by simp⟩
  | true =>
    obtain ⟨hn, hm, hmmap, hmalloc⟩ := construct_valid hvalid
    have hcapture : replay id [] (queueNew config env.mmapOk env.mallocOk ++ [.use .queue] ++
        [.acquire .capture]) = some [.capture, .sync, .flags, .mapping, .queue] :=
      replay_append (replay_queueNew hvalid) rfl
    have hcamera : replay (@id Obj) [.capture, .sync, .flags, .mapping, .queue]
        [.acquire .camera, .use .capture, .acquire .tls] =
          some [.tls, .camera, .capture, .sync, .flags, .mapping, .queue] := rfl
    have htls := replay_append hcapture hcamera
    rcases open_cases config env.opens with ⟨cam, hopen⟩ | ⟨cam, hopen, hopened, hstart⟩
    · rw [hopen]
      exact .inl ⟨_, _, rfl, hcapture, fun t => by simp⟩
    · rw [hopen]
      have hfresh : Obj.sslCtx ∉ [.tls, .camera, .capture, .sync, .flags, .mapping, .queue] := by
        decide
      rcases tlsInitialize_cases config env.ctx hfresh with
        ⟨ops, hinit, hops⟩ | ⟨ctx, ops, hinit, hsecure, hops⟩
      · rw [hinit]
        exact .inl ⟨_, _, rfl, replay_append htls hops, fun t => by simp⟩
      · rw [hinit]
        dsimp only
        rw [hstart, hmmap, hmalloc]
        refine .inr ⟨_, rfl, Nat.pos_of_ne_zero hn, rfl, ?_⟩
        rw [hmmap, hmalloc] at htls
        exact
          { streamer := .init
            books := replay_append (replay_append htls hops) rfl
            capture := fun hc => absurd hc (by simp)
            pushing := fun _ => ⟨rfl, rfl⟩
            network := fun halive => absurd halive.1 nofun
            destroyed := ⟨nofun, nofun⟩
            ctx := fun _ => ⟨ctx, rfl, hsecure⟩
            camera := fun _ => hopened
            stopped := nofun
            shut := nofun
            count := rfl
            verified := nofun }

/-- Where a run starts from. -/
theorem booted {env : BootEnv} (h : boot o tls config env = .starts p) :
    0 < config.queueSize.toNat ∧ p.pc = .createCapture ∧
      Inv config env.ctx (streamerConfig o tls config) p := by
  rcases boot_cases o tls config env with ⟨log, res, hexits, -⟩ | ⟨p₁, hstarts, hbooted⟩
  · rw [h] at hexits
    exact absurd hexits nofun
  · rw [h] at hstarts
    cases hstarts
    exact hbooted

/-- The invariant holds over every run that the start leads to. -/
theorem inv_of_boot {env : BootEnv} {p₀ : Process} (hboot : boot o tls config env = .starts p₀)
    (hr : Reach (step (streamerConfig o tls config)) (fun _ _ => True) p₀ p) :
    0 < config.queueSize.toNat ∧ Inv config env.ctx (streamerConfig o tls config) p := by
  obtain ⟨hpos, -, hinv⟩ := booted hboot
  exact ⟨hpos, hr.invariant ⟨hinv, fun _ h _ hs => inv_step hpos h hs⟩⟩

theorem inv_of_reachable (hr : Reachable o tls config p) :
    0 < config.queueSize.toNat ∧ ∃ env, Inv config env (streamerConfig o tls config) p := by
  obtain ⟨env, p₀, hboot, hr⟩ := hr
  obtain ⟨hpos, hinv⟩ := inv_of_boot hboot hr
  exact ⟨hpos, env.ctx, hinv⟩

/-! ## The life of the objects -/

/-- No thread of the process is running. -/
def Alone (p : Process) : Prop :=
  ¬ (p.capture = .test ∨ p.capture = .read) ∧ ¬ p.networkAlive

/-- What holds of the objects and threads of the program. -/
structure Lifecycle (c : Streamer.Config) (p : Process) : Prop where
  /-- Between the threads it is the client of `Client/Machine.lean`. -/
  streamer : Streamer.Reachable c p.streamer
  /-- Everything used so far was there, and nothing was made twice. While a thread runs, all it may
  use is there. -/
  lawful : ∃ res, replay id [] p.log = some res ∧
    (p.capture = .test ∨ p.capture = .read → ∀ o ∈ core, o ∈ res) ∧
    (p.networkAlive → ∀ o ∈ core, o ∈ res)
  /-- `main` returns alone, with each thread joined. -/
  returned : ∀ success, p.pc = .exited success → p.Alone ∧
    ∀ t, p.log.count (.acquire (.thread t)) = p.log.count (.release (.thread t))
  /-- Where it returns `EXIT_SUCCESS` a stop was asked for, and everything has been given back. -/
  clean : p.pc = .exited true → p.running = false ∧ p.streamer.qs.q.shutdown = true ∧
    p.streamer.qs.held = [] ∧ (∀ o, p.log.count (.acquire o) = p.log.count (.release o)) ∧
    ∀ r, p.streamer.net.log.count (.acquire r) = p.streamer.net.log.count (.release r)

/-- Where `main` has returned no thread is left. -/
theorem Inv.alone (h : p.Inv config env c) (hno : ∀ t, .thread t ∉ p.pc.opened) : p.Alone :=
  ⟨h.capture_idle (hno _), fun halive => hno _ (h.network halive)⟩

/-- The network thread has given back all it took. -/
theorem Inv.net_balanced (h : p.Inv config env c) (hpc : p.pc.destroyed = true) :
    p.streamer.qs.held = [] ∧
      ∀ r, p.streamer.net.log.count (.acquire r) = p.streamer.net.log.count (.release r) := by
  have hdestroyed := h.destroyed.mpr hpc
  have hco := Streamer.coherent_of_reachable h.streamer
  have hinv := Net.inv_of_reachable (Streamer.net_reachable h.streamer)
  unfold Net.Inv at hinv
  rw [hdestroyed] at hinv
  obtain ⟨-, -, -, -, hbooks⟩ := hinv
  constructor
  · have htaken := hco.taken_nil (by rw [hdestroyed]; exact nofun)
    have hout := hco.held
    rw [hdestroyed] at hout
    exact List.append_eq_nil_iff.mpr ⟨htaken, hout⟩
  · intro r
    have hcount := replay_count hbooks r
    simpa using hcount

/-- **The life of the client's objects and threads**, over every run and every interleaving. -/
theorem lifecycle (hr : Reachable o tls config p) : Lifecycle (streamerConfig o tls config) p := by
  obtain ⟨-, env, h⟩ := inv_of_reachable hr
  have hexit : ∀ {success : Bool}, p.pc = .exited success → ∀ t, .thread t ∉ p.pc.opened := by
    intro success hpc t
    rw [hpc]
    cases success <;> simp [MainPc.opened, core]
  refine ⟨h.streamer, ⟨_, h.books, fun hc => core_of_thread (h.capture hc), fun halive =>
    core_of_thread (h.network halive)⟩, fun success hpc => ⟨h.alone (hexit hpc), fun t => ?_⟩,
    fun hpc => ?_⟩
  · have hcount := replay_count h.books (.thread t)
    have hzero := List.count_eq_zero.mpr (hexit hpc t)
    rw [hzero] at hcount
    simpa using hcount
  · obtain ⟨hheld, hnet⟩ := h.net_balanced (by rw [hpc]; rfl)
    refine ⟨h.stopped (by rw [hpc]; rfl), h.shut (by rw [hpc]; rfl), hheld, fun obj => ?_, hnet⟩
    have hcount := replay_count h.books obj
    rw [hpc] at hcount
    simpa [MainPc.opened] using hcount

/-- A configuration with a queue of two slots. -/
def sampleConfig : Config 64 := { defaultConfig 64 with host := some ['h'], queueSize := 2 }

/-- Every call succeeds. -/
def sampleBoot : BootEnv := ⟨true, true, fun _ _ => true, ⟨true, true, true, true, true⟩⟩

/-- One frame is captured and sent; a signal comes, and `main` returns. -/
def sampleRun : List Action :=
  [.main true, .main true, .captureTest, .capture Streamer.sampleImage, .push .pushTest,
    .push .pushGuard, .push .pushWrite, .networkTest, .network (.connect Streamer.sampleConnect),
    .network .popTake, .network .popBuild, .network (.write (.ok 36)), .network .advance,
    .network (.write (.ok 2)), .network .advance, .network .advance, .network .advance, .signal,
    .main true, .main true, .main true, .captureTest, .main true, .networkTest, .network .advance,
    .main true, .main true, .main true, .main true]

theorem sample_run : ∃ p₀ p : Process,
    boot .little ⟨1000, 30000, (2 * ·)⟩ sampleConfig sampleBoot = .starts p₀ ∧
    Reach (step (streamerConfig .little ⟨1000, 30000, (2 * ·)⟩ sampleConfig))
      (fun _ _ => True) p₀ p ∧
    p.pc = .exited true ∧ p.streamer.net.framesSent = 1 ∧ p.streamer.captured.length = 1 ∧
    p.handshakes.length = 1 := by
  have hrun : ∃ p₀ p, boot .little ⟨1000, 30000, (2 * ·)⟩ sampleConfig sampleBoot = .starts p₀ ∧
      exec (step (streamerConfig .little ⟨1000, 30000, (2 * ·)⟩ sampleConfig)) sampleRun p₀ =
        some p ∧
      p.pc = .exited true ∧ p.streamer.net.framesSent = 1 ∧ p.streamer.captured.length = 1 ∧
      p.handshakes.length = 1 :=
    ⟨_, _, rfl, rfl, rfl, rfl, rfl, rfl⟩
  obtain ⟨p₀, p, hboot, hrun, hrest⟩ := hrun
  exact ⟨p₀, p, hboot, (Runs.of_exec (fun _ _ _ => trivial) hrun).reach .init, hrest⟩

theorem sample_exits : ∃ p : Process, Reachable .little ⟨1000, 30000, (2 * ·)⟩ sampleConfig p ∧
    p.pc = .exited true ∧ p.streamer.net.framesSent = 1 ∧ p.streamer.captured.length = 1 ∧
    p.handshakes.length = 1 := by
  obtain ⟨p₀, p, hboot, hr, hrest⟩ := sample_run
  exact ⟨p, ⟨sampleBoot, p₀, hboot, hr⟩, hrest⟩

theorem lifecycle_exits : ∃ p : Process, p.pc = .exited true ∧ p.streamer.net.framesSent = 1 ∧
    Lifecycle (streamerConfig .little ⟨1000, 30000, (2 * ·)⟩ sampleConfig) p := by
  obtain ⟨p, hr, hpc, hsent, -⟩ := sample_exits
  exact ⟨p, hpc, hsent, lifecycle hr⟩

/-! ## Who is sent frames -/

/-- **Frames go to verified servers only**: there are as many handshakes as connections, each of
them succeeded, name check included, and each was made under a context that demands a verified peer,
the CA bundle configured, and TLS 1.2 or later unless OpenSSL has refused that setting. -/
theorem verified_before_sent {env : BootEnv} {p₀ : Process}
    (hboot : boot o tls config env = .starts p₀)
    (hr : Reach (step (streamerConfig o tls config)) (fun _ _ => True) p₀ p) :
    List.Forall₂ (fun (_ : Wire) h => Verified config env.ctx h) p.streamer.net.wires
      p.handshakes := by
  obtain ⟨-, h⟩ := inv_of_boot hboot hr
  refine List.forall₂_iff_get.mpr ⟨h.count.symm, fun i _ hi => ?_⟩
  exact h.verified _ (List.get_mem p.handshakes ⟨i, hi⟩)

theorem verified_before_sent_once : ∃ p : Process, p.handshakes.length = 1 ∧
    List.Forall₂ (fun (_ : Wire) h => Verified sampleConfig sampleBoot.ctx h) p.streamer.net.wires
      p.handshakes := by
  obtain ⟨p₀, p, hboot, hr, -, -, -, hcount⟩ := sample_run
  exact ⟨p, hcount, verified_before_sent hboot hr⟩

end Process

end Client

end CameraStreamer
