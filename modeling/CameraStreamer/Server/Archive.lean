import CameraStreamer.Lib.Writes
import CameraStreamer.Server.Run

/-!
# A whole run of the server against the reference

`Server/Parser.lean` compares one connection with the reference. Here it is the accept loop over any
sequence of connections, failed handshakes and interrupted calls (`server/server.cpp:452-497`):
what it leaves is what the streams of the connections say, one after the other, and the directory is
the log of the saves replayed.

* `archives_of_run`: the files are those before the run, overwritten by the saves in order.
* **`acceptLoop_archives`**: over every run in which `g_running` stays true, each connection is cut
  into units on its own, the statistics are those of all units, and where no system call fails the
  directory holds the last frame of each name. No connection touches what another has sent.
-/

namespace CameraStreamer.Server

open Lib.Transfer Lib.Endian Lib.Framing Lib.Writes

/-! ## The connections a run serves -/

/-- The event does not end the accept loop. -/
def AcceptEvent.goesOn : AcceptEvent → Bool
  | .selectError eintr => eintr
  | .acceptError eintr => eintr
  | _ => true

/-- A connection handed to `handleClient`, with what its turns find. -/
structure Session where
  conn : SslConn
  running : Nat → Bool
  envs : Nat → SaveEnv

/-- The connections the accept loop serves, in order. -/
def sessions : List AcceptEvent → List Session
  | [] => []
  | e :: es =>
    if e.goesOn then
      match e with
      | .client conn running envs => ⟨conn, running, envs⟩ :: sessions es
      | _ => sessions es
    else []

/-- What arrives on a connection. -/
def Session.stream (s : Session) : List UInt8 := s.conn.stream

/-- Their streams. -/
def streams (es : List AcceptEvent) : List (List UInt8) := (sessions es).map Session.stream

/-- `g_running` reads true in every turn. -/
def Session.Running (s : Session) : Prop := s.running = fun _ => true

/-- It does in every turn of every connection served. -/
def Running (es : List AcceptEvent) : Prop := ∀ s ∈ sessions es, s.Running

/-- No system call of any save fails, interruptions apart. -/
def Reliable (es : List AcceptEvent) : Prop := ∀ s ∈ sessions es, ∀ i, (s.envs i).Reliable

variable {o : ByteOrder} {cfg : Config} {envs : Nat → SaveEnv} {es : List AcceptEvent}
  {srv srv' : ServerState}

/-! ## One connection -/

/-- The write a save amounts to. -/
def Saved.write (r : Saved) : List UInt8 × Option (List UInt8) := (r.path, r.content)

/-- The server after some frames: what it had, these counted, and the saves made. -/
structure Archives (cfg : Config) (us : List (List UInt8)) (srv srv' : ServerState)
    (new : List Saved) : Prop where
  framesReceived : srv'.framesReceived = srv.framesReceived + us.length
  bytesReceived : srv'.bytesReceived = srv.bytesReceived + us.flatten.length
  received : srv'.received.map Received.frame =
    srv.received.map Received.frame ++ us.map decodeUnit
  saves : srv'.saved = srv.saved ++ new
  names : new.map Saved.frame = if cfg.saveFrames then us.map decodeUnit else []
  paths : ∀ r ∈ new, r.path = savePath cfg.outputDir r.frame
  content : ∀ r ∈ new, r.ok = true → r.content = some r.frame.payload
  framesSaved : srv'.framesSaved = srv.framesSaved + (new.filter Saved.ok).length
  files : srv'.files = writes (new.map Saved.write) srv.files

theorem Archives.refl (cfg : Config) (srv : ServerState) : Archives cfg [] srv srv [] where
  framesReceived := rfl
  bytesReceived := rfl
  received := (List.append_nil _).symm
  saves := (List.append_nil _).symm
  names := by split <;> rfl
  paths _ h := absurd h nofun
  content _ h := absurd h nofun
  framesSaved := rfl
  files := rfl

theorem Archives.trans {us vs : List (List UInt8)} {t : ServerState} {new more : List Saved}
    (h : Archives cfg us srv t new) (h' : Archives cfg vs t srv' more) :
    Archives cfg (us ++ vs) srv srv' (new ++ more) where
  framesReceived := by
    rw [h'.framesReceived, h.framesReceived, List.length_append, Nat.add_assoc]
  bytesReceived := by
    rw [h'.bytesReceived, h.bytesReceived, List.flatten_append, List.length_append, Nat.add_assoc]
  received := by rw [h'.received, h.received, List.map_append, List.append_assoc]
  saves := by rw [h'.saves, h.saves, List.append_assoc]
  names := by
    rw [List.map_append, h.names, h'.names]
    split
    · rw [List.map_append]
    · rfl
  paths r hr := (List.mem_append.mp hr).elim (h.paths r) (h'.paths r)
  content r hr := (List.mem_append.mp hr).elim (h.content r) (h'.content r)
  framesSaved := by
    rw [h'.framesSaved, h.framesSaved, List.filter_append, List.length_append, Nat.add_assoc]
  files := by rw [h'.files, h.files, List.map_append, writes_append]

/-- One frame. -/
theorem archives_took {env : SaveEnv} {start : Nat} {u : List UInt8}
    (h : Took cfg env start u srv srv') : ∃ new, Archives cfg [u] srv srv' new ∧
      (env.Reliable → ∀ r ∈ new, r.ok = true) := by
  have hsaved := h.saved
  have hreceived : srv'.received.map Received.frame =
      srv.received.map Received.frame ++ [u].map decodeUnit := by
    rw [h.received, List.map_append]
    rfl
  have hbytes : srv'.bytesReceived = srv.bytesReceived + [u].flatten.length := by
    rw [h.bytesReceived, List.flatten_singleton]
  split at hsaved
  · rename_i hcfg
    obtain ⟨r, hr⟩ := hsaved
    refine ⟨[r], ⟨h.framesReceived, hbytes, hreceived, hr.logged, ?_, ?_, ?_, ?_, ?_⟩, ?_⟩
    · rw [if_pos hcfg, List.map_singleton, List.map_singleton, hr.frame]
    · intro r' hr'
      rw [List.mem_singleton.mp hr', hr.path, hr.frame]
    · intro r' hr'
      rw [List.mem_singleton.mp hr', hr.frame]
      exact hr.content
    · rw [hr.counted]
      cases hok : r.ok <;> simp [hok]
    · funext p
      by_cases hp : p = r.path
      · rw [hp, hr.here]
        exact (Function.update_self r.path r.content srv.files).symm
      · rw [hr.elsewhere p hp]
        exact (Function.update_of_ne hp r.content srv.files).symm
    · intro henv r' hr'
      rw [List.mem_singleton.mp hr']
      exact hr.reliable henv
  · rename_i hcfg
    obtain ⟨hcount, hfiles, hlog⟩ := hsaved
    refine ⟨[], ⟨h.framesReceived, hbytes, hreceived, ?_, ?_, nofun, nofun, hcount, hfiles⟩, nofun⟩
    · rw [hlog, List.append_nil]
    · rw [if_neg hcfg]
      rfl

theorem archives_tookAll {i start : Nat} {us : List (List UInt8)}
    (h : TookAll cfg envs i start us srv srv') : ∃ new, Archives cfg us srv srv' new ∧
      ((∀ i, (envs i).Reliable) → ∀ r ∈ new, r.ok = true) := by
  induction us generalizing i start srv with
  | nil =>
    have heq : srv' = srv := h
    rw [heq]
    exact ⟨[], .refl cfg srv, nofun⟩
  | cons u us ih =>
    obtain ⟨t, hu, hrest⟩ := h
    obtain ⟨new, hnew, hok⟩ := archives_took hu
    obtain ⟨more, hmore, hok'⟩ := ih hrest
    refine ⟨new ++ more, hnew.trans hmore, fun henv r hr => ?_⟩
    rcases List.mem_append.mp hr with hr | hr
    · exact hok (henv i) r hr
    · exact hok' henv r hr

/-- A stream cut into units, and while `g_running` reads true as far as that goes. -/
structure Session.Cut (us : List (List UInt8)) (s : Session) : Prop where
  splits : Splits IsUnit us s.stream
  longest : s.Running → Longest IsUnit us s.stream

theorem handleClient_cuts (o : ByteOrder) (cfg : Config) (s : Session) (srv : ServerState) : ∃ us,
    s.Cut us ∧
      TookAll cfg s.envs 0 s.conn.pos us srv
        (handleClient o cfg s.running s.envs s.conn srv).2.srv := by
  obtain ⟨us, rest, hunits, hstream, htook, -, hends⟩ :=
    handleClient_takes o cfg s.envs s.running s.conn srv
  refine ⟨us, ⟨⟨hunits, ?_⟩, fun hrun => ?_⟩, htook⟩
  · rw [Session.stream, hstream]
    exact List.prefix_append _ _
  · have hstops : Stops rest (handleClient o cfg s.running s.envs s.conn srv).1 := by
      rcases hends with h | ⟨-, h⟩
      · exact h
      · rw [hrun] at h
        exact absurd h nofun
    rw [Session.stream, hstream]
    exact longest_flatten isUnit_prefixFree hunits hstops.no_unit

theorem splits_of_cut {ss : List Session} {uss : List (List (List UInt8))}
    (h : List.Forall₂ (fun us s => Session.Cut us s) uss ss) :
    List.Forall₂ (Splits IsUnit) uss (ss.map Session.stream) :=
  List.forall₂_map_right_iff.mpr (h.imp fun _ _ hc => hc.splits)

theorem longest_of_cut {ss : List Session} {uss : List (List (List UInt8))}
    (h : List.Forall₂ (fun us s => Session.Cut us s) uss ss) (hrun : ∀ s ∈ ss, s.Running) :
    List.Forall₂ (Longest IsUnit) uss (ss.map Session.stream) := by
  induction h with
  | nil => exact .nil
  | cons hc _ ih =>
    exact .cons (hc.longest (hrun _ List.mem_cons_self))
      (ih fun s hs => hrun s (List.mem_cons_of_mem _ hs))

/-! ## The run -/

theorem acceptLoop_cons (e : AcceptEvent) (h : e.goesOn = false) :
    acceptLoop o cfg (e :: es) srv = srv ∧ sessions (e :: es) = [] := by
  cases e with
  | selectError eintr =>
    have heintr : eintr = false := h
    subst heintr
    exact ⟨rfl, rfl⟩
  | acceptError eintr =>
    have heintr : eintr = false := h
    subst heintr
    exact ⟨rfl, rfl⟩
  | selectTimeout => exact absurd h nofun
  | handshakeFailed => exact absurd h nofun
  | client _ _ _ => exact absurd h nofun

/-- A run and the units `uss` of its connections. -/
structure Archiving (cfg : Config) (es : List AcceptEvent) (uss : List (List (List UInt8)))
    (srv srv' : ServerState) (new : List Saved) : Prop where
  cut : List.Forall₂ (fun us s => Session.Cut us s) uss (sessions es)
  archives : Archives cfg uss.flatten srv srv' new
  reliable : Reliable es → ∀ r ∈ new, r.ok = true

/-- A turn that serves no connection. -/
theorem Archiving.skip {uss : List (List (List UInt8))} {new : List Saved} {e : AcceptEvent}
    (h : Archiving cfg es uss srv srv' new) (hsessions : sessions (e :: es) = sessions es) :
    Archiving cfg (e :: es) uss srv srv' new where
  cut := hsessions ▸ h.cut
  archives := h.archives
  reliable hrel := h.reliable fun s hs => hrel s (hsessions ▸ hs)

/-- **Every run is the archiving of its connections' units.** -/
theorem archives_of_run (o : ByteOrder) (cfg : Config) (es : List AcceptEvent)
    (srv : ServerState) : ∃ uss new, Archiving cfg es uss srv (acceptLoop o cfg es srv) new := by
  induction es generalizing srv with
  | nil => exact ⟨[], [], .nil, .refl cfg srv, fun _ => nofun⟩
  | cons e es ih =>
    by_cases hgo : e.goesOn = true
    · cases e with
      | selectError eintr =>
        have heintr : eintr = true := hgo
        subst heintr
        obtain ⟨uss, new, h⟩ := ih srv
        exact ⟨uss, new, h.skip rfl⟩
      | acceptError eintr =>
        have heintr : eintr = true := hgo
        subst heintr
        obtain ⟨uss, new, h⟩ := ih srv
        exact ⟨uss, new, h.skip rfl⟩
      | selectTimeout =>
        obtain ⟨uss, new, h⟩ := ih srv
        exact ⟨uss, new, h.skip rfl⟩
      | handshakeFailed =>
        obtain ⟨uss, new, h⟩ := ih srv
        exact ⟨uss, new, h.skip rfl⟩
      | client conn running envs =>
        obtain ⟨us, hcut, htook⟩ := handleClient_cuts o cfg ⟨conn, running, envs⟩ srv
        obtain ⟨new, hnew, hok⟩ := archives_tookAll htook
        obtain ⟨uss, more, h⟩ := ih (handleClient o cfg running envs conn srv).2.srv
        refine ⟨us :: uss, new ++ more, .cons hcut h.cut, ?_, fun hrel r hr => ?_⟩
        · rw [List.flatten_cons]
          exact hnew.trans h.archives
        · have hrel : ∀ s ∈ ⟨conn, running, envs⟩ :: sessions es, ∀ i, (s.envs i).Reliable := hrel
          rcases List.mem_append.mp hr with hr | hr
          · exact hok (hrel _ List.mem_cons_self) r hr
          · exact h.reliable (fun s hs => hrel s (List.mem_cons_of_mem _ hs)) r hr
    · obtain ⟨hloop, hsessions⟩ : acceptLoop o cfg (e :: es) srv = srv ∧ sessions (e :: es) = [] :=
        acceptLoop_cons e (by simpa using hgo)
      rw [hloop]
      exact ⟨[], [], hsessions ▸ .nil, .refl cfg srv, fun _ => nofun⟩

/-! ## The archive -/

/-- The directory once the frames are saved, one after the other. -/
def directory (cfg : Config) (fs : List Frame) (files : Files) : Files :=
  writes (if cfg.saveFrames then fs.map fun f => (savePath cfg.outputDir f, some f.payload) else [])
    files

/-- What a run leaves, given the units of its connections. -/
structure Archived (cfg : Config) (files : Files) (es : List AcceptEvent)
    (uss : List (List (List UInt8))) (srv : ServerState) : Prop where
  /-- Each connection is cut into units on its own. -/
  split : List.Forall₂ (Longest IsUnit) uss (streams es)
  frames : srv.received.map Received.frame = uss.flatten.map decodeUnit
  framesReceived : srv.framesReceived = uss.flatten.length
  bytesReceived : srv.bytesReceived = uss.flatten.flatten.length
  /-- Only the files of frames received are touched. -/
  elsewhere : ∀ path, (∀ f ∈ uss.flatten.map decodeUnit, savePath cfg.outputDir f ≠ path) →
    srv.files path = files path
  files : Reliable es → srv.files = directory cfg (uss.flatten.map decodeUnit) files
  framesSaved : Reliable es →
    srv.framesSaved = if cfg.saveFrames then uss.flatten.length else 0

/-- The writes of saves that all succeeded. -/
theorem map_write_of_ok {new : List Saved}
    (hpath : ∀ r ∈ new, r.path = savePath cfg.outputDir r.frame)
    (hcontent : ∀ r ∈ new, r.ok = true → r.content = some r.frame.payload)
    (hok : ∀ r ∈ new, r.ok = true) : new.map Saved.write =
      (new.map Saved.frame).map fun f => (savePath cfg.outputDir f, some f.payload) := by
  rw [List.map_map]
  refine List.map_congr_left fun r hr => ?_
  rw [Saved.write, hpath r hr, hcontent r hr (hok r hr)]
  rfl

/-- **The archive.** Whatever connections a run serves and however their bytes arrive, the server
leaves what the reference reads off their streams, as long as no signal comes while it serves one;
in the directory too where no save fails. -/
theorem acceptLoop_archives (o : ByteOrder) (cfg : Config) {es : List AcceptEvent}
    (hrun : Running es) (files : Files) :
    ∃ uss, Archived cfg files es uss (acceptLoop o cfg es (.start files)) := by
  obtain ⟨uss, new, hcut, harch, hok⟩ := archives_of_run o cfg es (.start files)
  refine ⟨uss, longest_of_cut hcut hrun, harch.received, ?_, ?_, fun path hpath => ?_,
    fun hrel => ?_, fun hrel => ?_⟩
  · rw [harch.framesReceived]
    exact Nat.zero_add _
  · rw [harch.bytesReceived]
    exact Nat.zero_add _
  · rw [harch.files]
    refine writes_of_ne fun w hw => ?_
    obtain ⟨r, hr, rfl⟩ := List.mem_map.mp hw
    have hname : r.frame ∈ new.map Saved.frame := List.mem_map_of_mem hr
    rw [harch.names] at hname
    split at hname
    · rw [Saved.write, harch.paths r hr]
      exact hpath r.frame hname
    · exact absurd hname nofun
  · rw [harch.files, map_write_of_ok harch.paths harch.content (hok hrel), harch.names]
    unfold directory
    split <;> rfl
  · have hlen := congrArg List.length harch.names
    rw [List.length_map] at hlen
    rw [harch.framesSaved, List.filter_eq_self.mpr (hok hrel), hlen]
    split
    · rw [List.length_map]
      exact Nat.zero_add _
    · rfl

theorem restartedClient_running : Running restartedClient := by
  intro s hs
  have hs : s ∈ [_, _] := hs
  rcases List.mem_cons.mp hs with rfl | hs
  · rfl
  · rw [List.mem_singleton.mp hs]
    rfl

theorem acceptLoop_archives_restarted : Running restartedClient ∧
    ∃ uss, Archived ⟨ascii "out", true⟩ (fun _ => none) restartedClient uss
      (acceptLoop .big ⟨ascii "out", true⟩ restartedClient (.start fun _ => none)) :=
  ⟨restartedClient_running, acceptLoop_archives .big _ restartedClient_running _⟩

end CameraStreamer.Server
