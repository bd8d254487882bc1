import CameraStreamer.Transport

/-!
# A run of the server

Model of the accept loop (`server/server.cpp:452-497`): connections are served one after the
other by `handleClient`, and `g_stats` and the files outlive each of them. The list of events ends
where `g_running` reads false.

* `Filed`: the log of saves agrees with the files: what the last save to a path left is there.
* **`saved_frames_kept`**: frames that differ in sequence number or extension never share a file,
  so a frame reported saved is still in its file until one with the same two is saved.
* `saved_frames_counterexample`: a restarted client numbers its frames from 0 again, and its first
  frame replaces the first frame of the run before.
-/

namespace CameraStreamer.Server

open Lib.Transfer Lib.Endian Lib.Framing Protocol

/-- What one turn of the accept loop meets. -/
inductive AcceptEvent
  | selectError (eintr : Bool)
  | selectTimeout
  | acceptError (eintr : Bool)
  | handshakeFailed
  | client (conn : SslConn) (running : Nat → Bool) (envs : Nat → SaveEnv)

/-- The accept loop. -/
def acceptLoop (o : ByteOrder) (cfg : Config) : List AcceptEvent → ServerState → ServerState
  | [], srv => srv
  | .selectError eintr :: es, srv => if eintr then acceptLoop o cfg es srv else srv
  | .selectTimeout :: es, srv => acceptLoop o cfg es srv
  | .acceptError eintr :: es, srv => if eintr then acceptLoop o cfg es srv else srv
  | .handshakeFailed :: es, srv => acceptLoop o cfg es srv
  | .client conn running envs :: es, srv =>
    acceptLoop o cfg es (handleClient o cfg running envs conn srv).2.srv

/-- **The rule for the accept loop**: what every connection keeps holds at the end. -/
theorem acceptLoop_rule {I : ServerState → Prop} {o : ByteOrder} {cfg : Config}
    (step : ∀ srv conn running envs, I srv → I (handleClient o cfg running envs conn srv).2.srv)
    (es : List AcceptEvent) {srv : ServerState} (h : I srv) : I (acceptLoop o cfg es srv) := by
  induction es generalizing srv with
  | nil => exact h
  | cons e es ih =>
    cases e with
    | selectError eintr =>
      unfold acceptLoop
      split
      · exact ih h
      · exact h
    | selectTimeout => exact ih h
    | acceptError eintr =>
      unfold acceptLoop
      split
      · exact ih h
      · exact h
    | handshakeFailed => exact ih h
    | client conn running envs => exact ih (step srv conn running envs h)

/-! ## The log of saves and the files -/

/-- The log of saves agrees with the statistics and with the files. -/
structure Filed (cfg : Config) (srv : ServerState) : Prop where
  path : ∀ r ∈ srv.saved, r.path = savePath cfg.outputDir r.frame
  content : ∀ r ∈ srv.saved, r.ok = true → r.content = some r.frame.payload
  counted : srv.framesSaved = (srv.saved.filter Saved.ok).length
  /-- What the last save to a path left is there. -/
  last : ∀ pre r post, srv.saved = pre ++ r :: post → (∀ r' ∈ post, r'.path ≠ r.path) →
    srv.files r.path = r.content

variable {o : ByteOrder} {cfg : Config} {srv srv' : ServerState}

/-- The last entry of a log, or an entry before it. -/
theorem snoc_eq_append_cons {α : Type} {l pre post : List α} {x y : α}
    (h : l ++ [x] = pre ++ y :: post) :
    (l = pre ∧ x = y ∧ post = []) ∨ ∃ post', post = post' ++ [x] ∧ l = pre ++ y :: post' := by
  rcases List.eq_nil_or_concat post with rfl | ⟨post', z, rfl⟩
  · obtain ⟨h1, h2⟩ := List.append_inj' h rfl
    exact Or.inl ⟨h1, by simpa using h2, rfl⟩
  · rw [List.concat_eq_append, ← List.cons_append, ← List.append_assoc] at h
    obtain ⟨h1, h2⟩ := List.append_inj' h rfl
    have hxz : x = z := by simpa using h2
    exact Or.inr ⟨post', by rw [List.concat_eq_append, hxz], h1⟩

theorem Filed.save {env : SaveEnv} {f : Frame} {r : Saved} (h : Filed cfg srv)
    (hs : SavedAs cfg env f srv srv' r) : Filed cfg srv' := by
  have hmem : ∀ r' ∈ srv'.saved, r' ∈ srv.saved ∨ r' = r := by
    intro r' hr'
    rw [hs.logged] at hr'
    rcases List.mem_append.mp hr' with hr' | hr'
    · exact Or.inl hr'
    · exact Or.inr (List.mem_singleton.mp hr')
  refine ⟨fun r' hr' => ?_, fun r' hr' => ?_, ?_, fun pre r' post hsplit hpost => ?_⟩
  · rcases hmem r' hr' with hr' | rfl
    · exact h.path r' hr'
    · rw [hs.path, hs.frame]
  · rcases hmem r' hr' with hr' | rfl
    · exact h.content r' hr'
    · rw [hs.frame]
      exact hs.content
  · rw [hs.counted, hs.logged, List.filter_append, List.length_append, h.counted]
    cases hok : r.ok <;> simp [hok]
  · rw [hs.logged] at hsplit
    rcases snoc_eq_append_cons hsplit with ⟨-, rfl, -⟩ | ⟨post', rfl, hsplit'⟩
    · exact hs.here
    · have hne : r'.path ≠ r.path := (hpost r (by simp)).symm
      rw [hs.elsewhere _ hne]
      exact h.last pre r' post' hsplit' fun r'' hr'' => hpost r'' (List.mem_append_left _ hr'')

theorem Filed.took {env : SaveEnv} {start : Nat} {u : List UInt8} (h : Filed cfg srv)
    (ht : Took cfg env start u srv srv') : Filed cfg srv' := by
  have hsaved := ht.saved
  split at hsaved
  · obtain ⟨r, hr⟩ := hsaved
    exact h.save hr
  · obtain ⟨hcount, hfiles, hlog⟩ := hsaved
    exact ⟨hlog ▸ h.path, hlog ▸ h.content, by rw [hcount, hlog]; exact h.counted,
      fun pre r post hsplit hpost => by
        rw [hfiles]
        exact h.last pre r post (hlog ▸ hsplit) hpost⟩

theorem Filed.tookAll {envs : Nat → SaveEnv} {i start : Nat} {us : List (List UInt8)}
    (h : Filed cfg srv) (ht : TookAll cfg envs i start us srv srv') : Filed cfg srv' := by
  induction us generalizing i start srv with
  | nil =>
    have heq : srv' = srv := ht
    rwa [heq]
  | cons u us ih =>
    obtain ⟨t, hu, hrest⟩ := ht
    exact ih (h.took hu) hrest

theorem filed_start (cfg : Config) (files : Files) : Filed cfg (.start files) where
  path r hr := absurd hr (by simp [ServerState.start])
  content r hr := absurd hr (by simp [ServerState.start])
  counted := rfl
  last pre r post h := absurd (congrArg List.length h) (by simp [ServerState.start])

theorem filed_of_run (es : List AcceptEvent) (files : Files) :
    Filed cfg (acceptLoop o cfg es (.start files)) := by
  refine acceptLoop_rule (I := Filed cfg) (fun srv conn running envs h => ?_) es
    (filed_start cfg files)
  obtain ⟨us, rest, -, -, htook, -⟩ := handleClient_takes o cfg envs running conn srv
  exact h.tookAll htook

/-! ## Saved frames -/

/-- Two frames are named alike: same sequence number, same extension. -/
def SameName (f g : Frame) : Prop := f.seq = g.seq ∧ frameExt f.pixelFormat = frameExt g.pixelFormat

/-- The path of a frame is not cut. -/
def FrameFits (cfg : Config) (f : Frame) : Prop :=
  Fits cfg.outputDir f.seq (frameExt f.pixelFormat)

theorem savePath_ne {f g : Frame} (h : ¬ SameName f g) (hfit : FrameFits cfg f ∨ FrameFits cfg g) :
    savePath cfg.outputDir f ≠ savePath cfg.outputDir g :=
  framePath_ne (not_and_or.mp h) hfit

/-- What becomes of saved frames. -/
structure Kept (cfg : Config) (srv : ServerState) : Prop where
  /-- Frames that are not named alike go to different paths. -/
  apart : ∀ r ∈ srv.saved, ∀ r' ∈ srv.saved, ¬ SameName r.frame r'.frame →
    FrameFits cfg r.frame ∨ FrameFits cfg r'.frame → r.path ≠ r'.path
  /-- A frame counted in `frames_saved` is in its file, unless one named alike was saved after. -/
  kept : ∀ pre r post, srv.saved = pre ++ r :: post → r.ok = true → FrameFits cfg r.frame →
    (∀ r' ∈ post, ¬ SameName r'.frame r.frame) → srv.files r.path = some r.frame.payload
  counted : srv.framesSaved = (srv.saved.filter Saved.ok).length

/-- **Saved frames are kept** over every run of the server, as long as no two are named alike. -/
theorem saved_frames_kept (o : ByteOrder) (cfg : Config) (es : List AcceptEvent) (files : Files) :
    Kept cfg (acceptLoop o cfg es (.start files)) := by
  have h : Filed cfg (acceptLoop o cfg es (.start files)) := filed_of_run es files
  refine ⟨fun r hr r' hr' hname hfit => ?_, fun pre r post hsplit hok hfit hpost => ?_, h.counted⟩
  · rw [h.path r hr, h.path r' hr']
    exact savePath_ne hname hfit
  · have hr : r ∈ (acceptLoop o cfg es (.start files)).saved := by rw [hsplit]; simp
    rw [h.last pre r post hsplit fun r' hr' => ?_]
    · exact h.content r hr hok
    · have hr'' : r' ∈ (acceptLoop o cfg es (.start files)).saved := by
        rw [hsplit]
        exact List.mem_append_right _ (List.mem_cons_of_mem r hr')
      rw [h.path r hr, h.path r' hr'']
      exact savePath_ne (hpost r' hr') (Or.inr hfit)

/-! ## Two clients that count from the same number -/

/-- One frame on a connection, no failing system call: it is saved. -/
theorem saved_one (o : ByteOrder) {cfg : Config} {f : Frame} (hf : Sendable f)
    (hcfg : cfg.saveFrames = true) {envs : Nat → SaveEnv} (henv : (envs 0).Reliable)
    (srv : ServerState) : ∃ r,
    (handleClient o cfg (fun _ => true) envs (.closing (encode f)) srv).2.srv.saved =
      srv.saved ++ [r] ∧ r.frame = f ∧ r.ok = true ∧ r.path = savePath cfg.outputDir f := by
  obtain ⟨us, rest, hunits, hstream, htook, -, hends⟩ :=
    handleClient_takes o cfg envs (fun _ => true) (.closing (encode f)) srv
  have hstops : Stops rest
      (handleClient o cfg (fun _ => true) envs (.closing (encode f)) srv).1 := by
    rcases hends with h | ⟨-, h⟩
    · exact h
    · exact absurd h (by simp)
  have hlong : Longest IsUnit us (encode f) := by
    rw [show encode f = us.flatten ++ rest from hstream]
    exact longest_flatten isUnit_prefixFree hunits hstops.no_unit
  have hone : Longest IsUnit [encode f] (encode f ++ []) :=
    longest_cons isUnit_prefixFree (isUnit_encode hf)
      (longest_nil fun u hu hp => isUnit_prefixFree.ne_nil u hu (List.prefix_nil.mp hp))
  rw [List.append_nil] at hone
  rw [hlong.unique hone] at htook
  obtain ⟨t, ht, hrest⟩ := htook
  have hsaved := ht.saved
  rw [if_pos hcfg, decodeUnit_encode] at hsaved
  obtain ⟨r, hr⟩ := hsaved
  have heq : (handleClient o cfg (fun _ => true) envs (.closing (encode f)) srv).2.srv = t := hrest
  exact ⟨r, by rw [heq, hr.logged], hr.frame, hr.reliable henv, hr.path⟩

/-- A frame numbered 0 whose payload is the one byte `b`. -/
def firstFrame (b : UInt8) : Frame := ⟨0, 1000, 0x47504A4D, 1, 1, [b]⟩

/-- No system call fails. -/
def noFailure : Nat → SaveEnv := fun _ => ⟨true, []⟩

theorem noFailure_reliable (i : Nat) : (noFailure i).Reliable :=
  ⟨rfl, fun _ he => absurd he (by simp [noFailure])⟩

/-- A client connects and sends its first frame; it is restarted, and sends its first frame. -/
def restartedClient : List AcceptEvent :=
  [.client (.closing (encode (firstFrame 0xAA))) (fun _ => true) noFailure,
    .client (.closing (encode (firstFrame 0xBB))) (fun _ => true) noFailure]

/-- **The first frame of the second client replaces that of the first**: not every two frames
counted as saved are in different files. -/
theorem saved_frames_counterexample :
    ¬ ∀ (o : ByteOrder) (cfg : Config) (es : List AcceptEvent) (files : Files),
      ∀ (i j : Nat) (r r' : Saved), i ≠ j →
        (acceptLoop o cfg es (.start files)).saved[i]? = some r →
        (acceptLoop o cfg es (.start files)).saved[j]? = some r' →
        r.ok = true → r'.ok = true → r.path ≠ r'.path := by
  intro h
  have hmax : 1 ≤ maxFrameSize := by decide
  have hsend : ∀ b, Sendable (firstFrame b) := fun _ => ⟨Nat.le_refl 1, hmax⟩
  let cfg : Config := ⟨ascii "out", true⟩
  have hcfg : cfg.saveFrames = true := rfl
  obtain ⟨r, hlog, hframe, hok, hpath⟩ := saved_one .little (hsend 0xAA) hcfg
    (noFailure_reliable 0) (.start fun _ => none)
  obtain ⟨r', hlog', hframe', hok', hpath'⟩ := saved_one .little (hsend 0xBB) hcfg
    (noFailure_reliable 0)
    (handleClient .little cfg (fun _ => true) noFailure
      (.closing (encode (firstFrame 0xAA))) (.start fun _ => none)).2.srv
  have hrun : (acceptLoop .little cfg restartedClient (.start fun _ => none)).saved = [r, r'] := by
    simp only [restartedClient, acceptLoop]
    rw [hlog', hlog]
    rfl
  refine h .little cfg restartedClient (fun _ => none) 0 1 r r' (by decide) ?_ ?_ hok hok' ?_
  · rw [hrun]
    rfl
  · rw [hrun]
    rfl
  · rw [hpath, hpath']
    rfl

end CameraStreamer.Server
