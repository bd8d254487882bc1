import CameraStreamer.Client.Lifecycle
import CameraStreamer.Client.Work

/-!
# The client stops

Once `g_running` is `false` each thread leaves its loop at the next test, and `main` shuts the queue
down, joins both and deletes what they used (`src/main.cpp:312-352`). `Process.work` bounds what is
left to do: it falls with every step but the delivery of a signal and an `SSL_write` that asks to be
called again. The calls of the system, of OpenSSL and of the camera are taken to return; a server
that does not read keeps `SSL_write` waiting, one that does not answer `SSL_connect`, and a name
server `getaddrinfo`, which the client does not guard against.

* `Process.work`: what the threads and `main` have left to do.
* `process_progress`: some step is always enabled until `main` has returned, so no thread waits for
  another for ever.
* **`stop_completes`**: from any state in which `g_running` is `false`, every run ends with `main`
  having returned, unless `SSL_write` is asked for again and again; at most one more frame is
  captured, and at most one more is sent.
-/

namespace CameraStreamer

open Lib.Machine Lib.Ledger Lib.Endian Protocol TlsClient

namespace Client

variable {w : Nat} {config : Config w} {env : CtxEnv} {c : Streamer.Config} {o : ByteOrder}
  {tls : TlsConfig}

/-- The steps `main` has left once `g_running` is `false`. -/
def MainPc.work : MainPc → Nat
  | .createCapture => 13
  | .createNetwork => 11
  | .abort => 3
  | .abortShutdown => 2
  | .abortJoin => 1
  | .asleep => 10
  | .stats => 9
  | .loop => 8
  | .stop => 7
  | .shutdown => 6
  | .joinCapture => 5
  | .joinNetwork => 4
  | .deleteTls => 3
  | .deleteCapture => 2
  | .deleteQueue => 1
  | .exited _ => 0

/-- The steps the capture thread has left, those of its `push` apart. -/
def CapturePc.work : CapturePc → Nat
  | .absent => 0
  | .test => 1
  | .read => 6
  | .returned => 0

namespace Process

variable {p p' : Process} {a : Action}

/-- The steps the process has left once `g_running` is `false`. -/
def work (p : Process) : Nat :=
  p.pc.work + (p.capture.work + p.streamer.qs.pushWork) + p.streamer.netWork

/-- The frames captured, and the one that may still be. -/
def mayCapture (p : Process) : Nat :=
  p.streamer.captured.length + if p.capture = .read then 1 else 0

/-- A signal, or an `SSL_write` that asks to be called again. -/
def idle (_ : Process) : Action → Bool
  | .signal => true
  | .network a => a.idle
  | _ => false

/-- What a step does once `g_running` is `false`. -/
structure Nears (idle : Bool) (p p' : Process) : Prop where
  running : p'.running = false
  work : if idle then p'.work = p.work else p'.work < p.work
  sent : p'.streamer.maySend ≤ p.streamer.maySend
  captured : p'.mayCapture ≤ p.mayCapture

/-- A step of `main` that leaves the streamer alone. -/
theorem nears_goto {pc : MainPc} {ops : List (Op Obj)} {running' : Bool} {capture' : CapturePc}
    (hrun : running' = false)
    (hwork : pc.work + capture'.work < p.pc.work + p.capture.work)
    (hread : capture' ≠ .read ∨ capture' = p.capture) :
    Nears false p { p.goto pc ops with running := running', capture := capture' } where
  running := hrun
  work := by
    simp only [Process.work, goto, Bool.false_eq_true, if_false]
    omega
  sent := Nat.le_refl _
  captured := by
    simp only [mayCapture, goto]
    rcases hread with hread | hread
    · rw [if_neg hread]
      exact Nat.add_le_add_left (Nat.zero_le _) _
    · rw [hread]

/-- `queue->shutdown()`. -/
theorem nears_shutdown {pc : MainPc} (hrun : p.running = false) (hpc : pc.work < p.pc.work)
    (hp : (p.act c .shutdown).map (fun p => p.goto pc []) = some p') : Nears false p p' := by
  obtain ⟨t, ht, rfl⟩ := Option.map_eq_some_iff.mp hp
  obtain ⟨s', hs, rfl⟩ := Option.map_eq_some_iff.mp ht
  have hm := Streamer.step_moves hs
  obtain ⟨hwork, hsent⟩ := Streamer.netWork_stays hm rfl
  cases hm with
  | shutdown hq =>
    have hpush := QState.pushWork_stays (fun _ h => by cases h) rfl hq
    refine ⟨hrun, ?_, Nat.le_of_eq hsent, Nat.le_refl _⟩
    simp only [Process.work, goto, Bool.false_eq_true, if_false, hpush, hwork]
    omega

/-- `delete tls`. -/
theorem nears_deleteTls (hrun : p.running = false) (hpc : p.pc = .deleteTls)
    (hdone : p.streamer.net.pc = .done) {created : Bool} (hp : p.main c created = some p') :
    Nears false p p' := by
  unfold main at hp
  rw [hpc] at hp
  obtain ⟨s', hs, rfl⟩ := Option.map_eq_some_iff.mp hp
  simp only [Streamer.step, Streamer.advance, Net.advance, hdone] at hs
  cases hs
  have hsent := (Net.tlsDisconnect_rest p.streamer.net).1
  refine ⟨hrun, ?_, ?_, Nat.le_refl _⟩
  · simp only [Process.work, goto, hpc, hdone, Streamer.netWork, NetPc.work, MainPc.work,
      Bool.false_eq_true, if_false]
    omega
  · simp [Streamer.maySend, NetPc.mayCount, hsent]

/-- **A step of `main`** once `g_running` is `false`. -/
theorem nears_main (h : p.Inv config env c) (hrun : p.running = false) {created : Bool}
    (hp : p.main c created = some p') : Nears false p p' := by
  have hmain := hp
  unfold main at hp
  split at hp
  case h_1 hpc =>
    have hidle := h.capture_idle (by rw [hpc]; decide)
    have hcap : p.capture.work = 0 := by
      cases hc : p.capture <;> first | rfl | exact absurd (by simp [hc]) hidle
    split at hp
    · cases hp
      exact nears_goto hrun (by rw [hpc, hcap]; decide) (.inl nofun)
    · cases hp
      exact nears_goto hrun (by rw [hpc, hcap]; decide) (.inr rfl)
  case h_2 hpc =>
    split at hp <;>
    · cases hp
      exact nears_goto hrun (by rw [hpc]; exact Nat.add_lt_add_right (by decide) _) (.inr rfl)
  case h_3 hpc =>
    cases hp
    exact nears_goto rfl (by rw [hpc]; exact Nat.add_lt_add_right (by decide) _) (.inr rfl)
  case h_4 hpc => exact nears_shutdown hrun (by rw [hpc]; decide) hp
  case h_5 hpc =>
    split at hp
    · cases hp
      exact nears_goto hrun (by rw [hpc]; exact Nat.add_lt_add_right (by decide) _) (.inr rfl)
    · exact absurd hp nofun
  case h_6 hpc =>
    rw [hrun] at hp
    cases hp
    exact nears_goto hrun (by rw [hpc]; exact Nat.add_lt_add_right (by decide) _) (.inr rfl)
  case h_7 hpc =>
    cases hp
    exact nears_goto hrun (by rw [hpc]; exact Nat.add_lt_add_right (by decide) _) (.inr rfl)
  case h_8 hpc =>
    cases hp
    exact nears_goto hrun (by rw [hpc]; exact Nat.add_lt_add_right (by decide) _) (.inr rfl)
  case h_9 hpc =>
    cases hp
    exact nears_goto rfl (by rw [hpc]; exact Nat.add_lt_add_right (by decide) _) (.inr rfl)
  case h_10 hpc => exact nears_shutdown hrun (by rw [hpc]; decide) hp
  case h_11 hpc =>
    split at hp
    · cases hp
      exact nears_goto hrun (by rw [hpc]; exact Nat.add_lt_add_right (by decide) _) (.inr rfl)
    · exact absurd hp nofun
  case h_12 hpc =>
    split at hp
    · cases hp
      exact nears_goto hrun (by rw [hpc]; exact Nat.add_lt_add_right (by decide) _) (.inr rfl)
    · exact absurd hp nofun
  case h_13 hpc => exact nears_deleteTls hrun hpc (h.net_done hpc) hmain
  case h_14 hpc =>
    cases hp
    refine ⟨hrun, ?_, Nat.le_refl _, Nat.le_refl _⟩
    simp only [Process.work, goto, hpc, MainPc.work, Bool.false_eq_true, if_false]
    omega
  case h_15 hpc =>
    cases hp
    exact nears_goto hrun (by rw [hpc]; exact Nat.add_lt_add_right (by decide) _) (.inr rfl)
  case h_16 => exact absurd hp nofun

/-- **A step of the network thread** once `g_running` is `false`. -/
theorem nears_network (h : p.Inv config env c) (hc : 0 < c.queueSize) (hrun : p.running = false)
    {a : Streamer.Action} (ha : a.ofNetwork = true) (htest : ∀ r, a = .test r → r = false)
    (hdone : p.streamer.net.pc ≠ .done) {s' : Streamer} (hs : p.streamer.step c a = some s')
    {log : List (Op Obj)} {handshakes : List (Option SslContext × Net.ConnectEnv)} :
    Nears a.idle p { p with streamer := s', log, handshakes } := by
  have hq := Streamer.queue_reachable h.streamer
  have hnear := Streamer.nears_network (QState.inv_of_reachable hc hq)
    (QState.fixed_of_reachable hq).max (Streamer.coherent_of_reachable h.streamer)
    (Streamer.step_moves hs) ha htest hdone
  refine ⟨hrun, ?_, hnear.sent, ?_⟩
  · have hwork := hnear.work
    simp only [Process.work, hnear.push]
    split at hwork
    · rename_i hidle
      rw [if_pos hidle, hwork]
    · rename_i hidle
      rw [if_neg hidle]
      omega
  · simp only [mayCapture, hnear.captured]
    exact Nat.le_refl _

/-- A frame read is pushed, or given up: 4 steps at most, and the last test. -/
theorem nears_capture (h : p.Inv config env c) (hrun : p.running = false) (hcap : p.capture = .read)
    {r : Capture} {s' : Streamer} (hs : p.streamer.step c (.capture r) = some s')
    {log : List (Op Obj)} :
    Nears false p { p with streamer := s', log, capture := .test } := by
  have hm := Streamer.step_moves hs
  obtain ⟨hnet, hsent⟩ := Streamer.netWork_stays hm rfl
  obtain ⟨hp, hu⟩ := h.pushing (by rw [hcap]; exact nofun)
  have hpush : s'.qs.pushWork ≤ 4 := by
    cases hm with
    | idle _ =>
      simp only [QState.pushWork, QState.mutexWork, hp, hu]
      omega
    | @capture img qs _ _ hq =>
      have hle := QState.mutexWork_le qs
      have huncounted : qs.uncounted = 0 := by
        rcases QState.pushCall_cases hq with ⟨rfl, -⟩ | ⟨-, -, -, rfl⟩
        · exact hu
        · exact hu
      simp only [QState.pushWork]
      omega
  have hcount : s'.captured.length ≤ p.streamer.captured.length + 1 := by
    cases hm with
    | idle _ => exact Nat.le_succ _
    | capture _ _ _ => simp
  refine ⟨hrun, ?_, Nat.le_of_eq hsent, ?_⟩
  · simp only [Process.work, hnet, hcap, CapturePc.work, Bool.false_eq_true, if_false]
    omega
  · simp only [mayCapture, hcap, if_true, reduceCtorEq, if_false]
    omega

/-- A step of a `push`. -/
theorem nears_push (h : p.Inv config env c) (hc : 0 < c.queueSize) (hrun : p.running = false)
    {b : QAction} {s' : Streamer} (hs : p.streamer.step c (.push b) = some s')
    {log : List (Op Obj)} : Nears false p { p with streamer := s', log } := by
  have hm := Streamer.step_moves hs
  obtain ⟨hnet, hsent⟩ := Streamer.netWork_stays hm rfl
  have hI := QState.inv_of_reachable hc (Streamer.queue_reachable h.streamer)
  cases hm with
  | push hb hq =>
    have hpush := QState.pushWork_falls hI hb hq
    refine ⟨hrun, ?_, Nat.le_of_eq hsent, Nat.le_refl _⟩
    simp only [Process.work, hnet, Bool.false_eq_true, if_false]
    omega

/-- **Every step** once `g_running` is `false`. -/
theorem nears_step (h : p.Inv config env c) (hc : 0 < c.queueSize) (hrun : p.running = false)
    (hs : p.step c a = some p') : Nears (idle p a) p p' := by
  cases a with
  | signal =>
    cases hs
    exact ⟨rfl, rfl, Nat.le_refl _, Nat.le_refl _⟩
  | main created => exact nears_main h hrun hs
  | captureTest =>
    simp only [step] at hs
    split at hs
    · rename_i hidle
      cases hs
      refine ⟨hrun, ?_, Nat.le_refl _, ?_⟩
      · simp only [Process.work, idle, hidle.1, hrun, CapturePc.work, Bool.false_and,
          Bool.false_eq_true, if_false]
        omega
      · simp [mayCapture, hrun]
    · cases hs
  | capture r =>
    simp only [step] at hs
    split_ifs at hs with hcap
    obtain ⟨t, ht, rfl⟩ := Option.map_eq_some_iff.mp hs
    obtain ⟨s', hs', rfl⟩ := Option.map_eq_some_iff.mp ht
    exact nears_capture h hrun hcap hs'
  | push b =>
    obtain ⟨s', hs', rfl⟩ := Option.map_eq_some_iff.mp hs
    exact nears_push h hc hrun hs'
  | networkTest =>
    simp only [step] at hs
    split_ifs at hs with hcreated
    obtain ⟨s', hs', rfl⟩ := Option.map_eq_some_iff.mp hs
    have hdone : p.streamer.net.pc ≠ .done := by
      cases Streamer.step_moves hs' with
      | test hpc => rw [hpc]; exact fun h => by cases h
    exact nears_network h hc hrun rfl (fun r hr => by cases hr; exact hrun) hdone hs'
  | network a =>
    simp only [step] at hs
    split_ifs at hs with hnet
    obtain ⟨hcreated, ha, hdone⟩ := hnet
    obtain ⟨t, ht, rfl⟩ := Option.map_eq_some_iff.mp hs
    obtain ⟨s', hs', rfl⟩ := Option.map_eq_some_iff.mp ht
    have hof : a.ofNetwork = true := by
      cases a <;> first | rfl | cases ha
    exact nears_network h hc hrun hof (fun r hr => by subst hr; cases ha) hdone hs'

/-! ## Some step is always enabled -/

/-- A capture thread that `main` may join has been created. -/
def Born (p : Process) : Prop := .thread .capture ∈ p.pc.opened → p.capture ≠ .absent

theorem born_main (h : p.Born) {created : Bool} (hp : p.main c created = some p') : p'.Born := by
  have hkeep : ∀ {q : Process}, (.thread .capture ∈ q.pc.opened → .thread .capture ∈ p.pc.opened) →
      q.capture = p.capture → q.Born := by
    intro q hpc hcap hmem
    rw [hcap]
    exact h (hpc hmem)
  have hshut : ∀ {pc : MainPc} {q : Process}, pc.opened = p.pc.opened →
      (p.act c .shutdown).map (fun p => p.goto pc []) = some q → q.Born := by
    intro pc q hpc hq
    obtain ⟨t, ht, rfl⟩ := Option.map_eq_some_iff.mp hq
    obtain ⟨s', -, rfl⟩ := Option.map_eq_some_iff.mp ht
    exact hkeep (fun hmem => hpc ▸ hmem) rfl
  unfold main at hp
  split at hp
  case h_1 hpc =>
    split at hp
    · cases hp
      exact fun _ h => by cases h
    · cases hp
      exact hkeep (by rw [hpc]; simp only [goto]; decide) rfl
  case h_4 hpc => exact hshut (by rw [hpc]; rfl) hp
  case h_10 hpc => exact hshut (by rw [hpc]; rfl) hp
  case h_13 hpc =>
    obtain ⟨s', -, rfl⟩ := Option.map_eq_some_iff.mp hp
    exact hkeep (by rw [hpc]; simp only [goto]; decide) rfl
  case h_16 => cases hp
  case h_2 hpc =>
    split at hp <;>
    · cases hp
      exact hkeep (by rw [hpc]; simp only [goto]; decide) rfl
  case h_5 hpc =>
    split at hp
    · cases hp
      exact hkeep (by rw [hpc]; simp only [goto]; decide) rfl
    · cases hp
  case h_6 hpc =>
    split at hp <;>
    · cases hp
      exact hkeep (by rw [hpc]; simp only [goto]; decide) rfl
  case h_11 hpc =>
    split at hp
    · cases hp
      exact hkeep (by rw [hpc]; simp only [goto]; decide) rfl
    · cases hp
  case h_12 hpc =>
    split at hp
    · cases hp
      exact hkeep (by rw [hpc]; simp only [goto]; decide) rfl
    · cases hp
  all_goals
    rename_i hpc
    cases hp
    exact hkeep (by rw [hpc]; simp only [goto]; decide) rfl

theorem born_step (h : p.Born) (hs : p.step c a = some p') : p'.Born := by
  cases a with
  | signal =>
    cases hs
    exact h
  | main created => exact born_main h hs
  | captureTest =>
    simp only [step] at hs
    split at hs
    · cases hs
      intro _
      simp only
      split <;> exact fun h => by cases h
    · cases hs
  | capture r =>
    simp only [step] at hs
    split_ifs at hs
    obtain ⟨t, -, rfl⟩ := Option.map_eq_some_iff.mp hs
    exact fun _ h => by cases h
  | push b =>
    obtain ⟨s', -, rfl⟩ := Option.map_eq_some_iff.mp hs
    exact h
  | networkTest =>
    simp only [step] at hs
    split_ifs at hs
    obtain ⟨s', -, rfl⟩ := Option.map_eq_some_iff.mp hs
    exact h
  | network a =>
    simp only [step] at hs
    split_ifs at hs
    obtain ⟨t, ht, rfl⟩ := Option.map_eq_some_iff.mp hs
    obtain ⟨s', -, rfl⟩ := Option.map_eq_some_iff.mp ht
    exact h

/-- A `push` under way can go on. -/
theorem push_goesOn (h : p.Inv config env c) (hc : 0 < c.queueSize)
    (hpush : ¬ (p.streamer.qs.pushing = none ∧ p.streamer.qs.uncounted = 0)) :
    ∃ a p', idle p a = false ∧ p.step c a = some p' := by
  have hI := QState.inv_of_reachable hc (Streamer.queue_reachable h.streamer)
  obtain ⟨b, qs, -, hb, hq⟩ := QState.push_progress.enabled hI hpush
  have hb : QState.isPush b = true := by simpa [QState.others] using hb
  exact ⟨.push b, _, rfl, by simp only [step, act, Streamer.step, hb, if_true, hq]; rfl⟩

/-- So can the capture thread as long as it has not returned. -/
theorem capture_goesOn (h : p.Inv config env c) (hc : 0 < c.queueSize)
    (halive : p.capture = .test ∨ p.capture = .read) :
    ∃ a p', idle p a = false ∧ p.step c a = some p' := by
  by_cases hpush : p.streamer.qs.pushing = none ∧ p.streamer.qs.uncounted = 0
  · rcases halive with hcap | hcap
    · exact ⟨.captureTest, _, rfl, if_pos ⟨hcap, by rw [hpush.1]; rfl, hpush.2⟩⟩
    · exact ⟨.capture .readFailed, _, rfl, by
        simp only [step, hcap, if_true, act, Streamer.step, hpush.1, hpush.2, Option.isNone_none,
          and_self, Streamer.capture]
        rfl⟩
  · exact push_goesOn h hc hpush

/-- And the network thread. -/
theorem network_goesOn (h : p.Inv config env c) (hcreated : p.pc.networkCreated = true)
    (hdone : p.streamer.net.pc ≠ .done ∧ p.streamer.net.pc ≠ .destroyed) :
    ∃ a p', idle p a = false ∧ p.step c a = some p' := by
  by_cases hhead : p.streamer.net.pc = .head
  · exact ⟨.networkTest, _, rfl, by
      simp only [step, hcreated, if_true, act, Streamer.step, hhead]; rfl⟩
  · obtain ⟨a, s', ha, hidle, hs⟩ := Streamer.network_enabled c
      (Streamer.coherent_of_reachable h.streamer) hhead hdone
    exact ⟨.network a, _, hidle, by
      simp only [step, hcreated, ha, hdone.1, ne_eq, not_false_eq_true, and_self, if_true, act,
        hs]
      rfl⟩

/-- `queue->shutdown()` gets the mutex, or the `push` that has it can go on. -/
theorem shutdown_goesOn (h : p.Inv config env c) (hc : 0 < c.queueSize)
    (hpc : p.pc = .abortShutdown ∨ p.pc = .shutdown) :
    ∃ a p', idle p a = false ∧ p.step c a = some p' := by
  by_cases hpush : p.streamer.qs.pushing = none ∧ p.streamer.qs.uncounted = 0
  · rcases hpc with hpc | hpc
    all_goals
      exact ⟨.main true, _, rfl, by
        simp only [step, main, hpc, act, Streamer.step, QState.shutdown, hpush.1,
          Option.isSome_none, Bool.false_eq_true, if_false]
        rfl⟩
  · exact push_goesOn h hc hpush

/-- `pthread_join` of the capture thread returns, or the thread can go on. -/
theorem join_goesOn (h : p.Inv config env c) (hc : 0 < c.queueSize) (hborn : p.Born)
    (hpc : p.pc = .abortJoin ∨ p.pc = .joinCapture) :
    ∃ a p', idle p a = false ∧ p.step c a = some p' := by
  cases hcap : p.capture with
  | absent =>
    refine absurd hcap (hborn ?_)
    rcases hpc with hpc | hpc <;> rw [hpc] <;> decide
  | test => exact capture_goesOn h hc (.inl hcap)
  | read => exact capture_goesOn h hc (.inr hcap)
  | returned =>
    rcases hpc with hpc | hpc
    all_goals exact ⟨.main true, _, rfl, by simp only [step, main, hpc, hcap, if_true]; rfl⟩

/-- **Some step is enabled** until `main` has returned. -/
theorem goesOn (h : p.Inv config env c) (hc : 0 < c.queueSize) (hborn : p.Born)
    (hexit : ¬ ∃ success, p.pc = .exited success) :
    ∃ a p', idle p a = false ∧ p.step c a = some p' := by
  cases hpc : p.pc with
  | abortShutdown => exact shutdown_goesOn h hc (.inl hpc)
  | shutdown => exact shutdown_goesOn h hc (.inr hpc)
  | abortJoin => exact join_goesOn h hc hborn (.inl hpc)
  | joinCapture => exact join_goesOn h hc hborn (.inr hpc)
  | joinNetwork =>
    by_cases hdone : p.streamer.net.pc = .done
    · exact ⟨.main true, _, rfl, by simp only [step, main, hpc, hdone, if_true]; rfl⟩
    · refine network_goesOn h (by rw [hpc]; rfl) ⟨hdone, fun hd => ?_⟩
      have hfalse := h.destroyed.mp hd
      rw [hpc] at hfalse
      cases hfalse
  | deleteTls =>
    have hdone := h.net_done hpc
    exact ⟨.main true, _, rfl, by
      simp only [step, main, hpc, Streamer.step, Streamer.advance, Net.advance, hdone]; rfl⟩
  | exited success => exact absurd ⟨success, hpc⟩ hexit
  | loop =>
    cases hrun : p.running with
    | true => exact ⟨.main true, _, rfl, by simp only [step, main, hpc, hrun, if_true]; rfl⟩
    | false =>
      exact ⟨.main true, _, rfl, by
        simp only [step, main, hpc, hrun, Bool.false_eq_true, if_false]; rfl⟩
  | _ => exact ⟨.main true, _, rfl, by simp only [step, main, hpc, if_true]; rfl⟩

/-! ## The end -/

/-- `main` has returned. -/
def Exited (p : Process) : Prop := ∃ success, p.pc = .exited success

/-- **Progress**: with `g_running` at `false` the process comes to its end. -/
theorem process_progress (hc : 0 < c.queueSize) :
    Progress (step c) (fun _ _ => True)
      (fun p => p.Inv config env c ∧ p.Born ∧ p.running = false) idle work Exited where
  keeps _ h _ hs := ⟨inv_step hc h.1 hs, born_step h.2.1 hs, (nears_step h.1 hc h.2.2 hs).running⟩
  stays a h _ hs hidle := by
    have hwork := (nears_step h.1 hc h.2.2 hs).work
    rw [if_pos hidle] at hwork
    exact Nat.le_of_eq hwork
  falls a h _ hs hidle := by
    have hwork := (nears_step h.1 hc h.2.2 hs).work
    rwa [hidle] at hwork
  enabled h hexit := by
    obtain ⟨a, p', hidle, hs⟩ := goesOn h.1 hc h.2.1 hexit
    exact ⟨a, p', trivial, hidle, hs⟩

/-- How the process ends, from a state in which `g_running` is `false`. -/
structure Stops (c : Streamer.Config) (p : Process) : Prop where
  /-- Signals and repeated `SSL_write`s apart, a run takes no more than `work` steps. -/
  bounded : ∀ as p', Runs (step c) (fun _ _ => True) as p p' →
    (trace (step c) (busy idle) as p).length ≤ p.work
  /-- No thread waits for another for ever: a run stops only where `main` has returned. -/
  exits : ∀ as p', Runs (step c) (fun _ _ => True) as p p' →
    (∀ a q, idle p' a = false → p'.step c a ≠ some q) → p'.Exited
  /-- At most one more frame is captured, and at most one more is sent. -/
  captured : ∀ as p', Runs (step c) (fun _ _ => True) as p p' →
    p'.streamer.captured.length ≤ p.streamer.captured.length + 1
  sent : ∀ as p', Runs (step c) (fun _ _ => True) as p p' →
    p'.streamer.net.framesSent ≤ p.streamer.net.framesSent + 1

theorem born_of_reachable (hr : Reachable o tls config p) : p.Born := by
  obtain ⟨env, p₀, hboot, hr⟩ := hr
  obtain ⟨-, hpc, -⟩ := booted hboot
  have h0 : p₀.Born := by
    intro hmem
    rw [hpc] at hmem
    exact absurd hmem (by decide)
  exact hr.invariant ⟨h0, fun _ h _ hs => born_step h hs⟩

/-- **The client stops.** Once `g_running` is `false`, whatever the threads were doing, if the calls
they make return. -/
theorem stop_completes (hr : Reachable o tls config p) (hrun : p.running = false) :
    Stops (streamerConfig o tls config) p := by
  obtain ⟨hpos, env, h⟩ := inv_of_reachable hr
  have hprog := @process_progress _ config env (streamerConfig o tls config) hpos
  have hJ : p.Inv config env (streamerConfig o tls config) ∧ p.Born ∧ p.running = false :=
    ⟨h, born_of_reachable hr, hrun⟩
  refine ⟨fun as p' hruns => ?_, fun as p' hruns hstuck => ?_, fun as p' hruns => ?_,
    fun as p' hruns => ?_⟩
  · exact Nat.le_of_add_right_le (hprog.bounded hruns hJ)
  · exact hprog.done_of_stuck (hprog.invariant hruns hJ) fun a q _ hidle => hstuck a q hidle
  · have hmay := hprog.le_of_step (fun a hJ _ hs => (nears_step hJ.1 hpos hJ.2.2 hs).captured)
      hruns hJ
    unfold mayCapture at hmay
    split_ifs at hmay <;> omega
  · have hmay := hprog.le_of_step (f := fun p => p.streamer.maySend)
      (fun a hJ _ hs => (nears_step hJ.1 hpos hJ.2.2 hs).sent) hruns hJ
    have hone : p.streamer.net.pc.mayCount ≤ 1 := by
      cases p.streamer.net.pc <;> simp [NetPc.mayCount]
    unfold Streamer.maySend at hmay
    omega

/-- A signal comes while the payload of a frame is being written. -/
theorem stop_completes_writing : ∃ p : Process, p.running = false ∧
    p.streamer.net.framesSent = 0 ∧
    Stops (streamerConfig .little ⟨1000, 30000, (2 * ·)⟩ sampleConfig) p := by
  have hrun : ∃ p₀ p, boot .little ⟨1000, 30000, (2 * ·)⟩ sampleConfig sampleBoot = .starts p₀ ∧
      exec (step (streamerConfig .little ⟨1000, 30000, (2 * ·)⟩ sampleConfig))
        (sampleRun.take 13 ++ [.signal]) p₀ = some p ∧
      p.running = false ∧ p.streamer.net.framesSent = 0 :=
    ⟨_, _, rfl, rfl, rfl, rfl⟩
  obtain ⟨p₀, p, hboot, hrun, hrunning, hsent⟩ := hrun
  have hr : Reachable .little ⟨1000, 30000, (2 * ·)⟩ sampleConfig p :=
    ⟨sampleBoot, p₀, hboot, (Runs.of_exec (fun _ _ _ => trivial) hrun).reach .init⟩
  exact ⟨p, hrunning, hsent, stop_completes hr hrunning⟩

end Process

end Client

end CameraStreamer
