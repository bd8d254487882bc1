import CameraStreamer.Lib.Simulation
import CameraStreamer.Log
import Mathlib.Algebra.BigOperators.Group.Finset.Basic
import Mathlib.Algebra.Order.BigOperators.Group.Finset
import Mathlib.Logic.Function.Basic

/-!
# The log file and the threads that write to it

Model of `ensureLogOpen`, `openLogFile` and the writing part of `~LogMessage`
(`src/include/log.hpp:35-59`, `log.hpp:100-114`), run by any number of threads. What is written is
the line of `Log.lean`.

* `write` accepts some bytes of the line, or none where it fails; the code does not look. An action
  gives how many. `open` and `write` are taken to return.
* `begun` and `entries` record the lines whose destructor has started and those it has written, in
  the order in which `g_log_mutex` was released. No code reads them.

Results:
* **`lines_whole`**: over every interleaving, file and terminal hold the lines one behind the other
  in the order of the mutex, each from its first character and as far as its `write` took it, none
  of another in between; those of one thread in the order it logged them. The file is opened once,
  before the first line.
* **`logging_completes`**: no thread waits for another for ever in a log statement, and each line
  begun is handed to `write`.
-/

namespace CameraStreamer.Log

open Lib.Machine

/-- `g_log_fd`. -/
inductive LogFd
  /-- `-1`. -/
  | unset
  | file
  /-- `STDERR_FILENO`. -/
  | stderr
  deriving DecidableEq, Repr

/-- `g_log_once`. -/
inductive Once (T : Type)
  | init
  /-- The thread is in `openLogFile`. -/
  | running (t : T)
  | done

/-- Where a thread stands in `~LogMessage`. -/
inductive LogPc
  /-- In no destructor that writes. -/
  | out
  /-- Before `ensureLogOpen`. -/
  | ensure (line : List Char)
  /-- In `openLogFile`. -/
  | opening (line : List Char)
  | lock (line : List Char)
  | writeFile (line : List Char)
  /-- `n` bytes are in the file. -/
  | writeStderr (line : List Char) (n : Nat)
  /-- `m` bytes are on the terminal. -/
  | unlock (line : List Char) (n m : Nat)
  deriving DecidableEq, Repr

/-- A line, and how much of it is in the file and on the terminal. -/
structure Entry (T : Type) where
  thread : T
  line : List Char
  onFile : Nat
  onTerminal : Nat

/-- The log and the threads. -/
structure LogState (T : Type) where
  pc : T → LogPc
  once : Once T
  fd : LogFd
  /-- The thread that holds `g_log_mutex`. -/
  mutex : Option T
  /-- How often the file was opened. -/
  opens : Nat
  file : List Char
  terminal : List Char
  entries : List (Entry T)
  begun : T → List (List Char)

/-- One step of a thread. -/
inductive LogAction (T : Type)
  /-- The destructor starts. -/
  | log (t : T) (m : LogMessage)
  /-- `pthread_once` is entered. -/
  | ensure (t : T)
  /-- `open` returns. -/
  | opened (t : T) (ok : Bool)
  | lock (t : T)
  | writeFile (t : T) (n : Nat)
  | writeStderr (t : T) (n : Nat)
  | unlock (t : T)

namespace LogState

variable {T : Type} [DecidableEq T]

/-- Before the first log statement. -/
def init : LogState T where
  pc := fun _ => .out
  once := .init
  fd := .unset
  mutex := none
  opens := 0
  file := []
  terminal := []
  entries := []
  begun := fun _ => []

/-- The thread goes on. -/
def goto (s : LogState T) (t : T) (pc : LogPc) : LogState T :=
  { s with pc := Function.update s.pc t pc }

/-- `write(g_log_fd, …)`: file and terminal after it. -/
def writeLog (s : LogState T) (bytes : List Char) : List Char × List Char :=
  match s.fd with
  | .unset => (s.file, s.terminal)
  | .file => (s.file ++ bytes, s.terminal)
  | .stderr => (s.file, s.terminal ++ bytes)

/-- The first `write` of the destructor. -/
def writeFirst (s : LogState T) (t : T) (line : List Char) (n : Nat) : LogState T :=
  { s.goto t (if s.fd = .stderr then .unlock line 0 n else .writeStderr line n) with
    file := (s.writeLog (line.take n)).1
    terminal := (s.writeLog (line.take n)).2 }

/-- The second. -/
def writeSecond (s : LogState T) (t : T) (line : List Char) (n m : Nat) : LogState T :=
  { s.goto t (.unlock line n m) with terminal := s.terminal ++ line.take m }

/-- One step. -/
def step (s : LogState T) : LogAction T → Option (LogState T)
  | .log t m =>
    match s.pc t with
    | .out =>
      match m.flush.2 with
      | some line =>
        some
          { s.goto t (.ensure line) with
            begun := Function.update s.begun t (s.begun t ++ [line]) }
      | none => some s
    | _ => none
  | .ensure t =>
    match s.pc t with
    | .ensure line =>
      match s.once with
      | .init => some { s.goto t (.opening line) with once := .running t }
      | .running _ => none
      | .done => some (s.goto t (.lock line))
    | _ => none
  | .opened t ok =>
    match s.pc t with
    | .opening line =>
      some
        { s.goto t (.lock line) with
          fd := if ok then .file else .stderr
          once := .done
          opens := s.opens + 1 }
    | _ => none
  | .lock t =>
    match s.pc t with
    | .lock line =>
      match s.mutex with
      | none => some { s.goto t (.writeFile line) with mutex := some t }
      | some _ => none
    | _ => none
  | .writeFile t n =>
    match s.pc t with
    | .writeFile line => some (s.writeFirst t line n)
    | _ => none
  | .writeStderr t m =>
    match s.pc t with
    | .writeStderr line n => some (s.writeSecond t line n m)
    | _ => none
  | .unlock t =>
    match s.pc t with
    | .unlock line n m =>
      some { s.goto t .out with mutex := none, entries := s.entries ++ [⟨t, line, n, m⟩] }
    | _ => none

/-- The states of the runs of any number of threads. -/
def Reachable (s : LogState T) : Prop := Reach step (fun _ _ => True) init s

/-! ## What a step can do -/

/-- **What a step can do.** -/
inductive Moves (s : LogState T) : LogAction T → LogState T → Prop
  | begins {t : T} {m : LogMessage} {line : List Char} (hpc : s.pc t = .out)
      (hline : m.flush.2 = some line) :
      Moves s (.log t m)
        { s.goto t (.ensure line) with begun := Function.update s.begun t (s.begun t ++ [line]) }
  | off {t : T} {m : LogMessage} : Moves s (.log t m) s
  | first {t : T} {line : List Char} (hpc : s.pc t = .ensure line) (honce : s.once = .init) :
      Moves s (.ensure t) { s.goto t (.opening line) with once := .running t }
  | later {t : T} {line : List Char} (hpc : s.pc t = .ensure line) (honce : s.once = .done) :
      Moves s (.ensure t) (s.goto t (.lock line))
  | opened {t : T} {ok : Bool} {line : List Char} (hpc : s.pc t = .opening line) :
      Moves s (.opened t ok)
        { s.goto t (.lock line) with
          fd := if ok then .file else .stderr
          once := .done
          opens := s.opens + 1 }
  | lock {t : T} {line : List Char} (hpc : s.pc t = .lock line) (hfree : s.mutex = none) :
      Moves s (.lock t) { s.goto t (.writeFile line) with mutex := some t }
  | writeFile {t : T} {n : Nat} {line : List Char} (hpc : s.pc t = .writeFile line) :
      Moves s (.writeFile t n) (s.writeFirst t line n)
  | writeStderr {t : T} {n m : Nat} {line : List Char} (hpc : s.pc t = .writeStderr line n) :
      Moves s (.writeStderr t m) (s.writeSecond t line n m)
  | unlock {t : T} {n m : Nat} {line : List Char} (hpc : s.pc t = .unlock line n m) :
      Moves s (.unlock t)
        { s.goto t .out with mutex := none, entries := s.entries ++ [⟨t, line, n, m⟩] }

variable {s s' : LogState T} {a : LogAction T}

theorem step_moves (hs : s.step a = some s') : Moves s a s' := by
  cases a with
  | log t m =>
    simp only [step] at hs
    split at hs
    · rename_i hpc
      split at hs
      · rename_i hline; cases hs; exact .begins hpc hline
      · cases hs; exact .off
    · cases hs
  | ensure t =>
    simp only [step] at hs
    split at hs
    · rename_i hpc
      split at hs
      · rename_i honce; cases hs; exact .first hpc honce
      · cases hs
      · rename_i honce; cases hs; exact .later hpc honce
    · cases hs
  | opened t ok =>
    simp only [step] at hs
    split at hs
    · rename_i hpc; cases hs; exact .opened hpc
    · cases hs
  | lock t =>
    simp only [step] at hs
    split at hs
    · rename_i hpc
      split at hs
      · rename_i hfree; cases hs; exact .lock hpc hfree
      · cases hs
    · cases hs
  | writeFile t n =>
    simp only [step] at hs
    split at hs
    · rename_i hpc; cases hs; exact .writeFile hpc
    · cases hs
  | writeStderr t m =>
    simp only [step] at hs
    split at hs
    · rename_i hpc; cases hs; exact .writeStderr hpc
    · cases hs
  | unlock t =>
    simp only [step] at hs
    split at hs
    · rename_i hpc; cases hs; exact .unlock hpc
    · cases hs

/-! ## The mutex and the opening of the file -/

end LogState

/-- The thread holds `g_log_mutex`. -/
def LogPc.holds : LogPc → Bool
  | .writeFile _ => true
  | .writeStderr _ _ => true
  | .unlock _ _ _ => true
  | _ => false

/-- It is in `openLogFile`. -/
def LogPc.opens : LogPc → Bool
  | .opening _ => true
  | _ => false

/-- It has left `ensureLogOpen`. -/
def LogPc.past : LogPc → Bool
  | .lock _ => true
  | pc => pc.holds

namespace LogState

variable {T : Type} [DecidableEq T] {s s' : LogState T} {a : LogAction T}

/-- Who holds what. -/
structure Synced (s : LogState T) : Prop where
  holder : ∀ t, (s.pc t).holds = true ↔ s.mutex = some t
  opener : ∀ t, (s.pc t).opens = true ↔ s.once = .running t
  past : ∀ t, (s.pc t).past = true → s.once = .done
  opened : s.once = .done → s.opens = 1 ∧ s.fd ≠ .unset
  fresh : s.once ≠ .done → s.opens = 0 ∧ s.fd = .unset ∧ s.entries = []

theorem goto_self (t : T) (pc : LogPc) : (s.goto t pc).pc t = pc := by
  simp [goto]

theorem goto_of_ne {t u : T} (hu : u ≠ t) (pc : LogPc) : (s.goto t pc).pc u = s.pc u := by
  simp [goto, hu]

/-- A thread goes on; what the others hold stays theirs. -/
theorem Synced.move {t : T} {pc : LogPc} (h : Synced s) (hpc : s'.pc = (s.goto t pc).pc)
    (hmutex : ∀ u, u ≠ t → (s.mutex = some u ↔ s'.mutex = some u))
    (honce : ∀ u, u ≠ t → (s.once = .running u ↔ s'.once = .running u))
    (hdone : s.once = .done → s'.once = .done) (hholds : pc.holds = true ↔ s'.mutex = some t)
    (hopens : pc.opens = true ↔ s'.once = .running t) (hpast : pc.past = true → s'.once = .done)
    (hopened : s'.once = .done → s'.opens = 1 ∧ s'.fd ≠ .unset)
    (hfresh : s'.once ≠ .done → s'.opens = 0 ∧ s'.fd = .unset ∧ s'.entries = []) : Synced s' := by
  refine ⟨fun u => ?_, fun u => ?_, fun u => ?_, hopened, hfresh⟩ <;> rw [hpc]
  · by_cases hu : u = t
    · rw [hu, goto_self]
      exact hholds
    · rw [goto_of_ne hu, h.holder u]
      exact hmutex u hu
  · by_cases hu : u = t
    · rw [hu, goto_self]
      exact hopens
    · rw [goto_of_ne hu, h.opener u]
      exact honce u hu
  · by_cases hu : u = t
    · rw [hu, goto_self]
      exact hpast
    · rw [goto_of_ne hu]
      exact fun hp => hdone (h.past u hp)

/-- A thread goes on and takes nothing. -/
theorem Synced.stay {t : T} {pc : LogPc} (h : Synced s) (hpc : s'.pc = (s.goto t pc).pc)
    (hmutex : s'.mutex = s.mutex) (honce : s'.once = s.once) (hopens : s'.opens = s.opens)
    (hfd : s'.fd = s.fd) (hentries : s'.entries = s.entries) (hholds : pc.holds = (s.pc t).holds)
    (hopening : pc.opens = (s.pc t).opens) (hpast : pc.past = true → s.once = .done) :
    Synced s' := by
  refine h.move hpc (fun u _ => by rw [hmutex]) (fun u _ => by rw [honce]) (fun hd => honce ▸ hd)
    ?_ ?_ (fun hp => honce ▸ hpast hp) (fun hd => ?_) fun hd => ?_
  · rw [hholds, hmutex]
    exact h.holder t
  · rw [hopening, honce]
    exact h.opener t
  · rw [hopens, hfd]
    exact h.opened (honce ▸ hd)
  · rw [hopens, hfd, hentries]
    exact h.fresh (honce ▸ hd)

/-- Each step keeps it. -/
theorem synced_step (h : Synced s) (hm : Moves s a s') : Synced s' := by
  cases hm with
  | begins hpc hline =>
    exact h.stay rfl rfl rfl rfl rfl rfl (by rw [hpc]; rfl) (by rw [hpc]; rfl) fun hp => by cases hp
  | off => exact h
  | @first t line hpc honce =>
    have hdone : s.once ≠ .done := by rw [honce]; exact fun hd => by cases hd
    have hholds := h.holder t
    rw [hpc] at hholds
    refine h.move (t := t) rfl (fun _ _ => .rfl) (fun u hu => ?_) (fun hd => absurd hd hdone) hholds
      ⟨fun _ => rfl, fun _ => rfl⟩ (fun hp => by cases hp) (fun hd => by cases hd)
      fun _ => h.fresh hdone
    rw [honce]
    exact ⟨fun hrun => (by cases hrun), fun hrun => absurd (Once.running.inj hrun).symm hu⟩
  | later hpc honce =>
    exact h.stay rfl rfl rfl rfl rfl rfl (by rw [hpc]; rfl) (by rw [hpc]; rfl) fun _ => honce
  | @opened t ok line hpc =>
    have hrun := (h.opener t).mp (by rw [hpc]; rfl)
    have hdone : s.once ≠ .done := by rw [hrun]; exact fun hd => by cases hd
    have hholds := h.holder t
    rw [hpc] at hholds
    refine h.move (t := t) rfl (fun _ _ => .rfl) (fun u hu => ?_) (fun _ => rfl) hholds
      ⟨fun hp => (by cases hp), fun hd => by cases hd⟩ (fun _ => rfl) (fun _ => ⟨?_, ?_⟩)
      fun hd => absurd rfl hd
    · rw [hrun]
      exact ⟨fun h => absurd (Once.running.inj h).symm hu, fun h => by cases h⟩
    · exact congrArg (· + 1) (h.fresh hdone).1
    · cases ok <;> exact fun hfd => by cases hfd
  | @lock t line hpc hfree =>
    have hdone := h.past t (by rw [hpc]; rfl)
    have hopens := h.opener t
    rw [hpc] at hopens
    refine h.move (t := t) rfl (fun u hu => ?_) (fun _ _ => .rfl) id ⟨fun _ => rfl, fun _ => rfl⟩
      hopens (fun _ => hdone) h.opened h.fresh
    rw [hfree]
    exact ⟨fun h => (by cases h), fun h => absurd (Option.some.inj h).symm hu⟩
  | @writeFile t n line hpc =>
    have hdone := h.past t (by rw [hpc]; rfl)
    refine h.stay rfl rfl rfl rfl rfl rfl ?_ ?_ (fun _ => hdone) <;> rw [hpc] <;> split <;> rfl
  | @writeStderr t n m line hpc =>
    have hdone := h.past t (by rw [hpc]; rfl)
    exact h.stay rfl rfl rfl rfl rfl rfl (by rw [hpc]; rfl) (by rw [hpc]; rfl) fun _ => hdone
  | @unlock t n m line hpc =>
    have hheld := (h.holder t).mp (by rw [hpc]; rfl)
    have hdone := h.past t (by rw [hpc]; rfl)
    have hopens := h.opener t
    rw [hpc] at hopens
    refine h.move (t := t) rfl (fun u hu => ?_) (fun _ _ => .rfl) id
      ⟨fun hp => (by cases hp), fun hn => by cases hn⟩ hopens (fun _ => hdone) h.opened
      fun hd => absurd hdone hd
    rw [hheld]
    exact ⟨fun h => absurd (Option.some.inj h).symm hu, fun h => by cases h⟩

end LogState

/-! ## What is written -/

/-- The line a thread has begun and not yet written. -/
def LogPc.line : LogPc → List (List Char)
  | .out => []
  | .ensure line => [line]
  | .opening line => [line]
  | .lock line => [line]
  | .writeFile line => [line]
  | .writeStderr line _ => [line]
  | .unlock line _ _ => [line]

/-- What of it is written. -/
def LogPc.soFar {T : Type} (t : T) : LogPc → List (Entry T)
  | .writeStderr line n => [⟨t, line, n, 0⟩]
  | .unlock line n m => [⟨t, line, n, m⟩]
  | _ => []

/-- The bytes of a line in the file. -/
def Entry.fileText {T : Type} (e : Entry T) : List Char := e.line.take e.onFile

/-- The bytes of a line on the terminal. -/
def Entry.terminalText {T : Type} (e : Entry T) : List Char := e.line.take e.onTerminal

namespace LogState

variable {T : Type} {s s' : LogState T} {a : LogAction T}

/-- The lines in the order of the mutex, the one of its holder last. -/
def lines (s : LogState T) : List (Entry T) :=
  s.entries ++ (s.mutex.map fun t => (s.pc t).soFar t).getD []

theorem lines_free (h : s.mutex = none) : s.lines = s.entries := by
  rw [lines, h]
  exact List.append_nil _

theorem lines_held {t : T} (h : s.mutex = some t) : s.lines = s.entries ++ (s.pc t).soFar t := by
  rw [lines, h]
  rfl

theorem flatMap_snoc {β : Type} (f : Entry T → List β) (es : List (Entry T)) (e : Entry T) :
    (es ++ [e]).flatMap f = es.flatMap f ++ f e := by
  rw [List.flatMap_append, List.flatMap_singleton]

theorem past_of_holds {pc : LogPc} (h : pc.holds = true) : pc.past = true := by
  cases pc <;> first | exact h | cases h

/-- Before the file is open nobody has passed `ensureLogOpen`, so nobody has written. -/
theorem lines_fresh (h : Synced s) (hdone : s.once ≠ .done) : s.lines = [] := by
  have hfree : s.mutex = none := by
    cases hmutex : s.mutex with
    | none => rfl
    | some u => exact absurd (h.past u (past_of_holds ((h.holder u).mpr hmutex))) hdone
  rw [lines_free hfree]
  exact (h.fresh hdone).2.2

variable [DecidableEq T]

/-- A step of a thread that does not hold the mutex. -/
theorem lines_goto {t : T} {pc : LogPc} (h : Synced s) (hno : (s.pc t).holds = false) :
    (s.goto t pc).lines = s.lines := by
  cases hmutex : s.mutex with
  | none => rw [lines_free hmutex, lines_free (s := s.goto t pc) hmutex]; rfl
  | some u =>
    have hu : u ≠ t := by
      rintro rfl
      rw [(h.holder u).mpr hmutex] at hno
      cases hno
    rw [lines_held hmutex, lines_held (s := s.goto t pc) hmutex, goto_of_ne hu]
    rfl

/-- What file and terminal hold, and what each thread has logged. -/
structure Texts (s : LogState T) : Prop where
  file : s.file = s.lines.flatMap Entry.fileText
  terminal : s.terminal = s.lines.flatMap Entry.terminalText
  only : s.fd = .stderr → ∀ e ∈ s.lines, e.onFile = 0
  mine : ∀ t, s.begun t =
    ((s.entries.filter fun e => decide (e.thread = t)).map Entry.line) ++ (s.pc t).line

/-- A step that writes nothing. -/
theorem Texts.stay (h : Texts s) (hlines : s'.lines = s.lines) (hfile : s'.file = s.file)
    (hterminal : s'.terminal = s.terminal) (hfd : s'.fd = .stderr → s.fd = .stderr ∨ s.lines = [])
    (hmine : ∀ t, s'.begun t =
      ((s'.entries.filter fun e => decide (e.thread = t)).map Entry.line) ++ (s'.pc t).line) :
    Texts s' where
  file := by rw [hfile, hlines]; exact h.file
  terminal := by rw [hterminal, hlines]; exact h.terminal
  only hs e he := by
    rw [hlines] at he
    rcases hfd hs with hs | hnil
    · exact h.only hs e he
    · rw [hnil] at he
      cases he
  mine := hmine

/-- A thread goes on with its line. -/
theorem Texts.mine_goto (h : Texts s) {t : T} {pc : LogPc} (hline : pc.line = (s.pc t).line)
    (u : T) : s.begun u = ((s.entries.filter fun e => decide (e.thread = u)).map Entry.line) ++
      ((s.goto t pc).pc u).line := by
  rw [h.mine u]
  by_cases hu : u = t
  · rw [hu, goto_self, hline]
  · rw [goto_of_ne hu]

/-- The `write` to `g_log_fd`. -/
theorem Texts.writeFirst {t : T} {n : Nat} {line : List Char} (hsync : Synced s) (h : Texts s)
    (hpc : s.pc t = .writeFile line) : Texts (s.writeFirst t line n) := by
  have hheld := (hsync.holder t).mp (by rw [hpc]; rfl)
  have hopen := (hsync.opened (hsync.past t (by rw [hpc]; rfl))).2
  have hbefore : s.lines = s.entries := by
    rw [lines_held hheld, hpc]
    exact List.append_nil _
  have hfile := h.file
  have hterminal := h.terminal
  have honly := h.only
  rw [hbefore] at hfile hterminal honly
  cases hfd : s.fd with
  | unset => exact absurd hfd hopen
  | file =>
    have hafter : (s.writeFirst t line n).lines = s.entries ++ [⟨t, line, n, 0⟩] := by
      rw [lines_held (s := s.writeFirst t line n) hheld]
      simp [LogState.writeFirst, goto, hfd, LogPc.soFar]
    refine ⟨?_, ?_, fun hs => ?_, ?_⟩
    · rw [hafter, flatMap_snoc, ← hfile]
      simp [LogState.writeFirst, writeLog, hfd, Entry.fileText]
    · rw [hafter, flatMap_snoc, ← hterminal]
      simp [LogState.writeFirst, writeLog, hfd, Entry.terminalText]
    · cases hfd.symm.trans hs
    · exact h.mine_goto (by rw [hpc, hfd]; rfl)
  | stderr =>
    have hafter : (s.writeFirst t line n).lines = s.entries ++ [⟨t, line, 0, n⟩] := by
      rw [lines_held (s := s.writeFirst t line n) hheld]
      simp [LogState.writeFirst, goto, hfd, LogPc.soFar]
    refine ⟨?_, ?_, fun _ e he => ?_, ?_⟩
    · rw [hafter, flatMap_snoc, ← hfile]
      simp [LogState.writeFirst, writeLog, hfd, Entry.fileText]
    · rw [hafter, flatMap_snoc, ← hterminal]
      simp [LogState.writeFirst, writeLog, hfd, Entry.terminalText]
    · rw [hafter] at he
      rcases List.mem_append.mp he with he | he
      · exact honly hfd e he
      · rw [List.mem_singleton.mp he]
    · exact h.mine_goto (by rw [hpc, hfd]; rfl)

/-- The `write` to the terminal. -/
theorem Texts.writeSecond {t : T} {n m : Nat} {line : List Char} (hsync : Synced s) (h : Texts s)
    (hpc : s.pc t = .writeStderr line n) : Texts (s.writeSecond t line n m) := by
  have hheld := (hsync.holder t).mp (by rw [hpc]; rfl)
  have hbefore : s.lines = s.entries ++ [⟨t, line, n, 0⟩] := by
    rw [lines_held hheld, hpc]
    rfl
  have hafter : (s.writeSecond t line n m).lines = s.entries ++ [⟨t, line, n, m⟩] := by
    rw [lines_held (s := s.writeSecond t line n m) hheld, LogState.writeSecond, goto_self]
    rfl
  have hfile := h.file
  have hterminal := h.terminal
  rw [hbefore, flatMap_snoc] at hfile hterminal
  refine ⟨?_, ?_, fun hs e he => ?_, h.mine_goto (by rw [hpc]; rfl)⟩
  · rw [hafter, flatMap_snoc]
    exact hfile
  · rw [hafter, flatMap_snoc, LogState.writeSecond, hterminal]
    simp [Entry.terminalText]
  · have honly := h.only hs
    rw [hbefore] at honly
    rw [hafter] at he
    rcases List.mem_append.mp he with he | he
    · exact honly e (List.mem_append_left _ he)
    · rw [List.mem_singleton.mp he]
      exact honly ⟨t, line, n, 0⟩ (List.mem_append_right _ (List.mem_singleton_self _))

/-- **Each step** writes at the end of the line of its thread, which is the last. -/
theorem texts_step (hsync : Synced s) (h : Texts s) (hm : Moves s a s') : Texts s' := by
  cases hm with
  | @begins t m line hpc hline =>
    refine h.stay (lines_goto hsync (by rw [hpc]; rfl)) rfl rfl .inl fun u => ?_
    have hmine := h.mine u
    by_cases hu : u = t
    · subst hu
      rw [hpc, LogPc.line, List.append_nil] at hmine
      simp only [goto, Function.update_self, hmine, LogPc.line]
    · simp only [goto, Function.update_of_ne hu]
      exact hmine
  | off => exact h
  | @first t line hpc honce =>
    exact h.stay (lines_goto hsync (by rw [hpc]; rfl)) rfl rfl .inl
      (h.mine_goto (by rw [hpc]; rfl))
  | @later t line hpc honce =>
    exact h.stay (lines_goto hsync (by rw [hpc]; rfl)) rfl rfl .inl
      (h.mine_goto (by rw [hpc]; rfl))
  | @opened t ok line hpc =>
    refine h.stay (lines_goto hsync (by rw [hpc]; rfl)) rfl rfl (fun _ => .inr ?_)
      (h.mine_goto (by rw [hpc]; rfl))
    have hrun := (hsync.opener t).mp (by rw [hpc]; rfl)
    exact lines_fresh hsync (by rw [hrun]; exact fun hd => by cases hd)
  | @lock t line hpc hfree =>
    refine h.stay ?_ rfl rfl .inl (h.mine_goto (by rw [hpc]; rfl))
    rw [lines_held rfl, lines_free hfree, goto_self]
    exact List.append_nil _
  | writeFile hpc => exact h.writeFirst hsync hpc
  | writeStderr hpc => exact h.writeSecond hsync hpc
  | @unlock t n m line hpc =>
    have hheld := (hsync.holder t).mp (by rw [hpc]; rfl)
    have hlines : s.lines = s.entries ++ [⟨t, line, n, m⟩] := by
      rw [lines_held hheld, hpc]
      rfl
    refine h.stay ?_ rfl rfl .inl fun u => ?_
    · rw [hlines, lines_free rfl]
    · have hmine := h.mine u
      by_cases hu : u = t
      · subst hu
        rw [hpc] at hmine
        simp only [goto, Function.update_self, hmine]
        simp [LogPc.line]
      · simp only [goto, Function.update_of_ne hu, List.filter_append]
        rw [hmine]
        simp [Ne.symm hu]

theorem texts_of_reachable (hr : Reachable s) : Synced s ∧ Texts s := by
  have h0 : Synced (init : LogState T) ∧ Texts (init : LogState T) := by
    refine ⟨⟨fun t => ?_, fun t => ?_, fun t h => ?_, fun h => ?_, fun _ => ⟨rfl, rfl, rfl⟩⟩,
      ⟨rfl, rfl, fun h => ?_, fun t => rfl⟩⟩
    · exact ⟨fun h => (by cases h), fun h => by cases h⟩
    · exact ⟨fun h => (by cases h), fun h => by cases h⟩
    · cases h
    · cases h
    · cases h
  have hinv : Invariant step (fun _ _ => True) init fun s : LogState T => Synced s ∧ Texts s :=
    ⟨h0, fun _ h _ hs =>
      ⟨synced_step h.1 (step_moves hs), texts_step h.1 h.2 (step_moves hs)⟩⟩
  exact hr.invariant (I := fun s => Synced s ∧ Texts s) hinv

/-! ## The log -/

/-- What file and terminal show of the lines of all threads. -/
structure Lines (s : LogState T) : Prop where
  /-- One line behind the other, in the order of the mutex, each from its first character. -/
  file : s.file = s.lines.flatMap Entry.fileText
  terminal : s.terminal = s.lines.flatMap Entry.terminalText
  /-- Each thread has written its lines in the order it logged them, up to the one in hand. -/
  mine : ∀ t, s.begun t =
    ((s.entries.filter fun e => decide (e.thread = t)).map Entry.line) ++ (s.pc t).line
  /-- At most one thread is between `pthread_mutex_lock` and `pthread_mutex_unlock`. -/
  alone : ∀ t u, (s.pc t).holds = true → (s.pc u).holds = true → t = u
  /-- The file is opened once, before the first line. -/
  opens : s.opens ≤ 1 ∧ (s.lines ≠ [] → s.opens = 1 ∧ s.fd ≠ .unset)
  /-- Where `open` failed the line goes to the terminal once. -/
  only : s.fd = .stderr → s.file = []
  /-- Where each `write` took its line whole, and none is in hand, both hold the lines. -/
  whole : s.fd = .file → s.mutex = none →
    (∀ e ∈ s.entries, e.line.length ≤ e.onFile ∧ e.line.length ≤ e.onTerminal) →
      s.file = s.entries.flatMap Entry.line ∧ s.terminal = s.file

/-- **The lines stay whole and in order**, over every interleaving of any number of threads. -/
theorem lines_whole (hr : Reachable s) : Lines s := by
  obtain ⟨hsync, h⟩ := texts_of_reachable hr
  refine ⟨h.file, h.terminal, h.mine, fun t u ht hu => ?_, ⟨?_, fun hne => hsync.opened ?_⟩,
    fun hfd => ?_, fun hfd hfree hwhole => ?_⟩
  · exact Option.some.inj (((hsync.holder t).mp ht).symm.trans ((hsync.holder u).mp hu))
  · by_cases hdone : s.once = .done
    · exact Nat.le_of_eq (hsync.opened hdone).1
    · rw [(hsync.fresh hdone).1]
      exact Nat.zero_le 1
  · by_contra hdone
    exact hne (lines_fresh hsync hdone)
  · rw [h.file, List.flatMap_eq_nil_iff]
    intro e he
    rw [Entry.fileText, h.only hfd e he, List.take_zero]
  · have hfile : s.file = s.entries.flatMap Entry.line := by
      rw [h.file, lines_free hfree]
      exact List.flatMap_congr fun e he => List.take_of_length_le (hwhole e he).1
    refine ⟨hfile, ?_⟩
    rw [hfile, h.terminal, lines_free hfree]
    exact List.flatMap_congr fun e he => List.take_of_length_le (hwhole e he).2

/-- Two threads log a line each while the file is opened; then the first writes its line. -/
def sampleRun : List (LogAction Bool) :=
  [.log true ⟨true, fun _ => 'x', 3, [], []⟩, .log false ⟨true, fun _ => 'y', 2, [], []⟩,
    .ensure true, .opened true true, .ensure false, .lock true, .writeFile true 4,
    .writeStderr true 4, .unlock true, .lock false, .writeFile false 3]

theorem sample_reachable : ∃ s : LogState Bool, Reachable s ∧ s.file = "xxx\nyy\n".toList ∧
    s.terminal = "xxx\n".toList ∧ s.pc false = .writeStderr "yy\n".toList 3 := by
  have hrun : ∃ s : LogState Bool, exec step sampleRun init = some s ∧
      s.file = "xxx\nyy\n".toList ∧ s.terminal = "xxx\n".toList ∧
        s.pc false = .writeStderr "yy\n".toList 3 :=
    ⟨_, rfl, rfl, rfl, rfl⟩
  obtain ⟨s, hrun, hrest⟩ := hrun
  exact ⟨s, (Runs.of_exec (fun _ _ _ => trivial) hrun).reach .init, hrest⟩

theorem lines_whole_two : ∃ s : LogState Bool, s.file = "xxx\nyy\n".toList ∧ Lines s := by
  obtain ⟨s, hr, hfile, -⟩ := sample_reachable
  exact ⟨s, hfile, lines_whole hr⟩

end LogState

/-! ## No thread waits for ever -/

/-- The steps a thread has left in its log statement. -/
def LogPc.work : LogPc → Nat
  | .out => 0
  | .ensure _ => 6
  | .opening _ => 5
  | .lock _ => 4
  | .writeFile _ => 3
  | .writeStderr _ _ => 2
  | .unlock _ _ _ => 1

namespace LogState

variable {T : Type} [DecidableEq T] {s s' : LogState T} {a : LogAction T}

/-- No log statement starts. -/
def NoLog (_ : LogState T) (a : LogAction T) : Prop := ∀ t m, a ≠ .log t m

/-- A step is one of a thread in a log statement, which has less to do afterwards. -/
theorem work_move (hno : NoLog s a) (hm : Moves s a s') : ∃ t, (s'.pc t).work < (s.pc t).work ∧
    ∀ u, u ≠ t → s'.pc u = s.pc u := by
  have hgoto : ∀ (t : T) (pc : LogPc), s'.pc = (s.goto t pc).pc → pc.work < (s.pc t).work →
      ∃ t, (s'.pc t).work < (s.pc t).work ∧ ∀ u, u ≠ t → s'.pc u = s.pc u := by
    intro t pc hpc hlt
    refine ⟨t, ?_, fun u hu => ?_⟩
    · rw [hpc, goto_self]
      exact hlt
    · rw [hpc, goto_of_ne hu]
  cases hm with
  | @begins t m => exact absurd rfl (hno t m)
  | @off t m => exact absurd rfl (hno t m)
  | @first t line hpc => exact hgoto t _ rfl (by rw [hpc]; simp [LogPc.work])
  | @later t line hpc => exact hgoto t _ rfl (by rw [hpc]; simp [LogPc.work])
  | @opened t ok line hpc => exact hgoto t _ rfl (by rw [hpc]; simp [LogPc.work])
  | @lock t line hpc => exact hgoto t _ rfl (by rw [hpc]; simp [LogPc.work])
  | @writeFile t n line hpc =>
    refine hgoto t _ rfl ?_
    rw [hpc]
    split <;> simp [LogPc.work]
  | @writeStderr t n m line hpc => exact hgoto t _ rfl (by rw [hpc]; simp [LogPc.work])
  | @unlock t n m line hpc => exact hgoto t _ rfl (by rw [hpc]; simp [LogPc.work])

theorem opened_enabled {t : T} (h : (s.pc t).opens = true) :
    ∃ a s', NoLog s a ∧ s.step a = some s' := by
  cases hpc : s.pc t with
  | opening line => exact ⟨.opened t true, _, fun _ _ => nofun, by simp only [step, hpc]; rfl⟩
  | _ =>
    rw [hpc] at h
    cases h

/-- The holder of the mutex can go on. -/
theorem holder_enabled {t : T} (h : (s.pc t).holds = true) :
    ∃ a s', NoLog s a ∧ s.step a = some s' := by
  cases hpc : s.pc t with
  | writeFile line => exact ⟨.writeFile t 0, _, fun _ _ => nofun, by simp only [step, hpc]; rfl⟩
  | writeStderr line n =>
    exact ⟨.writeStderr t 0, _, fun _ _ => nofun, by simp only [step, hpc]; rfl⟩
  | unlock line n m => exact ⟨.unlock t, _, fun _ _ => nofun, by simp only [step, hpc]; rfl⟩
  | _ =>
    rw [hpc] at h
    cases h

/-- As long as a thread is in a log statement, some thread can go on. -/
theorem step_enabled (h : Synced s) {t : T} (hin : s.pc t ≠ .out) :
    ∃ a s', NoLog s a ∧ s.step a = some s' := by
  cases hmutex : s.mutex with
  | some u => exact holder_enabled ((h.holder u).mpr hmutex)
  | none =>
    cases hpc : s.pc t with
    | out => exact absurd hpc hin
    | ensure line =>
      cases honce : s.once with
      | init => exact ⟨.ensure t, _, fun _ _ => nofun, by simp only [step, hpc, honce]; rfl⟩
      | running u => exact opened_enabled ((h.opener u).mpr honce)
      | done => exact ⟨.ensure t, _, fun _ _ => nofun, by simp only [step, hpc, honce]; rfl⟩
    | lock line => exact ⟨.lock t, _, fun _ _ => nofun, by simp only [step, hpc, hmutex]; rfl⟩
    | opening line => exact opened_enabled (by rw [hpc]; rfl)
    | writeFile line => exact holder_enabled (by rw [hpc]; rfl)
    | writeStderr line n => exact holder_enabled (by rw [hpc]; rfl)
    | unlock line n m => exact holder_enabled (by rw [hpc]; rfl)

variable [Fintype T]

/-- The steps all threads have left. -/
def work (s : LogState T) : Nat := ∑ t, (s.pc t).work

theorem work_falls (hno : NoLog s a) (hm : Moves s a s') : s'.work < s.work := by
  obtain ⟨t, hlt, hother⟩ := work_move hno hm
  refine Finset.sum_lt_sum (fun u _ => ?_) ⟨t, Finset.mem_univ t, hlt⟩
  by_cases hu : u = t
  · rw [hu]
    exact Nat.le_of_lt hlt
  · rw [hother u hu]

theorem log_progress : Progress (step (T := T)) NoLog Synced (fun _ _ => false) work
    fun s => ∀ t, s.pc t = .out where
  keeps _ h _ hs := synced_step h (step_moves hs)
  stays _ _ _ _ hidle := by cases hidle
  falls _ _ hno hs _ := work_falls hno (step_moves hs)
  enabled h hnot := by
    obtain ⟨t, hin⟩ := not_forall.mp hnot
    obtain ⟨a, s', hno, hs⟩ := step_enabled h hin
    exact ⟨a, s', hno, rfl, hs⟩

/-- How the log statements that have begun end. -/
structure Completes (s : LogState T) : Prop where
  /-- Each run without a new one is short. -/
  bounded : ∀ as s', Runs step NoLog as s s' → as.length ≤ s.work
  /-- Where it stops every line begun is written, and the mutex is free. -/
  written : ∀ as s', Runs step NoLog as s s' → (∀ a t, NoLog s' a → s'.step a ≠ some t) →
    s'.mutex = none ∧ ∀ t, s'.begun t =
      (s'.entries.filter fun e => decide (e.thread = t)).map Entry.line

/-- **Logging never blocks for good**, over every interleaving and whatever `open` and `write`
return. -/
theorem logging_completes (hr : Reachable s) : Completes s := by
  have hsync := (texts_of_reachable hr).1
  refine ⟨fun as s' hrun => ?_, fun as s' hrun hstuck => ?_⟩
  · have hle := log_progress.bounded hrun hsync
    rw [hrun.trace_busy] at hle
    exact Nat.le_of_add_right_le hle
  · have hr' := (hrun.mono fun _ _ _ => trivial).reach hr
    obtain ⟨hsync', htexts⟩ := texts_of_reachable hr'
    have hout := log_progress.done_of_stuck hsync' fun a t hno _ => hstuck a t hno
    refine ⟨?_, fun t => ?_⟩
    · cases hmutex : s'.mutex with
      | none => rfl
      | some u =>
        have hholds := (hsync'.holder u).mpr hmutex
        rw [hout u] at hholds
        cases hholds
    · have hmine := htexts.mine t
      rw [hout t] at hmine
      exact hmine.trans (List.append_nil _)

theorem logging_completes_two : ∃ s : LogState Bool, s.pc false = .writeStderr "yy\n".toList 3 ∧
    Completes s := by
  obtain ⟨s, hr, -, -, hpc⟩ := sample_reachable
  exact ⟨s, hpc, logging_completes hr⟩

end LogState

end CameraStreamer.Log
