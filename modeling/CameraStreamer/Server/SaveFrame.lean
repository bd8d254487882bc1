import CameraStreamer.Lib.Decimal
import CameraStreamer.Lib.Transfer
import CameraStreamer.Server.Units

/-!
# Saving a frame to a file

Model of `saveFrame` (`server/server.cpp:174-226`): the path built by `snprintf` into a 512-byte
buffer, `open` with `O_TRUNC`, and the loop over `write`. `Files` maps a path to the contents of
the file there. What the kernel does is `SaveEnv`: whether `open` succeeds, and what each `write`
returns; once the script ends a `write` takes everything.

* `saveFrame_ok`: when it returns `true` the file holds exactly the first `len` bytes of the
  buffer, whatever the short writes.
* `saveFrame_files_of_ne`: no other path is touched.
* `framePath_ne`: frames that differ in sequence number or extension have different paths, if
  one of the two paths fits the buffer.
-/

namespace CameraStreamer.Server

open Lib.Transfer Lib.Decimal Lib.Endian

/-- The bytes of a literal. -/
def ascii (s : String) : List UInt8 := s.toList.map fun c => UInt8.ofNat c.toNat

/-- `fourccToString`: the four bytes, up to the first NUL. -/
def fourccToString (fourcc : UInt32) : List UInt8 :=
  [((fourcc >>> 0) &&& 0xFF).toUInt8, ((fourcc >>> 8) &&& 0xFF).toUInt8,
    ((fourcc >>> 16) &&& 0xFF).toUInt8, ((fourcc >>> 24) &&& 0xFF).toUInt8].takeWhile (· ≠ 0)

/-- The extension for a pixel format (`server.cpp:180-187`). -/
def frameExt (pixelFormat : UInt32) : List UInt8 :=
  if fourccToString pixelFormat = ascii "MJPG" then ascii "jpg"
  else if fourccToString pixelFormat = ascii "YUYV" then ascii "yuyv"
  else if fourccToString pixelFormat = ascii "BGR3" then ascii "bgr"
  else ascii "raw"

/-- `"%s/frame_%08lu.%s"`, before it is cut. `unsigned long` has 64 bits. -/
def fullPath (outputDir : List UInt8) (seq : UInt64) (ext : List UInt8) : List UInt8 :=
  outputDir ++ (ascii "/frame_" ++ (padDecimal 8 seq.toNat ++ (ascii "." ++ ext)))

/-- `sizeof(filename)`. -/
def filenameSize : Nat := 512

/-- What `snprintf` leaves in `filename`. -/
def framePath (outputDir : List UInt8) (seq : UInt64) (ext : List UInt8) : List UInt8 :=
  (fullPath outputDir seq ext).take (filenameSize - 1)

/-- The path fits the buffer. -/
def Fits (outputDir : List UInt8) (seq : UInt64) (ext : List UInt8) : Prop :=
  (fullPath outputDir seq ext).length ≤ filenameSize - 1

/-- `errno` after a failed `write`. -/
inductive WriteErrno
  | eintr
  | other
  deriving DecidableEq, Repr

/-- `if (errno == EINTR) continue;`. -/
def writeRetries : WriteErrno → Bool
  | .eintr => true
  | .other => false

/-- What the system calls of one `saveFrame` do. -/
structure SaveEnv where
  openOk : Bool
  script : List (Except WriteErrno Nat)

/-- No system call fails, interruptions apart. -/
def SaveEnv.Reliable (env : SaveEnv) : Prop :=
  env.openOk = true ∧ ∀ e, Except.error e ∈ env.script → writeRetries e = true

/-- The files, by path. -/
abbrev Files := List UInt8 → Option (List UInt8)

/-- The result of `saveFrame`, and the `(offset, length)` of each access to the buffer. -/
structure SaveResult where
  ok : Bool
  files : Files
  calls : List (Nat × Nat)

/-- `saveFrame`. -/
def saveFrame (o : ByteOrder) (outputDir : List UInt8) (env : SaveEnv) (files : Files)
    (hdr : FrameHeader) (data : List UInt8) (len : Nat) : SaveResult :=
  let path := framePath outputDir (ntohll o hdr.seq) (frameExt (ntohl o hdr.pixelFormat))
  if !env.openOk then ⟨false, files, []⟩
  else
    let out := transferAll (sink writeRetries 0) ⟨env.script, data, []⟩ 0 len
    ⟨out.ok, Function.update files path (some out.state.sent), out.calls⟩

/-! ## What it leaves behind -/

section Save

variable (o : ByteOrder) (outputDir : List UInt8) (env : SaveEnv) (files : Files)
  (hdr : FrameHeader) (data : List UInt8) (len : Nat)

/-- **A frame reported saved is in its file**, whole, and nothing else is. -/
theorem saveFrame_ok (h : (saveFrame o outputDir env files hdr data len).ok = true) :
    (saveFrame o outputDir env files hdr data len).files
        (framePath outputDir (ntohll o hdr.seq) (frameExt (ntohl o hdr.pixelFormat))) =
      some (data.take len) := by
  unfold saveFrame at h ⊢
  split at h
  · exact absurd h (by simp)
  · rename_i hopen
    rw [if_neg hopen]
    have hmoved := (transferAll_ok_iff (sink writeRetries 0) ⟨env.script, data, []⟩ 0 len).2.2.mp h
    have hsent := (sink_transferAll writeRetries 0 ⟨env.script, data, []⟩ 0 len).2
    rw [hmoved] at hsent
    simp only [Function.update_self, Option.some.injEq]
    rw [hsent]
    simp

/-- When no system call fails but for EINTR, the frame is reported saved. -/
theorem saveFrame_reliable (h : env.Reliable) :
    (saveFrame o outputDir env files hdr data len).ok = true := by
  unfold saveFrame
  rw [h.1]
  exact sink_transferAll_ok 0 _ 0 len h.2

theorem saveFrame_files_of_ne {path : List UInt8}
    (h : path ≠ framePath outputDir (ntohll o hdr.seq) (frameExt (ntohl o hdr.pixelFormat))) :
    (saveFrame o outputDir env files hdr data len).files path = files path := by
  unfold saveFrame
  split
  · rfl
  · exact Function.update_of_ne h _ _

/-- Every access to the buffer stays within its first `len` bytes. -/
theorem saveFrame_calls :
    ∀ c ∈ (saveFrame o outputDir env files hdr data len).calls, c.1 + c.2 = len := by
  intro c hc
  unfold saveFrame at hc
  split at hc
  · exact absurd hc (by simp)
  · have := transferAll_calls (sink writeRetries 0) ⟨env.script, data, []⟩ 0 len c hc
    omega

end Save

/-! ## Paths -/

/-- The extensions. -/
theorem frameExt_mem (pixelFormat : UInt32) :
    frameExt pixelFormat ∈ [ascii "jpg", ascii "yuyv", ascii "bgr", ascii "raw"] := by
  unfold frameExt
  split_ifs <;> simp

/-- No extension is a proper prefix of another. -/
theorem ext_prefix_eq : ∀ e ∈ [ascii "jpg", ascii "yuyv", ascii "bgr", ascii "raw"],
    ∀ f ∈ [ascii "jpg", ascii "yuyv", ascii "bgr", ascii "raw"], e <+: f → e = f := by
  decide

/-- Two words without the mark in front of it: the words and what follows are the same. -/
theorem append_mark_prefix {P : UInt8 → Prop} {mark : UInt8} (hmark : ¬ P mark)
    {as bs cs ds : List UInt8} (ha : ∀ x ∈ as, P x) (hb : ∀ x ∈ bs, P x)
    (h : as ++ mark :: cs <+: bs ++ mark :: ds) : as = bs ∧ cs <+: ds := by
  induction as generalizing bs with
  | nil =>
    cases bs with
    | nil => exact ⟨rfl, (List.prefix_cons_inj mark).mp h⟩
    | cons b bs =>
      have hbm : mark = b := (List.cons_prefix_cons.mp h).1
      exact absurd (hb b List.mem_cons_self) (hbm ▸ hmark)
  | cons a as ih =>
    cases bs with
    | nil =>
      have ham : a = mark := (List.cons_prefix_cons.mp h).1
      exact absurd (ha a List.mem_cons_self) (ham ▸ hmark)
    | cons b bs =>
      obtain ⟨rfl, hrest⟩ := List.cons_prefix_cons.mp h
      obtain ⟨rfl, hcd⟩ := ih (fun x hx => ha x (List.mem_cons_of_mem a hx))
        (fun x hx => hb x (List.mem_cons_of_mem a hx)) hrest
      exact ⟨rfl, hcd⟩

/-- A full path in front of another one of the same directory is that one. -/
theorem fullPath_prefix {dir : List UInt8} {s t : UInt64} {p q : UInt32}
    (h : fullPath dir s (frameExt p) <+: fullPath dir t (frameExt q)) :
    s = t ∧ frameExt p = frameExt q := by
  have hnum := (List.prefix_append_right_inj _).mp ((List.prefix_append_right_inj dir).mp h)
  have hdot : ¬ IsDigit 0x2E := by decide
  obtain ⟨hseq, hext⟩ := append_mark_prefix hdot (fun _ => isDigit_of_mem)
    (fun _ => isDigit_of_mem) hnum
  refine ⟨UInt64.toNat_inj.mp (padDecimal_inj hseq), ?_⟩
  exact ext_prefix_eq _ (frameExt_mem p) _ (frameExt_mem q) hext

/-- **Paths are injective** in the sequence number and the extension, as soon as one of the two
full paths fits the buffer. -/
theorem framePath_ne {dir : List UInt8} {s t : UInt64} {p q : UInt32}
    (hne : s ≠ t ∨ frameExt p ≠ frameExt q)
    (hfit : Fits dir s (frameExt p) ∨ Fits dir t (frameExt q)) :
    framePath dir s (frameExt p) ≠ framePath dir t (frameExt q) := by
  intro heq
  unfold framePath at heq
  have hboth : s = t ∧ frameExt p = frameExt q := by
    rcases hfit with hfit | hfit
    · rw [List.take_of_length_le hfit] at heq
      exact fullPath_prefix (heq ▸ List.take_prefix _ _)
    · rw [List.take_of_length_le hfit] at heq
      obtain ⟨h1, h2⟩ := fullPath_prefix (heq ▸ List.take_prefix _ _)
      exact ⟨h1.symm, h2.symm⟩
  rcases hne with h | h
  · exact h hboth.1
  · exact h hboth.2

end CameraStreamer.Server
