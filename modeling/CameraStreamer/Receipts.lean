import CameraStreamer.Client.Delivery
import CameraStreamer.EndToEnd
import CameraStreamer.Server.Archive

/-!
# What the server has of what the client counts

`EndToEnd.lean` says that what the server records was pushed. Here is the other half, and what
becomes of the files.

* `Arrives`: on the connections of the client that are served at least the bytes that `SSL_write`
  accepted arrive, and at most those it was given.
* **`sent_frames_received`**: then `frames_received` of the server is `frames_sent_` of the client,
  but for the frame in hand and one frame for each connection that broke; and where no write
  failed the server has each frame `pop` returned. A signal to the server while it serves a
  connection would leave what has arrived unread.
* **`saved_frames_intact`**: whatever the network does, no two frames of a client share a file, so
  each frame counted in `frames_saved` is in its file to the end, as it was captured. The output
  directory is short enough for `snprintf` to write each path whole.
-/

namespace CameraStreamer

open Lib.Machine Lib.Decimal Lib.Endian Lib.Framing Lib.Writes Protocol TlsClient

/-! ## Frames on a stream -/

namespace Server

theorem isUnit_of_mem {fs : List Frame} (hfs : ∀ f ∈ fs, Sendable f) :
    ∀ u ∈ fs.map encode, IsUnit u := by
  intro u hu
  obtain ⟨f, hf, rfl⟩ := List.mem_map.mp hu
  exact isUnit_encode (hfs f hf)

theorem map_decodeUnit_encode (fs : List Frame) : (fs.map encode).map decodeUnit = fs := by
  rw [List.map_map]
  exact List.map_id'' decodeUnit_encode fs

/-- Encoded frames with nothing behind them split in one way. -/
theorem longest_encodeAll {fs : List Frame} (hfs : ∀ f ∈ fs, Sendable f) :
    Longest IsUnit (fs.map encode) (encodeAll fs) := by
  have h : Longest IsUnit (fs.map encode) (encodeAll fs ++ []) :=
    longest_flatten isUnit_prefixFree (isUnit_of_mem hfs)
      fun u hu hp => isUnit_prefixFree.ne_nil u hu (List.prefix_nil.mp hp)
  rwa [List.append_nil] at h

/-- A stream between two runs of frames is read as a run of frames between the two. -/
theorem frames_between {us : List (List UInt8)} {stream : List UInt8} {least most : List Frame}
    (hus : Longest IsUnit us stream) (hmost : stream <+: encodeAll most)
    (hleast : encodeAll least <+: stream) (hsend : ∀ f ∈ most, Sendable f)
    (hamong : least <+: most) : least <+: us.map decodeUnit ∧ us.map decodeUnit <+: most := by
  have hleast' : least.map encode <+: us :=
    hus.longest _ ⟨isUnit_of_mem fun f hf => hsend f (hamong.subset hf), hleast⟩
  have hmost' : us <+: most.map encode :=
    (longest_encodeAll hsend).longest us ⟨hus.splits.1, hus.splits.2.trans hmost⟩
  have h1 := hleast'.map decodeUnit
  have h2 := hmost'.map decodeUnit
  rw [map_decodeUnit_encode] at h1 h2
  exact ⟨h1, h2⟩

end Server

/-! ## What arrives -/

/-- The streams of the connections served, in the order the client made them. -/
inductive Arrives : List (List UInt8) → List Wire → Prop
  | nil : Arrives [] []
  /-- A connection the client gives up before it is its own. -/
  | givenUp {ss : List (List UInt8)} {ws : List Wire} (h : Arrives ss ws) : Arrives ([] :: ss) ws
  /-- What `SSL_write` accepted arrives, and perhaps some of what it then failed to write. -/
  | carried {stream : List UInt8} {ss : List (List UInt8)} {w : Wire} {ws : List Wire}
      (hleast : w.written <+: stream) (hmost : stream <+: w.bytes) (h : Arrives ss ws) :
      Arrives (stream :: ss) (w :: ws)

namespace Streamer

variable {c : Config} {s : Streamer}

open Server in
/-- Connection after connection, the frames read lie between those written whole and all. -/
theorem frames_arrived {ss : List (List UInt8)} {ws : List Wire} (h : Arrives ss ws)
    {uss : List (List (List UInt8))} (huss : List.Forall₂ (Longest IsUnit) uss ss)
    {parts : List (List Frame × List Frame)} (hparts : List.Forall₂ Part ws parts)
    (hsend : ∀ f ∈ (parts.map Prod.snd).flatten, Sendable f) :
    (parts.map Prod.fst).flatten.Sublist (uss.flatten.map decodeUnit) ∧
      (uss.flatten.map decodeUnit).Sublist (parts.map Prod.snd).flatten := by
  induction h generalizing uss parts with
  | nil =>
    cases huss
    cases hparts
    exact ⟨List.Sublist.refl _, List.Sublist.refl _⟩
  | givenUp _ ih =>
    cases huss with
    | @cons us _ uss _ hus huss =>
      -- nothing is read from an empty stream
      have hempty := hus.unique
        (longest_nil fun u hu hp => isUnit_prefixFree.ne_nil u hu (List.prefix_nil.mp hp))
      rw [hempty, List.flatten_cons, List.nil_append]
      exact ih huss hparts hsend
  | carried hleast hmost _ ih =>
    cases huss with
    | @cons us _ uss _ hus huss =>
      cases hparts with
      | @cons _ part _ parts hpart hparts =>
        rw [List.map_cons, List.flatten_cons] at hsend
        obtain ⟨hlow, hhigh⟩ := frames_between hus (hmost.trans hpart.most)
          (hpart.least.trans hleast) (fun f hf => hsend f (List.mem_append_left _ hf)) hpart.among
        obtain ⟨hlows, hhighs⟩ := ih huss hparts fun f hf => hsend f (List.mem_append_right _ hf)
        simp only [List.map_cons, List.flatten_cons, List.map_append]
        exact ⟨hlow.sublist.append hlows, hhigh.sublist.append hhighs⟩

/-- The server's count against the client's. -/
structure Receipts (s : Streamer) (srv : Server.ServerState) : Prop where
  /-- Each frame counted as sent is received. -/
  atLeast : s.net.framesSent ≤ srv.framesReceived
  /-- A frame received and not counted is the one in hand, or the last of a broken connection. -/
  atMost : srv.framesReceived ≤
    s.net.framesSent + s.net.pc.inHand + (s.net.wires.filter Wire.failed).length
  among : (srv.received.map Server.Received.frame).Sublist s.qs.returned
  /-- Between two frames, where no write has failed, all are there. -/
  all : s.net.pc.inHand = 0 → (∀ w ∈ s.net.wires, w.failed = false) →
    srv.received.map Server.Received.frame = s.qs.returned

open Server in
theorem receipts_of_run (hc : 0 < c.queueSize) (hr : Reachable c s) {es : List AcceptEvent}
    (hrun : Running es) (hes : Arrives (streams es) s.net.wires) (o : ByteOrder)
    (cfg : Server.Config) (files : Files) :
    Receipts s (acceptLoop o cfg es (.start files)) := by
  obtain ⟨parts, hship⟩ := shipped_of_reachable hc hr
  obtain ⟨uss, new, hcut, harch, -⟩ := archives_of_run o cfg es (.start files)
  have hsend : ∀ f ∈ (parts.map Prod.snd).flatten, Sendable f :=
    hship.returned ▸ sendable_of_returned hc hr
  obtain ⟨hlow, hhigh⟩ := frames_arrived hes (longest_of_cut hcut hrun) hship.wires hsend
  rw [← hship.returned] at hhigh
  have hframes : (acceptLoop o cfg es (.start files)).received.map Received.frame =
      uss.flatten.map decodeUnit := harch.received
  have hcount : (acceptLoop o cfg es (.start files)).framesReceived =
      (uss.flatten.map decodeUnit).length := by
    rw [harch.framesReceived, List.length_map]
    exact Nat.zero_add _
  have hleast := hlow.length_le
  have hmost := hhigh.length_le
  have hwhole := hship.whole
  have hbroken := hship.broken
  refine ⟨by omega, by omega, hframes ▸ hhigh, fun hidle hok => ?_⟩
  have hnone : (s.net.wires.filter Wire.failed).length = 0 := by
    rw [List.length_eq_zero_iff, List.filter_eq_nil_iff]
    exact fun w hw => by rw [hok w hw]; exact Bool.false_ne_true
  rw [hframes]
  exact hhigh.eq_of_length (by omega)

open Server in
/-- **Frames sent are received.** Where the network brings what `SSL_write` accepted, and no signal
comes to the server while it serves a connection, the two sides count the same frames, up to the one
in hand and one for each connection that broke. -/
theorem sent_frames_received (hc : 0 < c.queueSize) (hr : Reachable c s)
    {es : List AcceptEvent} (hrun : Running es) (hes : Arrives (streams es) s.net.wires)
    (o : ByteOrder) (cfg : Server.Config) (files : Files) :
    Receipts s (acceptLoop o cfg es (.start files)) :=
  receipts_of_run hc hr hrun hes o cfg files

open Server in
/-- A server that is sent the bytes of one connection. -/
theorem sent_frames_received_sending : ∃ (s : Streamer) (w : Wire), s.net.framesSent = 1 ∧
    s.net.wires = [w] ∧ Receipts s (acceptLoop .big ⟨[], false⟩
      [.client (.closing w.bytes) (fun _ => true) noFailure] (.start fun _ => none)) := by
  obtain ⟨s, w, hr, -, hsent, hwires⟩ := sending_runs
  refine ⟨s, w, hsent, hwires, sent_frames_received (by decide) hr ?_ ?_ .big ⟨[], false⟩ _⟩
  · intro s hs
    rw [List.mem_singleton.mp hs]
    rfl
  · rw [hwires]
    exact .carried (List.prefix_append _ _) (List.prefix_refl _) .nil

end Streamer

/-! ## The files -/

/-- The longest directory for which no path of a frame is cut. -/
def Server.longestOutputDir : Nat := 479

open Server in
theorem frameFits_of_outputDir {cfg : Server.Config} (h : cfg.outputDir.length ≤ longestOutputDir)
    (f : Frame) : FrameFits cfg f := by
  have hseq : (padDecimal 8 f.seq.toNat).length ≤ 20 :=
    padDecimal_length_le (by decide) (f.seq.toNat_lt_size.trans (by decide))
  have hext : (frameExt f.pixelFormat).length ≤ 4 := by
    have hlen : ∀ e ∈ [ascii "jpg", ascii "yuyv", ascii "bgr", ascii "raw"], e.length ≤ 4 := by
      decide
    exact hlen _ (frameExt_mem f.pixelFormat)
  have hname : (ascii "/frame_").length = 7 ∧ (ascii ".").length = 1 := by decide
  unfold FrameFits Fits fullPath filenameSize
  unfold longestOutputDir at h
  simp only [List.length_append]
  omega

namespace Streamer

variable {c : Config} {s : Streamer}

/-- What the files hold of the frames of a client. -/
structure Intact (s : Streamer) (cfg : Server.Config) (es : List Server.AcceptEvent)
    (srv : Server.ServerState) : Prop where
  captured : (srv.saved.map Server.Saved.frame).Sublist s.captured
  apart : (srv.saved.map Server.Saved.path).Nodup
  /-- A frame counted as saved is in its file. -/
  intact : ∀ r ∈ srv.saved, r.ok = true → srv.files r.path = some r.frame.payload
  counted : srv.framesSaved = (srv.saved.filter Server.Saved.ok).length
  /-- Where no system call fails these are all the frames received. -/
  all : Server.Reliable es → cfg.saveFrames = true →
    srv.saved.map Server.Saved.frame = srv.received.map Server.Received.frame ∧
      srv.framesSaved = srv.framesReceived

open Server in
/-- The frames recorded are among those captured. -/
theorem recorded_of_served (hc : 0 < c.queueSize) (hr : Reachable c s) {es : List AcceptEvent}
    (hes : Served es s.net.wires) (o : ByteOrder) (cfg : Server.Config) (files : Files) :
    ((acceptLoop o cfg es (.start files)).received.map Received.frame).Sublist s.captured := by
  obtain ⟨fss, hret, hwires⟩ := wires_carry_returned hc hr
  have hsend : ∀ f ∈ fss.flatten, Sendable f := hret ▸ sendable_of_returned hc hr
  obtain ⟨gs, hgs, heq⟩ := @acceptLoop_served o cfg es _ hes _ hwires hsend (.start files)
  have heq : (acceptLoop o cfg es (.start files)).received.map Received.frame = gs := heq
  rw [heq]
  exact (hret ▸ hgs).trans (returned_sublist_captured hc hr)

open Server in
theorem intact_of_served (hc : 0 < c.queueSize) (hr : Reachable c s)
    (hfew : s.captured.length < 2 ^ 64) {es : List AcceptEvent} (hes : Served es s.net.wires)
    (o : ByteOrder) {cfg : Server.Config} (hdir : cfg.outputDir.length ≤ longestOutputDir)
    (files : Files) : Intact s cfg es (acceptLoop o cfg es (.start files)) := by
  have hrec := recorded_of_served hc hr hes o cfg files
  obtain ⟨uss, new, -, harch, hok⟩ := archives_of_run o cfg es (.start files)
  have hframes : (acceptLoop o cfg es (.start files)).received.map Received.frame =
      uss.flatten.map decodeUnit := harch.received
  have hnames := harch.names
  rw [← hframes] at hnames
  have hsaved : (acceptLoop o cfg es (.start files)).saved = new := harch.saves
  have hsub : (new.map Saved.frame).Sublist s.captured := by
    rw [hnames]
    split
    · exact hrec
    · exact List.nil_sublist _
  -- the numbers grow, so no two paths are the same
  have hapart : (new.map Saved.path).Nodup := by
    have hseq := ((captured_numbered hr).increasing hfew).sublist hsub
    rw [List.Nodup, List.pairwise_map]
    refine (List.pairwise_map.mp hseq).imp_of_mem fun {r r'} hr hr' hlt => ?_
    rw [harch.paths r hr, harch.paths r' hr']
    exact savePath_ne (fun h => UInt64.ne_of_lt hlt h.1) (.inl (frameFits_of_outputDir hdir _))
  have hkeys : (new.map Saved.write).map Prod.fst = new.map Saved.path := by
    rw [List.map_map]
    rfl
  refine ⟨hsaved ▸ hsub, hsaved ▸ hapart, fun r hr hok => ?_, ?_, fun hrel hcfg => ⟨?_, ?_⟩⟩
  · rw [hsaved] at hr
    rw [harch.files, ← harch.content r hr hok]
    exact writes_of_nodup (hkeys ▸ hapart) (List.mem_map_of_mem hr)
  · rw [hsaved, harch.framesSaved]
    exact Nat.zero_add _
  · rw [hsaved, hnames, if_pos hcfg]
  · have hlen := congrArg List.length hnames
    rw [if_pos hcfg, List.length_map, hframes, List.length_map] at hlen
    rw [harch.framesSaved, harch.framesReceived, List.filter_eq_self.mpr (hok hrel), hlen]
    rfl

open Server in
/-- **Saved frames stay intact.** For every run of one client of fewer than `2^64` frames, every way
its connections are cut off, and every output directory whose paths fit the buffer, each frame the
server counts as saved is in a file of its own, byte for byte as captured. -/
theorem saved_frames_intact (hc : 0 < c.queueSize) (hr : Reachable c s)
    (hfew : s.captured.length < 2 ^ 64) {es : List AcceptEvent} (hes : Served es s.net.wires)
    (o : ByteOrder) {cfg : Server.Config} (hdir : cfg.outputDir.length ≤ longestOutputDir)
    (files : Files) : Intact s cfg es (acceptLoop o cfg es (.start files)) :=
  intact_of_served hc hr hfew hes o hdir files

open Server in
theorem saved_frames_intact_sending : ∃ (s : Streamer) (w : Wire), s.net.framesSent = 1 ∧
    s.net.wires = [w] ∧
    let es := [.client (.closing w.bytes) (fun _ => true) noFailure]
    Intact s ⟨ascii "out", true⟩ es
      (acceptLoop .big ⟨ascii "out", true⟩ es (.start fun _ => none)) := by
  obtain ⟨s, w, hr, hcap, hsent, hwires⟩ := sending_runs
  refine ⟨s, w, hsent, hwires, ?_⟩
  refine saved_frames_intact (by decide) hr (by rw [hcap]; decide) ?_ .big (by decide) _
  rw [hwires]
  exact .client (List.prefix_refl _) (.nil [])

end Streamer

end CameraStreamer
