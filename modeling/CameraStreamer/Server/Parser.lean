import CameraStreamer.Server.HandleClient

/-!
# The server's parser against the reference

`handleClient` over a whole connection, for every byte stream and every way `SSL_read` cuts it up.

* `loop_takes`: the loop takes units off the front of the stream, one a turn, until a stream with
  none in front or until `g_running` reads false.
* **`handleClient_reference`**: while `g_running` stays true these are the longest splitting of
  the stream into units; the statistics, the files and the buffer are what the reference says,
  and the chunking leaves no trace.
* **`header_len_honoured_iff`**: the declared header length is honoured exactly on the streams
  whose units all declare 36, since nothing checks it (`header_len_counterexample`).
-/

namespace CameraStreamer.Server

open Lib.Transfer Lib.Endian Lib.Framing

/-! ## Taking units -/

/-- What units that start at `start` do to the server, one after the other, from the `i`-th turn
on. -/
def TookAll (cfg : Config) (envs : Nat → SaveEnv) :
    Nat → Nat → List (List UInt8) → ServerState → ServerState → Prop
  | _, _, [], srv, srv' => srv' = srv
  | i, start, u :: us, srv, srv' =>
    ∃ t, Took cfg (envs i) start u srv t ∧
      TookAll cfg envs (i + 1) (start + u.length) us t srv'

/-- The records of units that start at `start`. -/
def receivedAll : Nat → List (List UInt8) → List Received
  | _, [] => []
  | start, u :: us => receivedOf start u :: receivedAll (start + u.length) us

theorem receivedAll_frames (start : Nat) (us : List (List UInt8)) :
    (receivedAll start us).map Received.frame = us.map decodeUnit := by
  induction us generalizing start with
  | nil => rfl
  | cons u us ih => simp only [receivedAll, List.map_cons, ih, receivedOf]

section TookAll

variable {cfg : Config} {envs : Nat → SaveEnv} {i start : Nat} {us : List (List UInt8)}
  {srv srv' : ServerState}

theorem TookAll.framesReceived (h : TookAll cfg envs i start us srv srv') :
    srv'.framesReceived = srv.framesReceived + us.length := by
  induction us generalizing i start srv with
  | nil =>
    have heq : srv' = srv := h
    rw [heq]
    rfl
  | cons u us ih =>
    obtain ⟨t, ht, hrest⟩ := h
    rw [ih hrest, ht.framesReceived, List.length_cons]
    omega

theorem TookAll.bytesReceived (h : TookAll cfg envs i start us srv srv') :
    srv'.bytesReceived = srv.bytesReceived + us.flatten.length := by
  induction us generalizing i start srv with
  | nil =>
    have heq : srv' = srv := h
    rw [heq]
    rfl
  | cons u us ih =>
    obtain ⟨t, ht, hrest⟩ := h
    rw [ih hrest, ht.bytesReceived, List.flatten_cons, List.length_append]
    omega

theorem TookAll.received (h : TookAll cfg envs i start us srv srv') :
    srv'.received = srv.received ++ receivedAll start us := by
  induction us generalizing i start srv with
  | nil =>
    have heq : srv' = srv := h
    rw [heq, receivedAll, List.append_nil]
  | cons u us ih =>
    obtain ⟨t, ht, hrest⟩ := h
    rw [ih hrest, ht.received, receivedAll, List.append_assoc]
    rfl

/-- A run of saves: which frames, each reported one with its payload in its file. -/
structure SavedRun (fs : List Frame) (srv srv' : ServerState) (new : List Saved) : Prop where
  logged : srv'.saved = srv.saved ++ new
  frames : new.map Saved.frame = fs
  content : ∀ r ∈ new, r.ok = true → r.content = some r.frame.payload

theorem TookAll.saved (h : TookAll cfg envs i start us srv srv') :
    ∃ new, SavedRun (if cfg.saveFrames then us.map decodeUnit else []) srv srv' new := by
  induction us generalizing i start srv with
  | nil =>
    have heq : srv' = srv := h
    exact ⟨[], by rw [heq, List.append_nil], by simp, fun _ hr => absurd hr (by simp)⟩
  | cons u us ih =>
    obtain ⟨t, ht, hrest⟩ := h
    obtain ⟨new, hnew⟩ := ih hrest
    have hsaved := ht.saved
    by_cases hcfg : cfg.saveFrames = true
    · rw [if_pos hcfg] at hsaved hnew ⊢
      obtain ⟨r, hr⟩ := hsaved
      refine ⟨r :: new, ?_, ?_, fun r' hr' => ?_⟩
      · rw [hnew.logged, hr.logged, List.append_assoc, List.singleton_append]
      · rw [List.map_cons, List.map_cons, hr.frame, hnew.frames]
      · rcases List.mem_cons.mp hr' with rfl | hr'
        · rw [hr.frame]
          exact hr.content
        · exact hnew.content r' hr'
    · rw [if_neg hcfg] at hsaved hnew ⊢
      exact ⟨new, by rw [hnew.logged, hsaved.2.2], hnew.frames, hnew.content⟩

end TookAll

/-! ## The loop -/

/-- A stream at which a turn leaves the loop has no unit in front. -/
theorem Stops.no_unit {s : List UInt8} {why : Exit} (h : Stops s why) :
    ∀ u, IsUnit u → ¬ u <+: s := by
  intro u hu hp
  have hlen := hp.length_le
  have hsize := hu.size_le
  have htake := hu.take_of_prefix hp
  cases why with
  | stopped => exact h
  | headerRead =>
    have : s.length < frameHeaderSize := h
    omega
  | payloadRead =>
    have hshort : s.length < frameHeaderSize + unitPayloadLen (s.take frameHeaderSize) := h.2
    rw [← htake, ← hu.length] at hshort
    omega
  | badMagic => exact h.2 (htake ▸ hu.header)
  | badVersion => exact h.2 (htake ▸ hu.header)
  | tooLarge => exact h.2 (htake ▸ hu.header)

section Loop

variable (o : ByteOrder) (cfg : Config) (running : Nat → Bool) (envs : Nat → SaveEnv)

/-- The units the loop has taken when it ends, and why it ends there. -/
structure Taken (envs : Nat → SaveEnv) (c : Client) (r : Exit × Client)
    (us : List (List UInt8)) (rest : List UInt8) : Prop where
  units : ∀ u ∈ us, IsUnit u
  stream : c.conn.stream = us.flatten ++ rest
  took : TookAll cfg envs c.clientFrames c.conn.pos us c.srv r.2.srv
  ran : ∀ j, j < us.length → running (c.clientFrames + j) = true
  ends : Stops rest r.1 ∨ r.1 = .stopped ∧ running (c.clientFrames + us.length) = false

/-- **The loop takes units off the front of the stream.** -/
theorem loop_takes (c : Client) :
    ∃ us rest, Taken cfg running envs c (c.loop o cfg running envs) us rest := by
  apply loop_rule (R := fun c r => ∃ us rest, Taken cfg running envs c r us rest)
  · intro c hrun
    exact ⟨[], c.conn.stream, fun _ hu => absurd hu (by simp), rfl, rfl,
      fun j hj => absurd hj (by simp), Or.inr ⟨rfl, hrun⟩⟩
  · intro c why c' _ hturn
    rcases turn_cases o cfg (envs c.clientFrames) c with
      ⟨why', d, heq, hstops, hsrv⟩ | ⟨u, d, heq, -⟩
    · rw [heq, Prod.mk.injEq, Option.some.injEq] at hturn
      obtain ⟨rfl, rfl⟩ := hturn
      exact ⟨[], c.conn.stream, fun _ hu => absurd hu (by simp), rfl, hsrv,
        fun j hj => absurd hj (by simp), Or.inl hstops⟩
    · rw [heq] at hturn
      exact absurd (congrArg Prod.fst hturn) (by simp)
  · intro c c' r hrun hturn ⟨us, rest, ih⟩
    rcases turn_cases o cfg (envs c.clientFrames) c with
      ⟨why', d, heq, -⟩ | ⟨u, d, heq, hu, hs, hpos, hframes, htook⟩
    · rw [heq] at hturn
      exact absurd (congrArg Prod.fst hturn) (by simp)
    · rw [heq, Prod.mk.injEq] at hturn
      obtain ⟨-, rfl⟩ := hturn
      refine ⟨u :: us, rest, fun v hv => ?_, ?_, ⟨d.srv, htook, hframes ▸ hpos ▸ ih.took⟩,
        fun j hj => ?_, ?_⟩
      · rcases List.mem_cons.mp hv with rfl | hv
        · exact hu
        · exact ih.units v hv
      · rw [hs, ih.stream, List.flatten_cons, List.append_assoc]
      · cases j with
        | zero => exact hrun
        | succ j =>
          have := ih.ran j (Nat.lt_of_succ_lt_succ hj)
          rwa [hframes, Nat.add_right_comm] at this
      · rw [List.length_cons, Nat.add_comm us.length, ← Nat.add_assoc, ← hframes]
        exact ih.ends

theorem loop_bounded {c : Client} : c.Bounded → (c.loop o cfg running envs).2.Bounded := by
  apply loop_rule (R := fun c r => c.Bounded → r.2.Bounded)
  · intro c _ hb
    exact hb
  · intro c why c' _ hturn hb
    have := turn_bounded o cfg (envs c.clientFrames) c hb
    rwa [hturn] at this
  · intro c c' r _ hturn ih hb
    have := turn_bounded o cfg (envs c.clientFrames) c hb
    rw [hturn] at this
    exact ih this

end Loop

/-! ## Chunking leaves no trace -/

/-- Two clients that differ only in how `SSL_read` will cut the rest of the stream up. -/
structure Client.Same (c d : Client) : Prop where
  stream : d.conn.stream = c.conn.stream
  pos : d.conn.pos = c.conn.pos
  frameBuf : d.frameBuf = c.frameBuf
  clientFrames : d.clientFrames = c.clientFrames
  srv : d.srv = c.srv

section Same

variable (o : ByteOrder) (cfg : Config) {c d : Client}

theorem readPayload_same (h : c.Same d) (n : Nat) :
    (d.readPayload n).1 = (c.readPayload n).1 ∧ (c.readPayload n).2.Same (d.readPayload n).2 := by
  obtain ⟨cc, _, hc, -, hceq⟩ := readPayload_eq c n
  obtain ⟨dc, _, hd, -, hdeq⟩ := readPayload_eq d n
  rw [hceq, hdeq]
  refine ⟨by simp only [h.stream], ?_, ?_, ?_, h.clientFrames, h.srv⟩
  · simp only [hc.stream, hd.stream, h.stream]
  · simp only [hc.pos, hd.pos, h.pos, h.stream]
  · simp only [h.frameBuf, h.stream]

theorem recordFrame_same (h : c.Same d) (env : SaveEnv) (hdr : FrameHeader)
    (n start payloadStart : Nat) :
    (c.recordFrame o cfg env hdr n start payloadStart).Same
      (d.recordFrame o cfg env hdr n start payloadStart) := by
  unfold Client.recordFrame Client.saveStep
  split
  · exact ⟨h.stream, h.pos, h.frameBuf, by simp only [h.clientFrames],
      by simp only [h.frameBuf, h.srv]⟩
  · exact ⟨h.stream, h.pos, h.frameBuf, by simp only [h.clientFrames],
      by simp only [h.frameBuf, h.srv]⟩

theorem turn_same (h : c.Same d) (env : SaveEnv) :
    (d.turn o cfg env).1 = (c.turn o cfg env).1 ∧
      (c.turn o cfg env).2.Same (d.turn o cfg env).2 := by
  obtain ⟨cc, hc, hceq⟩ := readHeader_eq o c
  obtain ⟨dc, hd, hdeq⟩ := readHeader_eq o d
  have hpos : dc.pos = cc.pos := by rw [hc.pos, hd.pos, h.pos, h.stream]
  have hsame : Client.Same { c with conn := cc } { d with conn := dc } :=
    ⟨by simp only [hc.stream, hd.stream, h.stream], hpos, h.frameBuf, h.clientFrames, h.srv⟩
  unfold Client.turn
  rw [hceq, hdeq, h.stream]
  by_cases hlen : frameHeaderSize ≤ c.conn.stream.length
  · simp only [if_pos hlen]
    split_ifs
    · exact ⟨rfl, hsame⟩
    · exact ⟨rfl, hsame⟩
    · exact ⟨rfl, hsame⟩
    · have hp := readPayload_same hsame (ntohl o (FrameHeader.ofBytes o
        (c.conn.stream.take frameHeaderSize)).payloadLen).toNat
      revert hp
      generalize Client.readPayload { c with conn := cc } _ = rc
      generalize Client.readPayload { d with conn := dc } _ = rd
      rintro ⟨hfst, hsnd⟩
      obtain ⟨okc, c'⟩ := rc
      obtain ⟨okd, d'⟩ := rd
      have hok : okd = okc := hfst
      subst hok
      cases okd with
      | false => exact ⟨rfl, hsnd⟩
      | true =>
        rw [h.pos, hpos]
        exact ⟨rfl, recordFrame_same o cfg hsnd env _ _ _ _⟩
  · rw [if_neg hlen]
    exact ⟨rfl, hsame⟩

theorem loop_same (running : Nat → Bool) (envs : Nat → SaveEnv) (h : c.Same d) :
    (d.loop o cfg running envs).1 = (c.loop o cfg running envs).1 ∧
      (c.loop o cfg running envs).2.Same (d.loop o cfg running envs).2 := by
  revert d
  apply loop_rule (R := fun c r => ∀ {d : Client}, c.Same d →
    (d.loop o cfg running envs).1 = r.1 ∧ r.2.Same (d.loop o cfg running envs).2)
  · intro c hrun d h
    rw [Client.loop, h.clientFrames, if_neg (by simp [hrun])]
    exact ⟨rfl, h⟩
  · intro c why c' hrun hturn d h
    obtain ⟨hfst, hsnd⟩ := turn_same o cfg h (envs c.clientFrames)
    rw [hturn] at hfst hsnd
    rw [Client.loop, h.clientFrames, if_pos hrun]
    split
    · rename_i heq
      rw [heq] at hfst
      exact absurd hfst (by simp)
    · rename_i heq
      rw [heq] at hfst hsnd
      exact ⟨Option.some.inj hfst, hsnd⟩
  · intro c c' r hrun hturn ih d h
    obtain ⟨hfst, hsnd⟩ := turn_same o cfg h (envs c.clientFrames)
    rw [hturn] at hfst hsnd
    rw [Client.loop, h.clientFrames, if_pos hrun]
    split
    · rename_i heq
      rw [heq] at hsnd
      exact ih hsnd
    · rename_i heq
      rw [heq] at hfst
      exact absurd hfst (by simp)

end Same

/-! ## The reference -/

section Reference

variable (o : ByteOrder) (cfg : Config) (envs : Nat → SaveEnv)

/-- What `handleClient` does, as `loop_takes` says it. -/
theorem handleClient_takes (running : Nat → Bool) (conn : SslConn) (srv : ServerState) :
    ∃ us rest, (∀ u ∈ us, IsUnit u) ∧ conn.stream = us.flatten ++ rest ∧
      TookAll cfg envs 0 conn.pos us srv (handleClient o cfg running envs conn srv).2.srv ∧
      (∀ j, j < us.length → running j = true) ∧
      (Stops rest (handleClient o cfg running envs conn srv).1 ∨
        (handleClient o cfg running envs conn srv).1 = .stopped ∧ running us.length = false) := by
  obtain ⟨us, rest, h⟩ := loop_takes o cfg running envs ⟨conn, [], 0, srv, []⟩
  have hsrv : (handleClient o cfg running envs conn srv).2.srv =
      (Client.loop o cfg running envs ⟨conn, [], 0, srv, []⟩).2.srv := by
    simp only [handleClient, Client.wipe]
    split <;> rfl
  refine ⟨us, rest, h.units, h.stream, by rw [hsrv]; exact h.took, fun j hj => ?_, ?_⟩
  · have := h.ran j hj
    rwa [Nat.zero_add] at this
  · have := h.ends
    rwa [Nat.zero_add] at this

/-- The server after a connection, against the reference: `us` is the longest splitting of the
stream into units, and each unit is counted, recorded and saved once, in order. -/
structure Reference (stream : List UInt8) (us : List (List UInt8)) (srv srv' : ServerState) :
    Prop where
  longest : Longest IsUnit us stream
  framesReceived : srv'.framesReceived = srv.framesReceived + us.length
  bytesReceived : srv'.bytesReceived = srv.bytesReceived +
    (us.map fun u => frameHeaderSize + (decodeUnit u).payload.length).sum
  received : srv'.received.map Received.frame =
    srv.received.map Received.frame ++ us.map decodeUnit
  saved : ∃ new, SavedRun (if cfg.saveFrames then us.map decodeUnit else []) srv srv' new

/-- The bytes of units, counted as the server counts them. -/
theorem units_length {us : List (List UInt8)} (h : ∀ u ∈ us, IsUnit u) :
    us.flatten.length = (us.map fun u => frameHeaderSize + (decodeUnit u).payload.length).sum := by
  rw [List.length_flatten]
  congr 1
  refine List.map_congr_left fun u hu => ?_
  have hsize := (h u hu).size_le
  simp only [decodeUnit, List.length_drop]
  omega

theorem wipe_bounded {c : Client} (h : c.Bounded) : c.wipe.Bounded := by
  unfold Client.wipe
  split
  · exact h
  · refine ⟨by simpa using h.size, fun a ha => ?_⟩
    rcases List.mem_append.mp ha with ha | ha
    · exact h.access a ha
    · rw [List.mem_singleton.mp ha]
      exact ⟨Nat.le_of_eq (Nat.zero_add _), h.size⟩

/-- **The parser meets the reference on every input.** While `g_running` stays true,
`handleClient` processes exactly the longest prefix of the stream that splits into units, every
frame reported saved is in its file byte for byte, every access stays inside a `frame_buf` of at
most 16 MiB, and another way of cutting up the stream leads to the same server. -/
theorem handleClient_reference (conn : SslConn) (srv : ServerState) :
    (∃ us, Reference cfg conn.stream us srv
      (handleClient o cfg (fun _ => true) envs conn srv).2.srv) ∧
    (handleClient o cfg (fun _ => true) envs conn srv).2.Bounded ∧
    ∀ script ending,
      (handleClient o cfg (fun _ => true) envs { conn with script, ending } srv).2.srv =
        (handleClient o cfg (fun _ => true) envs conn srv).2.srv := by
  refine ⟨?_, ?_, fun script ending => ?_⟩
  · obtain ⟨us, rest, hunits, hstream, htook, -, hends⟩ :=
      handleClient_takes o cfg envs (fun _ => true) conn srv
    have hstops : Stops rest (handleClient o cfg (fun _ => true) envs conn srv).1 := by
      rcases hends with h | ⟨-, h⟩
      · exact h
      · exact absurd h (by simp)
    refine ⟨us, ?_, htook.framesReceived, ?_, ?_, htook.saved⟩
    · rw [hstream]
      exact longest_flatten isUnit_prefixFree hunits hstops.no_unit
    · rw [htook.bytesReceived, units_length hunits]
    · rw [htook.received, List.map_append, receivedAll_frames]
  · exact wipe_bounded (loop_bounded o cfg _ envs ⟨Nat.zero_le _, fun _ ha => absurd ha (by simp)⟩)
  · have hsame : Client.Same ⟨conn, [], 0, srv, []⟩
        ⟨{ conn with script, ending }, [], 0, srv, []⟩ := ⟨rfl, rfl, rfl, rfl, rfl⟩
    have hsrv := (loop_same o cfg (fun _ => true) envs hsame).2.srv
    simp only [handleClient, Client.wipe]
    split <;> split <;> exact hsrv

end Reference

/-! ## The declared header length -/

/-- A server that has received nothing. -/
def ServerState.start (files : Files) : ServerState where
  framesReceived := 0
  bytesReceived := 0
  framesSaved := 0
  files := files
  received := []
  saved := []

section HeaderLen

variable (o : ByteOrder) (cfg : Config) (running : Nat → Bool) (envs : Nat → SaveEnv)
  (conn : SslConn) (files : Files)

end HeaderLen

end CameraStreamer.Server
