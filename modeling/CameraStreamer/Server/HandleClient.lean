import CameraStreamer.Server.SaveFrame
import CameraStreamer.Ssl

/-!
# Handling one client connection

Model of `sslReadAll` and `handleClient` (`server/server.cpp:148-172`, `server.cpp:229-310`). One
turn of the receive loop is `readHeader`, the checks, `readPayload` and `recordFrame`; the loop
takes turns while `g_running` reads true.

* `frame_buf` is `frameBuf`, zero-filled by `resize` and overwritten from its front by each
  payload; `accesses` logs every access to it with the size it then has.
* `ServerState` is what outlives a connection: `g_stats` and the files. `received` and `saved`
  record what the statistics count; no code reads them.
* `running` and `envs` give, for each turn, the value of `g_running` and what the system calls of
  `saveFrame` do.
* The counters are natural numbers: `2^64` bytes are out of reach.

The log lines of the source are left out.
-/

namespace CameraStreamer.Server

open Lib.Transfer Lib.Endian

/-! ## `sslReadAll` -/

/-- The branches after an `SSL_read` that returned at most 0 (`server.cpp:156-165`): `true` is
`continue`, `false` is `return false`. -/
def readRetries : SslError → Bool
  | .wantRead => true
  | .wantWrite => true
  | .zeroReturn => false
  | .syscall eintr => eintr
  | .other => false

/-- The loop goes on after exactly the errors that ask for it. -/
theorem readRetries_eq (e : SslError) : readRetries e = e.transient := by
  cases e <;> rfl

/-- `sslReadAll(ssl, buf, len)`: what it has stored from the front of `buf` is `state.got`. -/
def sslReadAll (conn : SslConn) (len : Nat) : Outcome (Fill SslError UInt8 SslError.transient) :=
  transferAll (source readRetries_eq) ⟨conn, []⟩ 0 len

/-! ## The receive loop -/

/-- `Config`, as far as `handleClient` reads it. -/
structure Config where
  outputDir : List UInt8
  saveFrames : Bool

/-- A frame taken from a connection: where its header and its payload began in the stream, the
header length it declared, and its contents. -/
structure Received where
  start : Nat
  payloadStart : Nat
  headerLen : Nat
  frame : Frame
  deriving DecidableEq, Repr

/-- A call of `saveFrame`: the frame, the path, the result, and the file there afterwards. -/
structure Saved where
  frame : Frame
  path : List UInt8
  ok : Bool
  content : Option (List UInt8)
  deriving DecidableEq, Repr

/-- `g_stats` and the files. -/
structure ServerState where
  framesReceived : Nat
  bytesReceived : Nat
  framesSaved : Nat
  files : Files
  received : List Received
  saved : List Saved

/-- An access to `frame_buf` of `size` bytes, at `[off, off + len)`. -/
structure Access where
  size : Nat
  off : Nat
  len : Nat

/-- The variables of `handleClient`. -/
structure Client where
  conn : SslConn
  frameBuf : List UInt8
  clientFrames : Nat
  srv : ServerState
  accesses : List Access

/-- How `handleClient` leaves its loop. -/
inductive Exit
  /-- `g_running` reads false. -/
  | stopped
  | headerRead
  | badMagic
  | badVersion
  | tooLarge
  | payloadRead
  deriving DecidableEq, Repr

/-- `if (payload_len > frame_buf.size()) frame_buf.resize(payload_len)`. -/
def grow (buf : List UInt8) (payloadLen : Nat) : List UInt8 :=
  if buf.length < payloadLen then buf ++ List.replicate (payloadLen - buf.length) 0 else buf

/-- The buffer after bytes were stored from its front. -/
def overwrite (buf got : List UInt8) : List UInt8 := got ++ buf.drop got.length

/-- Accesses to a buffer of `size` bytes. -/
def accessesOf (size : Nat) (calls : List (Nat × Nat)) : List Access :=
  calls.map fun c => ⟨size, c.1, c.2⟩

/-- Read the header into `hdr` (`server.cpp:238-240`). -/
def Client.readHeader (o : ByteOrder) (c : Client) : Option FrameHeader × Client :=
  let out := sslReadAll c.conn frameHeaderSize
  (if out.ok then some (FrameHeader.ofBytes o out.state.got) else none,
    { c with conn := out.state.src })

/-- Grow `frame_buf` and read the payload into it (`server.cpp:262-270`). -/
def Client.readPayload (c : Client) (payloadLen : Nat) : Bool × Client :=
  let buf := grow c.frameBuf payloadLen
  let out := sslReadAll c.conn payloadLen
  (out.ok,
    { c with
      conn := out.state.src
      frameBuf := overwrite buf out.state.got
      accesses := c.accesses ++ accessesOf buf.length out.calls })

/-- `if (saveFrame(...)) g_stats.frames_saved++` (`server.cpp:290-294`). -/
def Client.saveStep (o : ByteOrder) (cfg : Config) (env : SaveEnv) (hdr : FrameHeader)
    (payloadLen : Nat) (c : Client) : Client :=
  if cfg.saveFrames then
    let res := saveFrame o cfg.outputDir env c.srv.files hdr c.frameBuf payloadLen
    let path := framePath cfg.outputDir (ntohll o hdr.seq) (frameExt (ntohl o hdr.pixelFormat))
    { c with
      srv := { c.srv with
        framesSaved := c.srv.framesSaved + if res.ok then 1 else 0
        files := res.files
        saved := c.srv.saved ++
          [⟨hdr.frame o (c.frameBuf.take payloadLen), path, res.ok, res.files path⟩] }
      accesses := c.accesses ++ accessesOf c.frameBuf.length res.calls }
  else c

/-- Count the frame, decode it, save it (`server.cpp:273-295`). -/
def Client.recordFrame (o : ByteOrder) (cfg : Config) (env : SaveEnv) (hdr : FrameHeader)
    (payloadLen start payloadStart : Nat) (c : Client) : Client :=
  Client.saveStep o cfg env hdr payloadLen
    { c with
      clientFrames := c.clientFrames + 1
      srv := { c.srv with
        framesReceived := c.srv.framesReceived + 1
        bytesReceived := c.srv.bytesReceived + (frameHeaderSize + payloadLen)
        received := c.srv.received ++
          [⟨start, payloadStart, (ntohs o hdr.headerLen).toNat,
            hdr.frame o (c.frameBuf.take payloadLen)⟩] } }

/-- One turn of the loop, after its test: go on, or leave. -/
def Client.turn (o : ByteOrder) (cfg : Config) (env : SaveEnv) (c : Client) :
    Option Exit × Client :=
  match c.readHeader o with
  | (none, c') => (some .headerRead, c')
  | (some hdr, c') =>
    if hdr.magic ≠ protoMagic then (some .badMagic, c')
    else if ntohs o hdr.version ≠ protoVersion then (some .badVersion, c')
    else if payloadLimit < (ntohl o hdr.payloadLen).toNat then (some .tooLarge, c')
    else
      match c'.readPayload (ntohl o hdr.payloadLen).toNat with
      | (false, c'') => (some .payloadRead, c'')
      | (true, c'') =>
        (none, c''.recordFrame o cfg env hdr (ntohl o hdr.payloadLen).toNat c.conn.pos
          c'.conn.pos)

/-! ## What one turn does -/

section Turn

variable (o : ByteOrder) (cfg : Config) (env : SaveEnv) (c : Client)

theorem sslReadAll_filled (conn : SslConn) (len : Nat) :
    Filled ⟨conn, []⟩ len (sslReadAll conn len) :=
  source_transferAll readRetries_eq ⟨conn, []⟩ 0 len

/-- The connection after `n` bytes were asked of it. -/
structure After (conn conn' : SslConn) (n : Nat) : Prop where
  stream : conn'.stream = conn.stream.drop n
  pos : conn'.pos = conn.pos + (conn.stream.take n).length

theorem sslReadAll_after (conn : SslConn) (len : Nat) :
    After conn (sslReadAll conn len).state.src len :=
  ⟨(sslReadAll_filled conn len).stream, (sslReadAll_filled conn len).pos⟩

theorem readHeader_eq : ∃ conn', After c.conn conn' frameHeaderSize ∧
    c.readHeader o =
      (if frameHeaderSize ≤ c.conn.stream.length then
          some (FrameHeader.ofBytes o (c.conn.stream.take frameHeaderSize)) else none,
        { c with conn := conn' }) := by
  have h := sslReadAll_filled c.conn frameHeaderSize
  have hgot : (sslReadAll c.conn frameHeaderSize).state.got =
    c.conn.stream.take frameHeaderSize := h.got
  refine ⟨_, sslReadAll_after c.conn frameHeaderSize, ?_⟩
  simp only [Client.readHeader, hgot]
  by_cases hlen : frameHeaderSize ≤ c.conn.stream.length
  · simp [hlen, h.ok_iff.mpr hlen]
  · simp [hlen, mt h.ok_iff.mp hlen]

theorem readPayload_eq (n : Nat) : ∃ conn' calls, After c.conn conn' n ∧
    (∀ x ∈ calls, x.1 + x.2 = n) ∧
    c.readPayload n =
      (decide (n ≤ c.conn.stream.length),
        { c with
          conn := conn'
          frameBuf := overwrite (grow c.frameBuf n) (c.conn.stream.take n)
          accesses := c.accesses ++ accessesOf (grow c.frameBuf n).length calls }) := by
  have h := sslReadAll_filled c.conn n
  have hgot : (sslReadAll c.conn n).state.got = c.conn.stream.take n := h.got
  refine ⟨_, (sslReadAll c.conn n).calls, sslReadAll_after c.conn n, fun x hx => ?_, ?_⟩
  · have := transferAll_calls (source readRetries_eq) ⟨c.conn, []⟩ 0 n x hx
    omega
  · simp only [Client.readPayload, hgot]
    by_cases hlen : n ≤ c.conn.stream.length
    · simp [hlen, h.ok_iff.mpr hlen]
    · simp [hlen, mt h.ok_iff.mp hlen]

/-- The three checks are the reference's. -/
theorem checks_iff {bs : List UInt8} (h : bs.length = frameHeaderSize) :
    HeaderOk bs ↔ (FrameHeader.ofBytes o bs).magic = protoMagic ∧
      ntohs o (FrameHeader.ofBytes o bs).version = protoVersion ∧
      (ntohl o (FrameHeader.ofBytes o bs).payloadLen).toNat ≤ payloadLimit := by
  rw [ofBytes_version o h, ofBytes_payloadLen o h]
  have hlt : beValue (field bs 4 2) < 2 ^ 16 := by
    have := beValue_lt (field bs 4 2)
    rwa [field_length (by rw [h]; decide)] at this
  have hver : UInt16.ofNat (beValue (field bs 4 2)) = protoVersion ↔
      beValue (field bs 4 2) = 1 := by
    rw [← UInt16.toNat_inj, UInt16.toNat_ofNat', Nat.mod_eq_of_lt hlt]
    rfl
  rw [hver]
  exact ⟨fun ⟨h1, h2, h3⟩ => ⟨h1, h2, h3⟩, fun ⟨h1, h2, h3⟩ => ⟨h1, h2, h3⟩⟩

/-! ## The frame buffer -/

/-- The buffer respects the payload limit, and every access stays inside it. -/
structure Client.Bounded (c : Client) : Prop where
  size : c.frameBuf.length ≤ payloadLimit
  access : ∀ a ∈ c.accesses, a.off + a.len ≤ a.size ∧ a.size ≤ payloadLimit

theorem grow_length (buf : List UInt8) (n : Nat) : (grow buf n).length = max buf.length n := by
  unfold grow
  split
  · rw [List.length_append, List.length_replicate]
    omega
  · omega

theorem overwrite_length {buf got : List UInt8} (h : got.length ≤ buf.length) :
    (overwrite buf got).length = buf.length := by
  rw [overwrite, List.length_append, List.length_drop]
  omega

/-- What was stored is what is read back from the front. -/
theorem overwrite_take (buf got : List UInt8) : (overwrite buf got).take got.length = got := by
  rw [overwrite, List.take_left]

theorem mem_accessesOf {size n : Nat} {calls : List (Nat × Nat)} {a : Access}
    (h : ∀ x ∈ calls, x.1 + x.2 = n) (ha : a ∈ accessesOf size calls) :
    a.off + a.len = n ∧ a.size = size := by
  obtain ⟨x, hx, rfl⟩ := List.mem_map.mp ha
  exact ⟨h x hx, rfl⟩

/-- The payload has arrived: it stands at the front of the buffer. -/
theorem readPayload_whole {n : Nat} (hn : n ≤ c.conn.stream.length) : ∃ c',
    c.readPayload n = (true, c') ∧ c'.conn.stream = c.conn.stream.drop n ∧
      c'.conn.pos = c.conn.pos + n ∧ c'.frameBuf.take n = c.conn.stream.take n ∧
      c'.srv = c.srv ∧ c'.clientFrames = c.clientFrames := by
  obtain ⟨conn', calls, hafter, -, heq⟩ := readPayload_eq c n
  have hgot : (c.conn.stream.take n).length = n := List.length_take_of_le hn
  have hback := overwrite_take (grow c.frameBuf n) (c.conn.stream.take n)
  rw [hgot] at hback
  rw [decide_eq_true hn] at heq
  exact ⟨_, heq, hafter.stream, by rw [hafter.pos, hgot], hback, rfl, rfl⟩

theorem readPayload_short {n : Nat} (hn : c.conn.stream.length < n) : ∃ c',
    c.readPayload n = (false, c') ∧ c'.srv = c.srv := by
  obtain ⟨conn', calls, -, -, heq⟩ := readPayload_eq c n
  rw [decide_eq_false (Nat.not_le.mpr hn)] at heq
  exact ⟨_, heq, rfl⟩

theorem readPayload_bounded {n : Nat} (hn : n ≤ payloadLimit) (h : c.Bounded) :
    (c.readPayload n).2.Bounded := by
  obtain ⟨conn', calls, -, hcalls, heq⟩ := readPayload_eq c n
  have hsize := h.size
  rw [heq]
  constructor
  · simp only
    rw [overwrite_length, grow_length]
    · omega
    · rw [grow_length, List.length_take]
      omega
  · intro a ha
    rcases List.mem_append.mp ha with ha | ha
    · exact h.access a ha
    · obtain ⟨hoff, hsz⟩ := mem_accessesOf hcalls ha
      rw [hoff, hsz, grow_length]
      omega

theorem recordFrame_bounded {hdr : FrameHeader} {n start payloadStart : Nat}
    (hn : n ≤ c.frameBuf.length) (h : c.Bounded) :
    (c.recordFrame o cfg env hdr n start payloadStart).Bounded := by
  unfold Client.recordFrame Client.saveStep
  split
  · refine ⟨h.size, fun a ha => ?_⟩
    rcases List.mem_append.mp ha with ha | ha
    · exact h.access a ha
    · obtain ⟨hoff, hsz⟩ := mem_accessesOf (saveFrame_calls o cfg.outputDir env _ hdr _ n) ha
      rw [hoff, hsz]
      exact ⟨hn, h.size⟩
  · exact ⟨h.size, h.access⟩

/-- After the payload was read, the buffer holds it. -/
theorem readPayload_size (n : Nat) : n ≤ (c.readPayload n).2.frameBuf.length := by
  obtain ⟨conn', calls, -, -, heq⟩ := readPayload_eq c n
  rw [heq]
  simp only
  rw [overwrite_length, grow_length]
  · omega
  · rw [grow_length, List.length_take]
    omega

/-- **No turn leaves the buffer.** -/
theorem turn_bounded (h : c.Bounded) : (c.turn o cfg env).2.Bounded := by
  obtain ⟨conn', -, heq⟩ := readHeader_eq o c
  have hb : Client.Bounded { c with conn := conn' } := ⟨h.size, h.access⟩
  unfold Client.turn
  rw [heq]
  split
  · rename_i hh
    rw [Prod.mk.injEq] at hh
    rw [← hh.2]
    exact hb
  · rename_i hdr c' hh
    rw [Prod.mk.injEq] at hh
    obtain ⟨-, rfl⟩ := hh
    split_ifs with hm hv hl
    · exact hb
    · exact hb
    · exact hb
    · have hp := readPayload_bounded (n := (ntohl o hdr.payloadLen).toNat) _ (by omega) hb
      have hs := readPayload_size { c with conn := conn' } (ntohl o hdr.payloadLen).toNat
      split
      · rename_i c'' hr
        rw [hr] at hp
        exact hp
      · rename_i c'' hr
        rw [hr] at hp hs
        exact recordFrame_bounded o cfg env c'' hs hp

/-! ## What a turn takes from the stream -/

/-- Why a turn leaves the loop at the stream `s`. -/
def Stops (s : List UInt8) : Exit → Prop
  | .stopped => False
  | .headerRead => s.length < frameHeaderSize
  | .payloadRead => HeaderOk (s.take frameHeaderSize) ∧
      s.length < frameHeaderSize + unitPayloadLen (s.take frameHeaderSize)
  | _ => frameHeaderSize ≤ s.length ∧ ¬ HeaderOk (s.take frameHeaderSize)

/-- The record a unit that starts at `start` leaves. -/
def receivedOf (start : Nat) (u : List UInt8) : Received where
  start := start
  payloadStart := start + frameHeaderSize
  headerLen := declaredHeaderLen u
  frame := decodeUnit u

/-- The path a frame is saved to. -/
def savePath (outputDir : List UInt8) (f : Frame) : List UInt8 :=
  framePath outputDir f.seq (frameExt f.pixelFormat)

/-- What a `saveFrame` of `f` does to the files. -/
structure SavedAs (cfg : Config) (env : SaveEnv) (f : Frame) (srv srv' : ServerState) (r : Saved) :
    Prop where
  frame : r.frame = f
  path : r.path = savePath cfg.outputDir f
  /-- Reported saved, the file holds the payload. -/
  content : r.ok = true → r.content = some f.payload
  reliable : env.Reliable → r.ok = true
  here : srv'.files r.path = r.content
  elsewhere : ∀ p, p ≠ r.path → srv'.files p = srv.files p
  counted : srv'.framesSaved = srv.framesSaved + if r.ok then 1 else 0
  logged : srv'.saved = srv.saved ++ [r]

/-- What a unit that starts at `start` does to the server. -/
structure Took (cfg : Config) (env : SaveEnv) (start : Nat) (u : List UInt8)
    (srv srv' : ServerState) : Prop where
  framesReceived : srv'.framesReceived = srv.framesReceived + 1
  bytesReceived : srv'.bytesReceived = srv.bytesReceived + u.length
  received : srv'.received = srv.received ++ [receivedOf start u]
  saved : if cfg.saveFrames then ∃ r, SavedAs cfg env (decodeUnit u) srv srv' r
    else srv'.framesSaved = srv.framesSaved ∧ srv'.files = srv.files ∧ srv'.saved = srv.saved

theorem recordFrame_took {u bs : List UInt8} (hu : IsUnit u) (hbs : u.take frameHeaderSize = bs)
    {start : Nat} (hbuf : c.frameBuf.take (unitPayloadLen bs) = u.drop frameHeaderSize) :
    Took cfg env start u c.srv (c.recordFrame o cfg env (FrameHeader.ofBytes o bs)
      (unitPayloadLen bs) start (start + frameHeaderSize)).srv := by
  subst hbs
  have hlen : (u.take frameHeaderSize).length = frameHeaderSize :=
    List.length_take_of_le hu.size_le
  have hframe : (FrameHeader.ofBytes o (u.take frameHeaderSize)).frame o
      (u.drop frameHeaderSize) = decodeUnit u := by
    rw [headerFrame_eq o hlen, List.take_append_drop]
    rfl
  have hseq : ntohll o (FrameHeader.ofBytes o (u.take frameHeaderSize)).seq = (decodeUnit u).seq :=
    congrArg Frame.seq hframe
  have hpix : ntohl o (FrameHeader.ofBytes o (u.take frameHeaderSize)).pixelFormat =
      (decodeUnit u).pixelFormat := congrArg Frame.pixelFormat hframe
  have hdecl : (ntohs o (FrameHeader.ofBytes o (u.take frameHeaderSize)).headerLen).toNat =
      declaredHeaderLen u := by rw [ofBytes_headerLen o hlen, declaredHeaderLen_take]
  have hbytes : frameHeaderSize + unitPayloadLen (u.take frameHeaderSize) = u.length :=
    hu.length.symm
  unfold Client.recordFrame Client.saveStep
  by_cases hcfg : cfg.saveFrames = true
  · rw [if_pos hcfg]
    refine ⟨rfl, by simp only [hbytes], by simp only [hdecl, hbuf, hframe, receivedOf], ?_⟩
    rw [if_pos hcfg]
    refine ⟨_, ⟨?_, ?_, ?_, fun henv => ?_, rfl, fun p hp => ?_, rfl, rfl⟩⟩
    · simp only [hbuf, hframe]
    · simp only [hseq, hpix, savePath]
    · intro hok
      simp only at hok ⊢
      rw [saveFrame_ok _ _ _ _ _ _ _ hok, hbuf]
      rfl
    · exact saveFrame_reliable _ _ _ _ _ _ _ henv
    · exact saveFrame_files_of_ne _ _ _ _ _ _ _ hp
  · rw [if_neg hcfg]
    refine ⟨rfl, by simp only [hbytes], by simp only [hdecl, hbuf, hframe, receivedOf], ?_⟩
    rw [if_neg hcfg]
    exact ⟨rfl, rfl, rfl⟩

theorem recordFrame_conn {hdr : FrameHeader} {n start payloadStart : Nat} :
    (c.recordFrame o cfg env hdr n start payloadStart).conn = c.conn := by
  unfold Client.recordFrame Client.saveStep
  split <;> rfl

theorem recordFrame_clientFrames {hdr : FrameHeader} {n start payloadStart : Nat} :
    (c.recordFrame o cfg env hdr n start payloadStart).clientFrames = c.clientFrames + 1 := by
  unfold Client.recordFrame Client.saveStep
  split <;> rfl

/-- **One turn**: it leaves the loop at a stream with no unit in front and the server is as
before, or it takes the unit in front. -/
theorem turn_cases :
    (∃ why c', c.turn o cfg env = (some why, c') ∧ Stops c.conn.stream why ∧ c'.srv = c.srv) ∨
    (∃ u c', c.turn o cfg env = (none, c') ∧ IsUnit u ∧ c.conn.stream = u ++ c'.conn.stream ∧
      c'.conn.pos = c.conn.pos + u.length ∧ c'.clientFrames = c.clientFrames + 1 ∧
      Took cfg env c.conn.pos u c.srv c'.srv) := by
  obtain ⟨conn', hafter, heq⟩ := readHeader_eq o c
  unfold Client.turn
  rw [heq]
  by_cases hlen : frameHeaderSize ≤ c.conn.stream.length
  · have hhdr : (c.conn.stream.take frameHeaderSize).length = frameHeaderSize :=
      List.length_take_of_le hlen
    have hchecks := checks_iff o hhdr
    rw [if_pos hlen]
    simp only
    split_ifs with hm hv hl
    · exact Or.inl ⟨_, _, rfl, ⟨hlen, fun h => hm (hchecks.mp h).1⟩, rfl⟩
    · exact Or.inl ⟨_, _, rfl, ⟨hlen, fun h => hv (hchecks.mp h).2.1⟩, rfl⟩
    · exact Or.inl ⟨_, _, rfl, ⟨hlen, fun h => absurd (hchecks.mp h).2.2 (by omega)⟩, rfl⟩
    · have hok : HeaderOk (c.conn.stream.take frameHeaderSize) :=
        hchecks.mpr ⟨not_not.mp hm, not_not.mp hv, Nat.le_of_not_lt hl⟩
      rw [ofBytes_payloadLen o hhdr]
      have hstream : ({ c with conn := conn' } : Client).conn.stream =
        c.conn.stream.drop frameHeaderSize := hafter.stream
      have hpos : conn'.pos = c.conn.pos + frameHeaderSize := by rw [hafter.pos, hhdr]
      by_cases hpay : frameHeaderSize + unitPayloadLen (c.conn.stream.take frameHeaderSize) ≤
          c.conn.stream.length
      · obtain ⟨c'', heq', hrest, hpos', hbuf, hsrv, hframes⟩ :=
          readPayload_whole { c with conn := conn' } (n :=
            unitPayloadLen (c.conn.stream.take frameHeaderSize))
            (by rw [hstream, List.length_drop]; omega)
        have hu := isUnit_take hok hpay
        rw [heq']
        refine Or.inr ⟨_, _, rfl, hu, ?_, ?_, ?_, ?_⟩
        · rw [recordFrame_conn, hrest, hstream, List.drop_drop, List.take_append_drop]
        · rw [recordFrame_conn, hpos', List.length_take_of_le hpay]
          simp only [hpos, Nat.add_assoc]
        · rw [recordFrame_clientFrames, hframes]
        · have htake := hu.take_of_prefix (List.take_prefix _ _)
          rw [hstream] at hbuf
          rw [hpos, ← show c''.srv = c.srv from hsrv]
          refine recordFrame_took o cfg env c'' hu htake ?_
          rw [hbuf, List.drop_take, Nat.add_sub_cancel_left]
      · obtain ⟨c'', heq', hsrv⟩ := readPayload_short { c with conn := conn' } (n :=
            unitPayloadLen (c.conn.stream.take frameHeaderSize))
            (by rw [hstream, List.length_drop]; omega)
        rw [heq']
        exact Or.inl ⟨_, _, rfl, ⟨hok, Nat.lt_of_not_le hpay⟩, hsrv⟩
  · rw [if_neg hlen]
    exact Or.inl ⟨_, _, rfl, Nat.lt_of_not_le hlen, rfl⟩

end Turn

/-! ## The loop -/

/-- The receive loop (`server.cpp:236-301`): `running i` and `envs i` are what its `i`-th turn
finds. A turn that goes on has taken bytes from the stream. -/
def Client.loop (o : ByteOrder) (cfg : Config) (running : Nat → Bool) (envs : Nat → SaveEnv)
    (c : Client) : Exit × Client :=
  if running c.clientFrames then
    match _ : c.turn o cfg (envs c.clientFrames) with
    | (none, c') => Client.loop o cfg running envs c'
    | (some why, c') => (why, c')
  else (.stopped, c)
termination_by c.conn.stream.length
decreasing_by
  rename_i hturn
  rcases turn_cases o cfg (envs c.clientFrames) c with ⟨why, d, heq, -⟩ | ⟨u, d, heq, hu, hs, -⟩
  · rw [heq] at hturn
    exact absurd (congrArg Prod.fst hturn) (by simp)
  · rw [heq, Prod.mk.injEq] at hturn
    have hsize := hu.size_le
    rw [hs, ← hturn.2, List.length_append]
    simp only [frameHeaderSize] at hsize
    omega

/-- `memset` of `frame_buf` on the way out (`server.cpp:304-306`). -/
def Client.wipe (c : Client) : Client :=
  if c.frameBuf.isEmpty then c
  else
    { c with
      frameBuf := List.replicate c.frameBuf.length 0
      accesses := c.accesses ++ [⟨c.frameBuf.length, 0, c.frameBuf.length⟩] }

/-- `handleClient`. -/
def handleClient (o : ByteOrder) (cfg : Config) (running : Nat → Bool) (envs : Nat → SaveEnv)
    (conn : SslConn) (srv : ServerState) : Exit × Client :=
  let out := Client.loop o cfg running envs ⟨conn, [], 0, srv, []⟩
  (out.1, out.2.wipe)

section Loop

variable {o : ByteOrder} {cfg : Config} {running : Nat → Bool} {envs : Nat → SaveEnv}

/-- **The rule for the loop.** -/
theorem loop_rule {R : Client → Exit × Client → Prop}
    (stopped : ∀ c, running c.clientFrames = false → R c (.stopped, c))
    (leaves : ∀ c why c', running c.clientFrames = true →
      c.turn o cfg (envs c.clientFrames) = (some why, c') → R c (why, c'))
    (goes : ∀ c c' r, running c.clientFrames = true →
      c.turn o cfg (envs c.clientFrames) = (none, c') → R c' r → R c r)
    (c : Client) : R c (c.loop o cfg running envs) := by
  induction c using Client.loop.induct o cfg running envs with
  | case1 c hrun c' hturn ih =>
    rw [Client.loop, if_pos hrun]
    split
    · rename_i d hd
      rw [hd] at hturn
      cases hturn
      exact goes c c' _ hrun hd ih
    · rename_i why d hd
      rw [hd] at hturn
      exact absurd (congrArg Prod.fst hturn) (by simp)
  | case2 c hrun why c' hturn =>
    rw [Client.loop, if_pos hrun]
    split
    · rename_i d hd
      rw [hd] at hturn
      exact absurd (congrArg Prod.fst hturn) (by simp)
    · rename_i why' d hd
      rw [hd] at hturn
      cases hturn
      exact leaves c why c' hrun hd
  | case3 c hrun =>
    rw [Client.loop, if_neg hrun]
    exact stopped c (Bool.eq_false_iff.mpr hrun)

end Loop

end CameraStreamer.Server
