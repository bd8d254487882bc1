import CameraStreamer.TlsClient.Network

/-!
# What the network thread holds

`Net.Inv` says at each place of `networkLoop` whether the connection is up or down, and which
resources are open: `Up` is a live SSL object on an open socket with the state `Connected`, `Down`
is neither of them with another state.

* `tryAddrs_books`: the address loop ends with no socket, or with one open.
* `tlsConnect_inv`, `tlsDisconnect_down`: every exit of `tlsConnect` leaves `Up` or `Down`, and
  `tlsDisconnect` leads back to `Down`.
* **`resources_disciplined`**: over every run, whatever the answers, each socket, SSL object and
  packet is released exactly once and before the next of its kind is acquired.
-/

namespace CameraStreamer.TlsClient

open Lib.Ledger Lib.Machine Lib.Endian Protocol

namespace Net

variable {o : ByteOrder} {cfg : TlsConfig} {s s' : Net} {res res' : List Res}

/-- The log is lawful, and leaves `res` open. -/
def Books (s : Net) (res : List Res) : Prop := replay Res.kind [] s.log = some res

theorem Books.record {ops : List (Op Res)} (h : s.Books res)
    (h' : replay Res.kind res ops = some res') : (s.record ops).Books res' :=
  replay_append h h'

/-- The connection is up; the thread holds `pkt`. -/
def Up (s : Net) (pkt : Option FramePacket) : Prop :=
  ∃ (p fd : Nat), s.ssl = some p ∧ s.sockfd = fd ∧ s.state = .connected ∧ s.cur ≠ none ∧
    s.Books (pkt.toList.map .packet ++ [.ssl (some p), .socket fd])

/-- The connection is down; nothing is held. -/
def Down (s : Net) : Prop :=
  s.ssl = none ∧ s.sockfd = -1 ∧ s.state ≠ .connected ∧ s.cur = none ∧ s.Books []

/-- The connection and what is held, at each place of the loop. -/
def Inv (s : Net) : Prop :=
  match s.pc with
  | .head => s.Up none ∨ s.Down
  | .leaving => s.Up none ∨ s.Down
  | .connecting => s.Down
  | .backoff => s.Down
  | .done => s.Down
  | .destroyed => s.Down
  | pc => s.Up pc.packet

/-! ## Connecting and disconnecting -/

/-- The address loop closes every socket but the one it ends with. -/
theorem tryAddrs_books (addrs : List AddrResult) :
    ((tryAddrs addrs).1 = -1 ∧ replay Res.kind [] (tryAddrs addrs).2 = some []) ∨
    ∃ fd : Nat, (tryAddrs addrs).1 = fd ∧
      replay Res.kind [] (tryAddrs addrs).2 = some [.socket fd] := by
  have habandon : ∀ (fd : Nat) (r : Int × List (Op Res)),
      replay Res.kind [] (abandon fd r).2 = replay Res.kind [] r.2 := by
    intro fd r
    unfold abandon
    rw [replay_acquire (by simp), replay_release (by simp), List.erase_cons_head]
  induction addrs with
  | nil => exact Or.inl ⟨rfl, rfl⟩
  | cons a addrs ih =>
    unfold tryAddrs
    split
    · exact ih
    · rename_i fd _
      have ih' : ((abandon fd (tryAddrs addrs)).1 = -1 ∧
            replay Res.kind [] (abandon fd (tryAddrs addrs)).2 = some []) ∨
          ∃ fd' : Nat, (abandon fd (tryAddrs addrs)).1 = fd' ∧
            replay Res.kind [] (abandon fd (tryAddrs addrs)).2 = some [.socket fd'] := by
        rw [habandon]
        exact ih
      split
      · exact Or.inr ⟨fd, rfl, rfl⟩
      · exact ih'
      · split_ifs
        · exact ih'
        · exact ih'
        · exact Or.inr ⟨fd, rfl, rfl⟩

theorem createTcpConnection_books (addrs : Option (List AddrResult)) :
    ((createTcpConnection addrs).1 = -1 ∧
      replay Res.kind [] (createTcpConnection addrs).2 = some []) ∨
    ∃ fd : Nat, (createTcpConnection addrs).1 = fd ∧
      replay Res.kind [] (createTcpConnection addrs).2 = some [.socket fd] := by
  cases addrs with
  | none => exact Or.inl ⟨rfl, rfl⟩
  | some addrs => exact tryAddrs_books addrs

/-- Free the SSL object, close the socket: what every late exit of `tlsConnect` does. -/
theorem release_both {p fd : Nat} (hssl : s.ssl = some p) (hfd : s.sockfd = fd)
    (hb : s.Books [.ssl (some p), .socket fd]) : s.freeSsl.closeSocket.Books [] := by
  have h1 : s.freeSsl.Books [.socket fd] := by
    refine Books.record hb ?_
    rw [hssl, replay_release (by simp), List.erase_cons_head]
    rfl
  refine Books.record h1 ?_
  rw [show s.freeSsl.sockfd = s.sockfd from rfl, hfd, replay_release (by simp),
    List.erase_cons_head]
  rfl

/-- **Every exit of `tlsConnect`**: a live connection, or nothing left behind. -/
theorem tlsConnect_inv (cfg : TlsConfig) (env : ConnectEnv) (h : s.Down) :
    ((s.tlsConnect cfg env).1 = true ∧ (s.tlsConnect cfg env).2.Up none) ∨
    ((s.tlsConnect cfg env).1 = false ∧ (s.tlsConnect cfg env).2.Down) := by
  obtain ⟨hssl, -, hstate, hcur, hb⟩ := h
  unfold tlsConnect
  rcases createTcpConnection_books env.addrs with ⟨hfd, hops⟩ | ⟨fd, hfd, hops⟩
  · simp only [hfd]
    exact Or.inr ⟨rfl, hssl, rfl, hstate, hcur, Books.record hb hops⟩
  · have hsock : (s.record (createTcpConnection env.addrs).2).Books [.socket fd] :=
      Books.record hb hops
    simp only [hfd]
    rw [if_neg (by omega)]
    split
    · refine Or.inr ⟨rfl, rfl, rfl, hstate, hcur, Books.record hsock ?_⟩
      rw [replay_release (by simp), List.erase_cons_head]
      rfl
    · rename_i p _
      have hboth : ((s.record (createTcpConnection env.addrs).2).record
          [.acquire (.ssl (some p))]).Books [.ssl (some p), .socket fd] :=
        Books.record hsock (by rw [replay_acquire (by simp [Res.kind])]; rfl)
      split_ifs
      · exact Or.inr ⟨rfl, rfl, rfl, hstate, hcur, release_both rfl rfl hboth⟩
      · exact Or.inr ⟨rfl, rfl, rfl, hstate, hcur, release_both rfl rfl hboth⟩
      · exact Or.inr ⟨rfl, rfl, rfl, hstate, hcur, release_both rfl rfl hboth⟩
      · exact Or.inl ⟨rfl, p, fd, rfl, rfl, rfl, by simp, hboth⟩

/-- **`tlsDisconnect`** leaves nothing behind. -/
theorem tlsDisconnect_down (h : s.Up none ∨ s.Down) : s.tlsDisconnect.Down := by
  unfold tlsDisconnect
  rcases h with ⟨p, fd, hssl, hfd, -, -, hb⟩ | ⟨hssl, hfd, -, -, hb⟩
  · have hused : (s.record [.use (.ssl s.ssl)]).Books [.ssl (some p), .socket fd] := by
      refine Books.record hb ?_
      rw [hssl, replay_use (by simp)]
      rfl
    rw [if_pos (by simp [hssl])]
    simp only
    rw [if_pos (by simp [freeSsl, record, hfd])]
    exact ⟨rfl, rfl, by simp, rfl, release_both hssl hfd hused⟩
  · rw [if_neg (by simp [hssl])]
    simp only
    rw [if_neg (by rw [hfd]; decide)]
    exact ⟨hssl, hfd, by simp, rfl, hb⟩

/-! ## The loop -/

/-- A change of place alone. -/
theorem Up.record {pkt pkt' : Option FramePacket} {ops : List (Op Res)} (h : s.Up pkt)
    (hops : ∀ p fd : Nat, replay Res.kind
      (pkt.toList.map .packet ++ [.ssl (some p), .socket fd]) ops =
        some (pkt'.toList.map .packet ++ [.ssl (some p), .socket fd])) :
    (s.record ops).Up pkt' := by
  obtain ⟨p, fd, hssl, hfd, hstate, hcur, hb⟩ := h
  exact ⟨p, fd, hssl, hfd, hstate, hcur, Books.record hb (hops p fd)⟩

theorem Up.acquire {p : FramePacket} (h : s.Up none) :
    (s.record [.acquire (.packet p)]).Up (some p) := by
  refine Up.record h fun q fd => ?_
  rw [replay_acquire (by simp [Res.kind])]
  rfl

theorem Up.freePacket {p : FramePacket} (h : s.Up (some p)) : (s.freePacket p).Up none := by
  refine Up.record h fun q fd => ?_
  rw [replay_release (by simp)]
  simp

theorem Up.usePacket {p : FramePacket} (h : s.Up (some p)) : (s.usePacket p).Up (some p) := by
  refine Up.record h fun q fd => ?_
  rw [replay_use (by simp)]
  rfl

/-- `SSL_write` is called on a live object. -/
theorem Up.callWrite {pkt : Option FramePacket} (h : s.Up pkt) : s.callWrite.Up pkt := by
  obtain ⟨p, fd, hssl, hfd, hstate, hcur, hb⟩ := h
  refine ⟨p, fd, hssl, hfd, hstate, hcur, Books.record hb ?_⟩
  rw [hssl, replay_use (by simp)]
  rfl

theorem Up.wrote {pkt : Option FramePacket} (h : s.Up pkt) (bs : List UInt8) :
    (s.wrote bs).Up pkt := by
  obtain ⟨p, fd, hssl, hfd, hstate, hcur, hb⟩ := h.callWrite
  have hopen : s.cur ≠ none := hcur
  exact ⟨p, fd, hssl, hfd, hstate, by simpa [Net.wrote] using hopen, hb⟩

theorem Up.lost {pkt : Option FramePacket} (h : s.Up pkt) (bs : List UInt8) :
    (s.lost bs).Up pkt := by
  obtain ⟨p, fd, hssl, hfd, hstate, hcur, hb⟩ := h.callWrite
  have hopen : s.cur ≠ none := hcur
  exact ⟨p, fd, hssl, hfd, hstate, by simpa [Net.lost] using hopen, hb⟩

theorem inv_test (running : Bool) (h : s.Up none ∨ s.Down) : (s.test running).Inv := by
  unfold test
  split_ifs with hrun hstate
  · exact h
  · rcases h with ⟨-, -, -, -, hconn, -⟩ | ⟨hssl, hfd, -, hcur, hb⟩
    · exact absurd hconn hstate
    · exact ⟨hssl, hfd, by simp, hcur, hb⟩
  · rcases h with hup | ⟨-, -, hdown, -⟩
    · exact hup
    · exact absurd (not_not.mp hstate) hdown

theorem inv_connect (env : ConnectEnv) (h : s.Down) : (s.connect cfg env).Inv := by
  unfold connect
  rcases tlsConnect_inv cfg env h with ⟨hok, hup⟩ | ⟨hok, hdown⟩
  · split
    · rename_i heq
      rw [heq] at hup
      exact hup
    · rename_i heq
      rw [heq] at hok
      exact absurd hok (by simp)
  · split
    · rename_i heq
      rw [heq] at hok
      exact absurd hok (by simp)
    · rename_i heq
      rw [heq] at hdown
      exact hdown

theorem inv_popped (pkt : Option FramePacket) (h : s.Up none) : (s.popped o pkt).Inv := by
  cases pkt with
  | none => exact Or.inl h
  | some p => exact h.acquire

theorem inv_write {r : Except SslError Nat} {slot : List UInt8} (h : s.Inv)
    (hs : s.write r slot = some s') : s'.Inv := by
  unfold Inv at h
  rcases write_cases hs with ⟨p, rest, hpc, -, hcase⟩ | ⟨p, off, hpc, -, hcase⟩
  · rw [hpc] at h
    have hup : s.Up (some p) := h
    rcases hcase with ⟨n, rfl⟩ | rfl | rfl
    · exact hup.wrote _
    · simp only [Inv, Net.callWrite, record, hpc]
      exact hup.callWrite
    · exact hup.lost _
  · rw [hpc] at h
    have hup : s.Up (some p) := h
    rcases hcase with ⟨n, rfl⟩ | rfl | rfl
    · exact hup.usePacket.wrote _
    · simp only [Inv, Net.callWrite, Net.usePacket, record, hpc]
      exact hup.usePacket.callWrite
    · exact hup.usePacket.lost _

theorem inv_advance (h : s.Inv) (hs : s.advance cfg = some s') : s'.Inv := by
  unfold Inv at h
  cases advance_cases hs with
  | retry hpc =>
    rw [hpc] at h
    exact Or.inr h
  | headerDone hpc =>
    rw [hpc] at h
    exact h
  | payloadDone hpc _ =>
    rw [hpc] at h
    exact h
  | giveUp hpc =>
    rw [hpc] at h
    exact Up.freePacket h
  | disconnect hpc =>
    rw [hpc] at h
    exact Or.inr (tlsDisconnect_down (Or.inl h))
  | count hpc =>
    rw [hpc] at h
    exact h
  | free hpc =>
    rw [hpc] at h
    exact Or.inl (Up.freePacket h)
  | leave hpc =>
    rw [hpc] at h
    exact tlsDisconnect_down h
  | destroy hpc =>
    rw [hpc] at h
    exact tlsDisconnect_down (Or.inr h)

theorem inv_step {a : Action} (h : s.Inv) (hs : s.step o cfg a = some s') : s'.Inv := by
  cases a with
  | test running =>
    simp only [step] at hs
    split_ifs at hs with hpc
    cases hs
    refine inv_test running ?_
    unfold Inv at h
    rwa [hpc] at h
  | connect env =>
    simp only [step] at hs
    split_ifs at hs with hpc
    cases hs
    refine inv_connect env ?_
    unfold Inv at h
    rwa [hpc] at h
  | popped pkt =>
    simp only [step] at hs
    split_ifs at hs with hpc
    cases hs
    refine inv_popped pkt ?_
    unfold Inv at h
    rwa [hpc] at h
  | write r slot => exact inv_write h hs
  | advance => exact inv_advance h hs

theorem inv_of_reachable (hr : Reachable o cfg s) : s.Inv := by
  have h0 : (construct cfg).Inv := Or.inr ⟨rfl, rfl, by simp [construct], rfl, rfl⟩
  exact Reach.invariant ⟨h0, fun _ h _ hs => inv_step h hs⟩ hr

/-! ## The discipline -/

/-- What is open at each place, and that it is handed back. -/
structure Disciplined (s : Net) : Prop where
  /-- At the loop head the three fields agree. -/
  head : s.pc = .head → (s.state = .connected ↔ s.ssl ≠ none ∧ 0 ≤ s.sockfd) ∧
    (s.state ≠ .connected → s.ssl = none ∧ s.sockfd = -1)
  /-- Everything done so far was done with an open resource, and nothing was acquired while
  another of its kind was open. Where no packet is held none is open, in particular at every
  `pop` and once the loop has returned; before a connection attempt, and once the loop has
  returned, nothing is open. -/
  ledger : ∃ res, replay Res.kind [] s.log = some res ∧
    (s.pc.packet = none → ∀ p, Res.packet p ∉ res) ∧
    (s.pc = .connecting ∨ s.pc = .done ∨ s.pc = .destroyed → res = [])
  /-- `SSL_write` is only called on a live object. -/
  write : ∀ r slot, s.write r slot ≠ none →
    ∃ p res, s.ssl = some p ∧ replay Res.kind [] s.log = some res ∧ Res.ssl (some p) ∈ res
  /-- Once the loop has returned, every acquisition has been released, once. -/
  balanced : s.pc = .done ∨ s.pc = .destroyed →
    ∀ r, s.log.count (.acquire r) = s.log.count (.release r)

theorem write_pc {r : Except SslError Nat} {slot : List UInt8} (h : s.write r slot ≠ none) :
    (∃ p rest, s.pc = .header p rest) ∨ ∃ p off, s.pc = .payload p off := by
  unfold write at h
  split at h
  · rename_i p rest hpc
    exact Or.inl ⟨p, rest, hpc⟩
  · rename_i p off hpc
    exact Or.inr ⟨p, off, hpc⟩
  · exact absurd rfl h

/-- Up or down, whatever the place. -/
theorem Inv.up_or_down (h : s.Inv) : s.Up s.pc.packet ∨ s.Down := by
  unfold Inv at h
  cases hpc : s.pc <;> rw [hpc] at h
  case head => exact h
  case leaving => exact h
  case connecting => exact Or.inr h
  case backoff => exact Or.inr h
  case done => exact Or.inr h
  case destroyed => exact Or.inr h
  all_goals exact Or.inl h

/-- **Connections and packets are disciplined.** Over every run of `networkLoop` and the
destructor, whatever the system, OpenSSL and the queue answer. -/
theorem resources_disciplined (hr : Reachable o cfg s) : s.Disciplined := by
  have hI := inv_of_reachable hr
  have hdown : s.pc = .connecting ∨ s.pc = .done ∨ s.pc = .destroyed → s.Down := by
    rintro (hpc | hpc | hpc) <;> · unfold Inv at hI; rwa [hpc] at hI
  constructor
  · intro _
    rcases hI.up_or_down with ⟨p, fd, hssl, hfd, hstate, -⟩ | ⟨hssl, hfd, hstate, -⟩
    · simp [hssl, hfd, hstate]
    · simp [hssl, hfd, hstate]
  · rcases hI.up_or_down with ⟨p, fd, -, -, hstate, -, hb⟩ | ⟨-, -, -, -, hb⟩
    · refine ⟨_, hb, fun hnone q hq => ?_, fun hpc => absurd hstate (hdown hpc).2.2.1⟩
      rw [hnone] at hq
      simp at hq
    · exact ⟨[], hb, fun _ p hp => absurd hp (by simp), fun _ => rfl⟩
  · intro r slot hw
    have hup : s.Up s.pc.packet := by
      unfold Inv at hI
      rcases write_pc hw with ⟨p, rest, hpc⟩ | ⟨p, off, hpc⟩
      · rw [hpc] at hI ⊢
        exact hI
      · rw [hpc] at hI ⊢
        exact hI
    obtain ⟨p, fd, hssl, -, -, -, hb⟩ := hup
    exact ⟨p, _, hssl, hb, by simp⟩
  · intro hpc r
    obtain ⟨-, -, -, -, hb⟩ := hdown (Or.inr hpc)
    have := replay_count hb r
    simpa using this

/-- The first address refuses, the second connects; the header of the first frame cannot be
written; the loop leaves, and the object is destroyed. -/
theorem reach_destroyed : ∃ s : Net,
    Reachable .little ⟨1000, 30000, fun d => 2 * d⟩ s ∧ s.pc = .destroyed ∧ s.log.length = 10 := by
  have hrun : ∃ s, exec (step .little ⟨1000, 30000, fun d => 2 * d⟩)
      [.test true,
        .connect
          ⟨some [⟨some 3, .failed, 0, 0⟩, ⟨some 3, .inProgress, 1, 0⟩], some 7, true, true, 1⟩,
        .popped (some ⟨0, 1000, 0x47504A4D, 4, 2, 2, 0⟩), .write (.error .other) [], .advance,
        .advance, .test false, .advance, .advance] (construct ⟨1000, 30000, fun d => 2 * d⟩) =
        some s ∧ s.pc = .destroyed ∧ s.log.length = 10 :=
    ⟨_, rfl, rfl, rfl⟩
  obtain ⟨s, hrun, hrest⟩ := hrun
  exact ⟨s, (Runs.of_exec (fun _ _ _ => trivial) hrun).reach Reach.init, hrest⟩

theorem resources_disciplined_destroyed :
    ∃ s : Net, s.pc = .destroyed ∧ s.log.length = 10 ∧ s.Disciplined := by
  obtain ⟨s, hr, hpc, hlog⟩ := reach_destroyed
  exact ⟨s, hpc, hlog, resources_disciplined hr⟩

end Net

end CameraStreamer.TlsClient
