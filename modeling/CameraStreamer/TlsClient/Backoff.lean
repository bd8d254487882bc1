import CameraStreamer.Lib.Binary32
import CameraStreamer.TlsClient.Network

/-!
# The reconnect delay

`reconnect_delay_ms_` over whole runs of `networkLoop`: set by the constructor, reset by a
successful `tlsConnect` (`src/tls_client.cpp:276`), slept and then scaled after a failed one
(`tls_client.cpp:351-361`).

`Traced` runs `Net` beside the history of its attempts and sleeps; a sleep is the `timespec` that
`sleepMs` gives to `nanosleep`. `scaleBy` is the product with the `float` multiplier as the code
computes it.

* `delay_step`: what each step of the network thread does to the delay.
* `nextDelay_eq`: with an integral multiplier the next delay is the next power, capped.
* `onPace_of_reachable`: each failed attempt is followed by its sleep, for the capped power of the
  failures before it.
* **`backoff_schedule`**: so the sleeps are exactly that long, stay between base and maximum, do not
  get shorter within an outage, and start again at the base after a success.
-/

namespace CameraStreamer.TlsClient

open Lib.Machine Lib.Endian

/-- `static_cast<uint32_t>(delay * multiplier)`. -/
def scaleBy (multiplier : Float32) (delay : Nat) : Nat :=
  ((UInt32.ofNat delay).toFloat32 * multiplier).toUInt32.toNat

/-- The `TlsConfig` with these three fields. -/
def TlsConfig.ofFloat (baseMs maxMs : UInt32) (multiplier : Float32) : TlsConfig where
  reconnectBaseMs := baseMs.toNat
  reconnectMaxMs := maxMs.toNat
  scale := scaleBy multiplier

/-- `struct timespec`. -/
structure Timespec where
  sec : Nat
  nsec : Nat
  deriving DecidableEq, Repr

/-- The time it stands for, in nanoseconds. -/
def Timespec.nanoseconds (ts : Timespec) : Nat := ts.sec * 1000000000 + ts.nsec

/-- `nanosleep` accepts it, and it is exactly so many milliseconds. -/
structure Timespec.Lasts (ts : Timespec) (ms : Nat) : Prop where
  nanoseconds : ts.nanoseconds = ms * 1000000
  nsec_lt : ts.nsec < 1000000000

/-- What `sleepMs` gives to `nanosleep` (`tls_client.cpp:335-340`). -/
def sleepMs (ms : Nat) : Timespec := ⟨ms / 1000, ms % 1000 * 1000000⟩

theorem sleepMs_lasts (ms : Nat) : (sleepMs ms).Lasts ms := by
  constructor
  · simp only [sleepMs, Timespec.nanoseconds]
    omega
  · simp only [sleepMs]
    omega

namespace Net

variable {o : ByteOrder} {cfg : TlsConfig} {s s' : Net}

/-! ## What a step does to the delay -/

theorem tlsConnect_delay (cfg : TlsConfig) (s : Net) (env : ConnectEnv) :
    (s.tlsConnect cfg env).2.reconnectDelayMs =
      if (s.tlsConnect cfg env).1 then cfg.reconnectBaseMs else s.reconnectDelayMs := by
  rcases tlsConnect_cases cfg s env with ⟨ssl, sockfd, log, heq⟩ | ⟨ssl, sockfd, log, heq⟩
  · rw [heq]
    rfl
  · rw [heq]
    rfl

theorem tlsDisconnect_delay (s : Net) : s.tlsDisconnect.reconnectDelayMs = s.reconnectDelayMs := by
  obtain ⟨ssl, sockfd, log, heq⟩ := tlsDisconnect_cases s
  rw [heq]

/-- A connection attempt, the sleep after a failed one, or a step that is neither. -/
inductive Delays (cfg : TlsConfig) (s s' : Net) : Action → Prop
  | connected {env : ConnectEnv} (hfrom : s.pc ≠ .backoff) (hret : (s.tlsConnect cfg env).1 = true)
      (hdelay : s'.reconnectDelayMs = cfg.reconnectBaseMs) (hpc : s'.pc ≠ .backoff) :
      Delays cfg s s' (.connect env)
  | failed {env : ConnectEnv} (hfrom : s.pc ≠ .backoff) (hret : (s.tlsConnect cfg env).1 = false)
      (hdelay : s'.reconnectDelayMs = s.reconnectDelayMs) (hpc : s'.pc = .backoff) :
      Delays cfg s s' (.connect env)
  | sleep (hpc : s.pc = .backoff)
      (hdelay : s'.reconnectDelayMs = nextDelay cfg s.reconnectDelayMs) (hpc' : s'.pc ≠ .backoff) :
      Delays cfg s s' .advance
  | other {a : Action} (hact : ∀ env, a ≠ .connect env) (hpc : s.pc ≠ .backoff)
      (hpc' : s'.pc ≠ .backoff) (hdelay : s'.reconnectDelayMs = s.reconnectDelayMs) :
      Delays cfg s s' a

theorem delay_connect (hfrom : s.pc ≠ .backoff) (env : ConnectEnv) :
    Delays cfg s (s.connect cfg env) (.connect env) := by
  have hdelay := tlsConnect_delay cfg s env
  cases hret : s.tlsConnect cfg env with
  | mk r t =>
    have hconnect : s.connect cfg env = { t with pc := if r then .pop else .backoff } := by
      unfold connect
      rw [hret]
      cases r <;> rfl
    rw [hconnect]
    rw [hret] at hdelay
    cases r with
    | true => exact .connected hfrom (by rw [hret]) hdelay (by simp)
    | false => exact .failed hfrom (by rw [hret]) hdelay rfl

/-- **The delay is set by a success and by the sleep after a failure**, and by nothing else. -/
theorem delay_step {a : Action} (h : s.step o cfg a = some s') : Delays cfg s s' a := by
  cases a with
  | test running =>
    obtain ⟨hpc, hs⟩ := Option.ite_none_right_eq_some.mp h
    rw [← Option.some.inj hs]
    unfold test
    split
    · exact .other (fun _ => nofun) (by simp [hpc]) (by simp) rfl
    · split <;> exact .other (fun _ => nofun) (by simp [hpc]) (by simp) rfl
  | connect env =>
    obtain ⟨hpc, hs⟩ := Option.ite_none_right_eq_some.mp h
    rw [← Option.some.inj hs]
    exact delay_connect (by simp [hpc]) env
  | popped pkt =>
    obtain ⟨hpc, hs⟩ := Option.ite_none_right_eq_some.mp h
    rw [← Option.some.inj hs]
    cases pkt <;> exact .other (fun _ => nofun) (by simp [hpc]) (by simp [popped]) rfl
  | write r slot =>
    rcases write_cases h with ⟨p, rest, hpc, -, hs⟩ | ⟨p, off, hpc, -, hs⟩ <;>
    · rcases hs with ⟨n, rfl⟩ | rfl | rfl <;>
      · refine .other (fun _ => nofun) ?_ ?_ rfl <;> simp [callWrite, usePacket, record, hpc]
  | advance =>
    cases advance_cases h with
    | retry hpc => exact .sleep hpc rfl (by simp)
    | disconnect hpc =>
      exact .other (fun _ => nofun) (by simp [hpc]) (by simp) (tlsDisconnect_delay s)
    | leave hpc =>
      exact .other (fun _ => nofun) (by simp [hpc]) (by simp) (tlsDisconnect_delay s)
    | destroy hpc =>
      exact .other (fun _ => nofun) (by simp [hpc]) (by simp) (tlsDisconnect_delay s)
    | headerDone hpc => exact .other (fun _ => nofun) (by simp [hpc]) (by simp) rfl
    | payloadDone hpc _ => exact .other (fun _ => nofun) (by simp [hpc]) (by simp) rfl
    | giveUp hpc => exact .other (fun _ => nofun) (by simp [hpc]) (by simp) rfl
    | count hpc => exact .other (fun _ => nofun) (by simp [hpc]) (by simp) rfl
    | free hpc => exact .other (fun _ => nofun) (by simp [hpc]) (by simp) rfl

end Net

/-! ## The history of a run -/

/-- What the loop does about its connection: an attempt, or the sleep after a failed one. -/
inductive Event
  | connected
  | failed
  /-- `nanosleep` of this time. -/
  | slept (ts : Timespec)
  deriving DecidableEq

/-- The failed attempts since the last success, in a history with its newest event first. -/
def failures : List Event → Nat
  | [] => 0
  | .connected :: _ => 0
  | .failed :: es => failures es + 1
  | .slept _ :: es => failures es

/-- What a step adds to the history. -/
def Net.event? (cfg : TlsConfig) (s : Net) : Net.Action → Option Event
  | .connect env => some (if (s.tlsConnect cfg env).1 then .connected else .failed)
  | .advance => if s.pc = .backoff then some (.slept (sleepMs s.reconnectDelayMs)) else none
  | _ => none

/-- The network thread and its history, newest event first. -/
structure Traced where
  net : Net
  events : List Event

namespace Traced

/-- One step of the network thread. -/
def step (o : ByteOrder) (cfg : TlsConfig) (t : Traced) (a : Net.Action) : Option Traced :=
  (t.net.step o cfg a).map fun s => ⟨s, (t.net.event? cfg a).toList ++ t.events⟩

/-- The run begins. -/
def init (cfg : TlsConfig) : Traced := ⟨Net.construct cfg, []⟩

/-- Reachable by a run of `networkLoop` and then the destructor, whatever the answers. -/
def Reachable (o : ByteOrder) (cfg : TlsConfig) (t : Traced) : Prop :=
  Reach (step o cfg) (fun _ _ => True) (init cfg) t

variable {o : ByteOrder} {cfg : TlsConfig} {t t' : Traced}

theorem step_cases {a : Net.Action} (h : t.step o cfg a = some t') :
    t.net.step o cfg a = some t'.net ∧ t'.events = (t.net.event? cfg a).toList ++ t.events := by
  obtain ⟨s, hs, rfl⟩ := Option.map_eq_some_iff.mp h
  exact ⟨hs, rfl⟩

/-- The history only watches. -/
theorem net_reachable (hr : Reachable o cfg t) : Net.Reachable o cfg t.net :=
  hr.project Traced.net fun a _ _ hs => Or.inr ⟨a, trivial, (step_cases hs).1⟩

end Traced

/-! ## Paced histories -/

/-- Each failed attempt is followed by its sleep, of the delay for the failures before it. -/
inductive Paced (delay : Nat → Nat) : List Event → Prop
  | nil : Paced delay []
  | connected {es : List Event} (h : Paced delay es) : Paced delay (.connected :: es)
  | retried {es : List Event} (h : Paced delay es) :
      Paced delay (.slept (sleepMs (delay (failures es))) :: .failed :: es)

variable {delay : Nat → Nat} {es later earlier mid : List Event} {ts : Timespec}

theorem Paced.slept (h : Paced delay es) (heq : es = later ++ .slept ts :: earlier) :
    ∃ before, earlier = .failed :: before ∧ ts = sleepMs (delay (failures before)) := by
  induction h generalizing later with
  | nil => exact absurd heq.symm (by simp)
  | connected h ih =>
    cases later with
    | nil => exact absurd heq (by simp)
    | cons e later => exact ih (List.cons_eq_cons.mp heq).2
  | @retried es h ih =>
    cases later with
    | nil =>
      simp only [List.nil_append, List.cons.injEq, Event.slept.injEq] at heq
      exact ⟨es, heq.2.symm, heq.1.symm⟩
    | cons e later =>
      cases later with
      | nil => exact absurd heq (by simp)
      | cons e' later => exact ih (List.cons_eq_cons.mp (List.cons_eq_cons.mp heq).2).2

theorem Paced.failed (h : Paced delay es) (heq : es = later ++ .failed :: earlier) :
    ∃ rest : List Event, later = rest ++ [Event.slept (sleepMs (delay (failures earlier)))] := by
  induction h generalizing later with
  | nil => exact absurd heq.symm (by simp)
  | connected h ih =>
    cases later with
    | nil => exact absurd heq (by simp)
    | cons e later =>
      obtain ⟨rest, hrest⟩ := ih (List.cons_eq_cons.mp heq).2
      exact ⟨e :: rest, by rw [hrest, List.cons_append]⟩
  | @retried es h ih =>
    cases later with
    | nil => exact absurd heq (by simp)
    | cons e later =>
      cases later with
      | nil =>
        simp only [List.cons_append, List.nil_append, List.cons.injEq, true_and] at heq
        exact ⟨[], by rw [← heq.1, ← heq.2]; rfl⟩
      | cons e' later =>
        obtain ⟨rest, hrest⟩ := ih (List.cons_eq_cons.mp (List.cons_eq_cons.mp heq).2).2
        exact ⟨e :: e' :: rest, by rw [hrest, List.cons_append, List.cons_append]⟩

/-- Failures add up until the next success. -/
theorem failures_le_append (es : List Event) (h : .connected ∉ mid) :
    failures es ≤ failures (mid ++ es) := by
  induction mid with
  | nil => exact Nat.le_refl _
  | cons e mid ih =>
    have hle := ih fun hm => h (List.mem_cons_of_mem e hm)
    cases e with
    | connected => exact absurd List.mem_cons_self h
    | failed => exact Nat.le_succ_of_le hle
    | slept ts => exact hle

/-! ## Capped powers -/

/-- The delay after `k` failures. -/
def capped (base cap m k : Nat) : Nat := min (base * m ^ k) cap

variable {base cap m k : Nat}

theorem base_le_capped (hle : base ≤ cap) (hm : 1 ≤ m) : base ≤ capped base cap m k :=
  Nat.le_min.mpr ⟨Nat.le_mul_of_pos_right base (Nat.pow_pos hm), hle⟩

theorem capped_le : capped base cap m k ≤ cap := Nat.min_le_right _ _

theorem capped_zero (hle : base ≤ cap) : capped base cap m 0 = base := by
  unfold capped
  rw [Nat.pow_zero, Nat.mul_one, Nat.min_eq_left hle]

theorem capped_mono (hm : 1 ≤ m) {k' : Nat} (hk : k ≤ k') :
    capped base cap m k ≤ capped base cap m k' := by
  have hpow : base * m ^ k ≤ base * m ^ k' := Nat.mul_le_mul_left _ (Nat.pow_le_pow_right hm hk)
  exact Nat.le_min.mpr ⟨(Nat.min_le_left _ _).trans hpow, Nat.min_le_right _ _⟩

/-- Multiplying and capping goes one power on, also past the cap. -/
theorem capped_succ (hm : 1 ≤ m) :
    min (capped base cap m k * m) cap = capped base cap m (k + 1) := by
  unfold capped
  rw [Nat.pow_succ, ← Nat.mul_assoc]
  rcases Nat.le_total (base * m ^ k) cap with hle | hge
  · rw [Nat.min_eq_left hle]
  · have hcap : cap ≤ cap * m := Nat.le_mul_of_pos_right cap hm
    have hgrow : base * m ^ k ≤ base * m ^ k * m := Nat.le_mul_of_pos_right _ hm
    rw [Nat.min_eq_right hge, Nat.min_eq_right hcap, Nat.min_eq_right (hge.trans hgrow)]

/-! ## Runs -/

/-- A configuration with an integral multiplier whose products `float` holds exactly. -/
structure Integral (baseMs maxMs : UInt32) (m : Nat) : Prop where
  base_pos : 1 ≤ baseMs.toNat
  base_le : baseMs.toNat ≤ maxMs.toNat
  multiplier_pos : 1 ≤ m
  product_le : maxMs.toNat * m ≤ 2 ^ 24

/-- The configuration. -/
def integralConfig (baseMs maxMs : UInt32) (m : Nat) : TlsConfig :=
  .ofFloat baseMs maxMs (UInt32.ofNat m).toFloat32

variable {baseMs maxMs : UInt32} {o : ByteOrder} {t t' : Traced}

/-- **Multiply, convert, clamp** goes one power on. -/
theorem nextDelay_eq (h : Integral baseMs maxMs m) :
    Net.nextDelay (integralConfig baseMs maxMs m) (capped baseMs.toNat maxMs.toNat m k) =
      capped baseMs.toNat maxMs.toNat m (k + 1) := by
  have hlo : baseMs.toNat ≤ capped baseMs.toNat maxMs.toNat m k :=
    base_le_capped h.base_le h.multiplier_pos
  have hpos : 0 < capped baseMs.toNat maxMs.toNat m k := Nat.lt_of_lt_of_le h.base_pos hlo
  have hproduct : capped baseMs.toNat maxMs.toNat m k * m ≤ 2 ^ 24 :=
    (Nat.mul_le_mul_right m capped_le).trans h.product_le
  have hscale : (integralConfig baseMs maxMs m).scale (capped baseMs.toNat maxMs.toNat m k) =
      capped baseMs.toNat maxMs.toNat m k * m :=
    Lib.Binary32.mul_toUInt32 hpos h.multiplier_pos hproduct
  have hmax : (integralConfig baseMs maxMs m).reconnectMaxMs = maxMs.toNat := rfl
  unfold Net.nextDelay
  rw [hscale, hmax, ← capped_succ h.multiplier_pos]
  split <;> omega

/-- Where the run stands: a paced history, and the delay that is due; before the sleep the failed
attempt comes on top. -/
def OnPace (baseMs maxMs : UInt32) (m : Nat) (t : Traced) : Prop :=
  ∃ es, Paced (capped baseMs.toNat maxMs.toNat m) es ∧
    t.net.reconnectDelayMs = capped baseMs.toNat maxMs.toNat m (failures es) ∧
    (t.net.pc ≠ .backoff ∧ t.events = es ∨ t.net.pc = .backoff ∧ t.events = .failed :: es)

theorem onPace_step (h : Integral baseMs maxMs m) {a : Net.Action}
    (hI : OnPace baseMs maxMs m t) (hs : t.step o (integralConfig baseMs maxMs m) a = some t') :
    OnPace baseMs maxMs m t' := by
  obtain ⟨es, hes, hdue, hpc⟩ := hI
  obtain ⟨hnet, hevents⟩ := Traced.step_cases hs
  cases Net.delay_step hnet with
  | connected hfrom hret hdelay hpc' =>
    obtain ⟨-, hold⟩ := hpc.resolve_right fun hb => hfrom hb.1
    refine ⟨.connected :: es, .connected hes, ?_, Or.inl ⟨hpc', ?_⟩⟩
    · rw [hdelay]
      exact (capped_zero h.base_le).symm
    · simp [hevents, Net.event?, hret, hold]
  | failed hfrom hret hdelay hpc' =>
    obtain ⟨-, hold⟩ := hpc.resolve_right fun hb => hfrom hb.1
    refine ⟨es, hes, hdelay.trans hdue, Or.inr ⟨hpc', ?_⟩⟩
    simp [hevents, Net.event?, hret, hold]
  | sleep hfrom hdelay hpc' =>
    obtain ⟨-, hold⟩ := hpc.resolve_left fun hb => hb.1 hfrom
    refine ⟨_, .retried hes, ?_, Or.inl ⟨hpc', ?_⟩⟩
    · rw [hdelay, hdue]
      exact nextDelay_eq h
    · simp [hevents, Net.event?, hfrom, hdue, hold]
  | other hact hfrom hpc' hdelay =>
    obtain ⟨-, hold⟩ := hpc.resolve_right fun hb => hfrom hb.1
    refine ⟨es, hes, hdelay.trans hdue, Or.inl ⟨hpc', ?_⟩⟩
    rw [hevents, hold]
    cases a with
    | connect env => exact absurd rfl (hact env)
    | advance => simp [Net.event?, hfrom]
    | _ => rfl

theorem onPace_of_reachable (h : Integral baseMs maxMs m)
    (hr : Traced.Reachable o (integralConfig baseMs maxMs m) t) : OnPace baseMs maxMs m t :=
  hr.invariant
    ⟨⟨[], .nil, (capped_zero h.base_le).symm, Or.inl ⟨by simp [Traced.init, Net.construct], rfl⟩⟩,
      fun _ hI _ hs => onPace_step h hI hs⟩

/-- What the network thread sleeps. -/
structure Schedule (base cap m : Nat) (t : Traced) : Prop where
  /-- A failed attempt is followed by its sleep, unless that is still to come. -/
  slept : ∀ later before : List Event, t.events = later ++ Event.failed :: before →
    (later = [] ∧ t.net.pc = .backoff) ∨
      ∃ (rest : List Event) (ts : Timespec), later = rest ++ [Event.slept ts] ∧
        ts.Lasts (min (base * m ^ failures before) cap)
  /-- Each sleep is that of a failed attempt. -/
  delay : ∀ (later : List Event) ts earlier, t.events = later ++ Event.slept ts :: earlier →
    ∃ before, earlier = Event.failed :: before ∧
      ts.Lasts (min (base * m ^ failures before) cap)
  bounds : ∀ ts, Event.slept ts ∈ t.events →
    base * 1000000 ≤ ts.nanoseconds ∧ ts.nanoseconds ≤ cap * 1000000
  /-- No success in between: the later sleep is not the shorter one. -/
  monotone : ∀ (later : List Event) ts' (mid : List Event) ts earlier,
    t.events = later ++ Event.slept ts' :: (mid ++ Event.slept ts :: earlier) →
      Event.connected ∉ mid → ts.nanoseconds ≤ ts'.nanoseconds
  /-- The first failure of an outage, or of the run. -/
  restarts : ∀ (later : List Event) ts before,
    t.events = later ++ Event.slept ts :: Event.failed :: before →
      before = [] ∨ (∃ rest, before = Event.connected :: rest) → ts.Lasts base

/-- **The backoff schedule**, for every run of `networkLoop` and every configuration with an
integral multiplier whose products `float` holds exactly. -/
theorem backoff_schedule (h : Integral baseMs maxMs m)
    (hr : Traced.Reachable o (integralConfig baseMs maxMs m) t) :
    Schedule baseMs.toNat maxMs.toNat m t := by
  obtain ⟨es, hes, -, hpc⟩ := onPace_of_reachable h hr
  have hslept : ∀ (later : List Event) ts earlier, t.events = later ++ .slept ts :: earlier →
      ∃ before, earlier = .failed :: before ∧
        ts = sleepMs (capped baseMs.toNat maxMs.toNat m (failures before)) := by
    intro later ts earlier heq
    rcases hpc with ⟨-, hev⟩ | ⟨-, hev⟩
    · exact hes.slept (hev.symm.trans heq)
    · rw [hev] at heq
      cases later with
      | nil => exact absurd heq (by simp)
      | cons e later => exact hes.slept (List.cons_eq_cons.mp heq).2
  refine
    { slept := fun later before heq => ?_, delay := fun later ts earlier heq => ?_,
      bounds := fun ts hts => ?_, monotone := fun later ts' mid ts earlier heq hmid => ?_,
      restarts := fun later ts before heq hfirst => ?_ }
  · rcases hpc with ⟨-, hev⟩ | ⟨hb, hev⟩
    · obtain ⟨rest, hrest⟩ := hes.failed (hev.symm.trans heq)
      exact Or.inr ⟨rest, _, hrest, sleepMs_lasts _⟩
    · rw [hev] at heq
      cases later with
      | nil => exact Or.inl ⟨rfl, hb⟩
      | cons e later =>
        obtain ⟨rest, hrest⟩ := hes.failed (List.cons_eq_cons.mp heq).2
        exact Or.inr ⟨e :: rest, _, List.cons_eq_cons.mpr ⟨rfl, hrest⟩, sleepMs_lasts _⟩
  · obtain ⟨before, hbefore, rfl⟩ := hslept later ts earlier heq
    exact ⟨before, hbefore, sleepMs_lasts _⟩
  · obtain ⟨later, earlier, heq⟩ := List.append_of_mem hts
    obtain ⟨before, -, rfl⟩ := hslept later ts earlier heq
    rw [(sleepMs_lasts _).nanoseconds]
    exact ⟨Nat.mul_le_mul_right _ (base_le_capped h.base_le h.multiplier_pos),
      Nat.mul_le_mul_right _ capped_le⟩
  · obtain ⟨before', hbefore', rfl⟩ := hslept _ _ _ heq
    rw [← List.cons_append, ← List.append_assoc] at heq
    obtain ⟨before, rfl, rfl⟩ := hslept _ _ _ heq
    rw [(sleepMs_lasts _).nanoseconds, (sleepMs_lasts _).nanoseconds]
    cases mid with
    | nil => exact absurd hbefore' (by simp)
    | cons e mid =>
      rw [← (List.cons_eq_cons.mp hbefore').2]
      have hle := failures_le_append (.slept (sleepMs (capped baseMs.toNat maxMs.toNat m
        (failures before))) :: .failed :: before) fun hm => hmid (List.mem_cons_of_mem e hm)
      exact Nat.mul_le_mul_right _
        (capped_mono h.multiplier_pos (Nat.le_trans (Nat.le_succ _) hle))
  · obtain ⟨before', hbefore, rfl⟩ := hslept _ _ _ heq
    rw [← (List.cons_eq_cons.mp hbefore).2]
    have hzero : capped baseMs.toNat maxMs.toNat m (failures before) = baseMs.toNat := by
      rcases hfirst with rfl | ⟨rest, rfl⟩
      · exact capped_zero h.base_le
      · exact capped_zero h.base_le
    rw [hzero]
    exact sleepMs_lasts _

/-- The shipped configuration, and two attempts that find no address. -/
theorem backoff_schedule_two_failures : ∃ t : Traced,
    t.events = [.slept ⟨2, 0⟩, .failed, .slept ⟨1, 0⟩, .failed] ∧ Schedule 1000 30000 2 t := by
  have hrun : ∃ t, exec (Traced.step .little (integralConfig 1000 30000 2))
      [.test true, .connect ⟨none, none, true, true, 1⟩, .advance,
        .test true, .connect ⟨none, none, true, true, 1⟩, .advance]
      (Traced.init (integralConfig 1000 30000 2)) = some t ∧
      t.events = [.slept ⟨2, 0⟩, .failed, .slept ⟨1, 0⟩, .failed] :=
    ⟨_, rfl, rfl⟩
  obtain ⟨t, hrun, hevents⟩ := hrun
  have hI : Integral 1000 30000 2 := ⟨by decide, by decide, by decide, by decide⟩
  have hr : Traced.Reachable .little (integralConfig 1000 30000 2) t :=
    (Runs.of_exec (fun _ _ _ => trivial) hrun).reach Reach.init
  exact ⟨t, hevents, backoff_schedule hI hr⟩

end CameraStreamer.TlsClient
