import Mathlib.Order.Basic

/-!
# Partial transfers and the loop that completes them

One call of a transfer primitive (`read`, `write` and their kin) asked for `n` bytes moves some
of them, asks to be called again, or fails. An `Endpoint` is such a primitive on a state `σ`,
with the two facts a caller's loop relies on: it never moves more than it was asked to, and it
does not put its caller off for ever (`patience` bounds what it still may do without moving a
byte). `transferAll` is the loop that calls it until everything is moved or it fails.

* `transferAll_ok_iff`: the loop succeeds iff it has moved everything.
* `transferAll_calls`: every call asks for exactly the rest of the buffer, so none leaves it.

Two endpoints take their behaviour from a script, one entry a call: `Sink` (a `write`) and
`Source` (a `read`). Whether an error is one to retry is a parameter `retries`.

* `sink_transferAll`: what the sink has taken is what the caller has moved, all of it when the
  script has no error but ones to retry (`sink_transferAll_ok`).
* `source_transferAll`: the reader gets the next symbols of the stream, and succeeds iff it has
  that many left, whatever the script.
-/

namespace Lib.Transfer

/-- The result of one call. -/
inductive Io
  | moved (k : Nat)
  | retry
  | failed
  deriving DecidableEq, Repr

/-- A transfer primitive on a state `σ`. -/
structure Endpoint (σ : Type) where
  call : σ → Nat → Io × σ
  patience : σ → Nat
  moved_le : ∀ {s s' : σ} {n k : Nat}, call s n = (.moved k, s') → k ≤ n
  moved_lt : ∀ {s s' : σ} {n k : Nat}, 0 < n → call s n = (.moved k, s') →
    patience s' + (n - k) < patience s + n
  retry_lt : ∀ {s s' : σ} {n : Nat}, call s n = (.retry, s') → patience s' < patience s

/-- How a loop ended: whether everything was moved, how far it came, and the `(offset, length)`
of each call it made. -/
structure Outcome (σ : Type) where
  ok : Bool
  moved : Nat
  state : σ
  calls : List (Nat × Nat)

variable {σ : Type}

/-- Call until `remaining` bytes from `off` are moved. -/
def transferAll (e : Endpoint σ) (s : σ) (off remaining : Nat) : Outcome σ :=
  if _ : remaining = 0 then ⟨true, off, s, []⟩
  else
    match _ : e.call s remaining with
    | (.failed, s') => ⟨false, off, s', [(off, remaining)]⟩
    | (.retry, s') =>
      let out := transferAll e s' off remaining
      { out with calls := (off, remaining) :: out.calls }
    | (.moved k, s') =>
      let out := transferAll e s' (off + k) (remaining - k)
      { out with calls := (off, remaining) :: out.calls }
termination_by e.patience s + remaining
decreasing_by
  · rename_i hcall
    have := e.retry_lt hcall
    omega
  · rename_i hcall
    exact e.moved_lt (Nat.pos_of_ne_zero ‹_›) hcall

variable (e : Endpoint σ) (s : σ) (off remaining : Nat)

theorem transferAll_zero : transferAll e s off 0 = ⟨true, off, s, []⟩ := by
  rw [transferAll]
  simp

theorem transferAll_failed {s' : σ} (hrem : 0 < remaining)
    (hcall : e.call s remaining = (.failed, s')) :
    transferAll e s off remaining = ⟨false, off, s', [(off, remaining)]⟩ := by
  rw [transferAll, dif_neg (Nat.pos_iff_ne_zero.mp hrem)]
  split
  · rename_i heq
    rw [hcall] at heq
    cases heq
    rfl
  · rename_i heq
    rw [hcall] at heq
    cases heq
  · rename_i heq
    rw [hcall] at heq
    cases heq

theorem transferAll_retry {s' : σ} (hrem : 0 < remaining)
    (hcall : e.call s remaining = (.retry, s')) :
    transferAll e s off remaining =
      { transferAll e s' off remaining with
        calls := (off, remaining) :: (transferAll e s' off remaining).calls } := by
  rw [transferAll, dif_neg (Nat.pos_iff_ne_zero.mp hrem)]
  split
  · rename_i heq
    rw [hcall] at heq
    cases heq
  · rename_i heq
    rw [hcall] at heq
    cases heq
    rfl
  · rename_i heq
    rw [hcall] at heq
    cases heq

theorem transferAll_moved {s' : σ} {k : Nat} (hrem : 0 < remaining)
    (hcall : e.call s remaining = (.moved k, s')) :
    transferAll e s off remaining =
      { transferAll e s' (off + k) (remaining - k) with
        calls := (off, remaining) :: (transferAll e s' (off + k) (remaining - k)).calls } := by
  rw [transferAll, dif_neg (Nat.pos_iff_ne_zero.mp hrem)]
  split
  · rename_i heq
    rw [hcall] at heq
    cases heq
  · rename_i heq
    rw [hcall] at heq
    cases heq
  · rename_i heq
    rw [hcall] at heq
    cases heq
    rfl

/-- **The rule for the loop**: a relation between start and outcome that holds when nothing is
left and when a call fails, and that a retry and a partial transfer carry over. -/
theorem transferAll_rule {R : σ → Nat → Nat → Outcome σ → Prop}
    (done : ∀ s off, R s off 0 ⟨true, off, s, []⟩)
    (failed : ∀ s s' off n, 0 < n → e.call s n = (.failed, s') →
      R s off n ⟨false, off, s', [(off, n)]⟩)
    (retry : ∀ s s' off n out, 0 < n → e.call s n = (.retry, s') → R s' off n out →
      R s off n { out with calls := (off, n) :: out.calls })
    (moved : ∀ s s' off n k out, 0 < n → e.call s n = (.moved k, s') →
      R s' (off + k) (n - k) out → R s off n { out with calls := (off, n) :: out.calls }) :
    R s off remaining (transferAll e s off remaining) := by
  -- on what the endpoint may still put off plus what is left to move
  induction hm : e.patience s + remaining using Nat.strongRecOn
    generalizing s off remaining with
  | ind m ih =>
    subst hm
    by_cases hrem : remaining = 0
    · rw [hrem, transferAll_zero]
      exact done s off
    · have hpos : 0 < remaining := Nat.pos_of_ne_zero hrem
      match hcall : e.call s remaining with
      | (.failed, s') =>
        rw [transferAll_failed e s off remaining hpos hcall]
        exact failed s s' off remaining hpos hcall
      | (.retry, s') =>
        have hlt := e.retry_lt hcall
        rw [transferAll_retry e s off remaining hpos hcall]
        exact retry s s' off remaining _ hpos hcall (ih _ (by omega) s' off remaining rfl)
      | (.moved k, s') =>
        have hlt := e.moved_lt hpos hcall
        rw [transferAll_moved e s off remaining hpos hcall]
        exact moved s s' off remaining k _ hpos hcall (ih _ hlt s' (off + k) (remaining - k) rfl)

/-- **The loop succeeds iff it has moved everything**, and never moves more. -/
theorem transferAll_ok_iff :
    off ≤ (transferAll e s off remaining).moved ∧
      (transferAll e s off remaining).moved ≤ off + remaining ∧
      ((transferAll e s off remaining).ok = true ↔
        (transferAll e s off remaining).moved = off + remaining) := by
  apply transferAll_rule e s off remaining
    (R := fun _ off n out => off ≤ out.moved ∧ out.moved ≤ off + n ∧
      (out.ok = true ↔ out.moved = off + n))
  · intro s off
    simp
  · intro s s' off n hn _
    refine ⟨Nat.le_refl _, Nat.le_add_right _ _, ?_⟩
    simp only [Bool.false_eq_true, false_iff]
    omega
  · intro s s' off n out _ _ h
    exact h
  · intro s s' off n k out _ hcall ⟨h1, h2, h3⟩
    have hk := e.moved_le hcall
    refine ⟨by simp only; omega, by simp only; omega, ?_⟩
    simp only [h3]
    omega

/-- **Every call asks for the rest of the buffer**: none reaches past its end. -/
theorem transferAll_calls :
    ∀ c ∈ (transferAll e s off remaining).calls, c.1 + c.2 = off + remaining := by
  apply transferAll_rule e s off remaining
    (R := fun _ off n out => ∀ c ∈ out.calls, c.1 + c.2 = off + n)
  · intro s off c hc
    exact absurd hc (by simp)
  · intro s s' off n _ _ c hc
    rw [List.mem_singleton] at hc
    rw [hc]
  · intro s s' off n out _ _ h c hc
    rcases List.mem_cons.mp hc with rfl | hc
    · rfl
    · exact h c hc
  · intro s s' off n k out _ hcall h c hc
    have hk := e.moved_le hcall
    rcases List.mem_cons.mp hc with rfl | hc
    · rfl
    · have := h c hc
      omega

/-! ## Scripted sinks -/

section Sink

variable {ε α : Type}

/-- A sink, and the buffer its caller writes from: the script of what the next calls do (`.ok k`
takes up to `k` symbols, an exhausted script takes all it is offered), the symbols the caller's
pointer points at, and the symbols taken so far. -/
structure Sink (ε α : Type) where
  script : List (Except ε Nat)
  rest : List α
  sent : List α

/-- Take `k` symbols from the buffer. -/
def Sink.take (w : Sink ε α) (k : Nat) : Sink ε α :=
  { w with rest := w.rest.drop k, sent := w.sent ++ w.rest.take k }

/-- One call asked for `n` symbols; a call that succeeds takes at least `least` of them. -/
def Sink.put (least : Nat) (w : Sink ε α) (n : Nat) : Except ε Nat × Sink ε α :=
  match w.script with
  | [] => (.ok n, w.take n)
  | .ok k :: script => (.ok (min (max least k) n), { w with script }.take (min (max least k) n))
  | .error e :: script => (.error e, { w with script })

/-- A call as the loop sees it. -/
def Sink.call (retries : ε → Bool) (least : Nat) (w : Sink ε α) (n : Nat) : Io × Sink ε α :=
  match w.put least n with
  | (.ok k, w') => (.moved k, w')
  | (.error e, w') => (if retries e then .retry else .failed, w')

section Call

variable {retries : ε → Bool} {least : Nat} {w w' : Sink ε α} {n k : Nat}

/-- A call that moves symbols takes them from the buffer, all it was offered or by a script
entry. -/
theorem Sink.call_moved (h : w.call retries least n = (.moved k, w')) :
    ∃ script, k ≤ n ∧ script.length ≤ w.script.length ∧
      (k = n ∨ script.length < w.script.length) ∧ script ⊆ w.script ∧
      w' = { w with script }.take k := by
  obtain ⟨script, rest, sent⟩ := w
  cases script with
  | nil =>
    simp only [Sink.call, Sink.put, Prod.mk.injEq, Io.moved.injEq] at h
    obtain ⟨rfl, rfl⟩ := h
    exact ⟨[], Nat.le_refl n, Nat.le_refl _, Or.inl rfl, List.Subset.refl _, rfl⟩
  | cons ev script =>
    cases ev with
    | ok j =>
      simp only [Sink.call, Sink.put, Prod.mk.injEq, Io.moved.injEq] at h
      obtain ⟨rfl, rfl⟩ := h
      exact ⟨script, Nat.min_le_right _ _, Nat.le_succ _, Or.inr (Nat.lt_succ_self _),
        List.subset_cons_self _ _, rfl⟩
    | error e =>
      simp only [Sink.call, Sink.put, Prod.mk.injEq] at h
      split at h <;> exact absurd h.1 (by simp)

/-- A call that moves nothing uses up a script entry and leaves the rest alone. -/
theorem Sink.call_idle {io : Io} (hio : ∀ k, io ≠ .moved k)
    (h : w.call retries least n = (io, w')) :
    ∃ script, script.length < w.script.length ∧ script ⊆ w.script ∧ w' = { w with script } := by
  obtain ⟨script, rest, sent⟩ := w
  cases script with
  | nil => exact absurd (congrArg Prod.fst h).symm (hio n)
  | cons ev script =>
    cases ev with
    | ok j => exact absurd (congrArg Prod.fst h).symm (hio _)
    | error e =>
      simp only [Sink.call, Sink.put, Prod.mk.injEq] at h
      exact ⟨script, Nat.lt_succ_self _, List.subset_cons_self _ _, h.2.symm⟩

/-- A call fails on an error that is not one to retry. -/
theorem Sink.call_failed (h : w.call retries least n = (.failed, w')) :
    ∃ e, Except.error e ∈ w.script ∧ retries e = false := by
  obtain ⟨script, rest, sent⟩ := w
  cases script with
  | nil => exact absurd (congrArg Prod.fst h) (by simp [Sink.call, Sink.put])
  | cons ev script =>
    cases ev with
    | ok j => exact absurd (congrArg Prod.fst h) (by simp [Sink.call, Sink.put])
    | error e =>
      refine ⟨e, List.mem_cons_self, ?_⟩
      simp only [Sink.call, Sink.put, Prod.mk.injEq] at h
      by_contra hr
      rw [if_pos (by simpa using hr)] at h
      exact absurd h.1 (by simp)

end Call

/-- The sink as an endpoint. -/
def sink (retries : ε → Bool) (least : Nat) : Endpoint (Sink ε α) where
  call := Sink.call retries least
  patience w := w.script.length
  moved_le h := by
    obtain ⟨script, hle, -⟩ := Sink.call_moved h
    exact hle
  moved_lt hn h := by
    obtain ⟨script, hle, hlen, hprog, -, rfl⟩ := Sink.call_moved h
    simp only [Sink.take]
    omega
  retry_lt h := by
    obtain ⟨script, hlt, -, rfl⟩ := Sink.call_idle (by simp) h
    exact hlt

/-- **What the sink has taken is what was moved.** -/
theorem sink_transferAll (retries : ε → Bool) (least : Nat) (w : Sink ε α) (off n : Nat) :
    off ≤ (transferAll (sink retries least) w off n).moved ∧
      (transferAll (sink retries least) w off n).state.sent =
        w.sent ++ w.rest.take ((transferAll (sink retries least) w off n).moved - off) := by
  apply transferAll_rule (sink retries least) w off n
    (R := fun w off _ out => off ≤ out.moved ∧
      out.state.sent = w.sent ++ w.rest.take (out.moved - off))
  · intro w off
    simp
  · intro w w' off n _ hcall
    obtain ⟨script, -, -, rfl⟩ := Sink.call_idle (by simp) hcall
    simp
  · intro w w' off n out _ hcall h
    obtain ⟨script, -, -, rfl⟩ := Sink.call_idle (by simp) hcall
    exact h
  · intro w w' off n k out _ hcall ⟨hle, hsent⟩
    obtain ⟨script, -, -, -, -, rfl⟩ := Sink.call_moved hcall
    refine ⟨by simp only; omega, ?_⟩
    simp only [Sink.take] at hsent ⊢
    rw [hsent, List.append_assoc, ← List.take_add]
    congr 2
    omega

/-- What is left of the script was in it. -/
theorem sink_transferAll_script (retries : ε → Bool) (least : Nat) (w : Sink ε α) (off n : Nat) :
    (transferAll (sink retries least) w off n).state.script ⊆ w.script := by
  apply transferAll_rule (sink retries least) w off n
    (R := fun w _ _ out => out.state.script ⊆ w.script)
  · intro w off
    exact List.Subset.refl _
  · intro w w' off n _ hcall
    obtain ⟨script, -, hsub, rfl⟩ := Sink.call_idle (by simp) hcall
    exact hsub
  · intro w w' off n out _ hcall ih
    obtain ⟨script, -, hsub, rfl⟩ := Sink.call_idle (by simp) hcall
    exact List.Subset.trans ih hsub
  · intro w w' off n k out _ hcall ih
    obtain ⟨script, -, -, -, hsub, rfl⟩ := Sink.call_moved hcall
    exact List.Subset.trans ih hsub

/-- A script whose errors are all ones to retry is carried through. -/
theorem sink_transferAll_ok {retries : ε → Bool} (least : Nat) (w : Sink ε α) (off n : Nat) :
    (∀ e, Except.error e ∈ w.script → retries e = true) →
      (transferAll (sink retries least) w off n).ok = true := by
  apply transferAll_rule (sink retries least) w off n
    (R := fun w _ _ out => (∀ e, Except.error e ∈ w.script → retries e = true) → out.ok = true)
  · intro w off _
    rfl
  · intro w w' off n _ hcall hgood
    obtain ⟨e, hmem, hbad⟩ := Sink.call_failed hcall
    rw [hgood e hmem] at hbad
    exact absurd hbad (by simp)
  · intro w w' off n out _ hcall ih hgood
    obtain ⟨script, -, hsub, rfl⟩ := Sink.call_idle (by simp) hcall
    exact ih fun e he => hgood e (hsub he)
  · intro w w' off n k out _ hcall ih hgood
    obtain ⟨script, -, -, -, hsub, rfl⟩ := Sink.call_moved hcall
    exact ih fun e he => hgood e (hsub he)

end Sink

/-! ## Scripted sources -/

section Source

variable {ε α : Type} {retries : ε → Bool}

/-- A source: the script of what the next calls do (`.ok k` delivers up to `k` symbols, an
exhausted script delivers all it is asked for), the symbols still to come, the error that every
call gets once there are none, and how many it has delivered. -/
structure Source (ε α : Type) (retries : ε → Bool) where
  script : List (Except {e : ε // retries e = true} Nat)
  stream : List α
  ending : {e : ε // retries e = false}
  pos : Nat

/-- Deliver up to `k` symbols. -/
def Source.deliver (c : Source ε α retries) (k : Nat) :
    Except ε (List α) × Source ε α retries :=
  if c.stream.length = 0 then (.error c.ending, c)
  else (.ok (c.stream.take k),
    { c with stream := c.stream.drop k, pos := c.pos + (c.stream.take k).length })

/-- One call asked for `n` symbols; one that succeeds delivers at least one of them. -/
def Source.get (c : Source ε α retries) (n : Nat) : Except ε (List α) × Source ε α retries :=
  match c.script with
  | [] => c.deliver n
  | .ok k :: script => { c with script }.deliver (min (max 1 k) n)
  | .error e :: script => (.error e, { c with script })

/-- A source, and what the caller has stored of it. -/
structure Fill (ε α : Type) (retries : ε → Bool) where
  src : Source ε α retries
  got : List α

/-- A call as the loop sees it; `classify` is the caller's own test for an error to retry. -/
def Fill.call (classify : ε → Bool) (f : Fill ε α retries) (n : Nat) : Io × Fill ε α retries :=
  match f.src.get n with
  | (.ok xs, src) => (.moved xs.length, ⟨src, f.got ++ xs⟩)
  | (.error e, src) => (if classify e then .retry else .failed, ⟨src, f.got⟩)

/-- The three things a call does: deliver, report an error to retry, report the end. -/
theorem Fill.call_cases {classify : ε → Bool} (hc : ∀ e, classify e = retries e)
    (f : Fill ε α retries) (n : Nat) :
    (∃ k script, k ≤ n ∧ (0 < n → 0 < k) ∧ script.length ≤ f.src.script.length ∧
      f.call classify n = (.moved (f.src.stream.take k).length,
        ⟨⟨script, f.src.stream.drop k, f.src.ending, f.src.pos + (f.src.stream.take k).length⟩,
          f.got ++ f.src.stream.take k⟩) ∧ 0 < f.src.stream.length) ∨
    (∃ script, script.length < f.src.script.length ∧
      f.call classify n = (.retry, ⟨{ f.src with script }, f.got⟩)) ∨
    (∃ script, f.src.stream = [] ∧
      f.call classify n = (.failed, ⟨{ f.src with script }, f.got⟩)) := by
  obtain ⟨⟨script, stream, ending, pos⟩, got⟩ := f
  have hend : classify ending = false := by rw [hc]; exact ending.2
  cases script with
  | nil =>
    by_cases hs : stream.length = 0
    · refine Or.inr (Or.inr ⟨[], List.length_eq_zero_iff.mp hs, ?_⟩)
      simp [Fill.call, Source.get, Source.deliver, hs, hend]
    · refine Or.inl ⟨n, [], Nat.le_refl n, id, Nat.le_refl _, ?_, Nat.pos_of_ne_zero hs⟩
      simp only [Fill.call, Source.get, Source.deliver, if_neg hs]
  | cons ev script =>
    cases ev with
    | ok j =>
      by_cases hs : stream.length = 0
      · refine Or.inr (Or.inr ⟨script, List.length_eq_zero_iff.mp hs, ?_⟩)
        simp [Fill.call, Source.get, Source.deliver, hs, hend]
      · refine Or.inl ⟨min (max 1 j) n, script, Nat.min_le_right _ _, by omega, Nat.le_succ _, ?_,
          Nat.pos_of_ne_zero hs⟩
        simp only [Fill.call, Source.get, Source.deliver, if_neg hs]
    | error e =>
      refine Or.inr (Or.inl ⟨script, Nat.lt_succ_self _, ?_⟩)
      simp [Fill.call, Source.get, hc, e.2]

section Call

variable {classify : ε → Bool} (hc : ∀ e, classify e = retries e) {f f' : Fill ε α retries}
  {n k : Nat}
include hc

theorem Fill.call_moved (h : f.call classify n = (.moved k, f')) :
    k ≤ n ∧ k ≤ f.src.stream.length ∧ (0 < n → 0 < k) ∧
      f'.src.script.length ≤ f.src.script.length ∧ f'.got = f.got ++ f.src.stream.take k ∧
      f'.src.stream = f.src.stream.drop k ∧ f'.src.pos = f.src.pos + k ∧
      f'.src.ending = f.src.ending := by
  rcases f.call_cases hc n with ⟨j, script, hj, hpos, hlen, heq, hne⟩ | ⟨_, -, heq⟩ | ⟨_, -, heq⟩
  · rw [heq, Prod.mk.injEq, Io.moved.injEq] at h
    obtain ⟨rfl, rfl⟩ := h
    have hmin : (f.src.stream.take j).length = min j f.src.stream.length := List.length_take
    refine ⟨by omega, by omega, by omega, hlen, ?_, ?_, rfl, rfl⟩
    · simp [hmin, ← List.take_eq_take_min]
    · rw [hmin]
      rcases Nat.le_total j f.src.stream.length with hle | hle
      · rw [Nat.min_eq_left hle]
      · rw [Nat.min_eq_right hle, List.drop_eq_nil_of_le hle, List.drop_length]
  · rw [heq] at h
    exact absurd (congrArg Prod.fst h) (by simp)
  · rw [heq] at h
    exact absurd (congrArg Prod.fst h) (by simp)

theorem Fill.call_retry (h : f.call classify n = (.retry, f')) :
    ∃ script, script.length < f.src.script.length ∧ f' = ⟨{ f.src with script }, f.got⟩ := by
  rcases f.call_cases hc n with ⟨j, script, -, -, -, heq, -⟩ | ⟨script, hlt, heq⟩ | ⟨_, -, heq⟩
  · rw [heq] at h
    exact absurd (congrArg Prod.fst h) (by simp)
  · rw [heq] at h
    exact ⟨script, hlt, (congrArg Prod.snd h).symm⟩
  · rw [heq] at h
    exact absurd (congrArg Prod.fst h) (by simp)

theorem Fill.call_failed (h : f.call classify n = (.failed, f')) :
    f.src.stream = [] ∧ ∃ script, f' = ⟨{ f.src with script }, f.got⟩ := by
  rcases f.call_cases hc n with ⟨j, script, -, -, -, heq, -⟩ | ⟨script, hlt, heq⟩ | ⟨sc, hs, heq⟩
  · rw [heq] at h
    exact absurd (congrArg Prod.fst h) (by simp)
  · rw [heq] at h
    exact absurd (congrArg Prod.fst h) (by simp)
  · rw [heq] at h
    exact ⟨hs, sc, (congrArg Prod.snd h).symm⟩

end Call

/-- The source as an endpoint, for a caller that tells the errors to retry. -/
def source {classify : ε → Bool} (hc : ∀ e, classify e = retries e) :
    Endpoint (Fill ε α retries) where
  call := Fill.call classify
  patience f := f.src.script.length
  moved_le h := (Fill.call_moved hc h).1
  moved_lt hn h := by
    obtain ⟨hk, -, hpos, hlen, -⟩ := Fill.call_moved hc h
    have := hpos hn
    omega
  retry_lt h := by
    obtain ⟨script, hlt, rfl⟩ := Fill.call_retry hc h
    exact hlt

/-- The reader has got the next `n` symbols, or all there were. -/
structure Filled (f : Fill ε α retries) (n : Nat) (out : Outcome (Fill ε α retries)) : Prop where
  ok_iff : out.ok = true ↔ n ≤ f.src.stream.length
  got : out.state.got = f.got ++ f.src.stream.take n
  stream : out.state.src.stream = f.src.stream.drop n
  pos : out.state.src.pos = f.src.pos + (f.src.stream.take n).length
  ending : out.state.src.ending = f.src.ending

/-- **The reader gets the next symbols, whatever the script.** -/
theorem source_transferAll {classify : ε → Bool} (hc : ∀ e, classify e = retries e)
    (f : Fill ε α retries) (off n : Nat) : Filled f n (transferAll (source hc) f off n) := by
  apply transferAll_rule (source hc) f off n (R := fun f _ n out => Filled f n out)
  · intro f off
    exact ⟨by simp, by simp, by simp, by simp, rfl⟩
  · intro f f' off n hn hcall
    obtain ⟨hs, script, rfl⟩ := Fill.call_failed hc hcall
    exact ⟨by simp [hs]; omega, by simp [hs], by simp [hs], by simp [hs], rfl⟩
  · intro f f' off n out _ hcall h
    obtain ⟨script, -, rfl⟩ := Fill.call_retry hc hcall
    exact ⟨h.ok_iff, h.got, h.stream, h.pos, h.ending⟩
  · intro f f' off n k out _ hcall h
    obtain ⟨hk, hlen, -, -, hgot, hstream, hpos, hend⟩ := Fill.call_moved hc hcall
    have hsplit : f.src.stream.take n =
        f.src.stream.take k ++ (f.src.stream.drop k).take (n - k) := by
      rw [← List.take_add, Nat.add_sub_cancel' hk]
    refine ⟨?_, ?_, ?_, ?_, h.ending.trans hend⟩
    · rw [h.ok_iff, hstream, List.length_drop]
      omega
    · rw [h.got, hgot, hstream, hsplit, List.append_assoc]
    · rw [h.stream, hstream, List.drop_drop, Nat.add_sub_cancel' hk]
    · rw [h.pos, hpos, hstream, hsplit, List.length_append, List.length_take_of_le hlen,
        Nat.add_assoc]

end Source

end Lib.Transfer
