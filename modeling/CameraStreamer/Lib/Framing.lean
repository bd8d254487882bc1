import Mathlib.Data.List.Infix

/-!
# Splitting a stream into words of a prefix-free set

`P` is a set of non-empty words none of which is a prefix of another (`PrefixFree`).
`Splits P us s` says that `us` are words of `P` whose concatenation is a prefix of the stream
`s`, and `Longest P us s` that every such splitting is an initial part of `us`: `us` is the
splitting of the longest prefix of `s` that splits at all.

* `PrefixFree.eq_of_prefixes`: the word at the front of a stream is unique, and so is the longest
  splitting (`Longest.unique`).
* `longest_nil`, `longest_cons`: a reader that takes words off the front until none is there
  finds the longest splitting.
* `longest_take`: cutting a stream of words anywhere leaves exactly the words wholly before the
  cut (`whole`, `lt_whole_iff`).
-/

namespace Lib.Framing

variable {α : Type}

/-- No word is empty, and no word is a proper prefix of another. -/
structure PrefixFree (P : List α → Prop) : Prop where
  ne_nil : ∀ u, P u → u ≠ []
  eq_of_prefix : ∀ u v, P u → P v → u <+: v → u = v

/-- `us` are words whose concatenation is a prefix of `s`. -/
def Splits (P : List α → Prop) (us : List (List α)) (s : List α) : Prop :=
  (∀ u ∈ us, P u) ∧ us.flatten <+: s

/-- `us` splits the longest prefix of `s` that splits into words. -/
structure Longest (P : List α → Prop) (us : List (List α)) (s : List α) : Prop where
  splits : Splits P us s
  longest : ∀ vs, Splits P vs s → vs <+: us

variable {P : List α → Prop} {us vs : List (List α)} {s : List α}

theorem splits_nil (P : List α → Prop) (s : List α) : Splits P [] s :=
  ⟨fun _ hu => absurd hu (by simp), List.nil_prefix⟩

theorem splits_cons {u : List α} (hu : P u) (h : Splits P us s) : Splits P (u :: us) (u ++ s) := by
  refine ⟨fun v hv => ?_, ?_⟩
  · rcases List.mem_cons.mp hv with rfl | hv
    · exact hu
    · exact h.1 v hv
  · rw [List.flatten_cons]
    exact (List.prefix_append_right_inj u).mpr h.2

/-- Two words at the front of one stream are the same word. -/
theorem PrefixFree.eq_of_prefixes (hP : PrefixFree P) {u v : List α} (hu : P u) (hv : P v)
    (hus : u <+: s) (hvs : v <+: s) : u = v := by
  rcases List.prefix_or_prefix_of_prefix hus hvs with h | h
  · exact hP.eq_of_prefix u v hu hv h
  · exact (hP.eq_of_prefix v u hv hu h).symm

theorem Longest.unique (hu : Longest P us s) (hv : Longest P vs s) : us = vs :=
  (hv.longest us hu.splits).eq_of_length_le
    ((hu.longest vs hv.splits).length_le)

/-! ## Reading words off the front -/

/-- No word at the front: nothing splits. -/
theorem longest_nil (h : ∀ u, P u → ¬ u <+: s) : Longest P [] s := by
  refine ⟨splits_nil P s, fun vs hvs => ?_⟩
  cases vs with
  | nil => exact List.nil_prefix
  | cons v vs =>
    obtain ⟨hvp, hvf⟩ := hvs
    rw [List.flatten_cons] at hvf
    exact absurd ((List.prefix_append v vs.flatten).trans hvf) (h v (hvp v List.mem_cons_self))

/-- A word at the front, then the longest splitting of what follows. -/
theorem longest_cons (hP : PrefixFree P) {u : List α} (hu : P u) (h : Longest P us s) :
    Longest P (u :: us) (u ++ s) := by
  refine ⟨splits_cons hu h.splits, fun vs hvs => ?_⟩
  cases vs with
  | nil => exact List.nil_prefix
  | cons v vs =>
    obtain ⟨hvp, hvf⟩ := hvs
    rw [List.flatten_cons] at hvf
    have huv : v = u := hP.eq_of_prefixes (hvp v List.mem_cons_self) hu
      ((List.prefix_append v vs.flatten).trans hvf) (List.prefix_append u s)
    subst huv
    rw [List.prefix_cons_inj]
    exact h.longest vs ⟨fun w hw => hvp w (List.mem_cons_of_mem v hw),
      (List.prefix_append_right_inj v).mp hvf⟩

/-- Words up to a place where there is none are the longest splitting. -/
theorem longest_flatten (hP : PrefixFree P) (hus : ∀ u ∈ us, P u) {rest : List α}
    (hrest : ∀ u, P u → ¬ u <+: rest) : Longest P us (us.flatten ++ rest) := by
  induction us with
  | nil => exact longest_nil hrest
  | cons u us ih =>
    rw [List.flatten_cons, List.append_assoc]
    exact longest_cons hP (hus u List.mem_cons_self)
      (ih fun v hv => hus v (List.mem_cons_of_mem u hv))

/-- How many of the words lie wholly within the first `n` symbols of their concatenation. -/
def whole : List (List α) → Nat → Nat
  | [], _ => 0
  | w :: ws, n => if w.length ≤ n then whole ws (n - w.length) + 1 else 0

/-- The `j`-th word is among them iff its last symbol is. -/
theorem lt_whole_iff {ws : List (List α)} {n j : Nat} :
    j < whole ws n ↔ j < ws.length ∧ (ws.take (j + 1)).flatten.length ≤ n := by
  induction ws generalizing n j with
  | nil => simp [whole]
  | cons w ws ih =>
    simp only [whole]
    split
    · cases j with
      | zero => simpa
      | succ j =>
        rw [Nat.add_lt_add_iff_right, ih, List.take_succ_cons, List.flatten_cons,
          List.length_append, List.length_cons]
        omega
    · rename_i hw
      rw [List.take_succ_cons, List.flatten_cons, List.length_append]
      omega

/-- **A cut leaves the words wholly before it.** -/
theorem longest_take (hP : PrefixFree P) {ws : List (List α)} (hws : ∀ w ∈ ws, P w)
    {p : List α} (hp : p <+: ws.flatten) : Longest P (ws.take (whole ws p.length)) p := by
  induction ws generalizing p with
  | nil =>
    have hnil : p = [] := List.prefix_nil.mp hp
    subst hnil
    exact longest_nil fun u hu h => hP.ne_nil u hu (List.prefix_nil.mp h)
  | cons w ws ih =>
    have hw := hws w List.mem_cons_self
    rw [List.flatten_cons] at hp
    simp only [whole]
    split
    · rename_i hle
      have hwp : w <+: p := List.prefix_of_prefix_length_le (List.prefix_append w _) hp hle
      obtain ⟨t, rfl⟩ := hwp
      rw [List.take_succ_cons, List.length_append, Nat.add_sub_cancel_left]
      exact longest_cons hP hw (ih (fun v hv => hws v (List.mem_cons_of_mem w hv))
        ((List.prefix_append_right_inj w).mp hp))
    · rename_i hlt
      rw [List.take_zero]
      refine longest_nil fun u hu hup => hlt ?_
      -- a word inside the cut would be the first word, which does not fit
      have huw : u = w := hP.eq_of_prefixes hu hw (hup.trans hp) (List.prefix_append w _)
      rw [← huw]
      exact hup.length_le

end Lib.Framing
