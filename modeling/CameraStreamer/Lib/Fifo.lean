import Mathlib.Data.List.Sublists

/-!
# A FIFO with discards, and its history

The abstract queue is a list. Four things happen to an element: it is accepted at the back,
refused, discarded from the front (`evicted`), or handed out from the front (`popped`).
`Replay h q` says that the history `h` of such events, oldest first, leads from the empty queue
to `q`.

* `replay_conserve`: what was accepted is what was removed followed by what is queued, in order.
* `removed_merge`: the removed elements are an order-preserving merge of the two ways out.
* `replay_popped_sublist`: what was handed out is a sublist of what was accepted.
* `replay_balance`: the counts that follow.
-/

namespace Lib.Fifo

variable {α : Type}

/-- What happens to an element. -/
inductive Event (α : Type)
  | accepted (x : α)
  | refused (x : α)
  | evicted (x : α)
  | popped (x : α)
  deriving DecidableEq, Repr

/-- The history leads from the empty queue to `q`. -/
inductive Replay : List (Event α) → List α → Prop
  | nil : Replay [] []
  | accepted {h : List (Event α)} {q : List α} (x : α) (hr : Replay h q) :
      Replay (h ++ [.accepted x]) (q ++ [x])
  | refused {h : List (Event α)} {q : List α} (x : α) (hr : Replay h q) :
      Replay (h ++ [.refused x]) q
  | evicted {h : List (Event α)} {q : List α} {x : α} (hr : Replay h (x :: q)) :
      Replay (h ++ [.evicted x]) q
  | popped {h : List (Event α)} {q : List α} {x : α} (hr : Replay h (x :: q)) :
      Replay (h ++ [.popped x]) q

/-! ## Reading a history -/

def Event.accepted? : Event α → Option α
  | .accepted x => some x
  | _ => none

def Event.refused? : Event α → Option α
  | .refused x => some x
  | _ => none

def Event.evicted? : Event α → Option α
  | .evicted x => some x
  | _ => none

def Event.popped? : Event α → Option α
  | .popped x => some x
  | _ => none

def Event.removed? : Event α → Option α
  | .evicted x => some x
  | .popped x => some x
  | _ => none

def Event.decided? : Event α → Option α
  | .accepted x => some x
  | .refused x => some x
  | _ => none

/-- The accepted elements, in acceptance order. -/
def accepted (h : List (Event α)) : List α := h.filterMap Event.accepted?

def refused (h : List (Event α)) : List α := h.filterMap Event.refused?

def evicted (h : List (Event α)) : List α := h.filterMap Event.evicted?

def popped (h : List (Event α)) : List α := h.filterMap Event.popped?

/-- The elements that left the queue, in removal order. -/
def removed (h : List (Event α)) : List α := h.filterMap Event.removed?

/-- The elements offered to the queue and decided on, in order. -/
def decided (h : List (Event α)) : List α := h.filterMap Event.decided?

section Snoc

variable (h : List (Event α)) (e : Event α)

@[simp] theorem accepted_snoc : accepted (h ++ [e]) = accepted h ++ e.accepted?.toList := by
  cases e <;> simp [accepted, Event.accepted?]

@[simp] theorem refused_snoc : refused (h ++ [e]) = refused h ++ e.refused?.toList := by
  cases e <;> simp [refused, Event.refused?]

@[simp] theorem evicted_snoc : evicted (h ++ [e]) = evicted h ++ e.evicted?.toList := by
  cases e <;> simp [evicted, Event.evicted?]

@[simp] theorem popped_snoc : popped (h ++ [e]) = popped h ++ e.popped?.toList := by
  cases e <;> simp [popped, Event.popped?]

@[simp] theorem removed_snoc : removed (h ++ [e]) = removed h ++ e.removed?.toList := by
  cases e <;> simp [removed, Event.removed?]

@[simp] theorem decided_snoc : decided (h ++ [e]) = decided h ++ e.decided?.toList := by
  cases e <;> simp [decided, Event.decided?]

end Snoc

/-! ## Order -/

/-- `zs` is an order-preserving merge of `xs` and `ys`. -/
inductive Merge : List α → List α → List α → Prop
  | nil : Merge [] [] []
  | left {xs ys zs : List α} (x : α) (h : Merge xs ys zs) : Merge (x :: xs) ys (x :: zs)
  | right {xs ys zs : List α} (y : α) (h : Merge xs ys zs) : Merge xs (y :: ys) (y :: zs)

theorem Merge.left_sublist {xs ys zs : List α} (h : Merge xs ys zs) : xs.Sublist zs := by
  induction h with
  | nil => exact List.Sublist.slnil
  | left x _ ih => exact ih.cons_cons x
  | right y _ ih => exact ih.cons y

theorem Merge.length {xs ys zs : List α} (h : Merge xs ys zs) :
    zs.length = xs.length + ys.length := by
  induction h with
  | nil => rfl
  | left x _ ih => simp only [List.length_cons, ih]; omega
  | right y _ ih => simp only [List.length_cons, ih]; omega

theorem Merge.perm {xs ys zs : List α} (h : Merge xs ys zs) : zs.Perm (xs ++ ys) := by
  induction h with
  | nil => exact List.Perm.refl _
  | left x _ ih => exact ih.cons x
  | right y _ ih => exact (ih.cons y).trans List.perm_middle.symm

/-- **The removed elements are a merge of the popped and the evicted ones.** -/
theorem removed_merge : ∀ h : List (Event α), Merge (popped h) (evicted h) (removed h)
  | [] => Merge.nil
  | .accepted _ :: h => removed_merge h
  | .refused _ :: h => removed_merge h
  | .evicted x :: h => Merge.right x (removed_merge h)
  | .popped x :: h => Merge.left x (removed_merge h)

/-- The decided elements are a merge of the accepted and the refused ones. -/
theorem decided_merge : ∀ h : List (Event α), Merge (accepted h) (refused h) (decided h)
  | [] => Merge.nil
  | .accepted x :: h => Merge.left x (decided_merge h)
  | .refused x :: h => Merge.right x (decided_merge h)
  | .evicted _ :: h => decided_merge h
  | .popped _ :: h => decided_merge h

/-! ## Conservation -/

variable {h : List (Event α)} {q : List α}

/-- **Conservation, in order.** -/
theorem replay_conserve (hr : Replay h q) : accepted h = removed h ++ q := by
  induction hr with
  | nil => rfl
  | accepted x _ ih =>
    rw [accepted_snoc, removed_snoc, ih]
    simp [Event.accepted?, Event.removed?]
  | refused x _ ih =>
    rw [accepted_snoc, removed_snoc, ih]
    simp [Event.accepted?, Event.removed?]
  | evicted _ ih =>
    rw [accepted_snoc, removed_snoc, ih]
    simp [Event.accepted?, Event.removed?]
  | popped _ ih =>
    rw [accepted_snoc, removed_snoc, ih]
    simp [Event.accepted?, Event.removed?]

/-- What was handed out was accepted, in the same order. -/
theorem replay_popped_sublist (hr : Replay h q) : (popped h).Sublist (accepted h) := by
  rw [replay_conserve hr]
  exact (removed_merge h).left_sublist.trans (List.sublist_append_left _ _)

/-- Accepted is popped plus evicted plus queued. -/
theorem replay_balance (hr : Replay h q) :
    (accepted h).length = (popped h).length + (evicted h).length + q.length := by
  rw [replay_conserve hr, List.length_append, (removed_merge h).length]

end Lib.Fifo
