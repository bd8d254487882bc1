import Mathlib.Data.List.Pairwise
import Mathlib.Logic.Function.Basic

/-!
# A map and the log of its writes

`writes log m` is the map `m` after the writes of `log`, oldest first. The last write to a key is
what is found there (`writes_last`), a key never written keeps what it had (`writes_of_ne`), and
where no two writes are to the same key each of them is found (`writes_of_nodup`).
-/

namespace Lib.Writes

variable {κ ν : Type} [DecidableEq κ]

/-- The map after the writes. -/
def writes (log : List (κ × ν)) (m : κ → ν) : κ → ν :=
  log.foldl (fun m w => Function.update m w.1 w.2) m

theorem writes_append (log log' : List (κ × ν)) (m : κ → ν) :
    writes (log ++ log') m = writes log' (writes log m) :=
  List.foldl_append

/-- A key that is never written. -/
theorem writes_of_ne {log : List (κ × ν)} {m : κ → ν} {k : κ} (h : ∀ w ∈ log, w.1 ≠ k) :
    writes log m k = m k := by
  induction log generalizing m with
  | nil => rfl
  | cons w log ih =>
    have hw : k ≠ w.1 := (h w List.mem_cons_self).symm
    have hrest := ih (m := Function.update m w.1 w.2) fun x hx => h x (List.mem_cons_of_mem w hx)
    rw [Function.update_of_ne hw] at hrest
    exact hrest

/-- **The last write wins.** -/
theorem writes_last {pre post : List (κ × ν)} {m : κ → ν} {k : κ} {v : ν}
    (h : ∀ w ∈ post, w.1 ≠ k) : writes (pre ++ (k, v) :: post) m k = v := by
  rw [writes_append]
  have hrest := writes_of_ne (m := Function.update (writes pre m) k v) h
  rw [Function.update_self] at hrest
  exact hrest

/-- Where the keys are distinct every write is found. -/
theorem writes_of_nodup {log : List (κ × ν)} {m : κ → ν} (h : (log.map Prod.fst).Nodup) {k : κ}
    {v : ν} (hm : (k, v) ∈ log) : writes log m k = v := by
  obtain ⟨pre, post, rfl⟩ := List.append_of_mem hm
  refine writes_last fun w hw heq => ?_
  rw [List.map_append, List.map_cons] at h
  have hnot := (List.nodup_cons.mp (List.nodup_append.mp h).2.1).1
  have hmem : w.1 ∈ post.map Prod.fst := List.mem_map_of_mem hw
  rw [heq] at hmem
  exact hnot hmem

end Lib.Writes
