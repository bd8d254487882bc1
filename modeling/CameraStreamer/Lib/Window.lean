import Mathlib.Data.List.Range
import Mathlib.Data.Nat.ModEq
import Mathlib.Logic.Function.Basic

/-!
# Windows of a circular array

A ring of `n` cells, a start `t` and a length `c`: the window is the `c` cells `t, t+1, …` with
the index wrapping modulo `n`. `slot n t i` is the `i`-th of them and `contents f n t c` lists
what `f` holds there, oldest first.

* `slot_inj`: within one lap no cell occurs twice.
* `exists_slot`: a full window is the whole ring.
* `contents_snoc`, `contents_cons`: a window grows at its end and shrinks at its start by one.
* `contents_congr`: it depends on the cells of the window alone.
-/

namespace Lib.Window

/-- The `i`-th cell from `t` in a ring of `n`. -/
def slot (n t i : Nat) : Nat := (t + i) % n

variable {n t i j c : Nat}

theorem slot_lt (hn : 0 < n) : slot n t i < n := Nat.mod_lt _ hn

theorem slot_zero (ht : t < n) : slot n t 0 = t := Nat.mod_eq_of_lt ht

theorem slot_slot (n t i j : Nat) : slot n (slot n t i) j = slot n t (i + j) := by
  unfold slot
  rw [Nat.mod_add_mod, Nat.add_assoc]

theorem slot_add_self (n t i : Nat) : slot n t (i + n) = slot n t i := by
  unfold slot
  rw [← Nat.add_assoc, Nat.add_mod_right]

/-- Within one lap the cells are distinct. -/
theorem slot_inj (hi : i < n) (hj : j < n) (h : slot n t i = slot n t j) : i = j := by
  unfold slot at h
  have hmod : i % n = j % n := Nat.ModEq.add_left_cancel' t h
  rwa [Nat.mod_eq_of_lt hi, Nat.mod_eq_of_lt hj] at hmod

/-- A full lap visits every cell. -/
theorem exists_slot (ht : t < n) {k : Nat} (hk : k < n) : ∃ i, i < n ∧ slot n t i = k := by
  unfold slot
  by_cases h : t ≤ k
  · refine ⟨k - t, by omega, ?_⟩
    rw [Nat.add_sub_cancel' h, Nat.mod_eq_of_lt hk]
  · refine ⟨k + n - t, by omega, ?_⟩
    rw [show t + (k + n - t) = k + n by omega, Nat.add_mod_right, Nat.mod_eq_of_lt hk]

variable {α : Type} {f : Nat → α}

/-- What the window holds, oldest first. -/
def contents (f : Nat → α) (n t c : Nat) : List α :=
  (List.range c).map fun i => f (slot n t i)

@[simp] theorem contents_length (f : Nat → α) (n t c : Nat) : (contents f n t c).length = c := by
  simp [contents]

/-- The window grows by the cell after its last. -/
theorem contents_snoc (f : Nat → α) (n t c : Nat) :
    contents f n t (c + 1) = contents f n t c ++ [f (slot n t c)] := by
  simp [contents, List.range_succ]

/-- The window shrinks by its first cell. -/
theorem contents_cons (f : Nat → α) (ht : t < n) (c : Nat) :
    contents f n t (c + 1) = f t :: contents f n (slot n t 1) c := by
  unfold contents
  rw [List.range_succ_eq_map, List.map_cons, List.map_map, slot_zero ht]
  congr 1
  apply List.map_congr_left
  intro i _
  simp only [Function.comp, slot_slot, Nat.add_comm 1 i, Nat.succ_eq_add_one]

theorem contents_congr {g : Nat → α} (h : ∀ i, i < c → f (slot n t i) = g (slot n t i)) :
    contents f n t c = contents g n t c := by
  apply List.map_congr_left
  intro i hi
  exact h i (List.mem_range.mp hi)

end Lib.Window
