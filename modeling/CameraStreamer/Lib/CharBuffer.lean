import Mathlib.Data.List.Basic

/-!
# Character buffers

An array of characters as a function of its index, and what `snprintf` writes into one.

* `load_store`: storing behind what is loaded appends to it.
* `written_of_pos`: with room for one character at least, `snprintf` writes as much of the text as
  the room holds, and a NUL. **`load_snprintf`**: so it appends that much.
-/

namespace Lib.CharBuffer

variable {α : Type}

/-- Write `xs` from index `off` on. -/
def store (mem : Nat → α) (off : Nat) (xs : List α) : Nat → α :=
  fun i => if off ≤ i then (xs[i - off]?).getD (mem i) else mem i

/-- The first `n` cells. -/
def load (mem : Nat → α) (n : Nat) : List α := (List.range n).map mem

variable {mem : Nat → α} {off k n : Nat} {xs ys : List α}

@[simp] theorem load_length (mem : Nat → α) (n : Nat) : (load mem n).length = n := by
  simp [load]

/-- Cells before the write stay. -/
theorem load_store_of_le (h : n ≤ off) : load (store mem off xs) n = load mem n := by
  apply List.map_congr_left
  intro i hi
  have hlt := List.mem_range.mp hi
  exact if_neg (by omega)

/-- **Storing appends**: as far as the write reaches. -/
theorem load_store (hk : k ≤ xs.length) :
    load (store mem off xs) (off + k) = load mem off ++ xs.take k := by
  have hsplit : load (store mem off xs) (off + k) =
      load (store mem off xs) off ++ (List.range k).map fun i => store mem off xs (off + i) := by
    unfold load
    rw [List.range_add, List.map_append, List.map_map]
    rfl
  rw [hsplit, load_store_of_le (Nat.le_refl off)]
  congr 1
  apply List.ext_getElem?
  intro i
  rcases Nat.lt_or_ge i k with hi | hi
  · rw [List.getElem?_map, List.getElem?_range hi, List.getElem?_take_of_lt hi, Option.map_some,
      List.getElem?_eq_getElem (by omega)]
    simp [store, List.getElem?_eq_getElem (show i < xs.length by omega)]
  · rw [List.getElem?_eq_none (by simpa using hi), List.getElem?_eq_none (by simp; omega)]

/-- What `snprintf` writes for a text, by its size argument before the conversion to `size_t`: a
negative one is too large a number to cut anything. -/
def written (size : Int) (text : List Char) : List Char :=
  if size = 0 then []
  else if size < 0 then text ++ ['\x00']
  else text.take (size.toNat - 1) ++ ['\x00']

theorem written_of_pos {room : Nat} (text : List Char) :
    written (room + 1) text = text.take room ++ ['\x00'] := by
  unfold written
  rw [if_neg (by omega), if_neg (by omega)]
  rfl

/-- **`snprintf` behind what is loaded** appends as much of the text as there is room for. -/
theorem load_snprintf {mem : Nat → Char} {room : Nat} (text : List Char) :
    load (store mem off (written (room + 1) text)) (off + min text.length room) =
      load mem off ++ text.take room := by
  have hlen : (text.take room).length = min text.length room := by
    rw [List.length_take, Nat.min_comm]
  rw [written_of_pos, load_store (by rw [List.length_append, hlen]; omega), ← hlen,
    List.take_left]

end Lib.CharBuffer
