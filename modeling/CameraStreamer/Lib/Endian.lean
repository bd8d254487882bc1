import Mathlib.Data.List.Basic
import Mathlib.Tactic.Ring

/-!
# Byte order

`beBytes k n` is the `k`-byte big-endian encoding of `n`, `beValue` reads one back. A host stores
an integer in its own byte order (`store`, `load`), and `toNetwork` is the integer whose stored
bytes are the big-endian ones: what `htons` and `htonl` return, and their inverses, since
swapping bytes is an involution.

* `beValue_beBytes`, `beBytes_beValue`: the codec is exact on its range.
* `beBytes_append`: a wide encoding is the encodings of its halves.
* `store_toNetwork`, `toNetwork_load`: through either byte order, storing a network-order value
  lays out the big-endian bytes, and loading big-endian bytes and converting reads their value.
-/

namespace Lib.Endian

/-- The `k` low bytes of `n`, most significant first. -/
def beBytes : Nat → Nat → List UInt8
  | 0, _ => []
  | k + 1, n => UInt8.ofNat (n / 256 ^ k) :: beBytes k n

/-- The value of a big-endian encoding. -/
def beValue : List UInt8 → Nat
  | [] => 0
  | b :: bs => b.toNat * 256 ^ bs.length + beValue bs

@[simp] theorem beBytes_length (k n : Nat) : (beBytes k n).length = k := by
  induction k with
  | zero => rfl
  | succ k ih => simp only [beBytes, List.length_cons, ih]

theorem beValue_lt : ∀ bs : List UInt8, beValue bs < 256 ^ bs.length
  | [] => by simp [beValue]
  | b :: bs => by
    have hb := b.toNat_lt
    have ih := beValue_lt bs
    simp only [beValue, List.length_cons, Nat.pow_succ]
    have : (b.toNat + 1) * 256 ^ bs.length ≤ 256 * 256 ^ bs.length :=
      Nat.mul_le_mul_right _ (by omega)
    rw [Nat.add_mul, Nat.one_mul] at this
    omega

theorem beValue_beBytes (k n : Nat) : beValue (beBytes k n) = n % 256 ^ k := by
  induction k with
  | zero => simp [beBytes, beValue, Nat.mod_one]
  | succ k ih =>
    have hsplit : n % (256 ^ k * 256) = n % 256 ^ k + 256 ^ k * (n / 256 ^ k % 256) := Nat.mod_mul
    simp only [beBytes, beValue, beBytes_length, ih, UInt8.toNat_ofNat', Nat.pow_succ 256 k]
    rw [hsplit, Nat.mul_comm (256 ^ k), Nat.add_comm]

theorem beValue_beBytes_of_lt {k n : Nat} (h : n < 256 ^ k) : beValue (beBytes k n) = n := by
  rw [beValue_beBytes, Nat.mod_eq_of_lt h]

theorem beBytes_mod (k n : Nat) : beBytes k (n % 256 ^ k) = beBytes k n := by
  suffices h : ∀ j, k ≤ j → beBytes k (n % 256 ^ j) = beBytes k n from h k (le_refl k)
  induction k with
  | zero => intro _ _; rfl
  | succ k ih =>
    intro j hj
    simp only [beBytes]
    rw [ih j (by omega)]
    congr 1
    obtain ⟨i, rfl⟩ : ∃ i, j = k + 1 + i := ⟨j - (k + 1), by omega⟩
    apply UInt8.toNat_inj.mp
    simp only [UInt8.toNat_ofNat']
    rw [show 256 ^ (k + 1 + i) = 256 ^ k * (256 * 256 ^ i) by ring,
      Nat.mod_mul_right_div_self, Nat.mod_mul_right_mod]

theorem beBytes_beValue : ∀ bs : List UInt8, beBytes bs.length (beValue bs) = bs
  | [] => rfl
  | b :: bs => by
    have hlt := beValue_lt bs
    simp only [beValue, List.length_cons, beBytes]
    congr 1
    · rw [Nat.add_comm, Nat.add_mul_div_right _ _ (Nat.pow_pos (by decide)),
        Nat.div_eq_of_lt hlt, Nat.zero_add, UInt8.ofNat_toNat]
    · rw [← beBytes_mod, Nat.add_comm, Nat.add_mul_mod_self_right, Nat.mod_eq_of_lt hlt]
      exact beBytes_beValue bs

theorem beValue_append (as bs : List UInt8) :
    beValue (as ++ bs) = beValue as * 256 ^ bs.length + beValue bs := by
  induction as with
  | nil => simp [beValue]
  | cons a as ih =>
    simp only [List.cons_append, beValue, List.length_append, ih, Nat.pow_add]
    ring

/-- A wide encoding is the encodings of its halves. -/
theorem beBytes_append (j k a b : Nat) (hb : b < 256 ^ k) :
    beBytes (j + k) (a * 256 ^ k + b) = beBytes j a ++ beBytes k b := by
  have hpos : 0 < 256 ^ k := Nat.pow_pos (by decide)
  induction j with
  | zero =>
    rw [Nat.zero_add, ← beBytes_mod, Nat.add_comm, Nat.add_mul_mod_self_right,
      Nat.mod_eq_of_lt hb]
    rfl
  | succ j ih =>
    rw [show j + 1 + k = (j + k) + 1 by omega]
    simp only [beBytes, List.cons_append]
    rw [ih]
    congr 2
    rw [Nat.pow_add, Nat.mul_comm (256 ^ j), ← Nat.div_div_eq_div_mul, Nat.add_comm,
      Nat.add_mul_div_right _ _ hpos, Nat.div_eq_of_lt hb, Nat.zero_add]

/-! ## Hosts -/

/-- The byte order of a host. -/
inductive ByteOrder
  | little
  | big
  deriving DecidableEq, Repr

/-- How a host lays out a `k`-byte integer. -/
def store (o : ByteOrder) (k n : Nat) : List UInt8 :=
  match o with
  | .little => (beBytes k n).reverse
  | .big => beBytes k n

/-- The integer a host reads from memory. -/
def load (o : ByteOrder) (bs : List UInt8) : Nat :=
  match o with
  | .little => beValue bs.reverse
  | .big => beValue bs

/-- The `k`-byte integer stored as the big-endian bytes of `n`. -/
def toNetwork (o : ByteOrder) (k n : Nat) : Nat :=
  match o with
  | .little => beValue (beBytes k n).reverse
  | .big => n

@[simp] theorem store_length (o : ByteOrder) (k n : Nat) : (store o k n).length = k := by
  cases o <;> simp [store]

theorem toNetwork_lt {o : ByteOrder} {k n : Nat} (hn : n < 256 ^ k) :
    toNetwork o k n < 256 ^ k := by
  cases o with
  | little =>
    have := beValue_lt (beBytes k n).reverse
    rwa [List.length_reverse, beBytes_length] at this
  | big => exact hn

/-- Storing a converted integer lays out its big-endian bytes. -/
theorem store_toNetwork (o : ByteOrder) (k n : Nat) :
    store o k (toNetwork o k n) = beBytes k n := by
  cases o with
  | little =>
    simp only [store, toNetwork]
    have := beBytes_beValue (beBytes k n).reverse
    rw [List.length_reverse, beBytes_length] at this
    rw [this, List.reverse_reverse]
  | big => rfl

/-- Loading big-endian bytes and converting reads their value. -/
theorem toNetwork_load {o : ByteOrder} {k : Nat} {bs : List UInt8} (h : bs.length = k) :
    toNetwork o k (load o bs) = beValue bs := by
  cases o with
  | little =>
    simp only [load, toNetwork]
    have := beBytes_beValue bs.reverse
    rw [List.length_reverse, h] at this
    rw [this, List.reverse_reverse]
  | big => rfl

theorem load_lt {o : ByteOrder} {k : Nat} {bs : List UInt8} (h : bs.length = k) :
    load o bs < 256 ^ k := by
  cases o with
  | little =>
    have := beValue_lt bs.reverse
    rwa [List.length_reverse, h] at this
  | big =>
    have := beValue_lt bs
    rwa [h] at this

/-- On a little-endian host the halves of a converted integer are its converted halves, swapped. -/
theorem toNetwork_halves {k a b : Nat} (hb : b < 256 ^ k) :
    toNetwork .little (k + k) (a * 256 ^ k + b) =
      toNetwork .little k b * 256 ^ k + toNetwork .little k a := by
  simp only [toNetwork]
  rw [beBytes_append k k a b hb, List.reverse_append, beValue_append, List.length_reverse,
    beBytes_length]

end Lib.Endian
