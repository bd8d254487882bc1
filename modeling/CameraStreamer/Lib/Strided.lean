import Mathlib.Data.Nat.ModEq
import Mathlib.Tactic.Linarith

/-!
# Strided regions in wrapping arithmetic

`c` regions of `z` bytes, `S` bytes apart, with offsets and the total computed modulo `N`. The
stride is `z` rounded up to a multiple of `g`, and `g` divides `N` (a power of two and a larger
one).

* `fits_of_lt`: without overflow the regions lie inside the total and do not overlap.
* **`fits_iff`**: and only then. Past the modulus, the first region that wraps starts less than a
  stride into region 0, on a multiple of `g`, and the last such multiple lies inside the region.
-/

namespace Lib.Strided

/-- Where region `i` starts. -/
def offset (N S i : Nat) : Nat := i * S % N

/-- The regions lie inside the total, and no two of them share a byte. -/
structure Fits (N S z c : Nat) : Prop where
  inside : ∀ i, i < c → offset N S i + z ≤ S * c % N
  apart : ∀ i j, i < c → j < c → i ≠ j →
    offset N S i + z ≤ offset N S j ∨ offset N S j + z ≤ offset N S i

variable {N S z c g i j : Nat}

/-- A region ends before the next one starts. -/
theorem end_le (hz : z ≤ S) (hij : i < j) : i * S + z ≤ j * S :=
  calc i * S + z ≤ i * S + S := Nat.add_le_add_left hz _
    _ = (i + 1) * S := (Nat.succ_mul i S).symm
    _ ≤ j * S := Nat.mul_le_mul_right S hij

theorem offset_eq (hN : S * c < N) (hi : i < c) : offset N S i = i * S := by
  have hle : i * S ≤ c * S := Nat.mul_le_mul_right S (Nat.le_of_lt hi)
  exact Nat.mod_eq_of_lt (by rw [Nat.mul_comm c S] at hle; omega)

theorem fits_of_lt (hz : z ≤ S) (hN : S * c < N) : Fits N S z c where
  inside i hi := by
    rw [offset_eq hN hi, Nat.mod_eq_of_lt hN, Nat.mul_comm S c]
    exact end_le hz hi
  apart i j hi hj hne := by
    rw [offset_eq hN hi, offset_eq hN hj]
    rcases Nat.lt_or_gt_of_ne hne with hlt | hgt
    · exact Or.inl (end_le hz hlt)
    · exact Or.inr (end_le hz hgt)

/-- The first multiple of the stride at or past the modulus, and how far past. -/
theorem exists_wrap (hS : 0 < S) (hgS : g ∣ S) (hgN : g ∣ N) (hN : S < N) (hc : N ≤ S * c) :
    ∃ n d, 0 < n ∧ n ≤ c ∧ n * S = N + d ∧ d + g ≤ S := by
  obtain ⟨n, d, hnd, hd⟩ : ∃ n d, n * S = N + d ∧ d < S := by
    refine ⟨(N + S - 1) / S, (N + S - 1) / S * S - N, ?_, ?_⟩ <;>
    · have hdiv := Nat.div_add_mod (N + S - 1) S
      have hmod := Nat.mod_lt (N + S - 1) hS
      rw [Nat.mul_comm] at hdiv
      omega
  refine ⟨n, d, ?_, ?_, hnd, ?_⟩
  · rcases Nat.eq_zero_or_pos n with rfl | hpos
    · omega
    · exact hpos
  · -- otherwise `c` strides already reach the modulus
    by_contra hlt
    have hle : (c + 1) * S ≤ n * S := Nat.mul_le_mul_right S (by omega)
    rw [Nat.succ_mul, Nat.mul_comm c S] at hle
    omega
  · have hgd : g ∣ d := (Nat.dvd_add_right hgN).mp (hnd ▸ Dvd.dvd.mul_left hgS n)
    have hgap : g ∣ S - d := Nat.dvd_sub hgS hgd
    have hle := Nat.le_of_dvd (by omega) hgap
    omega

/-- Regions that fit have not wrapped. -/
theorem lt_of_fits (hS : 0 < S) (hz : S < z + g) (hgS : g ∣ S) (hgN : g ∣ N) (hN : S < N)
    (hc : 0 < c) (h : Fits N S z c) : S * c < N := by
  by_contra hwrap
  obtain ⟨n, d, hpos, hle, hnd, hd⟩ := exists_wrap hS hgS hgN hN (Nat.not_lt.mp hwrap)
  have hmod : n * S % N = d := by
    rw [hnd, Nat.add_mod_left]
    exact Nat.mod_eq_of_lt (by omega)
  rcases Nat.lt_or_eq_of_le hle with hlt | rfl
  · -- region `n` starts inside region 0
    have hapart := h.apart 0 n hc hlt (by omega)
    unfold offset at hapart
    rw [Nat.zero_mul, Nat.zero_mod, hmod] at hapart
    omega
  · -- the total ends inside region 0
    have hin := h.inside 0 hc
    unfold offset at hin
    rw [Nat.zero_mul, Nat.zero_mod, Nat.mul_comm S, hmod] at hin
    omega

/-- **The regions fit exactly when the total does not wrap.** -/
theorem fits_iff (hS : 0 < S) (hle : z ≤ S) (hz : S < z + g) (hgS : g ∣ S) (hgN : g ∣ N)
    (hN : S < N) (hc : 0 < c) : Fits N S z c ↔ S * c < N :=
  ⟨lt_of_fits hS hz hgS hgN hN hc, fits_of_lt hle⟩

end Lib.Strided
