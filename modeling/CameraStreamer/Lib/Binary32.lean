import Mathlib

/-!
# Exact integers in binary32

`Float32` on the integers a 24-bit significand holds, from the definitions of its logical model:
conversion from `UInt32`, product, and conversion back are exact up to `2^24`.

* `Normal n m j`: the normal form of the integer `n` is `m * 2^(j - 23)`.
* `round_scaled`: rounding drops zero bits only, if there are enough of them.
* `unpack_pack`: a normal float is what its bits decode to.
* **`mul_toUInt32`**: `(float)a * (float)b`, converted back, is `a * b`.
-/

namespace Lib.Binary32

open Float.Model (Format UnpackedFloat totalExponent)
open Float.Model.UnpackedFloat

/-- The significand and the exponent of an integer. -/
structure Normal (n m j : Nat) : Prop where
  lower : 2 ^ 23 ≤ m
  upper : m < 2 ^ 24
  value : m * 2 ^ j = n * 2 ^ 23

variable {n m j k : Nat} {e : Int}

/-- Powers of two cancel into the smaller exponent. -/
theorem eq_mul_two_pow {x y p q : Nat} (h : x * 2 ^ p = y * 2 ^ q) (hpq : p ≤ q) :
    x = y * 2 ^ (q - p) := by
  rw [← Nat.sub_add_cancel hpq, Nat.pow_add, ← Nat.mul_assoc] at h
  exact Nat.eq_of_mul_eq_mul_right (Nat.two_pow_pos p) h

namespace Normal

theorem pos (h : Normal n m j) : 0 < m := Nat.lt_of_lt_of_le (by decide) h.lower

/-- The exponent is the place of the leading bit. -/
theorem bounds (h : Normal n m j) : 2 ^ j ≤ n ∧ n < 2 ^ (j + 1) := by
  have hlo : 2 ^ 23 * 2 ^ j ≤ n * 2 ^ 23 := h.value ▸ Nat.mul_le_mul_right _ h.lower
  have hhi : n * 2 ^ 23 < 2 ^ 24 * 2 ^ j :=
    h.value ▸ Nat.mul_lt_mul_of_pos_right h.upper (Nat.two_pow_pos j)
  rw [Nat.pow_succ]
  omega

theorem log2_eq (h : Normal n m j) : n.log2 = j := by
  have hb := h.bounds
  have hpos := Nat.two_pow_pos j
  exact (Nat.log2_eq_iff (by omega)).mpr hb

/-- Integer and significand, each shifted left as far as it has to be to meet the other. -/
theorem scaled (h : Normal n m j) : n * 2 ^ (23 - j) = m * 2 ^ (j - 23) := by
  rcases Nat.le_total j 23 with hle | hge
  · rw [Nat.sub_eq_zero_of_le hle, Nat.pow_zero, Nat.mul_one]
    exact (eq_mul_two_pow h.value hle).symm
  · rw [Nat.sub_eq_zero_of_le hge, Nat.pow_zero, Nat.mul_one]
    exact eq_mul_two_pow h.value.symm hge

theorem exponent_le (h : Normal n m j) (hn : n ≤ 2 ^ 24) : j ≤ 24 := by
  by_contra hj
  have hpow : 2 ^ 25 ≤ 2 ^ j := Nat.pow_le_pow_right (by decide) (by omega)
  have hb := h.bounds.1
  omega

end Normal

/-- Every positive integer up to `2^24` has a normal form. -/
theorem exists_normal (h0 : 0 < n) (hn : n ≤ 2 ^ 24) : ∃ m j, Normal n m j := by
  have hlog := (Nat.log2_eq_iff (k := n.log2) (by omega)).mp rfl
  by_cases hk : n.log2 ≤ 23
  · have hsplit : 2 ^ 23 = 2 ^ (23 - n.log2) * 2 ^ n.log2 := by
      rw [← Nat.pow_add, Nat.sub_add_cancel hk]
    refine ⟨n * 2 ^ (23 - n.log2), n.log2, ?_, ?_, ?_⟩
    · rw [hsplit, Nat.mul_comm]
      exact Nat.mul_le_mul_right _ hlog.1
    · rw [Nat.pow_succ, hsplit, Nat.mul_assoc, Nat.mul_comm n, ← Nat.pow_succ]
      exact Nat.mul_lt_mul_of_pos_left hlog.2 (Nat.two_pow_pos _)
    · rw [hsplit, Nat.mul_assoc]
  · have hpow : 2 ^ 24 ≤ 2 ^ n.log2 := Nat.pow_le_pow_right (by decide) (by omega)
    have hn' : n = 2 ^ 24 := by omega
    exact ⟨2 ^ 23, 24, by decide, by decide, by rw [hn', Nat.mul_comm]⟩

/-! ## Rounding -/

theorem log2_scaled (hlo : 2 ^ 23 ≤ m) (hhi : m < 2 ^ 24) (k : Nat) :
    (m * 2 ^ k).log2 = 23 + k := by
  have hpos : 0 < m * 2 ^ k := Nat.mul_pos (by omega) (Nat.two_pow_pos k)
  refine (Nat.log2_eq_iff (by omega)).mpr ⟨?_, ?_⟩
  · rw [Nat.pow_add]
    exact Nat.mul_le_mul_right _ hlo
  · rw [Nat.add_right_comm, Nat.pow_add]
    exact Nat.mul_lt_mul_of_pos_right hhi (Nat.two_pow_pos k)

/-- Shifting zero bits out leaves no residue. -/
theorem shiftRight_scaled (m k : Nat) :
    ExtendedMantissa.ofMantissaAndAccuracy (m * 2 ^ k) .exact >>> k =
      ExtendedMantissa.ofMantissaAndAccuracy m .exact := by
  induction k generalizing m with
  | zero => rw [Nat.pow_zero, Nat.mul_one]; rfl
  | succ k ih =>
    have hone : ExtendedMantissa.shiftRightOne
        (ExtendedMantissa.ofMantissaAndAccuracy (m * 2 ^ (k + 1)) .exact >>> k) =
        ExtendedMantissa.shiftRightOne (ExtendedMantissa.ofMantissaAndAccuracy (m * 2) .exact) := by
      rw [show m * 2 ^ (k + 1) = m * 2 * 2 ^ k by rw [Nat.pow_succ', Nat.mul_assoc],
        ih (m * 2)]
    refine hone.trans ?_
    simp [ExtendedMantissa.shiftRightOne, ExtendedMantissa.ofMantissaAndAccuracy]

theorem shiftToTarget_scaled (hlo : 2 ^ 23 ≤ m) (hhi : m < 2 ^ 24) (he : -149 ≤ e + k) :
    shiftToTargetExponent Format.binary32 (m * 2 ^ k) e .exact =
      (ExtendedMantissa.ofMantissaAndAccuracy m .exact, e + k) := by
  have htarget : Format.binary32.targetExponent (totalExponent (m * 2 ^ k) e) = e + k := by
    simp only [Format.targetExponent, totalExponent, log2_scaled hlo hhi, Format.mantissaBits,
      Format.minExponent]
    omega
  have hshift : (e + k - e).toNat = k := by omega
  simp only [shiftToTargetExponent, shiftToExponent, htarget, hshift, shiftRight_scaled]

/-- **Rounding is exact** on a normal significand followed by zero bits. -/
theorem round_scaled (s : Sign) (hlo : 2 ^ 23 ≤ m) (hhi : m < 2 ^ 24) (he : -149 ≤ e + k) :
    roundWithAccuracy Format.binary32 s (m * 2 ^ k) e .exact =
      .finite s m (e + k) (by omega) := by
  have hagain := shiftToTarget_scaled (k := 0) (e := e + k) hlo hhi (by omega)
  rw [Nat.pow_zero, Nat.mul_one] at hagain
  have hround : (ExtendedMantissa.ofMantissaAndAccuracy m .exact).roundedMantissa = m := rfl
  have hm : m ≠ 0 := by omega
  simp only [roundWithAccuracy, shiftToTarget_scaled hlo hhi he, hround, hagain]
  simp [ExtendedMantissa.ofMantissaAndAccuracy, hm]

/-! ## Bits -/

/-- **A normal float is what its bits decode to.** -/
theorem unpack_pack (s : Sign) (hlo : 2 ^ 23 ≤ m) (hhi : m < 2 ^ 24) (he : -149 ≤ e)
    (he' : e ≤ 104) :
    unpack Format.binary32 (pack Format.binary32 (.finite s m e (by omega))) =
      .finite s m e (by omega) := by
  have hlog : m.log2 = 23 := by
    have := log2_scaled hlo hhi 0
    rwa [Nat.pow_zero, Nat.mul_one] at this
  have hbias : Format.binary32.exponentBias = 127 := rfl
  obtain ⟨b, hb⟩ : ∃ b : Nat, e + 150 = b := ⟨(e + 150).toNat, by omega⟩
  have hb' : (e + Format.binary32.exponentBias + Format.binary32.mantissaBitsWithoutImplicit).toNat
      = b := by
    rw [hbias]
    show (e + 127 + 23).toNat = b
    omega
  have hpack : pack Format.binary32 (.finite s m e (by omega)) =
      packComponents Format.binary32 s (BitVec.ofNat 8 b) (BitVec.ofNat 23 m) := by
    simp only [pack, hb', hlog]
    have hnormal : 23 + 1 = Format.binary32.mantissaBits := rfl
    rw [if_neg (by show ¬ 256 ≤ b + 1; omega), if_pos hnormal]
  have hexp : (BitVec.ofNat 8 b).toNat = b := by
    rw [BitVec.toNat_ofNat]
    omega
  have hinf : BitVec.ofNat 8 b ≠ -1#8 := by
    intro h
    have h255 := congrArg BitVec.toNat h
    rw [hexp] at h255
    have : (-1#8).toNat = 255 := rfl
    omega
  have hsub : BitVec.ofNat 8 b ≠ 0#8 := by
    intro h
    have h0 := congrArg BitVec.toNat h
    rw [hexp, BitVec.toNat_zero] at h0
    omega
  have hmant : (1#1 ++ BitVec.ofNat 23 m).toNat = m := by
    have hmod : m % 2 ^ 23 < 2 ^ 23 := Nat.mod_lt _ (by decide)
    have hone : (1#1).toNat = 1 := rfl
    rw [BitVec.toNat_append, hone, BitVec.toNat_ofNat, Nat.shiftLeft_eq, Nat.mul_comm,
      ← Nat.two_pow_add_eq_or_of_lt hmod]
    omega
  rw [hpack]
  simp only [unpack, unpackMantissa_packComponents, unpackExponent_packComponents,
    unpackSign_packComponents]
  rw [if_neg hinf, if_neg hsub]
  simp only [Sign.ofBitVec_toBitVec, hmant, hexp, hbias]
  congr 1
  omega

/-! ## Integers -/

/-- The float is the positive integer `n`. -/
def IsNat (f : UnpackedFloat) (n : Nat) : Prop :=
  ∃ m j, ∃ h : Normal n m j, f = .finite .positive m (j - 23) h.pos

theorem IsNat.unpack_pack {f : UnpackedFloat} (h : IsNat f n) (hn : n ≤ 2 ^ 24) :
    unpack Format.binary32 (pack Format.binary32 f) = f := by
  obtain ⟨m, j, hnorm, rfl⟩ := h
  have hj := hnorm.exponent_le hn
  exact Binary32.unpack_pack .positive hnorm.lower hnorm.upper (by omega) (by omega)

/-- Conversion from an integer is exact. -/
theorem isNat_ofNat (h0 : 0 < n) (hn : n ≤ 2 ^ 24) : IsNat (ofNat Format.binary32 n) n := by
  obtain ⟨m, j, h⟩ := exists_normal h0 hn
  refine ⟨m, j, h, ?_⟩
  have hj := h.exponent_le hn
  have hgt : compare (n : Int) 0 = .gt := Int.compare_eq_gt.mpr (by omega)
  have htarget : Format.binary32.targetExponent (totalExponent n 0) = j - 23 := by
    simp only [Format.targetExponent, totalExponent, h.log2_eq, Format.mantissaBits,
      Format.minExponent]
    omega
  -- the conversion shifts left below `2^23`, and above it rounds zero bits away
  have hshift : (0 - ((j : Int) - 23)).toNat = 23 - j := by omega
  have hexp : (0 : Int) - (23 - j : Nat) + (j - 23 : Nat) = j - 23 := by omega
  simp only [ofNat, ofInt, UnpackedFloat.normalize, hgt, Int.toNat_natCast, UnpackedFloat.round,
    htarget, decreaseExponent, Nat.shiftLeft_eq, hshift, h.scaled]
  rw [round_scaled .positive h.lower h.upper (by omega)]
  simp only [hexp]

/-- The product of two integers is exact while it fits. -/
theorem IsNat.mul {f g : UnpackedFloat} {a b : Nat} (hf : IsNat f a) (hg : IsNat g b)
    (hab : a * b ≤ 2 ^ 24) : IsNat (f.mul Format.binary32 g) (a * b) := by
  obtain ⟨ma, ja, ha, rfl⟩ := hf
  obtain ⟨mb, jb, hb, rfl⟩ := hg
  have hpos : 0 < a * b :=
    Nat.mul_pos (Nat.lt_of_lt_of_le (Nat.two_pow_pos _) ha.bounds.1)
      (Nat.lt_of_lt_of_le (Nat.two_pow_pos _) hb.bounds.1)
  obtain ⟨m, j, h⟩ := exists_normal hpos hab
  refine ⟨m, j, h, ?_⟩
  have hval : ma * mb * 2 ^ (ja + jb) = m * 2 ^ (j + 23) := by
    calc ma * mb * 2 ^ (ja + jb) = ma * 2 ^ ja * (mb * 2 ^ jb) := by
          rw [Nat.pow_add, Nat.mul_mul_mul_comm]
      _ = a * b * 2 ^ 23 * 2 ^ 23 := by
          rw [ha.value, hb.value, Nat.mul_mul_mul_comm, Nat.mul_assoc (a * b)]
      _ = m * 2 ^ (j + 23) := by rw [← h.value, Nat.pow_add, Nat.mul_assoc]
  have hwide : 2 ^ 23 * 2 ^ 23 ≤ ma * mb := Nat.mul_le_mul ha.lower hb.lower
  have hle : ja + jb ≤ j + 23 := by
    by_contra hgt
    have hm := eq_mul_two_pow hval.symm (by omega)
    have hgrow : ma * mb ≤ m := hm ▸ Nat.le_mul_of_pos_right _ (Nat.two_pow_pos _)
    have hupper := h.upper
    omega
  have hscaled := eq_mul_two_pow hval hle
  have hexp : (ja : Int) - 23 + (jb - 23) + (j + 23 - (ja + jb) : Nat) = j - 23 := by omega
  show roundWithAccuracy Format.binary32 .positive (ma * mb) (ja - 23 + (jb - 23)) .exact = _
  rw [hscaled, round_scaled .positive h.lower h.upper (by omega)]
  simp only [hexp]

/-- Conversion back to an integer drops nothing. -/
theorem IsNat.toInt {f : UnpackedFloat} (hf : IsNat f n) (lo hi : Int) : f.toInt lo hi = n := by
  obtain ⟨m, j, h, rfl⟩ := hf
  have hleft : ((j : Int) - 23 - 0).toNat = j - 23 := by omega
  have hright : (0 - ((j : Int) - 23 - (j - 23 : Nat))).toNat = 23 - j := by omega
  simp only [UnpackedFloat.toInt, roundToInt, decreaseExponent, Nat.shiftLeft_eq, hleft,
    ← h.scaled, shiftToExponent, hright, shiftRight_scaled, Sign.apply]
  rfl

/-! ## `Float32` -/

theorem unpack_toFloat32 (h0 : 0 < n) (hn : n ≤ 2 ^ 24) :
    IsNat (UInt32.ofNat n).toFloat32.toModel.unpack n := by
  have hnat : (UInt32.ofNat n).toNat = n := by
    rw [UInt32.toNat_ofNat']
    omega
  have h := isNat_ofNat h0 hn
  have hunpack : (UInt32.ofNat n).toFloat32.toModel.unpack = ofNat Format.binary32 n := by
    refine Eq.trans ?_ (h.unpack_pack hn)
    show unpack Format.binary32 (pack Format.binary32 (ofNat Format.binary32 _)) = _
    rw [hnat]
  exact hunpack ▸ h

/-- **Multiplication through `float` is exact** while the product is at most `2^24`. -/
theorem mul_toUInt32 {a b : Nat} (ha : 0 < a) (hb : 0 < b) (hab : a * b ≤ 2 ^ 24) :
    ((UInt32.ofNat a).toFloat32 * (UInt32.ofNat b).toFloat32).toUInt32.toNat = a * b := by
  have hale : a ≤ a * b := Nat.le_mul_of_pos_right a hb
  have hble : b ≤ a * b := Nat.le_mul_of_pos_left b ha
  have hmul := (unpack_toFloat32 ha (by omega)).mul (unpack_toFloat32 hb (by omega)) hab
  have hunpack := hmul.unpack_pack hab
  show (UnpackedFloat.toUInt32 (unpack Format.binary32 (pack Format.binary32 _))).toNat = _
  rw [hunpack]
  unfold UnpackedFloat.toUInt32
  rw [hmul.toInt, Int.toNat_natCast]
  have hsize : UInt32.size = 2 ^ 32 := rfl
  unfold UInt32.ofNatClamp
  rw [dif_pos (by omega)]
  rfl

end Lib.Binary32
