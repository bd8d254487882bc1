import Mathlib.Data.Nat.Digits.Lemmas

/-!
# Zero-padded decimal numerals

`padDecimal w n` is what `printf("%0wlu", n)` writes: the decimal digits of `n` in ASCII, with
zeros in front up to width `w`.

* `padDecimal_inj`: two numbers with the same numeral are equal, whatever the width.
* `isDigit_of_mem`: a numeral holds digits only, so it ends where another character stands.
-/

namespace Lib.Decimal

/-- The digits of `n`, most significant first, padded with zeros to width `w`. -/
def padDigits (w n : Nat) : List Nat := (Nat.digitsAppend 10 w n).reverse

/-- The numeral in ASCII. -/
def padDecimal (w n : Nat) : List UInt8 := (padDigits w n).map fun d => 0x30 + UInt8.ofNat d

/-- An ASCII digit. -/
def IsDigit (c : UInt8) : Prop := 0x30 ≤ c ∧ c ≤ 0x39

instance : DecidablePred IsDigit := fun c => inferInstanceAs (Decidable (0x30 ≤ c ∧ c ≤ 0x39))

variable {w v m n : Nat}

theorem lt_ten_of_mem {d : Nat} (h : d ∈ padDigits w n) : d < 10 :=
  Nat.lt_of_mem_digitsAppend (by decide) w d (List.mem_reverse.mp h)

/-- The value of the padded digits. -/
theorem ofDigits_padDigits (w n : Nat) : Nat.ofDigits 10 (padDigits w n).reverse = n := by
  rw [padDigits, List.reverse_reverse, Nat.digitsAppend, Nat.ofDigits_append_replicate_zero,
    Nat.ofDigits_digits]

theorem toNat_digit {d : Nat} (h : d < 10) : (0x30 + UInt8.ofNat d).toNat = 0x30 + d := by
  rw [UInt8.toNat_add, UInt8.toNat_ofNat']
  rw [show (0x30 : UInt8).toNat = 0x30 from rfl]
  omega

theorem digit_inj {d e : Nat} (hd : d < 10) (he : e < 10)
    (h : 0x30 + UInt8.ofNat d = 0x30 + UInt8.ofNat e) : d = e := by
  have := congrArg UInt8.toNat h
  rw [toNat_digit hd, toNat_digit he] at this
  omega

theorem map_digit_inj {as bs : List Nat} (ha : ∀ d ∈ as, d < 10) (hb : ∀ d ∈ bs, d < 10)
    (h : as.map (fun d => 0x30 + UInt8.ofNat d) = bs.map (fun d => 0x30 + UInt8.ofNat d)) :
    as = bs := by
  induction as generalizing bs with
  | nil =>
    cases bs with
    | nil => rfl
    | cons b bs => exact absurd h (by simp)
  | cons a as ih =>
    cases bs with
    | nil => exact absurd h (by simp)
    | cons b bs =>
      rw [List.map_cons, List.map_cons, List.cons.injEq] at h
      rw [digit_inj (ha a List.mem_cons_self) (hb b List.mem_cons_self) h.1,
        ih (fun d hd => ha d (List.mem_cons_of_mem a hd))
          (fun d hd => hb d (List.mem_cons_of_mem b hd)) h.2]

/-- **A numeral determines its number.** -/
theorem padDecimal_inj (h : padDecimal w m = padDecimal v n) : m = n := by
  have hdigits : padDigits w m = padDigits v n :=
    map_digit_inj (fun _ => lt_ten_of_mem) (fun _ => lt_ten_of_mem) h
  rw [← ofDigits_padDigits w m, hdigits, ofDigits_padDigits]

/-- A numeral is as long as its width or its digits. -/
theorem padDecimal_length_le {k : Nat} (hw : w ≤ k) (hn : n < 10 ^ k) :
    (padDecimal w n).length ≤ k := by
  have hdigits := (Nat.digits_length_le_iff (by decide) n).mpr hn
  unfold padDecimal padDigits Nat.digitsAppend
  rw [List.length_map, List.length_reverse, List.length_append, List.length_replicate]
  omega

theorem isDigit_of_mem {c : UInt8} (h : c ∈ padDecimal w n) : IsDigit c := by
  obtain ⟨d, hd, rfl⟩ := List.mem_map.mp h
  have hlt := lt_ten_of_mem hd
  constructor
  · rw [UInt8.le_iff_toNat_le, toNat_digit hlt]
    exact Nat.le_add_right _ _
  · rw [UInt8.le_iff_toNat_le, toNat_digit hlt]
    show 0x30 + d ≤ 0x39
    omega

end Lib.Decimal
