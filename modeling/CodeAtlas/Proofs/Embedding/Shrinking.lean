import CodeAtlas.Decimal.Binary
import CodeAtlas.Embedding.Batching
import CodeAtlas.Proofs.Search.Singles
import Mathlib

/-!
# How far a text is shortened

The length of a shortened text is a product of singles, cut off at the point. Here the product is
taken as the number that it stands for, a whole number times a power of two, and what is left of it
is its floor (`Reading.wholePart`).

* **`toNat_toUInt64`** — cutting off takes the whole part.
* `ShrinkPolicy.lengths`, `ShrinkPolicy.starts` — the lengths to which a text is shortened one after
  the other, said with whole parts, and the starts of the text that have these lengths.
* **`ShrinkPolicy.next_eq`** — one more length is the whole part of the product.
-/

namespace CodeAtlas

open CodeAtlas.Decimal CodeAtlas.Text
open Float.Model (UnpackedFloat)
open Float.Model.UnpackedFloat (ExtendedMantissa roundToInt)

/-! ## Whole parts -/

/-- The whole part of a reading, bounded by what 64 bits hold. Nothing is left of a negative number
or of what is no number. -/
def Decimal.Reading.wholePart : Reading → Nat
  | .nan => 0
  | .infinite negative => if negative then 0 else UInt64.size - 1
  | .finite negative mantissa exponent _ =>
    if negative then 0 else min ⌊(mantissa * 2 ^ exponent : ℚ)⌋₊ (UInt64.size - 1)

/-- A shift by some bits divides by a power of two. -/
theorem mantissa_repeat_shiftRightOne (em : ExtendedMantissa) (k : Nat) :
    (k.repeat ExtendedMantissa.shiftRightOne em).mantissa = em.mantissa / 2 ^ k := by
  induction k with
  | zero => simp [Nat.repeat]
  | succ k ih =>
    rw [Nat.repeat, ExtendedMantissa.shiftRightOne, ih, Nat.div_div_eq_div_mul, pow_succ]

/-- A positive number is rounded down: a number without places behind the point stays as it is, and
of any other the places behind the point are shifted out. -/
theorem roundToInt_positive (m : Nat) (e : Int) :
    roundToInt .positive m e = ⌊(m * 2 ^ e : ℚ)⌋₊ := by
  rw [roundToInt]
  simp only [UnpackedFloat.decreaseExponent, UnpackedFloat.shiftToExponent,
    UnpackedFloat.Sign.apply, sub_zero, Nat.cast_inj]
  rw [show ∀ (em : ExtendedMantissa) (k : Nat),
    em >>> k = k.repeat ExtendedMantissa.shiftRightOne em from
    fun _ _ => rfl, mantissa_repeat_shiftRightOne, Nat.shiftLeft_eq]
  rcases le_or_gt 0 e with he | he
  · obtain ⟨k, rfl⟩ := Int.eq_ofNat_of_zero_le he
    have hvalue : (m * 2 ^ (k : Int) : ℚ) = ((m * 2 ^ k : Nat) : ℚ) := by push_cast; rfl
    rw [hvalue, Nat.floor_natCast]
    simp [ExtendedMantissa.ofMantissaAndAccuracy]
  · obtain ⟨k, rfl⟩ := Int.exists_eq_neg_ofNat he.le
    have hvalue : (m * 2 ^ (-(k : Int)) : ℚ) = (m : ℚ) / ((2 ^ k : Nat) : ℚ) := by
      rw [zpow_neg, zpow_natCast, div_eq_mul_inv]
      push_cast
      rfl
    rw [hvalue, Nat.floor_div_eq_div]
    simp [ExtendedMantissa.ofMantissaAndAccuracy]

/-- The fields of a bit pattern, in terms of its magnitude. -/
theorem read_eq {n : Nat} (hn : n < 2 ^ 32) : BinaryFormat.single.read n =
    if magnitude n / 2 ^ 23 = 255 then
      if magnitude n % 2 ^ 23 = 0 then .infinite (decide (2 ^ 31 ≤ n)) else .nan
    else .finite (decide (2 ^ 31 ≤ n)) (magnitude n - (scaleOf n - 1) * 2 ^ 23) (scaleOf n - 150)
      (magnitude n % 2 ^ 23 == 0 && 1 < magnitude n / 2 ^ 23) := by
  have hfraction : n % Nat.pow 2 23 = magnitude n % 2 ^ 23 := by
    simp only [magnitude, Nat.pow_eq]; omega
  have hfield : n / Nat.pow 2 23 % Nat.pow 2 8 = magnitude n / 2 ^ 23 := by
    simp only [magnitude, Nat.pow_eq]; omega
  have hsign : (n / Nat.pow 2 (23 + 8) % 2 == 1) = decide (2 ^ 31 ≤ n) := by
    simp only [Nat.pow_eq]
    rw [Bool.eq_iff_iff, beq_iff_eq, decide_eq_true_eq]
    omega
  have hleast : BinaryFormat.single.leastExponent = -149 := rfl
  rw [BinaryFormat.read, hleast]
  simp only [BinaryFormat.single, hfraction, hfield, hsign]
  refine if_congr Iff.rfl rfl ?_
  split
  · next hzero =>
    have hscale : scaleOf n = 1 := by rw [scaleOf, hzero]; rfl
    congr 1
    · omega
    · omega
    · rw [hzero]
      simp
  · next hpos =>
    have hscale : scaleOf n = magnitude n / 2 ^ 23 := max_eq_left (by omega)
    congr 1
    · simp only [Nat.pow_eq]
      omega
    · omega

/-- Numbers that 64 bits do not hold become the greatest one that they do. -/
theorem toNat_ofNatClamp (k : Nat) : (UInt64.ofNatClamp k).toNat = min k (UInt64.size - 1) := by
  rw [UInt64.ofNatClamp]
  split
  · next h => exact (min_eq_left (Nat.le_sub_one_of_lt h)).symm
  · next h =>
    rw [UInt64.toNat_ofNatLT]
    exact (min_eq_right (by omega)).symm

/-- **Cutting off takes the whole part.** -/
theorem toNat_toUInt64 (x : Float32) : x.toUInt64.toNat = (Reading.ofFloat32 x).wholePart := by
  have hn : x.toBits.toNat < 2 ^ 32 := x.toBits.toNat_lt
  have hinfinity : infinityBits = 255 * 2 ^ 23 := rfl
  rw [Reading.ofFloat32, read_eq hn]
  change (UInt64.ofNatClamp (x.toModel.unpack.toInt 0 (UInt64.size - 1)).toNat).toNat = _
  rw [toNat_ofNatClamp]
  rcases reads_cases x with ⟨-, hle, hreads⟩ | ⟨-, hbits, hnone⟩
  · generalize x.toModel.unpack = u at hreads
    cases hreads with
    | infinity h =>
      rw [if_pos (by omega), if_pos (by omega), signOf]
      by_cases hneg : x.toBits.toNat < 2 ^ 31
      · rw [if_pos hneg, decide_eq_false (by omega)]
        rfl
      · rw [if_neg hneg, decide_eq_true (by omega)]
        rfl
    | zero h =>
      rw [if_neg (by omega), h]
      simp [UnpackedFloat.toInt, Reading.wholePart]
    | @finite m e pos nonzero below mantissa exponent =>
      rw [if_neg (by omega), ← mantissa, ← exponent, signOf]
      by_cases hneg : x.toBits.toNat < 2 ^ 31
      · rw [if_pos hneg, decide_eq_false (by omega)]
        simp only [UnpackedFloat.toInt, roundToInt_positive, Int.toNat_natCast, Reading.wholePart]
        rfl
      · rw [if_neg hneg, decide_eq_true (by omega)]
        -- a negative number is not greater than zero
        simp only [UnpackedFloat.toInt, roundToInt, UnpackedFloat.Sign.apply, Reading.wholePart]
        simp
  · have hmagnitude : magnitude x.toBits.toNat = infinityBits + 2 ^ 22 := by
      rw [hbits]
      rfl
    rw [hnone, if_pos (by omega), if_neg (by omega)]
    rfl

/-! ## Lengths -/

namespace ShrinkPolicy

/-- The length that is left of `length`: the whole part of its product with the factor. -/
def part (p : ShrinkPolicy) (length : Nat) : Nat :=
  (Reading.ofFloat32 (Float32.ofNat length * p.factor)).wholePart

/-- **One more length is the whole part of the product.** -/
theorem next_eq (p : ShrinkPolicy) (length : Nat) : p.next length = p.part length :=
  toNat_toUInt64 _

/-- The lengths that follow `length` in some attempts, up to the first one that leaves nothing. -/
def lengths (p : ShrinkPolicy) (attempts length : Nat) : List Nat :=
  (List.iterate p.part (p.part length) attempts).takeWhile (· ≠ 0)

/-- The starts of a text that are tried in some attempts, when `length` characters are too long. -/
def startsFrom (p : ShrinkPolicy) (text : String) (attempts length : Nat) : List String :=
  (p.lengths attempts length).map (truncate text)

/-- The starts of a text that are tried when the text is too long. -/
def starts (p : ShrinkPolicy) (text : String) : List String :=
  p.startsFrom text p.retries text.length

variable {p : ShrinkPolicy} {text : String} {attempts length : Nat}

/-- Nothing is tried after a length that leaves nothing. -/
theorem startsFrom_of_eq_zero (h : p.next length = 0) :
    p.startsFrom text (attempts + 1) length = [] := by
  rw [p.next_eq] at h
  rw [startsFrom, lengths, List.iterate, List.takeWhile_cons_of_neg (by simpa using h),
    List.map_nil]

/-- The start of the next length is tried first. -/
theorem startsFrom_of_ne_zero (h : p.next length ≠ 0) : p.startsFrom text (attempts + 1) length =
    truncate text (p.next length) :: p.startsFrom text attempts (p.next length) := by
  rw [p.next_eq] at h ⊢
  rw [startsFrom, lengths, List.iterate, List.takeWhile_cons_of_pos (by simpa using h),
    List.map_cons]
  rfl

end ShrinkPolicy

end CodeAtlas
