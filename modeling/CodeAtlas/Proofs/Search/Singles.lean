import CodeAtlas.Search.Rank
import Mathlib

/-!
# The order of singles

Setup: candidates are ranked by `orderKey`, which reads the bits of a single as an integer. What
stands behind it is an order on all singles (`Precedes`): less comes first, minus zero comes before
zero, and what is not a number comes last. **`orderKey_lt_iff`** says that the key has this order,
and `orderKey_inj` that no two singles share a key.

The comparison of singles goes by sign, exponent and mantissa, which are cut out of the bits
(`Reads`). Exponent and mantissa together grow with the bits, subnormal singles included
(`compare_mantissas`), so the comparison is one of integers (`lt_of_reads`).
-/

namespace CodeAtlas

open Float.Model (UnpackedFloat Format)
open Float.Model.UnpackedFloat (Sign unpackMantissa unpackExponent unpackSign)

/-- The single `a` comes before `b` in the order of all singles. -/
inductive Precedes (a b : Float32) : Prop where
  /-- it is less -/
  | less (h : a < b)
  /-- it is a number, and `b` is none -/
  | number (ha : a.isNaN = false) (hb : b.isNaN = true)
  /-- they are the two zeros -/
  | zeros (ha : a = -0) (hb : b = 0)

/-! ## Bits

`n` is the number that the 32 bits of a single spell. -/

/-- The bits without the sign. -/
def magnitude (n : Nat) : Nat := n % 2 ^ 31

/-- The sign. -/
def signOf (n : Nat) : Sign := if n < 2 ^ 31 then .positive else .negative

/-- The magnitude of infinity. What is not a number has a greater one. -/
def infinityBits : Nat := 255 * 2 ^ 23

/-- The exponent, not less than that of the subnormal singles. -/
def scaleOf (n : Nat) : Nat := max (magnitude n / 2 ^ 23) 1

/-- What the bits of a number are read as. -/
inductive Reads (n : Nat) : UnpackedFloat → Prop where
  /-- an infinity -/
  | infinity (h : magnitude n = infinityBits) : Reads n (.infinity (signOf n))
  /-- a zero -/
  | zero (h : magnitude n = 0) : Reads n (.zero (signOf n))
  /-- any other number; the mantissa of a normal one has a bit more than is written -/
  | finite {m : Nat} {e : Int} (pos : 0 < m) (nonzero : 0 < magnitude n)
      (below : magnitude n < infinityBits) (mantissa : m = magnitude n - (scaleOf n - 1) * 2 ^ 23)
      (exponent : e = scaleOf n - 150) : Reads n (.finite (signOf n) m e pos)

namespace Reads

variable {n : Nat} {u : UnpackedFloat}

/-- Only a number is read. -/
theorem isNaN_eq_false (h : Reads n u) : u.isNaN = false := by
  cases h <;> rfl

/-- A number is not compared with what is none. -/
theorem compare_notANumber (h : Reads n u) : u.compare .notANumber = none := by
  cases h <;> rfl

end Reads

theorem toNat_unpackMantissa (b : BitVec 32) :
    (@unpackMantissa .binary32 b).toNat = magnitude b.toNat % 2 ^ 23 := by
  simp [unpackMantissa, magnitude]

theorem toNat_unpackExponent (b : BitVec 32) :
    (@unpackExponent .binary32 b).toNat = magnitude b.toNat / 2 ^ 23 := by
  simp [unpackExponent, Nat.shiftRight_eq_div_pow, magnitude]
  omega

theorem toNat_unpackSign (b : BitVec 32) :
    (@unpackSign .binary32 b).toNat = b.toNat / 2 ^ 31 := by
  have hlt : b.toNat < 2 ^ 32 := b.isLt
  have hsign : (@unpackSign .binary32 b).toNat = b.toNat / 2 ^ 31 % 2 := by
    simp [unpackSign, Nat.shiftRight_eq_div_pow]
  omega

theorem ofBitVec_unpackSign (b : BitVec 32) :
    Sign.ofBitVec (@unpackSign .binary32 b) = signOf b.toNat := by
  have hzero : @unpackSign .binary32 b = 0#1 ↔ b.toNat < 2 ^ 31 := by
    rw [← BitVec.toNat_inj, toNat_unpackSign]
    simp
  simp only [Sign.ofBitVec, signOf, hzero]

/-- The mantissa with the bit that is not written. -/
theorem toNat_implicit (b : BitVec 32) :
    (1#1 ++ @unpackMantissa .binary32 b).toNat = 2 ^ 23 + magnitude b.toNat % 2 ^ 23 := by
  have hlow : magnitude b.toNat % 2 ^ 23 < 2 ^ 23 := Nat.mod_lt _ (by decide)
  rw [BitVec.toNat_append, toNat_unpackMantissa, ← Nat.shiftLeft_add_eq_or_of_lt hlow]
  rfl

/-- **Bits are read** as a number up to the magnitude of infinity, and beyond it as none. -/
theorem reads_unpack (b : BitVec 32) :
    (magnitude b.toNat ≤ infinityBits ∧ Reads b.toNat (.unpack .binary32 b)) ∨
      (infinityBits < magnitude b.toNat ∧ UnpackedFloat.unpack .binary32 b = .notANumber) := by
  have hlt : magnitude b.toNat < 2 ^ 31 := Nat.mod_lt _ (by decide)
  have hinfinity : infinityBits = 255 * 2 ^ 23 := rfl
  have hones : (-1#8).toNat = 255 := by decide
  rw [UnpackedFloat.unpack]
  simp only [ofBitVec_unpackSign, ← BitVec.toNat_inj, toNat_unpackMantissa, toNat_unpackExponent,
    BitVec.toNat_ofNat, Nat.zero_mod]
  split
  · -- all bits of the exponent are set
    next hexponent =>
    rw [hones] at hexponent
    split
    · exact .inl ⟨by omega, .infinity (by omega)⟩
    · exact .inr ⟨by omega, rfl⟩
  · next hexponent =>
    rw [hones] at hexponent
    refine .inl ⟨by omega, ?_⟩
    split
    · next hsubnormal =>
      have hscale : scaleOf b.toNat = 1 := by rw [scaleOf, hsubnormal]; rfl
      split
      · exact .zero (by omega)
      · exact .finite _ (by omega) (by omega) (by rw [hscale]; omega)
          (by rw [hscale, hsubnormal]; rfl)
    · have hscale : scaleOf b.toNat = magnitude b.toNat / 2 ^ 23 := max_eq_left (by omega)
      exact .finite _ (by omega) (by omega) (by rw [toNat_implicit, hscale]; omega)
        (by rw [hscale]; rfl)

/-! ## Comparisons -/

/-- The number of bits from zero, below zero for a negative sign. -/
def signedMagnitude (n : Nat) : Int :=
  if n < 2 ^ 31 then magnitude n else -(magnitude n : Int)

theorem signedMagnitude_cases (n : Nat) :
    (signOf n = .positive ∧ signedMagnitude n = magnitude n) ∨
      signOf n = .negative ∧ signedMagnitude n = -(magnitude n : Int) := by
  rw [signOf, signedMagnitude]
  split
  · exact .inl ⟨rfl, rfl⟩
  · exact .inr ⟨rfl, rfl⟩

/-- Exponent and mantissa grow with the bits. -/
theorem compare_mantissas (n k : Nat) :
    (compare ((scaleOf n : Int) - 150) (scaleOf k - 150)).then
        (compare (magnitude n - (scaleOf n - 1) * 2 ^ 23)
          (magnitude k - (scaleOf k - 1) * 2 ^ 23)) =
      compare (magnitude n) (magnitude k) := by
  have hn : scaleOf n = max (magnitude n / 2 ^ 23) 1 := rfl
  have hk : scaleOf k = max (magnitude k / 2 ^ 23) 1 := rfl
  rcases lt_trichotomy (scaleOf n) (scaleOf k) with h | h | h
  · rw [compare_lt_iff_lt.mpr (by omega)]
    exact (compare_lt_iff_lt.mpr (by omega)).symm
  · -- singles of one exponent are compared by their mantissas
    rw [compare_eq_iff_eq.mpr (by omega), h]
    rcases lt_trichotomy (magnitude n) (magnitude k) with h' | h' | h'
    · rw [compare_lt_iff_lt.mpr h', compare_lt_iff_lt.mpr (by omega)]; rfl
    · rw [h', compare_eq_iff_eq.mpr rfl, compare_eq_iff_eq.mpr rfl]; rfl
    · rw [compare_gt_iff_gt.mpr h', compare_gt_iff_gt.mpr (by omega)]; rfl
  · rw [compare_gt_iff_gt.mpr (by omega)]
    exact (compare_gt_iff_gt.mpr (by omega)).symm

/-- **Numbers are compared as their bits are**: a case for each kind of number and each sign. -/
theorem lt_of_reads {n k : Nat} {u v : UnpackedFloat} (hu : Reads n u) (hv : Reads k v) :
    u.compare v = some .lt ↔ signedMagnitude n < signedMagnitude k := by
  have hpos : 0 < infinityBits := by decide
  have hsigns : compare Sign.negative Sign.positive = .lt := rfl
  have hfinite := compare_mantissas n k
  rcases signedMagnitude_cases n with ⟨hs, hr⟩ | ⟨hs, hr⟩ <;>
    rcases signedMagnitude_cases k with ⟨hs', hr'⟩ | ⟨hs', hr'⟩ <;>
    rw [hr, hr'] <;> cases hu <;> cases hv <;> subst_vars
  all_goals
    simp only [hs, hs', hsigns, hfinite, UnpackedFloat.compare, Option.some.injEq,
      Ordering.swap_eq_lt, compare_lt_iff_lt, compare_gt_iff_gt, reduceCtorEq, false_iff, true_iff]
  all_goals omega

/-! ## The key -/

variable {a b : Float32}

/-- Singles with the same bits are the same. -/
theorem eq_of_toBits (h : a.toBits.toNat = b.toBits.toNat) : a = b := by
  obtain ⟨⟨n, _⟩⟩ := a
  obtain ⟨⟨k, _⟩⟩ := b
  obtain rfl : n = k := UInt32.toNat_inj.mp h
  rfl

/-- The bits of what is not a number: there is only one. -/
theorem toNat_of_valid {b : BitVec 32} (hvalid : Format.binary32.Valid b)
    (h : infinityBits < magnitude b.toNat) : b.toNat = infinityBits + 2 ^ 22 := by
  have hlt : magnitude b.toNat < 2 ^ 31 := Nat.mod_lt _ (by decide)
  have hinfinity : infinityBits = 255 * 2 ^ 23 := rfl
  have hexponent : @unpackExponent .binary32 b = -1#8 := by
    have hones : (-1#8).toNat = 255 := by decide
    refine BitVec.toNat_inj.mp ?_
    rw [toNat_unpackExponent, hones]
    omega
  have hmantissa : @unpackMantissa .binary32 b ≠ 0#23 := by
    intro hzero
    have hnone := toNat_unpackMantissa b
    rw [hzero, BitVec.toNat_zero] at hnone
    omega
  rw [hvalid.eq_packedNaN hexponent hmantissa]
  decide

/-- A number is read from its bits, and what is no number has the bits that are left for it. -/
theorem reads_cases (a : Float32) :
    (a.isNaN = false ∧ magnitude a.toBits.toNat ≤ infinityBits ∧
      Reads a.toBits.toNat a.toModel.unpack) ∨
      (a.isNaN = true ∧ a.toBits.toNat = infinityBits + 2 ^ 22 ∧
        a.toModel.unpack = .notANumber) := by
  have hnan : a.isNaN = a.toModel.unpack.isNaN := rfl
  rcases reads_unpack a.toBits.toBitVec with ⟨hle, hreads⟩ | ⟨hlt, hnone⟩
  · exact .inl ⟨hnan.trans hreads.isNaN_eq_false, hle, hreads⟩
  · exact .inr ⟨hnan.trans (congrArg _ hnone), toNat_of_valid a.toModel.valid hlt, hnone⟩

/-- A single is less than another exactly when both are numbers and it comes first by the bits. -/
theorem lt_iff : a < b ↔ a.isNaN = false ∧ b.isNaN = false ∧
    signedMagnitude a.toBits.toNat < signedMagnitude b.toBits.toNat := by
  have hlt : a < b ↔ a.toModel.unpack.compare b.toModel.unpack = some .lt := by
    change decide (a.toModel.unpack.lt b.toModel.unpack = true) = true ↔ _
    rw [decide_eq_true_iff, UnpackedFloat.lt, beq_iff_eq]
  rw [hlt]
  rcases reads_cases a with ⟨ha, -, hreads⟩ | ⟨ha, -, hnone⟩
  · rcases reads_cases b with ⟨hb, -, hreads'⟩ | ⟨hb, -, hnone'⟩
    · simp only [ha, hb, true_and, lt_of_reads hreads hreads']
    · rw [hnone', hreads.compare_notANumber, hb]
      exact iff_of_false nofun fun h => nomatch h.2.1
  · rw [hnone, ha]
    simp [UnpackedFloat.compare]

/-- Only numbers are compared. -/
theorem isNaN_of_le (h : a ≤ b) : a.isNaN = false ∧ b.isNaN = false := by
  have hle : (a.toModel.unpack.compare b.toModel.unpack).any (·.isLE) = true :=
    of_decide_eq_true h
  rcases reads_cases a with ⟨ha, -, hreads⟩ | ⟨-, -, hnone⟩
  · rcases reads_cases b with ⟨hb, -, -⟩ | ⟨-, -, hnone'⟩
    · exact ⟨ha, hb⟩
    · rw [hnone', hreads.compare_notANumber] at hle
      cases hle
  · rw [hnone] at hle
    cases hle

theorem orderKey_eq (a : Float32) : orderKey a =
    if a.toBits.toNat < 2 ^ 31 then signedMagnitude a.toBits.toNat
    else signedMagnitude a.toBits.toNat - 1 := by
  have hbits : a.toBits.toNat < 2 ^ 32 := a.toBits.toNat_lt
  have hsize : UInt32.size / 2 = 2 ^ 31 := rfl
  simp only [orderKey, signedMagnitude, magnitude, hsize]
  split <;> omega

/-- No two singles share a key. -/
theorem orderKey_inj (h : orderKey a = orderKey b) : a = b := by
  have ha : a.toBits.toNat < 2 ^ 32 := a.toBits.toNat_lt
  have hb : b.toBits.toNat < 2 ^ 32 := b.toBits.toNat_lt
  refine eq_of_toBits ?_
  simp only [orderKey_eq, signedMagnitude, magnitude] at h
  split at h <;> split at h <;> omega

/-- The key of a number is not beyond that of infinity. -/
theorem orderKey_le (h : magnitude a.toBits.toNat ≤ infinityBits) : orderKey a ≤ infinityBits := by
  rw [orderKey_eq, signedMagnitude]
  split <;> omega

/-- The key of what is not a number is beyond that of infinity. -/
theorem orderKey_of_none (h : a.toBits.toNat = infinityBits + 2 ^ 22) :
    orderKey a = infinityBits + 2 ^ 22 := by
  have hlt : infinityBits + 2 ^ 22 < 2 ^ 31 := by decide
  rw [orderKey_eq, h, if_pos hlt, signedMagnitude, if_pos hlt, magnitude, Nat.mod_eq_of_lt hlt]
  rfl

/-- The keys of numbers go by their magnitudes; only the zeros share one. -/
theorem orderKey_lt_iff_signedMagnitude : orderKey a < orderKey b ↔
    signedMagnitude a.toBits.toNat < signedMagnitude b.toBits.toNat ∨
      (a.toBits.toNat = 2 ^ 31 ∧ b.toBits.toNat = 0) := by
  have ha : a.toBits.toNat < 2 ^ 32 := a.toBits.toNat_lt
  have hb : b.toBits.toNat < 2 ^ 32 := b.toBits.toNat_lt
  simp only [orderKey_eq, signedMagnitude, magnitude]
  split <;> split <;> omega

/-- **The key has the order of singles.** -/
theorem orderKey_lt_iff : orderKey a < orderKey b ↔ Precedes a b := by
  have hzero : (0 : Float32).toBits.toNat = 0 := by decide
  have hminus : (-0 : Float32).toBits.toNat = 2 ^ 31 := by decide
  constructor
  · intro hlt
    rcases reads_cases a with ⟨ha, -, -⟩ | ⟨-, ha, -⟩
    · rcases reads_cases b with ⟨hb, -, -⟩ | ⟨hb, -, -⟩
      · rcases orderKey_lt_iff_signedMagnitude.mp hlt with h | ⟨h, h'⟩
        · exact .less (lt_iff.mpr ⟨ha, hb, h⟩)
        · exact .zeros (eq_of_toBits (h.trans hminus.symm)) (eq_of_toBits (h'.trans hzero.symm))
      · exact .number ha hb
    · -- nothing comes after what is not a number
      rw [orderKey_of_none ha] at hlt
      rcases reads_cases b with ⟨-, hle, -⟩ | ⟨-, hb, -⟩
      · have := orderKey_le hle
        omega
      · rw [orderKey_of_none hb] at hlt
        exact absurd hlt (lt_irrefl _)
  · rintro (h | ⟨ha, hb⟩ | ⟨rfl, rfl⟩)
    · exact orderKey_lt_iff_signedMagnitude.mpr (.inl (lt_iff.mp h).2.2)
    · rcases reads_cases a with ⟨-, hle, -⟩ | ⟨ha', -, -⟩
      · rcases reads_cases b with ⟨hb', -, -⟩ | ⟨-, hbits, -⟩
        · exact absurd (hb.symm.trans hb') (by decide)
        · have := orderKey_le hle
          rw [orderKey_of_none hbits]
          omega
      · exact absurd (ha.symm.trans ha') (by decide)
    · exact orderKey_lt_iff_signedMagnitude.mpr (.inr ⟨hminus, hzero⟩)

end CodeAtlas
