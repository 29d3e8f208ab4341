import CodeAtlas.Proofs.Json.RoundTrip

/-!
# Numbers are written as the grammar has them

Setup: whole numbers are written with their decimal digits, and singles with the fewest digits that
tell them from their neighbours. Either way what is written is a number of the JSON grammar:
**`Json.Literal.wellFormed_ofNat`** and **`Json.Literal.wellFormed_ofFloat32?`**. Whole numbers are
read back (`Json.Literal.integer?_ofNat`).

The point about singles is that their digits are found at all, and do not start with a zero. The
grid of decimals with ten digits is finer than the distance of two singles
(`Decimal.isSome_gridHit?`), so the search for a decimal between the neighbours of a single never
runs out of grids, and zero is never between them (`Decimal.inside_zero`).
-/

namespace CodeAtlas

open CodeAtlas.Decimal

/-! ## Digits of whole numbers -/

namespace Decimal

/-- A digit is no other character. -/
theorem notMem_toDigits {c : Char} (hc : c.isDigit = false) (n : Nat) : c ∉ Nat.toDigits 10 n := by
  intro h
  rw [Nat.isDigit_of_mem_toDigits (by decide) (by decide) h] at hc
  cases hc

/-- The digits of a number spell it. -/
theorem digitsValue_toDigits (n : Nat) : digitsValue (Nat.toDigits 10 n) = n := by
  have h : Nat.ofDigitChars 10 (Nat.toDigits 10 n) 0 = n := Nat.ofDigitChars_ten_toDigits
  rw [Nat.ofDigitChars] at h
  simpa only [digitsValue, Nat.mul_comm] using h

/-- Only zero is written with a zero in front. -/
theorem toDigits_of_head? (n : Nat) (h : (Nat.toDigits 10 n).head? = some '0') :
    Nat.toDigits 10 n = ['0'] := by
  induction n using Nat.strongRecOn with
  | ind n ih =>
    by_cases hn : n < 10
    · rw [Nat.toDigits_of_lt_base hn] at h ⊢
      exact congrArg (· :: []) (Option.some.inj h)
    · rw [Nat.toDigits_of_base_le (by decide) (by omega)] at h
      have hdigits : Nat.toDigits 10 (n / 10) ≠ [] := Nat.toDigits_ne_nil
      rw [List.head?_append_of_ne_nil _ hdigits] at h
      -- the digits in front would spell zero
      have hzero := digitsValue_toDigits (n / 10)
      rw [ih (n / 10) (by omega) h] at hzero
      have : n / 10 = 0 := hzero.symm
      omega

/-- A number has as many digits as it takes. -/
theorem pow_le_of_length_toDigits {n : Nat} (h : 0 < n) :
    10 ^ ((Nat.toDigits 10 n).length - 1) ≤ n := by
  by_contra hlt
  rw [Nat.not_le] at hlt
  by_cases hone : (Nat.toDigits 10 n).length - 1 = 0
  · rw [hone] at hlt
    omega
  · have hlength := Nat.toDigits_length 10 n _ (by omega) hlt
    omega

end Decimal

namespace Json

/-- A number is written with digits. -/
theorem digits_toDigits (n : Nat) : Digits (Nat.toDigits 10 n) :=
  ⟨Nat.toDigits_ne_nil, fun _ hc => Nat.isDigit_of_mem_toDigits (by decide) (by decide) hc⟩

/-- A whole number is spelled as the grammar has it. -/
theorem Literal.wellFormed_ofNat (n : Nat) : (Literal.ofNat n).WellFormed where
  whole := digits_toDigits n
  leading := toDigits_of_head? n
  fraction := fun _ h => nomatch h
  exponent := fun _ h => nomatch h

/-- A whole number of 64 bits is read back. -/
theorem Literal.integer?_ofNat {n : Nat} (h : n < UInt64.size) :
    (Literal.ofNat n).integer? = some (n : Int) := by
  simp only [integer?, ofNat, digitsValue_toDigits, Bool.false_eq_true, if_false, if_pos h]

end Json

/-! ## The digits of singles -/

namespace Decimal

/-- A power of ten as the two factors that it puts on either side of a comparison. -/
def powerFactors (power : Int) : Nat × Nat :=
  if 0 ≤ power then (10 ^ power.toNat, 1) else (1, 10 ^ (-power).toNat)

theorem powerFactors_pos (power : Int) :
    0 < (powerFactors power).1 ∧ 0 < (powerFactors power).2 := by
  rw [powerFactors]
  split_ifs
  · exact ⟨Nat.pow_pos (by decide), Nat.one_pos⟩
  · exact ⟨Nat.one_pos, Nat.pow_pos (by decide)⟩

/-- Scaling puts the factors on numerator and denominator. -/
theorem shifted_eq (num den : Nat) (power : Int) :
    shifted num den power = (num * (powerFactors power).1, den * (powerFactors power).2) := by
  rw [shifted, powerFactors]
  split_ifs <;> simp [Nat.pow_eq]

/-- Scaling by the inverse swaps the factors. -/
theorem powerFactors_neg (power : Int) :
    powerFactors (-power) = ((powerFactors power).2, (powerFactors power).1) := by
  rcases lt_trichotomy power 0 with h | rfl | h
  · rw [powerFactors, powerFactors, if_pos (by omega), if_neg (by omega)]
  · rfl
  · rw [powerFactors, powerFactors, if_neg (by omega), if_pos (by omega), neg_neg]

/-- Whether a grid point lies in the interval around a value. -/
def Inside (m below quarterNum quarterDen : Nat) (power : Int) (point : Nat) : Bool :=
  let p := shifted point 1 power
  let x := p.1 * quarterDen
  let l := (4 * m - below) * quarterNum * p.2
  let g := (4 * m + 2) * quarterNum * p.2
  if m % 2 == 0 then l ≤ x && x ≤ g else l < x && x < g

section Grid

variable {m below quarterNum quarterDen : Nat} {power : Int}

/-- Strictly between the ends is inside. -/
theorem inside_of_lt {point : Nat}
    (hleast : (4 * m - below) * quarterNum * (powerFactors power).2 <
      point * (powerFactors power).1 * quarterDen)
    (hgreatest : point * (powerFactors power).1 * quarterDen <
      (4 * m + 2) * quarterNum * (powerFactors power).2) :
    Inside m below quarterNum quarterDen power point = true := by
  simp only [Inside, shifted_eq, one_mul]
  split_ifs
  · simp [hleast.le, hgreatest.le]
  · simp [hleast, hgreatest]

/-- Zero is not inside: the interval lies above it. -/
theorem inside_zero (hm : 0 < m) (hbelow : below ≤ 2) (hnum : 0 < quarterNum) :
    Inside m below quarterNum quarterDen power 0 = false := by
  have hfour : 0 < 4 * m - below := by omega
  have hfactor := (powerFactors_pos power).2
  have hleast : 0 < (4 * m - below) * quarterNum * (powerFactors power).2 := by positivity
  simp only [Inside, shifted_eq, one_mul, zero_mul]
  split_ifs
  · rw [decide_eq_false (by omega), Bool.false_and]
  · rw [decide_eq_false (by omega), Bool.false_and]

/-- The grid point at the value or right before it. -/
def floorPoint (m quarterNum quarterDen : Nat) (power : Int) : Nat :=
  (4 * m * quarterNum * (powerFactors power).2) / (quarterDen * (powerFactors power).1)

theorem gridHit?_eq : gridHit? m below quarterNum quarterDen power =
    let value := shifted (4 * m * quarterNum) quarterDen (-power)
    let low := value.1 / value.2
    let remainder := value.1 % value.2
    let nearLow := if 2 * remainder = value.2 then low % 2 == 0 else 2 * remainder < value.2
    match Inside m below quarterNum quarterDen power low,
      Inside m below quarterNum quarterDen power (low + 1) with
    | true, true => some (if nearLow then low else low + 1)
    | true, false => some low
    | false, true => some (low + 1)
    | false, false => none :=
  rfl

/-- What is found on a grid is inside. -/
theorem inside_of_gridHit? {digits : Nat}
    (h : gridHit? m below quarterNum quarterDen power = some digits) :
    Inside m below quarterNum quarterDen power digits = true := by
  rw [gridHit?_eq] at h
  dsimp only at h
  generalize hlow : (shifted (4 * m * quarterNum) quarterDen (-power)).1 /
    (shifted (4 * m * quarterNum) quarterDen (-power)).2 = low at h
  cases hfirst : Inside m below quarterNum quarterDen power low <;>
    cases hsecond : Inside m below quarterNum quarterDen power (low + 1) <;>
      simp only [hfirst, hsecond, Option.some.injEq, reduceCtorEq] at h
  · exact h ▸ hsecond
  · exact h ▸ hfirst
  · split_ifs at h
    all_goals first
      | exact h ▸ hfirst
      | exact h ▸ hsecond

/-- Something is found if the first grid point after the value is inside. -/
theorem isSome_gridHit?_of_inside
    (h : Inside m below quarterNum quarterDen power (floorPoint m quarterNum quarterDen power + 1) =
      true) : (gridHit? m below quarterNum quarterDen power).isSome = true := by
  have hlow : (shifted (4 * m * quarterNum) quarterDen (-power)).1 /
      (shifted (4 * m * quarterNum) quarterDen (-power)).2 =
        floorPoint m quarterNum quarterDen power := by
    rw [shifted_eq, powerFactors_neg, floorPoint]
  rw [gridHit?_eq]
  simp only [hlow, h]
  cases Inside m below quarterNum quarterDen power (floorPoint m quarterNum quarterDen power) <;>
    rfl

/-- **Something is found on a grid that is finer than half the distance of two singles.** The first
grid point after the value is less than half that distance away from it. -/
theorem isSome_gridHit? (m below : Nat) (hden : 0 < quarterDen)
    (hfine : quarterDen * (powerFactors power).1 < 2 * quarterNum * (powerFactors power).2) :
    (gridHit? m below quarterNum quarterDen power).isSome = true := by
  obtain ⟨hleft, hright⟩ := powerFactors_pos power
  apply isSome_gridHit?_of_inside
  have hstep : 0 < quarterDen * (powerFactors power).1 := Nat.mul_pos hden hleft
  have hfloor := Nat.div_mul_le_self (4 * m * quarterNum * (powerFactors power).2)
    (quarterDen * (powerFactors power).1)
  have hnext := Nat.lt_div_mul_add (a := 4 * m * quarterNum * (powerFactors power).2) hstep
  rw [← floorPoint] at hfloor hnext
  have hpoint :
      (floorPoint m quarterNum quarterDen power + 1) * (powerFactors power).1 * quarterDen =
      floorPoint m quarterNum quarterDen power * (quarterDen * (powerFactors power).1) +
        quarterDen * (powerFactors power).1 := by ring
  apply inside_of_lt
  · -- the interval begins before the value
    have hleast : (4 * m - below) * quarterNum * (powerFactors power).2 ≤
        4 * m * quarterNum * (powerFactors power).2 := by
      gcongr
      exact Nat.sub_le _ _
    rw [hpoint]
    exact hleast.trans_lt hnext
  · -- and ends two quarters after it
    have hgreatest : (4 * m + 2) * quarterNum * (powerFactors power).2 =
        4 * m * quarterNum * (powerFactors power).2 + 2 * quarterNum * (powerFactors power).2 := by
          ring
    rw [hpoint, hgreatest]
    omega

end Grid

/-! ### Scales -/

/-- Powers of ten multiply. -/
theorem powerFactors_sub (power : Int) (k : Nat) :
    (powerFactors (power - k)).1 * (powerFactors power).2 * 10 ^ k =
      (powerFactors power).1 * (powerFactors (power - k)).2 := by
  rw [powerFactors, powerFactors]
  split_ifs with hless hpower hpower
  · have hsum : power.toNat = (power - k).toNat + k := by omega
    rw [mul_one, mul_one, hsum, pow_add]
  · omega
  · have hsum : k = power.toNat + (-(power - k)).toNat := by omega
    rw [one_mul, one_mul]
    conv_lhs => rw [hsum, pow_add]
  · have hsum : (-(power - k)).toNat = (-power).toNat + k := by omega
    rw [one_mul, one_mul, hsum, pow_add]

/-- The count of zeros stops at the first digit. -/
theorem decimalScale_go (den : Nat) (fuel : Nat) :
    ∀ num zeros, den ≤ num * 10 ^ fuel → ∃ more : Nat,
      decimalScale.go den num zeros fuel = -((zeros + more : Nat) : Int) ∧
        den ≤ num * 10 ^ (more + 1) := by
  induction fuel with
  | zero =>
    intro num zeros h
    exact ⟨0, rfl, by omega⟩
  | succ fuel ih =>
    intro num zeros h
    rw [decimalScale.go]
    by_cases hstop : den ≤ num * 10
    · exact ⟨0, if_pos hstop, by omega⟩
    · obtain ⟨more, hgo, hmore⟩ :=
        ih (num * 10) (zeros + 1) (by rw [mul_assoc, ← pow_succ']; exact h)
      refine ⟨more + 1, ?_, by rw [pow_succ', ← mul_assoc]; exact hmore⟩
      rw [if_neg hstop, hgo, show zeros + 1 + more = zeros + (more + 1) by omega]

/-- A quotient is not below the power of ten before its scale. -/
theorem le_decimalScale {num den fuel : Nat} (hden : 0 < den) (hfuel : den ≤ num * 10 ^ fuel) :
    den * (powerFactors (decimalScale num den fuel - 1)).1 ≤
      num * (powerFactors (decimalScale num den fuel - 1)).2 := by
  rw [decimalScale]
  split_ifs with hle
  · have hquotient : 0 < num / den := Nat.div_pos hle hden
    have hlength : 0 < (Nat.toDigits 10 (num / den)).length :=
      List.length_pos_of_ne_nil Nat.toDigits_ne_nil
    have hexponent : ((Nat.toDigits 10 (num / den)).length - 1 : Int).toNat =
        (Nat.toDigits 10 (num / den)).length - 1 := by omega
    rw [powerFactors, if_pos (by omega), mul_one, hexponent]
    calc den * 10 ^ ((Nat.toDigits 10 (num / den)).length - 1) ≤ den * (num / den) := by
          gcongr
          exact pow_le_of_length_toDigits hquotient
      _ ≤ num := Nat.mul_div_le num den
  · obtain ⟨more, hgo, hmore⟩ := decimalScale_go den fuel num 0 hfuel
    have hexponent : (-(-((0 + more : Nat) : Int) - 1)).toNat = more + 1 := by omega
    rw [hgo, powerFactors, if_neg (by omega), mul_one, hexponent]
    exact hmore

/-- The grid with ten digits is fine enough for a mantissa of 24 bits. -/
theorem fine_of_scale {m quarterNum quarterDen : Nat} {scale : Int} (hm : m < 2 ^ 24)
    (hnum : 0 < quarterNum)
    (hscale : quarterDen * (powerFactors (scale - 1)).1 ≤
      4 * m * quarterNum * (powerFactors (scale - 1)).2) :
    quarterDen * (powerFactors (scale - 10)).1 <
      2 * quarterNum * (powerFactors (scale - 10)).2 := by
  have hsub := powerFactors_sub (scale - 1) 9
  rw [show scale - 1 - ((9 : Nat) : Int) = scale - 10 by omega] at hsub
  obtain ⟨-, hbefore⟩ := powerFactors_pos (scale - 1)
  obtain ⟨-, hten⟩ := powerFactors_pos (scale - 10)
  generalize powerFactors (scale - 1) = p at *
  generalize powerFactors (scale - 10) = q at *
  have hpos : 0 < quarterNum * p.2 * q.2 := by positivity
  refine lt_of_mul_lt_mul_right ?_ (Nat.zero_le (p.2 * 10 ^ 9))
  calc quarterDen * q.1 * (p.2 * 10 ^ 9) = quarterDen * p.1 * q.2 := by
        rw [mul_assoc, mul_assoc, ← hsub]
        ring
    _ ≤ 4 * m * quarterNum * p.2 * q.2 := by gcongr
    _ = 4 * m * (quarterNum * p.2 * q.2) := by ring
    _ < 2 * 10 ^ 9 * (quarterNum * p.2 * q.2) := Nat.mul_lt_mul_of_pos_right (by omega) hpos
    _ = 2 * quarterNum * q.2 * (p.2 * 10 ^ 9) := by ring

/-! ### The search -/

/-- A search that comes to a grid with a hit gives a hit. -/
theorem searchGrids_inside {m below quarterNum quarterDen : Nat} {scale : Int} {last : Nat}
    (hlast : (gridHit? m below quarterNum quarterDen (scale - last)).isSome = true) (fuel : Nat) :
    ∀ n, n ≤ last → last < n + fuel → ∃ power,
      Inside m below quarterNum quarterDen power
        (searchGrids m below quarterNum quarterDen scale fuel n).1 = true := by
  induction fuel with
  | zero => omega
  | succ fuel ih =>
    intro n hle hlt
    rw [searchGrids]
    split
    · next digits hhit => exact ⟨_, inside_of_gridHit? hhit⟩
    · next hmiss =>
      have hne : n ≠ last := by
        rintro rfl
        rw [hmiss] at hlast
        cases hlast
      exact ih (n + 1) (by omega) (by omega)

/-- Digits stay when zeros at their end are dropped. -/
theorem dropZeros_ne_zero (fuel : Nat) :
    ∀ (digits : Nat) (power : Int), digits ≠ 0 → (dropZeros fuel (digits, power)).1 ≠ 0 := by
  induction fuel with
  | zero => exact fun digits power h => h
  | succ fuel ih =>
    intro digits power h
    rw [dropZeros]
    split_ifs with hzero
    · apply ih
      rw [Bool.and_eq_true, decide_eq_true_eq, beq_iff_eq] at hzero
      omega
    · exact h

/-- A quarter of the last bit of the least single has no more zeros behind the point than there are
powers of two in it. -/
theorem le_mul_pow_ten {den n : Nat} (fuel : Nat) (hden : den ≤ 2 ^ 151) (hn : 0 < n)
    (hfuel : 151 ≤ fuel) : den ≤ n * 10 ^ fuel := calc
  den ≤ 2 ^ 151 := hden
  _ ≤ 10 ^ 151 := Nat.pow_le_pow_left (by decide) 151
  _ ≤ 10 ^ fuel := Nat.pow_le_pow_right (by decide) hfuel
  _ ≤ n * 10 ^ fuel := Nat.le_mul_of_pos_left _ hn

/-- **The shortest decimal of a positive single is not zero.** -/
theorem shortest_ne_zero {m : Nat} {exponent : Int} (closeBelow : Bool) (hm : 0 < m)
    (hbits : m < 2 ^ 24) (hexponent : -149 ≤ exponent) :
    (shortest m exponent closeBelow).1 ≠ 0 := by
  rw [shortest]
  generalize hnum : (if 0 ≤ exponent - 2 then Nat.pow 2 (exponent - 2).toNat else 1) = quarterNum
  generalize hden : (if 0 ≤ exponent - 2 then 1 else Nat.pow 2 (-(exponent - 2)).toNat) = quarterDen
  generalize hbelow : (if closeBelow then 1 else 2) = below
  have hnum_pos : 0 < quarterNum := by
    rw [← hnum]
    split_ifs
    · exact Nat.pow_pos (by decide)
    · exact Nat.one_pos
  have hden_pos : 0 < quarterDen := by
    rw [← hden]
    split_ifs
    · exact Nat.one_pos
    · exact Nat.pow_pos (by decide)
  have hbelow_le : below ≤ 2 := by
    rw [← hbelow]
    split_ifs <;> decide
  have hden_le : quarterDen ≤ 2 ^ 151 := by
    rw [← hden]
    split_ifs
    · exact Nat.one_le_pow _ _ (by decide)
    · exact Nat.pow_le_pow_right (by decide) (by omega)
  have hvalue_pos : 0 < 4 * m * quarterNum := by positivity
  have hfuel := le_mul_pow_ten 400 hden_le hvalue_pos (by decide)
  have hten := isSome_gridHit? m below hden_pos
    (fine_of_scale hbits hnum_pos (le_decimalScale hden_pos hfuel))
  obtain ⟨power, hinside⟩ := searchGrids_inside hten 20 1 (by decide) (by decide)
  generalize searchGrids m below quarterNum quarterDen _ 20 1 = found at hinside ⊢
  obtain ⟨digits, foundPower⟩ := found
  refine dropZeros_ne_zero 20 digits foundPower fun hzero => ?_
  rw [hzero, inside_zero hm hbelow_le hnum_pos] at hinside
  cases hinside

/-- What a bit pattern is read as has one bit more than its fraction. -/
theorem BinaryFormat.finite_of_read {f : BinaryFormat} {bits : Nat} {negative : Bool} {m : Nat}
    {exponent : Int} {closeBelow : Bool}
    (h : f.read bits = .finite negative m exponent closeBelow) :
    m < 2 ^ (f.fractionBits + 1) ∧ f.leastExponent ≤ exponent := by
  have hfraction : bits % Nat.pow 2 f.fractionBits < 2 ^ f.fractionBits :=
    Nat.mod_lt _ (Nat.pow_pos (by decide))
  rw [read] at h
  split at h
  · split at h <;> cases h
  split at h
  · obtain ⟨-, rfl, rfl, -⟩ := Reading.finite.inj h
    exact ⟨hfraction.trans (Nat.pow_lt_pow_right (by decide) (Nat.lt_succ_self _)), le_rfl⟩
  · obtain ⟨-, rfl, rfl, -⟩ := Reading.finite.inj h
    refine ⟨?_, by omega⟩
    rw [pow_succ, Nat.mul_two]
    exact Nat.add_lt_add_left hfraction _

end Decimal

/-! ## Singles as they are written -/

namespace Json

/-- Digits before zeros. -/
theorem Digits.append_replicate {ds : List Char} (hds : Digits ds) (n : Nat) :
    Digits (ds ++ List.replicate n '0') :=
  ⟨List.append_ne_nil_of_left_ne_nil hds.1 _, fun c hc => (List.mem_append.mp hc).elim (hds.2 c)
    (fun hzero => List.eq_of_mem_replicate hzero ▸ rfl)⟩

/-- Digits behind zeros. -/
theorem Digits.replicate_append {ds : List Char} (hds : Digits ds) (n : Nat) :
    Digits (List.replicate n '0' ++ ds) :=
  ⟨List.append_ne_nil_of_right_ne_nil _ hds.1, fun c hc => (List.mem_append.mp hc).elim
    (fun hzero => List.eq_of_mem_replicate hzero ▸ rfl) (hds.2 c)⟩

/-- Some of the digits. -/
theorem Digits.sublist {ds es : List Char} (hds : Digits ds) (hes : es.Sublist ds) (hne : es ≠ []) :
    Digits es :=
  ⟨hne, fun c hc => hds.2 c (hes.subset hc)⟩

/-- Digits that are not zero are written as the grammar has it. -/
theorem Literal.wellFormed_ofShortest (negative : Bool) {digits : Nat} (h : digits ≠ 0)
    (power : Int) :
    (Literal.ofShortest negative digits power).WellFormed := by
  have hdigits := digits_toDigits digits
  have hhead : (Nat.toDigits 10 digits).head? ≠ some '0' := by
    intro hzero
    have hvalue := digitsValue_toDigits digits
    rw [toDigits_of_head? digits hzero] at hvalue
    exact h hvalue.symm
  have hlength := List.length_pos_of_ne_nil hdigits.1
  rw [ofShortest]
  dsimp only
  generalize Nat.toDigits 10 digits = ds at *
  have htake {n : Nat} (hn : 0 < n) : Digits (ds.take n) ∧ (ds.take n).head? ≠ some '0' := by
    refine ⟨hdigits.sublist (List.take_sublist n ds) ?_, ?_⟩
    · rw [Ne, List.take_eq_nil_iff]
      exact fun h => h.elim (by omega) hdigits.1
    · rwa [List.head?_take, if_neg (by omega)]
  have hdrop {n : Nat} (hn : n < ds.length) : Digits (ds.drop n) := by
    refine hdigits.sublist (List.drop_sublist n ds) ?_
    rw [Ne, List.drop_eq_nil_iff]
    omega
  simp only [Bool.and_eq_true, decide_eq_true_eq]
  by_cases hright : 0 ≤ power ∧ (ds.length : Int) + power ≤ 13
  · rw [if_pos hright]
    refine ⟨hdigits.append_replicate _, fun hzero => ?_, ?_, fun _ h => nomatch h⟩
    · rw [List.head?_append_of_ne_nil _ hdigits.1] at hzero
      exact absurd hzero hhead
    · rintro es ⟨⟩
      exact digits_toDigits 0
  rw [if_neg hright]
  by_cases hinside : 0 < (ds.length : Int) + power ∧ (ds.length : Int) + power ≤ 13
  · rw [if_pos hinside]
    obtain ⟨hfirst, hnotzero⟩ := htake (n := ((ds.length : Int) + power).toNat) (by omega)
    refine ⟨hfirst, fun hzero => absurd hzero hnotzero, ?_, fun _ h => nomatch h⟩
    rintro es ⟨⟩
    exact hdrop (by omega)
  rw [if_neg hinside]
  by_cases hleft : -6 < (ds.length : Int) + power ∧ (ds.length : Int) + power ≤ 0
  · rw [if_pos hleft]
    refine ⟨digits_toDigits 0, fun _ => rfl, ?_, fun _ h => nomatch h⟩
    rintro es ⟨⟩
    exact hdigits.replicate_append _
  rw [if_neg hleft]
  obtain ⟨hfirst, hnotzero⟩ := htake Nat.one_pos
  refine ⟨hfirst, fun hzero => absurd hzero hnotzero, fun es hes => ?_, ?_⟩
  · simp only [Option.mem_def, Option.ite_none_left_eq_some, Option.some.injEq] at hes
    exact hes.2 ▸ hdrop (by omega)
  · rintro e ⟨⟩
    refine ⟨.inl rfl, fun sign hsign => .inr ?_, digits_toDigits _⟩
    simp only [Option.mem_def, Option.ite_none_right_eq_some, Option.some.injEq] at hsign
    exact hsign.2.symm

/-- Zero is written as the grammar has it. -/
theorem Literal.wellFormed_zero (negative : Bool) :
    (Literal.mk negative ['0'] (some ['0']) none).WellFormed where
  whole := digits_toDigits 0
  leading := fun _ => rfl
  fraction := fun _ h => Option.some.inj h ▸ digits_toDigits 0
  exponent := fun _ h => nomatch h

/-- **A single is written as the grammar has it.** -/
theorem Literal.wellFormed_ofFloat32? {x : Float32} {l : Literal} (h : ofFloat32? x = some l) :
    l.WellFormed := by
  rw [ofFloat32?] at h
  split at h
  · cases h
  · cases h
  · next negative m exponent closeBelow hread =>
    obtain ⟨hbits, hexponent⟩ := BinaryFormat.finite_of_read hread
    split_ifs at h with hm
    · obtain rfl := Option.some.inj h
      exact wellFormed_zero negative
    · obtain rfl := Option.some.inj h
      exact wellFormed_ofShortest _ (shortest_ne_zero _ (Nat.pos_of_ne_zero hm) hbits hexponent) _

end Json

end CodeAtlas
