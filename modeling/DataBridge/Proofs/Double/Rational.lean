import DataBridge.Proofs.Double
import Mathlib.Algebra.Order.Field.Power
import Mathlib.Data.Rat.Floor
import Mathlib.Tactic.FieldSimp
import Mathlib.Tactic.Positivity
import Mathlib.Tactic.Ring

/-!
# Doubles as rational numbers

A finite double is an exact dyadic rational.  On whole numbers the operations on
doubles are those on integers: cutting off behind the point, division with a
remainder, and a sum that is small enough give exact results.
-/

namespace DataBridge

namespace Double

variable {x y : Double}

/-- The distance of a finite number from zero. -/
def magnitude (x : Double) : ℚ :=
  x.significand * (2 : ℚ) ^ x.exponent

/-- The exact value of a finite number. -/
def value (x : Double) : ℚ :=
  if x.negative then -x.magnitude else x.magnitude

theorem magnitude_nonneg (x : Double) : 0 ≤ x.magnitude := by
  unfold magnitude
  positivity

theorem magnitude_eq_zero_iff : x.magnitude = 0 ↔ x.significand = 0 := by
  have positive : (2 : ℚ) ^ x.exponent ≠ 0 := by positivity
  simp [magnitude, positive]

theorem IsScaled.magnitude {sign : Bool} {m : Nat} {q : Int}
    (scaled : x.IsScaled sign m q) : x.magnitude = m * (2 : ℚ) ^ q := by
  obtain ⟨shift, significand, exponent⟩ := scaled.scaled
  rw [Double.magnitude, significand, exponent, zpow_sub₀ two_ne_zero,
    Nat.cast_mul, Nat.cast_pow, Nat.cast_ofNat, zpow_natCast]
  field_simp

theorem magnitude_of_nonneg (nonneg : 0 ≤ x.exponent) :
    x.magnitude = (x.significand <<< x.exponent.toNat : Nat) := by
  obtain ⟨places, equal⟩ := Int.eq_ofNat_of_zero_le nonneg
  rw [magnitude, equal, zpow_natCast, Int.toNat_natCast, Nat.shiftLeft_eq,
    Nat.cast_mul, Nat.cast_pow, Nat.cast_ofNat]

theorem size_significand (x : Double) : x.significand.size ≤ 53 := by
  apply Nat.size_le.mpr
  have fraction : x.fraction < exponentWeight :=
    Nat.mod_lt _ (Nat.two_pow_pos 52)
  have double : 2 ^ 53 = exponentWeight + exponentWeight := by decide
  unfold significand
  split <;> omega

theorem least_le_exponent (x : Double) : -1074 ≤ x.exponent := by
  unfold exponent
  omega

private theorem exponent_le (finite : x.isFinite = true) :
    x.exponent ≤ 971 := by
  have small : x.exponentField < 2048 := Nat.mod_lt _ (by decide)
  have different : x.exponentField ≠ 2047 := by simpa [isFinite] using finite
  unfold exponent
  omega

section Truncation

/-- The whole number between zero and a rational number that is nearest to the
latter. -/
def wholePart (q : ℚ) : ℤ :=
  if 0 ≤ q then ⌊q⌋ else ⌈q⌉

private theorem wholePart_of_nonneg {q : ℚ} (nonneg : 0 ≤ q) :
    wholePart q = ⌊q⌋ :=
  if_pos nonneg

private theorem wholePart_neg_of_nonneg {q : ℚ} (nonneg : 0 ≤ q) :
    wholePart (-q) = -⌊q⌋ := by
  unfold wholePart
  split
  · have zero : q = 0 := by linarith
    simp [zero]
  · exact Int.ceil_neg

@[simp] theorem wholePart_intCast (n : ℤ) : wholePart n = n := by
  simp [wholePart]

private theorem floor_magnitude (x : Double) :
    ⌊x.magnitude⌋ =
      ((if 0 ≤ x.exponent then x.significand <<< x.exponent.toNat
        else x.significand >>> (-x.exponent).toNat : Nat) : ℤ) := by
  split
  · rename_i nonneg
    rw [magnitude_of_nonneg nonneg, Int.floor_natCast]
  · rename_i negative
    obtain ⟨places, equal⟩ :=
      Int.eq_ofNat_of_zero_le (show 0 ≤ -x.exponent by omega)
    have back : x.exponent = -(places : ℤ) := by omega
    have power : (2 : ℚ) ^ places = (2 ^ places : ℕ) := by push_cast; rfl
    rw [magnitude, equal, Int.toNat_natCast, back, zpow_neg, zpow_natCast,
      power, ← div_eq_mul_inv, Rat.floor_natCast_div_natCast,
      Nat.shiftRight_eq_div_pow, Int.natCast_div]

/-- Truncation takes the whole part of the exact value. -/
theorem truncate_eq (x : Double) : x.truncate = wholePart x.value := by
  rw [truncate, value, ← floor_magnitude]
  split
  · exact (wholePart_neg_of_nonneg x.magnitude_nonneg).symm
  · exact (wholePart_of_nonneg x.magnitude_nonneg).symm

end Truncation

section Whole

/-- A finite number whose value is the whole number `n`. -/
structure IsWhole (x : Double) (n : ℤ) : Prop where
  isFinite : x.isFinite = true
  value : x.value = n

variable {n k : ℤ}

theorem IsWhole.truncate (whole : x.IsWhole n) : x.truncate = n := by
  rw [truncate_eq, whole.value, wholePart_intCast]

theorem value_abs (x : Double) : |x.value| = x.magnitude := by
  have nonneg := x.magnitude_nonneg
  unfold value
  split
  · rw [abs_neg, abs_of_nonneg nonneg]
  · exact abs_of_nonneg nonneg

theorem IsWhole.magnitude (whole : x.IsWhole n) : x.magnitude = n.natAbs := by
  rw [← value_abs, whole.value, Nat.cast_natAbs, Int.cast_abs]

theorem IsScaled.isWhole {sign : Bool} {m : Nat}
    (scaled : x.IsScaled sign m 0) :
    x.IsWhole (if sign then -(m : ℤ) else m) := by
  refine ⟨scaled.isFinite, ?_⟩
  rw [Double.value, scaled.negative, scaled.magnitude, zpow_zero, mul_one]
  split <;> simp

theorem truncate_ofInt (small : n.natAbs < 2 ^ 53) :
    (ofInt n).truncate = n := by
  rw [(isScaled_ofInt small).isWhole.truncate]
  simp only [decide_eq_true_eq]
  omega

/-- What stands before the point is a number of its own. -/
theorem isWhole_trunc (finite : x.isFinite = true) :
    x.trunc.IsWhole x.truncate := by
  unfold trunc truncate
  split
  · rename_i nonneg
    refine ⟨finite, ?_⟩
    rw [value, magnitude_of_nonneg nonneg]
    split
    · rw [Int.cast_neg, Int.cast_natCast]
    · rw [Int.cast_natCast]
  · have short : (x.significand >>> (-x.exponent).toNat).size ≤ 53 := by
      rw [Nat.size_le, Nat.shiftRight_eq_div_pow]
      exact Nat.lt_of_le_of_lt (Nat.div_le_self _ _)
        (Nat.size_le.mp x.size_significand)
    exact (isScaled_ofScaled _ short (by decide) (by omega)).isWhole

theorem units_eq (x : Double) (least : ℤ) :
    x.units least = x.significand * 2 ^ (x.exponent - least).toNat :=
  Nat.shiftLeft_eq _ _

theorem units_magnitude {least : ℤ} (low : least ≤ x.exponent) :
    (x.units least : ℚ) * (2 : ℚ) ^ least = x.magnitude := by
  obtain ⟨places, equal⟩ :=
    Int.eq_ofNat_of_zero_le (show 0 ≤ x.exponent - least by omega)
  have back : x.exponent = least + places := by omega
  rw [units_eq, equal, Int.toNat_natCast, Nat.cast_mul, Nat.cast_pow,
    Nat.cast_ofNat, magnitude, back, zpow_add₀ two_ne_zero, zpow_natCast]
  ring

private theorem size_units_le {least : ℤ} (low : least ≤ x.exponent) :
    (x.units least).size + least ≤ x.significand.size + x.exponent := by
  have length := size_mul_le x.significand (x.exponent - least).toNat
  rw [units_eq]
  omega

/-- A common scale of two numbers is one of what is left of their division. -/
theorem mod_scaled {a b m d : ℕ} {scale : ℚ} (positive : 0 < scale)
    (ofA : (a : ℚ) * scale = m) (ofB : (b : ℚ) * scale = d) (nonzero : 0 < b) :
    ((a % b : ℕ) : ℚ) * scale = (m % d : ℕ) := by
  have split : (m : ℚ) = d * (a / b : ℕ) + (a % b : ℕ) * scale := by
    have parts : ((b * (a / b) + a % b : ℕ) : ℚ) = a := by rw [Nat.div_add_mod]
    rw [← ofA, ← ofB, ← parts]
    push_cast
    ring
  have left : ((a % b : ℕ) : ℚ) * scale < d := by
    rw [← ofB]
    exact mul_lt_mul_of_pos_right (by exact_mod_cast Nat.mod_lt a nonzero)
      positive
  have nonneg : (0 : ℚ) ≤ ((a % b : ℕ) : ℚ) * scale := by positivity
  have below : d * (a / b) ≤ m := by
    have cast : ((d * (a / b) : ℕ) : ℚ) ≤ m := by
      push_cast
      linarith
    exact_mod_cast cast
  obtain ⟨rest, sum⟩ := Nat.exists_eq_add_of_le below
  have equal : ((a % b : ℕ) : ℚ) * scale = rest := by
    rw [sum] at split
    push_cast at split
    linarith
  have small : rest < d := by
    rw [equal] at left
    exact_mod_cast left
  rw [equal, sum, Nat.mul_add_mod, Nat.mod_eq_of_lt small]

/-- Division with a remainder is exact. -/
theorem isScaled_rem (finite : x.isFinite = true)
    (divisor : 0 < y.significand) : ∀ least, least = min x.exponent y.exponent →
      (x.rem y).IsScaled x.negative (x.units least % y.units least) least := by
  rintro least chosen
  have ofX : least ≤ x.exponent := by omega
  have whole := Nat.mod_le (x.units least) (y.units least)
  have short : x.units least % y.units least < 2 ^ 53 := by
    have ofSignificand : ∀ z : Double, z.units z.exponent = z.significand := by
      intro z
      simp [units]
    have bound : ∀ z : Double, z.significand < 2 ^ 53 := fun z =>
      Nat.size_le.mp z.size_significand
    rcases min_choice x.exponent y.exponent with first | second
    · rw [chosen, first, ofSignificand]
      exact Nat.lt_of_le_of_lt (Nat.mod_le _ _) (bound x)
    · rw [chosen, second, ofSignificand]
      exact Nat.lt_trans (Nat.mod_lt _ divisor) (bound y)
  have length : (x.units least % y.units least).size ≤ (x.units least).size :=
    Nat.size_le.mpr (Nat.lt_of_le_of_lt whole (Nat.lt_size_self _))
  have total := size_units_le ofX
  have ofSignificand := x.size_significand
  have most := exponent_le finite
  have lowX := x.least_le_exponent
  have lowY := y.least_le_exponent
  rw [rem, ← chosen]
  exact isScaled_ofScaled _ (Nat.size_le.mpr short) (by omega) (by omega)

/-- On whole numbers, what is left of a division is what it is for integers. -/
theorem isWhole_rem (whole : x.IsWhole n) {d : ℕ} (divisor : y.magnitude = d)
    (positive : 0 < d) :
    (x.rem y).negative = x.negative ∧ (x.rem y).isFinite = true ∧
      (x.rem y).magnitude = (n.natAbs % d : ℕ) := by
  have nonzero : 0 < y.significand := by
    apply Nat.pos_of_ne_zero
    intro zero
    rw [magnitude_eq_zero_iff.mpr zero] at divisor
    have : d = 0 := by exact_mod_cast divisor.symm
    omega
  have scaled := isScaled_rem whole.isFinite nonzero _ rfl
  refine ⟨scaled.negative, scaled.isFinite, ?_⟩
  have ofX := units_magnitude (min_le_left x.exponent y.exponent)
  have ofY := units_magnitude (min_le_right x.exponent y.exponent)
  rw [whole.magnitude] at ofX
  rw [divisor] at ofY
  rw [scaled.magnitude]
  refine mod_scaled (by positivity) ofX ofY ?_
  rw [units_eq]
  exact Nat.mul_pos nonzero (Nat.two_pow_pos _)

theorem signedUnits_value {least : ℤ} (low : least ≤ x.exponent) :
    (x.signedUnits least : ℚ) * (2 : ℚ) ^ least = x.value := by
  have distance := units_magnitude low
  unfold signedUnits value
  split <;> simp [← distance]

private theorem isWhole_of_sign {sign : Bool} (length : n.natAbs.size ≤ 53)
    (signed : if sign then n ≤ 0 else 0 ≤ n) :
    (ofScaled sign n.natAbs 0).IsWhole n := by
  have whole := (isScaled_ofScaled sign length (by decide) (by omega)).isWhole
  have same : (if sign then -(n.natAbs : ℤ) else n.natAbs) = n := by
    split at signed
    · rename_i negative
      rw [if_pos negative]
      omega
    · rename_i nonneg
      rw [if_neg nonneg]
      omega
  rwa [same] at whole

/-- A sum of whole numbers that is small enough is exact. -/
theorem isWhole_add (ofX : x.IsWhole n) (ofY : y.IsWhole k)
    (low : y.exponent ≤ 0) (small : (n + k).natAbs < 2 ^ 53) :
    (x.add y).IsWhole (n + k) := by
  obtain ⟨places, equal⟩ :=
    Int.eq_ofNat_of_zero_le (show 0 ≤ -min x.exponent y.exponent by omega)
  obtain ⟨least, chosen⟩ : ∃ least : ℤ, least = min x.exponent y.exponent :=
    ⟨_, rfl⟩
  have back : least = 0 - places := by omega
  have sum : x.signedUnits least + y.signedUnits least =
      (n + k) * 2 ^ places := by
    have partX := @signedUnits_value x least (by omega)
    have partY := @signedUnits_value y least (by omega)
    rw [ofX.value] at partX
    rw [ofY.value] at partY
    have unit : (2 : ℚ) ^ least * 2 ^ places = 1 := by
      rw [back, ← zpow_natCast, ← zpow_add₀ two_ne_zero]
      simp
    have cast : ((x.signedUnits least + y.signedUnits least : ℤ) : ℚ) =
        (n + k) * 2 ^ places := by
      push_cast
      calc (x.signedUnits least + y.signedUnits least : ℚ)
          = (x.signedUnits least * 2 ^ least +
              y.signedUnits least * 2 ^ least) * 2 ^ places := by
            rw [← add_mul, mul_assoc, unit, mul_one]
        _ = (n + k) * 2 ^ places := by rw [partX, partY]
    exact_mod_cast cast
  have length : (n + k).natAbs.size ≤ 53 := Nat.size_le.mpr small
  obtain ⟨kept, rounded, _, short, low⟩ :=
    roundScaled_scaled (by decide) length
      (show (-1074 : ℤ) ≤ 0 by decide) places
  have units : (x.signedUnits least + y.signedUnits least).natAbs =
      (n + k).natAbs * 2 ^ places := by
    rw [sum, Int.natAbs_mul, Int.natAbs_pow]
    rfl
  rw [add, ← chosen]
  dsimp only
  rw [units, back, rounded]
  dsimp only
  rw [ofScaled_scaled _ short low, ← back, sum]
  refine isWhole_of_sign length ?_
  have positive : (0 : ℤ) < 2 ^ places := by positivity
  split
  · rename_i zero
    have none : n + k = 0 :=
      (mul_eq_zero.mp zero).resolve_right (ne_of_gt positive)
    simp [none]
  · rename_i nonzero
    have negative : (n + k) * (2 ^ places : ℤ) < 0 ↔ n + k < 0 := by
      rw [mul_neg_iff]
      have above := not_lt_of_gt positive
      simp [positive, above]
    simp only [decide_eq_true_eq, negative]
    split <;> omega

private theorem abs_fields (finite : y.isFinite = true) :
    y.abs.isFinite = true ∧ y.abs.value = y.magnitude ∧ y.abs.exponent =
      y.exponent := by
  have small : y.exponentField < 2048 := Nat.mod_lt _ (by decide)
  have part : y.fraction < exponentWeight := Nat.mod_lt _ (Nat.two_pow_pos 52)
  have field : y.abs.exponentField = y.exponentField :=
    exponentField_ofFields small part
  have fraction : y.abs.fraction = y.fraction := fraction_ofFields small part
  have exponent : y.abs.exponent = y.exponent := by
    rw [Double.exponent, field, Double.exponent]
  have magnitude : y.abs.magnitude = y.magnitude := by
    rw [Double.magnitude, significand, exponent, field, fraction, ← significand,
      ← Double.magnitude]
  refine ⟨?_, ?_, exponent⟩
  · rwa [isFinite, field, ← isFinite]
  · rw [value, show y.abs.negative = false from negative_ofFields small part,
      magnitude]
    rfl

/-- The sign bit tells on which side of zero a whole number is. -/
theorem IsWhole.sign (whole : x.IsWhole n) :
    if x.negative then n ≤ 0 else 0 ≤ n := by
  have value := whole.value
  have nonneg := x.magnitude_nonneg
  rw [Double.value] at value
  split
  · rename_i negative
    rw [if_pos negative] at value
    have nonpos : (n : ℚ) ≤ 0 := by linarith
    exact_mod_cast nonpos
  · rename_i positive
    rw [if_neg positive] at value
    rw [value] at nonneg
    exact_mod_cast nonneg

private theorem emod_of_nonpos {d : ℕ} (nonpos : n ≤ 0) (positive : 0 < d)
    (rest : n.natAbs % d ≠ 0) : n % (d : ℤ) = d - (n.natAbs % d : ℕ) := by
  have below : n.natAbs % d < d := Nat.mod_lt _ positive
  have parts : (d : ℤ) * (n.natAbs / d : ℕ) + (n.natAbs % d : ℕ) =
      n.natAbs := by
    exact_mod_cast Nat.div_add_mod n.natAbs d
  have whole : (d : ℤ) - (n.natAbs % d : ℕ) + d * (-(n.natAbs / d : ℕ) - 1) =
      n := by
    rw [mul_sub, mul_neg]
    omega
  have bounds : (0 : ℤ) ≤ d - (n.natAbs % d : ℕ) ∧
      (d : ℤ) - (n.natAbs % d : ℕ) < d := by omega
  exact ((Int.ediv_emod_unique (by omega)).mpr ⟨whole, bounds⟩).2

private theorem emod_of_nonneg (d : ℕ) (nonneg : 0 ≤ n) :
    n % (d : ℤ) = (n.natAbs % d : ℕ) := by
  rw [Int.natCast_mod, Int.natAbs_of_nonneg nonneg]

/-- On whole numbers the division that leaves no negative rest is that of
integers. -/
theorem isWhole_remEuclid {d : ℕ} (ofX : x.IsWhole n)
    (ofY : y.IsScaled false d 0) (positive : 0 < d) (small : d < 2 ^ 53) :
    (x.remEuclid y).IsWhole (n % d) := by
  have divisor : y.magnitude = d := by
    rw [ofY.magnitude, zpow_zero, mul_one]
  obtain ⟨negative, finite, magnitude⟩ := isWhole_rem ofX divisor positive
  have sign := ofX.sign
  have below : n.natAbs % d < d := Nat.mod_lt _ positive
  rw [remEuclid]
  split
  · -- A rest below zero stands one divisor below the one of integers.
    rename_i low
    rw [Bool.and_eq_true, negative] at low
    rw [if_pos low.1] at sign
    have left : (x.rem y).IsWhole (-(n.natAbs % d : ℕ)) := by
      refine ⟨finite, ?_⟩
      rw [value, negative, if_pos low.1, magnitude, Int.cast_neg,
        Int.cast_natCast]
    have rest : n.natAbs % d ≠ 0 := by
      intro zero
      rw [zero, Nat.cast_zero, magnitude_eq_zero_iff] at magnitude
      simp [magnitude] at low
    obtain ⟨absFinite, absValue, absExponent⟩ := abs_fields ofY.isFinite
    have whole : y.abs.IsWhole d :=
      ⟨absFinite, by rw [absValue, divisor, Int.cast_natCast]⟩
    have lowExponent : y.abs.exponent ≤ 0 := by
      obtain ⟨shift, _, exponent⟩ := ofY.scaled
      omega
    have sum := isWhole_add left whole lowExponent (by omega)
    rwa [emod_of_nonpos sign positive rest, sub_eq_neg_add]
  · rename_i high
    refine ⟨finite, ?_⟩
    rw [value, negative, magnitude]
    split
    · rename_i low
      rw [if_pos low] at sign
      have zero : n.natAbs % d = 0 := by
        have none : (x.rem y).significand = 0 := by
          simpa [negative, low] using high
        rw [magnitude_eq_zero_iff.mpr none] at magnitude
        exact_mod_cast magnitude.symm
      have divides : (d : ℤ) ∣ n :=
        Int.natCast_dvd.mpr (Nat.dvd_of_mod_eq_zero zero)
      simp [zero, Int.emod_eq_zero_of_dvd divides]
    · rename_i nonneg
      rw [if_neg nonneg] at sign
      rw [emod_of_nonneg d sign, Int.cast_natCast]

private theorem isNaN_of_isFinite (finite : x.isFinite = true) :
    x.isNaN = false := by
  have different : x.exponentField ≠ 2047 := by simpa [isFinite] using finite
  simp [isNaN, different]

/-- The word of a whole number in its range. -/
theorem IsWhole.toWord (whole : x.IsWhole n) (nonneg : 0 ≤ n)
    (small : n < 4294967296) : (x.toWord.toNat : ℤ) = n := by
  rw [Double.toWord, isNaN_of_isFinite whole.isFinite, whole.truncate]
  simp
  omega

end Whole

end Double

end DataBridge
