import DataBridge.Double
import Mathlib.Algebra.Order.Ring.Nat
import Mathlib.Data.Nat.Size

/-!
# Doubles and singles

Scaling and rounding of double-precision numbers.  A number of at most 53 bits
is represented without a loss, so whole numbers of that size survive a
conversion, and rounding to single precision does nothing the second time.
-/

namespace DataBridge

namespace Double

@[simp] theorem signWeight_eq : signWeight = 9223372036854775808 := rfl

@[simp] theorem exponentWeight_eq : exponentWeight = 4503599627370496 := rfl

theorem size_of_ne_zero {m : Nat} (nonzero : m ≠ 0) : m.size = m.log2 + 1 := by
  apply Nat.le_antisymm
  · exact Nat.size_le.mpr Nat.lt_log2_self
  · exact Nat.lt_size.mpr (Nat.log2_self_le nonzero)

/-- What is too long for a precision, also of zero. -/
theorem log2_sub_precision {precision : Nat} (positive : 0 < precision)
    (m : Nat) : m.log2 + 1 - precision = m.size - precision := by
  by_cases zero : m = 0
  · rw [zero, Nat.log2_zero, Nat.size_zero]
    omega
  · rw [size_of_ne_zero zero]

theorem size_mul_le (m k : Nat) : (m * 2 ^ k).size ≤ m.size + k := by
  rw [Nat.size_le, Nat.pow_add]
  exact Nat.mul_lt_mul_of_pos_right m.lt_size_self (Nat.two_pow_pos k)

theorem size_mul {m : Nat} (nonzero : m ≠ 0) (k : Nat) :
    (m * 2 ^ k).size = m.size + k := by
  rw [← Nat.shiftLeft_eq, Nat.size_shiftLeft nonzero]

section Fields

variable {sign : Bool} {field part : Nat}

theorem toNat_ofFields (fieldSmall : field < 2048)
    (partSmall : part < exponentWeight) :
    (ofFields sign field part).bits.toNat =
      (if sign then signWeight else 0) + field * exponentWeight + part := by
  simp only [ofFields, signWeight_eq, exponentWeight_eq] at partSmall ⊢
  rw [UInt64.toNat_ofNat']
  apply Nat.mod_eq_of_lt
  cases sign <;> simp <;> omega

theorem negative_ofFields (fieldSmall : field < 2048)
    (partSmall : part < exponentWeight) :
    (ofFields sign field part).negative = sign := by
  rw [negative, toNat_ofFields fieldSmall partSmall]
  simp only [signWeight_eq, exponentWeight_eq] at partSmall ⊢
  cases sign <;> simp <;> omega

theorem exponentField_ofFields (fieldSmall : field < 2048)
    (partSmall : part < exponentWeight) :
    (ofFields sign field part).exponentField = field := by
  rw [exponentField, toNat_ofFields fieldSmall partSmall]
  simp only [signWeight_eq, exponentWeight_eq] at partSmall ⊢
  cases sign <;> simp <;> omega

theorem fraction_ofFields (fieldSmall : field < 2048)
    (partSmall : part < exponentWeight) :
    (ofFields sign field part).fraction = part := by
  rw [fraction, toNat_ofFields fieldSmall partSmall]
  simp only [signWeight_eq, exponentWeight_eq] at partSmall ⊢
  cases sign <;> simp <;> omega

end Fields

theorem isFinite_infinity (sign : Bool) : (infinity sign).isFinite = false := by
  rw [isFinite, infinity, exponentField_ofFields (by decide) (by decide)]
  rfl

/-- The finite number with a sign and the magnitude `m * 2 ^ q`. -/
structure IsScaled (x : Double) (sign : Bool) (m : Nat) (q : Int) : Prop where
  isFinite : x.isFinite = true
  negative : x.negative = sign
  scaled : ∃ shift : Nat, x.significand = m * 2 ^ shift ∧ x.exponent = q - shift

theorem isScaled_ofFields {sign : Bool} {field part m : Nat} {q : Int}
    (shift : Nat) (fieldSmall : field < 2047)
    (partSmall : part < exponentWeight)
    (scaled : (if field = 0 then part else part + exponentWeight) =
      m * 2 ^ shift)
    (exponent : ((max 1 field : Nat) : Int) - 1075 = q - shift) :
    (ofFields sign field part).IsScaled sign m q where
  isFinite := by
    rw [isFinite, exponentField_ofFields (by omega) partSmall]
    simp [Nat.ne_of_lt fieldSmall]
  negative := negative_ofFields (by omega) partSmall
  scaled := by
    refine ⟨shift, ?_, ?_⟩
    · rw [significand, exponentField_ofFields (by omega) partSmall,
        fraction_ofFields (by omega) partSmall, scaled]
    · rw [Double.exponent, exponentField_ofFields (by omega) partSmall,
        exponent]

theorem ofScaled_zero (sign : Bool) (q : Int) :
    ofScaled sign 0 q = ofFields sign 0 0 := by
  have low : 0 < exponentWeight := by decide
  simp only [ofScaled, Nat.zero_shiftLeft, low, if_true]

theorem ofScaled_eq {m : Nat} (nonzero : m ≠ 0) {shift : Nat} {q : Int}
    (chosen : shift = min (53 - m.size) (q + 1074).toNat) (sign : Bool) :
    ofScaled sign m q =
      if m * 2 ^ shift < exponentWeight then ofFields sign 0 (m * 2 ^ shift)
      else if (q - shift + 1075).toNat < 2047 then
        ofFields sign (q - shift + 1075).toNat (m * 2 ^ shift - exponentWeight)
      else infinity sign := by
  have same : 52 - m.log2 = 53 - m.size := by
    rw [size_of_ne_zero nonzero]
    omega
  simp only [ofScaled, same, ← chosen, Nat.shiftLeft_eq]

theorem isScaled_ofScaled {m : Nat} {q : Int} (sign : Bool)
    (small : m.size ≤ 53) (least : -1074 ≤ q) (most : m.size + q ≤ 1024) :
    (ofScaled sign m q).IsScaled sign m q := by
  by_cases zero : m = 0
  · rw [zero, ofScaled_zero]
    exact isScaled_ofFields (q + 1074).toNat (by decide) (by decide) (by simp)
      (by omega)
  · obtain ⟨shift, chosen⟩ :
        ∃ shift, shift = min (53 - m.size) (q + 1074).toNat := ⟨_, rfl⟩
    have length := size_mul zero shift
    rw [ofScaled_eq zero chosen]
    split
    · -- A number without the leading bit has the lowest exponent.
      rename_i low
      have short : (m * 2 ^ shift).size ≤ 52 := Nat.size_le.mpr low
      exact isScaled_ofFields shift (by decide) low (by simp) (by omega)
    · rename_i high
      have long : 52 < (m * 2 ^ shift).size :=
        Nat.lt_size.mpr (Nat.le_of_not_lt high)
      have below : m * 2 ^ shift < 2 ^ 53 := Nat.size_le.mp (by omega)
      have double : 2 ^ 53 = exponentWeight + exponentWeight := by decide
      have positive : (q - shift + 1075).toNat ≠ 0 := by omega
      have bounded : (q - shift + 1075).toNat < 2047 := by omega
      rw [if_pos bounded]
      refine isScaled_ofFields shift bounded (by omega) ?_ (by omega)
      rw [if_neg positive]
      omega

/-- The bits that a number need not keep can go into its exponent. -/
theorem ofScaled_scaled {m shift : Nat} {q : Int} (sign : Bool)
    (small : (m * 2 ^ shift).size ≤ 53) (least : -1074 ≤ q - shift) :
    ofScaled sign (m * 2 ^ shift) (q - shift) = ofScaled sign m q := by
  by_cases zero : m = 0
  · rw [zero, Nat.zero_mul, ofScaled_zero, ofScaled_zero]
  · have length := size_mul zero shift
    have scaled : m * 2 ^ shift ≠ 0 :=
      Nat.mul_ne_zero zero (Nat.ne_of_gt (Nat.two_pow_pos shift))
    obtain ⟨rest, chosen⟩ : ∃ rest,
        rest = min (53 - (m * 2 ^ shift).size) (q - shift + 1074).toNat :=
      ⟨_, rfl⟩
    have kept : shift + rest = min (53 - m.size) (q + 1074).toNat := by omega
    have exponent : q - (shift : Int) - rest = q - (shift + rest : Nat) :=
      by omega
    rw [ofScaled_eq scaled chosen, ofScaled_eq zero kept, Nat.mul_assoc,
      ← Nat.pow_add, exponent]

section Rounding

variable {precision m : Nat} {q : Int}

theorem roundShift_eq (m drop : Nat) :
    roundShift m drop =
      if 2 ^ drop < 2 * (m % 2 ^ drop) ||
          (2 ^ drop == 2 * (m % 2 ^ drop) && m / 2 ^ drop % 2 == 1) then
        m / 2 ^ drop + 1
      else m / 2 ^ drop := by
  simp only [roundShift, Nat.one_shiftLeft, Nat.shiftRight_eq_div_pow]

theorem roundScaled_eq {drop : Nat} {least : Int} (positive : 0 < precision)
    (chosen : drop = max (m.size - precision) (least - q).toNat) :
    roundScaled precision least m q =
      if roundShift m drop = 2 ^ precision then
        (2 ^ (precision - 1), q + drop + 1)
      else (roundShift m drop, q + drop) := by
  simp only [roundScaled, log2_sub_precision positive, ← chosen,
    Nat.one_shiftLeft]

theorem roundShift_scaled (m k drop : Nat) :
    roundShift (m * 2 ^ (k + drop)) drop = m * 2 ^ k := by
  have positive := Nat.two_pow_pos drop
  rw [Nat.pow_add, ← Nat.mul_assoc]
  simp [roundShift_eq, Nat.mul_div_cancel _ positive]

private theorem roundShift_le {drop : Nat} (small : m.size ≤ precision + drop) :
    roundShift m drop ≤ 2 ^ precision := by
  have quotient : m / 2 ^ drop < 2 ^ precision := by
    apply Nat.div_lt_of_lt_mul
    rw [Nat.mul_comm, ← Nat.pow_add]
    exact Nat.size_le.mp small
  rw [roundShift_eq]
  split
  · exact quotient
  · exact Nat.le_of_lt quotient

/-- Rounding keeps to its precision and does not go below its least power. -/
theorem roundScaled_bounds (positive : 0 < precision) (least : Int) (m : Nat)
    (q : Int) :
    (roundScaled precision least m q).1.size ≤ precision ∧
      least ≤ (roundScaled precision least m q).2 ∧
      (roundScaled precision least m q).2 ≤
        q + max (m.size - precision : Nat) (least - q).toNat + 1 := by
  obtain ⟨drop, chosen⟩ :
      ∃ drop, drop = max (m.size - precision) (least - q).toNat := ⟨_, rfl⟩
  have small : roundShift m drop ≤ 2 ^ precision := roundShift_le (by omega)
  rw [roundScaled_eq positive chosen]
  split
  · have below : 2 ^ (precision - 1) < 2 ^ precision :=
      Nat.pow_lt_pow_right Nat.one_lt_two (Nat.sub_lt positive Nat.one_pos)
    exact ⟨Nat.size_le.mpr below, by dsimp only; omega, by dsimp only; omega⟩
  · rename_i different
    have below : roundShift m drop < 2 ^ precision :=
      Nat.lt_of_le_of_ne small different
    exact ⟨Nat.size_le.mpr below, by dsimp only; omega, by dsimp only; omega⟩

/-- A number that keeps to the precision already is not rounded. -/
theorem roundScaled_scaled {least : Int} (positive : 0 < precision)
    (small : m.size ≤ precision) (low : least ≤ q) (shift : Nat) :
    ∃ kept : Nat,
      roundScaled precision least (m * 2 ^ shift) (q - shift) =
        (m * 2 ^ kept, q - kept) ∧
      kept ≤ shift ∧ (m * 2 ^ kept).size ≤ precision ∧ least ≤ q - kept := by
  have length := size_mul_le m shift
  obtain ⟨drop, chosen⟩ : ∃ drop, drop =
      max ((m * 2 ^ shift).size - precision) (least - (q - shift)).toNat :=
    ⟨_, rfl⟩
  -- No more is dropped than the zeros that the shift has added.
  have fits : drop ≤ shift := by omega
  have rounded : roundShift (m * 2 ^ shift) drop = m * 2 ^ (shift - drop) := by
    have whole := roundShift_scaled m (shift - drop) drop
    rwa [Nat.sub_add_cancel fits] at whole
  have short : (m * 2 ^ (shift - drop)).size ≤ precision := by
    by_cases zero : m = 0
    · rw [zero, Nat.zero_mul, Nat.size_zero]
      exact Nat.zero_le precision
    · rw [size_mul zero] at chosen ⊢
      omega
  have different : m * 2 ^ (shift - drop) ≠ 2 ^ precision :=
    Nat.ne_of_lt (Nat.size_le.mp short)
  refine ⟨shift - drop, ?_, Nat.sub_le _ _, short, by omega⟩
  simp only [roundScaled_eq positive chosen, rounded, if_neg different,
    Prod.mk.injEq, true_and]
  omega

end Rounding

theorem isFinite_ofInt {n : Int} (word : n.natAbs < 2 ^ 64) :
    (ofInt n).isFinite = true := by
  have length : n.natAbs.size ≤ 64 := Nat.size_le.mpr word
  have bounds := roundScaled_bounds (by decide : 0 < 53) (-1074) n.natAbs 0
  unfold ofInt
  generalize roundScaled 53 (-1074) n.natAbs 0 = rounded at bounds
  obtain ⟨m, q⟩ := rounded
  obtain ⟨short, low, high⟩ := bounds
  dsimp only at short low high
  exact (isScaled_ofScaled (n < 0) short low (by omega)).isFinite

/-- A whole number of at most 53 bits survives as a double. -/
theorem isScaled_ofInt {n : Int} (small : n.natAbs < 2 ^ 53) :
    (ofInt n).IsScaled (n < 0) n.natAbs 0 := by
  have length : n.natAbs.size ≤ 53 := Nat.size_le.mpr small
  have exact : roundScaled 53 (-1074) n.natAbs 0 = (n.natAbs, 0) := by
    have low : (-1074 : Int) ≤ 0 := by decide
    obtain ⟨kept, equal, none, _⟩ :=
      roundScaled_scaled (by decide) length low 0
    obtain rfl : kept = 0 := Nat.le_zero.mp none
    simpa using equal
  rw [ofInt, exact]
  exact isScaled_ofScaled _ length (by decide) (by omega)

section Single

variable {x : Double}

/-- A finite number becomes infinite in single precision or keeps to it. -/
theorem toSingle_cases (finite : x.isFinite = true) :
    x.toSingle = infinity x.negative ∨
      ∃ m, ∃ q : Int, m.size ≤ 24 ∧ -149 ≤ q ∧ m.log2 + q < 128 ∧
        x.toSingle = ofScaled x.negative m q := by
  have bounds := roundScaled_bounds (by decide : 0 < 24) (-149) x.significand
    x.exponent
  rw [toSingle, if_pos finite]
  generalize roundScaled 24 (-149) x.significand x.exponent = rounded at bounds
  obtain ⟨m, q⟩ := rounded
  obtain ⟨short, low, _⟩ := bounds
  by_cases large : 128 ≤ (m.log2 : Int) + q
  · exact .inl (if_pos large)
  · exact .inr ⟨m, q, short, low, by omega, if_neg large⟩

theorem isScaled_of_single {m : Nat} {q : Int} (sign : Bool)
    (short : m.size ≤ 24) (low : -149 ≤ q) (small : m.log2 + q < 128) :
    (ofScaled sign m q).IsScaled sign m q := by
  have length : m.size ≤ m.log2 + 1 := Nat.size_le.mpr Nat.lt_log2_self
  exact isScaled_ofScaled sign (by omega) (by omega) (by omega)

theorem toSingle_ofScaled {m : Nat} {q : Int} (sign : Bool)
    (short : m.size ≤ 24) (low : -149 ≤ q) (small : m.log2 + q < 128) :
    (ofScaled sign m q).toSingle = ofScaled sign m q := by
  have scaled := isScaled_of_single sign short low small
  obtain ⟨shift, significand, exponent⟩ := scaled.scaled
  rw [toSingle, if_pos scaled.isFinite, scaled.negative, significand, exponent]
  obtain ⟨kept, rounded, _, fits, above⟩ :=
    roundScaled_scaled (by decide) short low shift
  have length : (m * 2 ^ kept).log2 ≤ m.log2 + kept := by
    apply Nat.le_of_lt_succ
    by_cases zero : m = 0
    · rw [zero, Nat.zero_mul, Nat.log2_zero]
      exact Nat.succ_pos _
    · have nonzero : m * 2 ^ kept ≠ 0 :=
        Nat.mul_ne_zero zero (Nat.ne_of_gt (Nat.two_pow_pos kept))
      have grown := size_mul zero kept
      rw [size_of_ne_zero zero, size_of_ne_zero nonzero] at grown
      omega
  have same : ¬ 128 ≤ ((m * 2 ^ kept).log2 : Int) + (q - kept) := by omega
  rw [rounded]
  simp only [if_neg same]
  exact ofScaled_scaled sign (by omega) (by omega)

theorem toSingle_zero : zero.toSingle = zero := by
  have scaled : zero = ofScaled false 0 0 := by decide
  rw [scaled]
  exact toSingle_ofScaled false (by decide) (by decide) (by decide)

theorem isFinite_toSingle (finite : x.isFinite = true)
    (small : x.toSingle ≠ infinity x.negative) :
    x.toSingle.isFinite = true := by
  rcases toSingle_cases finite with infinite | ⟨m, q, short, low, most, equal⟩
  · exact absurd infinite small
  · rw [equal]
    exact (isScaled_of_single _ short low most).isFinite

/-- Rounding to single precision does nothing the second time. -/
theorem toSingle_toSingle (x : Double) : x.toSingle.toSingle = x.toSingle := by
  by_cases finite : x.isFinite = true
  · rcases toSingle_cases finite with infinite | ⟨m, q, short, low, most, equal⟩
    · rw [infinite, toSingle, isFinite_infinity]
      rfl
    · rw [equal]
      exact toSingle_ofScaled _ short low most
  · have unchanged : x.toSingle = x := if_neg finite
    rw [unchanged, unchanged]

end Single

end Double

end DataBridge
