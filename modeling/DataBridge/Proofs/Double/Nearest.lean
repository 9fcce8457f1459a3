import DataBridge.Proofs.Double.Rational

/-!
# The nearest double

A whole number that needs more than 53 bits becomes the nearest double, and of
two that are equally near the one with the even significand.
-/

namespace DataBridge

namespace Double

/-- A finite number to which a rational number is rounded: no other is nearer,
and in a tie with another its significand is even. -/
structure IsNearest (x : Double) (q : ℚ) : Prop where
  isFinite : x.isFinite = true
  nearest : ∀ y : Double, y.isFinite = true → |x.value - q| ≤ |y.value - q|
  even : ∀ y : Double, y.isFinite = true → |y.value - q| = |x.value - q| →
    y.value = x.value ∨ x.significand % 2 = 0

section Step

variable {start step rest other : ℚ}

/-- In the lower half of a step nothing outside of it is nearer than its
start. -/
theorem start_nearest (nonneg : 0 ≤ rest) (half : 2 * rest ≤ step)
    (outside : other ≤ start ∨ start + step ≤ other) :
    |start - (start + rest)| ≤ |other - (start + rest)| ∧
      (|other - (start + rest)| = |start - (start + rest)| →
        other = start ∨ 2 * rest = step) := by
  have own : |start - (start + rest)| = rest := by
    rw [sub_add_cancel_left, abs_neg, abs_of_nonneg nonneg]
  rw [own]
  rcases outside with before | after
  · rw [abs_of_nonpos (by linarith)]
    exact ⟨by linarith, fun tie => .inl (by linarith)⟩
  · rw [abs_of_nonneg (by linarith)]
    exact ⟨by linarith, fun tie => .inr (by linarith)⟩

/-- In the upper half of a step nothing outside of it is nearer than its end. -/
theorem end_nearest (below : rest < step) (half : step ≤ 2 * rest)
    (outside : other ≤ start ∨ start + step ≤ other) :
    |start + step - (start + rest)| ≤ |other - (start + rest)| ∧
      (|other - (start + rest)| = |start + step - (start + rest)| →
        other = start + step ∨ 2 * rest = step) := by
  have own : |start + step - (start + rest)| = step - rest := by
    rw [add_sub_add_left_eq_sub, abs_of_pos (by linarith)]
  rw [own]
  rcases outside with before | after
  · rw [abs_of_nonpos (by linarith)]
    exact ⟨by linarith, fun tie => .inr (by linarith)⟩
  · rw [abs_of_nonneg (by linarith)]
    exact ⟨by linarith, fun tie => .inl (by linarith)⟩

end Step

/-- Rounding goes back in the lower half of a step and on in the upper one, and
from the middle to an even number. -/
theorem roundShift_cases (m drop : ℕ) :
    (2 * (m % 2 ^ drop) ≤ 2 ^ drop ∧ roundShift m drop = m / 2 ^ drop ∨
      2 ^ drop ≤ 2 * (m % 2 ^ drop) ∧
        roundShift m drop = m / 2 ^ drop + 1) ∧
    (2 * (m % 2 ^ drop) = 2 ^ drop → roundShift m drop % 2 = 0) := by
  rw [roundShift_eq]
  generalize 2 ^ drop = step
  split
  · rename_i up
    simp only [Bool.or_eq_true, decide_eq_true_eq, Bool.and_eq_true, beq_iff_eq]
      at up
    omega
  · rename_i down
    simp only [Bool.or_eq_true, decide_eq_true_eq, Bool.and_eq_true, beq_iff_eq]
      at down
    omega

/-- Rounding arrives as near as any number outside of the step that it
leaves. -/
theorem roundShift_nearest (a drop : ℕ) {other : ℚ}
    (outside : other ≤ (a / 2 ^ drop * 2 ^ drop : ℕ) ∨
      ((a / 2 ^ drop + 1) * 2 ^ drop : ℕ) ≤ other) :
    |((roundShift a drop * 2 ^ drop : ℕ) : ℚ) - a| ≤ |other - a| ∧
      (|other - a| = |((roundShift a drop * 2 ^ drop : ℕ) : ℚ) - a| →
        other = (roundShift a drop * 2 ^ drop : ℕ) ∨
          roundShift a drop % 2 = 0) := by
  have parts := Nat.div_add_mod a (2 ^ drop)
  have below := Nat.mod_lt a (Nat.two_pow_pos drop)
  obtain ⟨halves, middle⟩ := roundShift_cases a drop
  rw [Nat.mul_comm] at parts
  generalize 2 ^ drop = step at *
  generalize a / step = quotient at *
  generalize a % step = rest at *
  have tied : (2 * rest : ℚ) = step → roundShift a drop % 2 = 0 :=
    fun equal => middle (by exact_mod_cast equal)
  have split : (a : ℚ) = quotient * step + rest := by
    rw [← parts]
    push_cast
    rfl
  rw [Nat.cast_mul, Nat.cast_mul, Nat.cast_add_one, add_one_mul] at outside
  rw [split]
  rcases halves with ⟨half, back⟩ | ⟨half, on⟩
  · have half' : (2 * rest : ℚ) ≤ step := by exact_mod_cast half
    obtain ⟨nearest, even⟩ := start_nearest (Nat.cast_nonneg rest) half' outside
    rw [back] at tied
    rw [Nat.cast_mul, back]
    exact ⟨nearest, fun tie => (even tie).imp_right tied⟩
  · have half' : (step : ℚ) ≤ 2 * rest := by exact_mod_cast half
    have below' : (rest : ℚ) < step := by exact_mod_cast below
    obtain ⟨nearest, even⟩ := end_nearest below' half' outside
    rw [on] at tied
    rw [Nat.cast_mul, on, Nat.cast_add_one, add_one_mul]
    exact ⟨nearest, fun tie => (even tie).imp_right tied⟩

/-- No double stands inside of a step of a number with at least 53 bits. -/
theorem outside_step (y : Double) {a drop : ℕ} (length : a.size = 53 + drop) :
    y.magnitude ≤ (a / 2 ^ drop * 2 ^ drop : ℕ) ∨
      ((a / 2 ^ drop + 1) * 2 ^ drop : ℕ) ≤ y.magnitude := by
  by_cases coarse : (drop : ℤ) ≤ y.exponent
  · -- A coarse number is a multiple of the step.
    have multiple := units_magnitude coarse
    rw [zpow_natCast] at multiple
    have whole : y.magnitude = (y.units drop * 2 ^ drop : ℕ) := by
      rw [← multiple, Nat.cast_mul, Nat.cast_pow, Nat.cast_ofNat]
    rw [whole]
    rcases Nat.lt_or_ge (a / 2 ^ drop) (y.units drop) with after | before
    · exact .inr (Nat.cast_le.mpr (Nat.mul_le_mul_right _ after))
    · exact .inl (Nat.cast_le.mpr (Nat.mul_le_mul_right _ before))
  · -- A finer number is too small to reach the step.
    left
    have reached : 2 ^ 52 ≤ a / 2 ^ drop := by
      rw [Nat.le_div_iff_mul_le (Nat.two_pow_pos drop), ← Nat.pow_add]
      exact Nat.lt_size.mp (by omega)
    have small : y.significand ≤ 2 ^ 53 := Nat.le_of_lt
      (Nat.size_le.mp y.size_significand)
    have fine : (2 : ℚ) ^ y.exponent ≤ 2 ^ ((drop : ℤ) - 1) :=
      zpow_le_zpow_right₀ one_le_two (by omega)
    have halved : (2 ^ 53 : ℚ) * 2 ^ ((drop : ℤ) - 1) =
        (2 ^ 52 * 2 ^ drop : ℕ) := by
      rw [zpow_sub₀ two_ne_zero, zpow_natCast, zpow_one, Nat.cast_mul]
      push_cast
      ring
    calc y.magnitude
        ≤ 2 ^ 53 * 2 ^ ((drop : ℤ) - 1) :=
          mul_le_mul (by exact_mod_cast small) fine (by positivity)
            (by positivity)
      _ = (2 ^ 52 * 2 ^ drop : ℕ) := halved
      _ ≤ (a / 2 ^ drop * 2 ^ drop : ℕ) :=
          Nat.cast_le.mpr (Nat.mul_le_mul_right _ reached)

/-- A whole number is rounded to a multiple of the power that it is too long
by. -/
theorem isScaled_ofInt_round {n : ℤ} (word : n.natAbs < 2 ^ 64) {drop : ℕ}
    (chosen : drop = n.natAbs.size - 53) :
    ∃ m, ∃ q : ℤ, (ofInt n).IsScaled (n < 0) m q ∧
      (m : ℚ) * 2 ^ q = (roundShift n.natAbs drop * 2 ^ drop : ℕ) ∧
      (roundShift n.natAbs drop % 2 = 0 → m % 2 = 0) := by
  have length : n.natAbs.size ≤ 64 := Nat.size_le.mpr word
  have bounds := roundScaled_bounds (by decide : 0 < 53) (-1074) n.natAbs 0
  have whole : roundScaled 53 (-1074) n.natAbs 0 =
      if roundShift n.natAbs drop = 2 ^ 53 then (2 ^ 52, (0 : ℤ) + drop + 1)
      else (roundShift n.natAbs drop, (0 : ℤ) + drop) :=
    roundScaled_eq (by decide) (by omega)
  rw [whole] at bounds
  have scaled : ∀ m, ∀ q : ℤ, (ofInt n = ofScaled (n < 0) m q) → m.size ≤ 53 →
      -1074 ≤ q → q ≤ 12 → (ofInt n).IsScaled (n < 0) m q := by
    intro m q equal short low high
    rw [equal]
    exact isScaled_ofScaled _ short low (by omega)
  split at bounds
  · rename_i carry
    obtain ⟨short, low, high⟩ := bounds
    refine ⟨2 ^ 52, (drop : ℤ) + 1, scaled _ _ ?_ short (by omega) (by omega),
      ?_, ?_⟩
    · rw [ofInt, whole, if_pos carry, zero_add]
    · rw [carry, zpow_add₀ two_ne_zero, zpow_natCast, zpow_one, Nat.cast_mul]
      push_cast
      ring
    · exact fun _ => by decide
  · rename_i plain
    obtain ⟨short, low, high⟩ := bounds
    refine ⟨roundShift n.natAbs drop, drop,
      scaled _ _ ?_ short (by omega) (by omega), ?_, id⟩
    · rw [ofInt, whole, if_neg plain, zero_add]
    · rw [zpow_natCast, Nat.cast_mul, Nat.cast_pow, Nat.cast_ofNat]

/-- Rounding to 53 bits arrives as near as the magnitude of any double. -/
theorem roundShift_nearest_double (y : Double) {a drop : ℕ}
    (chosen : drop = a.size - 53) :
    |((roundShift a drop * 2 ^ drop : ℕ) : ℚ) - a| ≤ |y.magnitude - a| ∧
      (|y.magnitude - a| = |((roundShift a drop * 2 ^ drop : ℕ) : ℚ) - a| →
        y.magnitude = (roundShift a drop * 2 ^ drop : ℕ) ∨
          roundShift a drop % 2 = 0) := by
  by_cases long : 53 ≤ a.size
  · exact roundShift_nearest a drop (y.outside_step (by omega))
  · have exact : roundShift a drop * 2 ^ drop = a := by
      obtain rfl : drop = 0 := by omega
      have same := roundShift_scaled a 0 0
      simpa using same
    rw [exact, sub_self, abs_zero]
    exact ⟨abs_nonneg _, fun tie => .inl (sub_eq_zero.mp (abs_eq_zero.mp tie))⟩

private theorem value_zero : zero.value = 0 := by
  have none : zero.magnitude = 0 := magnitude_eq_zero_iff.mpr (by decide)
  simp [value, none]

private theorem value_eq_or_neg {x y : Double}
    (same : y.magnitude = x.magnitude) :
    y.value = x.value ∨ y.value = -x.value := by
  unfold value
  rw [same]
  split <;> split <;> simp

/-- A number on the side of `n` that rounding arrives at is nearest to `n`. -/
theorem isNearest_of_rounded {x : Double} {n : ℤ} {drop : ℕ}
    (finite : x.isFinite = true) (chosen : drop = n.natAbs.size - 53)
    (side : x.negative = decide (n < 0))
    (rounded : x.magnitude = (roundShift n.natAbs drop * 2 ^ drop : ℕ))
    (even : roundShift n.natAbs drop % 2 = 0 → x.significand % 2 = 0) :
    x.IsNearest n := by
  have near := fun y => @roundShift_nearest_double y n.natAbs drop chosen
  rw [← rounded] at near
  have distance : |(n : ℚ)| = n.natAbs := by rw [Nat.cast_natAbs, Int.cast_abs]
  have own : |x.value - n| = |x.magnitude - n.natAbs| := by
    rw [value, side, ← distance]
    by_cases negative : n < 0
    · have negative' : (n : ℚ) < 0 := by exact_mod_cast negative
      rw [if_pos (decide_eq_true negative), abs_of_neg negative', ← abs_neg]
      congr 1
      ring
    · have nonneg : (0 : ℚ) ≤ n := by exact_mod_cast Int.not_lt.mp negative
      rw [if_neg (by simpa using negative), abs_of_nonneg nonneg]
  have away : ∀ y : Double, |y.magnitude - n.natAbs| ≤ |y.value - n| := by
    intro y
    rw [← value_abs, ← distance]
    exact abs_abs_sub_abs_le _ _
  have nearest : ∀ y : Double, |x.value - n| ≤ |y.value - n| := by
    intro y
    rw [own]
    exact (near y).1.trans (away y)
  refine ⟨finite, fun y _ => nearest y, ?_⟩
  intro y _ tie
  have level : |y.magnitude - n.natAbs| = |x.magnitude - n.natAbs| :=
    le_antisymm ((away y).trans (by rw [tie, own])) (near y).1
  rcases (near y).2 level with same | arrived
  · -- A number across zero is as near only when both are zero.
    left
    rcases value_eq_or_neg same with equal | opposite
    · exact equal
    · have product : x.value * n = 0 := by
        have squares := congrArg (· ^ 2) tie
        simp only [sq_abs, opposite] at squares
        linarith
      have zero : x.value = 0 := by
        rcases mul_eq_zero.mp product with zero | none
        · exact zero
        · have reach := nearest Double.zero
          rw [none, value_zero, sub_zero, sub_zero, abs_zero] at reach
          exact abs_nonpos_iff.mp reach
      rw [opposite, zero, neg_zero]
  · exact .inr (even arrived)

/-- A whole number becomes the nearest double. -/
theorem isNearest_ofInt {n : ℤ} (word : n.natAbs < 2 ^ 64) :
    (ofInt n).IsNearest n := by
  obtain ⟨drop, chosen⟩ : ∃ drop, drop = n.natAbs.size - 53 := ⟨_, rfl⟩
  obtain ⟨m, q, scaled, rounded, even⟩ := isScaled_ofInt_round word chosen
  refine isNearest_of_rounded scaled.isFinite chosen scaled.negative ?_ ?_
  · rw [scaled.magnitude, rounded]
  · intro arrived
    obtain ⟨shift, significand, _⟩ := scaled.scaled
    rw [significand]
    exact Nat.mod_eq_zero_of_dvd
      ((Nat.dvd_of_mod_eq_zero (even arrived)).mul_right _)

end Double

end DataBridge
