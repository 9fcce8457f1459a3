import DataBridge.Proofs.Double.Nearest
import DataBridge.Proofs.Marshal.Leaf
import Mathlib.Data.Int.ModEq

/-!
# Integers from JavaScript numbers

A JavaScript number of any size becomes an integer by cutting off behind the
point and reducing modulo the number of values of the type.  The way through a
32-bit word changes nothing of that.
-/

namespace DataBridge

open Double (wholePart)

namespace IntegerType

/-- A value of the type that agrees with the whole part of a rational number
modulo the number of values. -/
structure IsReduction (type : IntegerType) (number : ℚ) (value : ℤ) : Prop where
  inRange : type.InRange value
  congruent : value ≡ wholePart number [ZMOD 2 ^ type.bits]

/-- Wherever the JavaScript value is read, the result is the one reduction of
the number. -/
def ReadsModulo (type : IntegerType) (wire : Wire) (number : ℚ) : Prop :=
  ∀ target, ∃ value, (Leaf.integer type).ofWire wire target = .ok (.int value) ∧
    type.IsReduction number value ∧ ∀ other, type.IsReduction number other →
      other = value

theorem modulus_eq (type : IntegerType) :
    (type.modulus : ℤ) = 2 ^ type.bits := by
  rw [modulus, Nat.one_shiftLeft, Nat.cast_pow, Nat.cast_ofNat]

private theorem wrap_isReduction (type : IntegerType) (number : ℚ) :
    type.IsReduction number (type.wrap (wholePart number)) := by
  refine ⟨type.wrap_inRange _, ?_⟩
  rw [← type.modulus_eq]
  exact type.wrap_emod _

theorem IsReduction.unique {type : IntegerType} {number : ℚ} {value other : ℤ}
    (first : type.IsReduction number value)
    (second : type.IsReduction number other) : other = value := by
  have same : other ≡ value [ZMOD 2 ^ type.bits] :=
    second.congruent.trans first.congruent.symm
  rw [← type.modulus_eq] at same
  rw [← wrap_of_inRange first.inRange, ← wrap_of_inRange second.inRange]
  exact wrap_congr same

theorem readsModulo_of_number {type : IntegerType} {wire : Wire}
    {number : Double} (found : wire.number? = some number) :
    type.ReadsModulo wire number.value := by
  intro target
  have finite := Leaf.number?_isFinite found
  have steps : type.wrap (toInt32 number) =
      type.wrap (wholePart number.value) := by
    rw [toInt32_eq finite, wrap_wrap type.modulus_dvd_dint, Double.truncate_eq]
  have reduction := type.wrap_isReduction number.value
  refine ⟨_, ?_, reduction, fun other second => reduction.unique second⟩
  simp only [Leaf.ofWire, found, steps]

end IntegerType

/-- Every JavaScript number is read by reduction: a whole number as its nearest
double, a double as it is.  So a value of the type comes back as it left. -/
theorem integers_read_modulo (type : IntegerType) :
    (∀ number : WireInt,
      (Double.ofInt number.value).IsNearest number.value ∧
        type.ReadsModulo (.int number) (Double.ofInt number.value).value) ∧
    (∀ number : WireDouble,
      type.ReadsModulo (.double number) number.value.value) ∧
    ∀ value, type.InRange value → ∀ source target, ∃ wire,
      (Leaf.integer type).toWire (.int value) source = .ok wire ∧
        (Leaf.integer type).ofWire wire target = .ok (.int value) := by
  refine ⟨?_, ?_, ?_⟩
  · intro number
    have bounds := number.inRange
    exact ⟨Double.isNearest_ofInt (by omega),
      IntegerType.readsModulo_of_number rfl⟩
  · intro number
    exact IntegerType.readsModulo_of_number rfl
  · intro value inRange source target
    refine ⟨.int (type.toWireInt value), rfl, ?_⟩
    simp only [Leaf.ofWire, Wire.number?, IntegerType.wrap_toWireInt inRange]

/-- The smallest value of a word survives, though its carrier is a 32-bit
one. -/
theorem least_int_survives :
    IntegerType.int.InRange (-32768) ∧
    ∃ wire, (Leaf.integer .int).toWire (.int (-32768)) { root := "plc" } =
      .ok wire ∧
      (Leaf.integer .int).ofWire wire { root := "plc" } = .ok (.int (-32768)) :=
  ⟨by decide, (integers_read_modulo .int).2.2 (-32768) (by decide) _ _⟩

end DataBridge
