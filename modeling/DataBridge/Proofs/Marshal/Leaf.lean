import DataBridge.Proofs.Double.Rational
import DataBridge.Proofs.Marshal.Codec

/-!
# Leaves both ways

The native leaves that survive a conversion to JavaScript and back, and the
leaves that a conversion from JavaScript can store.  An integer travels through
a 32-bit carrier and a double, and neither loses anything of its value.
-/

namespace DataBridge

namespace IntegerType

variable {type wide : IntegerType}

theorem wrap_emod (type : IntegerType) (n : Int) :
    type.wrap n % type.modulus = n % type.modulus := by
  unfold wrap
  split
  · exact Int.bmod_emod
  · exact Int.emod_emod_of_dvd n (Int.dvd_refl _)

theorem wrap_congr {n k : Int} (same : n % type.modulus = k % type.modulus) :
    type.wrap n = type.wrap k := by
  unfold wrap
  split
  · rw [← Int.emod_bmod, same, Int.emod_bmod]
  · exact same

theorem wrap_of_inRange {n : Int} (inRange : type.InRange n) :
    type.wrap n = n := by
  have even : type.modulus % 2 = 0 := by cases type <;> decide
  obtain ⟨lower, upper⟩ := inRange
  unfold least at lower upper
  unfold wrap
  by_cases signed : type.signed = true
  · simp only [signed, if_true] at lower upper ⊢
    exact Int.bmod_eq_of_le (by omega) (by omega)
  · simp only [signed, Bool.false_eq_true, if_false] at lower upper ⊢
    exact Int.emod_eq_of_lt lower (by omega)

/-- A wider type on the way changes nothing. -/
theorem wrap_wrap (wider : type.modulus ∣ wide.modulus) (n : Int) :
    type.wrap (wide.wrap n) = type.wrap n := by
  have divides : (type.modulus : Int) ∣ wide.modulus :=
    Int.natCast_dvd_natCast.mpr wider
  apply wrap_congr
  rw [← Int.emod_emod_of_dvd (wide.wrap n) divides, wrap_emod,
    Int.emod_emod_of_dvd n divides]

private theorem modulus_dvd_carrier (type : IntegerType) :
    type.modulus ∣ type.carrier.modulus := by
  cases type <;> decide

theorem modulus_dvd_dint (type : IntegerType) :
    type.modulus ∣ IntegerType.dint.modulus := by
  cases type <;> decide

private theorem natAbs_wrap_lt (type : IntegerType) (n : Int) :
    (type.wrap n).natAbs < 2 ^ 32 := by
  obtain ⟨lower, upper⟩ := type.wrap_inRange n
  have bounds : -(2 ^ 32 : Int) < type.least ∧
      type.least + type.modulus ≤ 2 ^ 32 := by
    cases type <;> decide
  omega

/-- The steps to a 32-bit integer leave the whole part modulo `2 ^ 32`. -/
theorem toInt32_eq {number : Double} (finite : number.isFinite = true) :
    toInt32 number = IntegerType.dint.wrap number.truncate := by
  have modulus : (IntegerType.dint.modulus : Int) = 4294967296 := rfl
  have divisor :=
    Double.isScaled_ofInt (show (4294967296 : Int).natAbs < 2 ^ 53 by decide)
  have whole := Double.isWhole_remEuclid (Double.isWhole_trunc finite) divisor
    (by decide) (by decide)
  have lower :=
    Int.emod_nonneg number.truncate (show (4294967296 : Int) ≠ 0 by decide)
  have upper :=
    Int.emod_lt_of_pos number.truncate (show (0 : Int) < 4294967296 by decide)
  rw [toInt32, if_pos finite, whole.toWord lower upper]
  apply wrap_congr
  rw [modulus]
  exact Int.emod_emod_of_dvd _ (Int.dvd_refl _)

/-- An integer in the range of its type survives its carrier. -/
theorem wrap_toWireInt {n : Int} (inRange : type.InRange n) :
    type.wrap (toInt32 (.ofInt (type.toWireInt n).value)) = n := by
  have small := type.carrier.natAbs_wrap_lt n
  have word : (type.carrier.wrap n).natAbs < 2 ^ 64 :=
    Nat.lt_trans small (Nat.pow_lt_pow_right Nat.one_lt_two (by decide))
  have exact53 : (type.carrier.wrap n).natAbs < 2 ^ 53 :=
    Nat.lt_trans small (Nat.pow_lt_pow_right Nat.one_lt_two (by decide))
  rw [toWireInt, toInt32_eq (Double.isFinite_ofInt word),
    Double.truncate_ofInt exact53, wrap_wrap type.modulus_dvd_dint,
    wrap_wrap type.modulus_dvd_carrier, wrap_of_inRange inRange]

end IntegerType

namespace FloatType

private theorem round_round (type : FloatType) (value : Double) :
    type.round (type.round value) = type.round value := by
  cases type with
  | real => exact value.toSingle_toSingle
  | lreal => rfl

end FloatType

namespace Leaf

/-- The native values of a leaf: an integer in the range of its type, a text
that its buffer can hold, a float with a property. -/
def Holds (float : FloatType → Double → Prop) : Leaf → Native → Prop
  | .bool, .bool _ => True
  | .integer type, .int value => type.InRange value
  | .float type, .float value => float type value
  | .string length, .string text => text.utf8ByteSize ≤ length
  | _, _ => False

/-- A leaf whose floats are finite numbers of their precision. -/
def Canonical : Leaf → Native → Prop :=
  Holds fun type value => value.isFinite = true ∧ type.round value = value

/-- A leaf whose floats are what finite numbers round to. -/
def Stores : Leaf → Native → Prop :=
  Holds fun type value =>
    ∃ number : Double, number.isFinite = true ∧ type.round number = value

/-- A leaf that is not an infinite number of single precision. -/
def NotInfinite : Leaf → Native → Prop
  | .float .real, .float value => ∀ negative, value ≠ .infinity negative
  | _, _ => True

variable {leaf : Leaf} {value : Native}

theorem Canonical.stores (canonical : leaf.Canonical value) :
    leaf.Stores value := by
  cases leaf <;> cases value <;> try exact canonical
  exact ⟨_, canonical⟩

theorem Canonical.notInfinite (canonical : leaf.Canonical value) :
    leaf.NotInfinite value := by
  cases leaf <;> cases value <;> try trivial
  rename_i type value
  cases type with
  | real =>
      rintro negative rfl
      have finite := canonical.1
      rw [Double.isFinite_infinity] at finite
      cases finite
  | lreal => trivial

theorem Stores.canonical (stores : leaf.Stores value)
    (notInfinite : leaf.NotInfinite value) : leaf.Canonical value := by
  cases leaf <;> cases value <;> try exact stores
  rename_i type value
  obtain ⟨number, finite, rfl⟩ := stores
  refine ⟨?_, type.round_round number⟩
  cases type with
  | real => exact Double.isFinite_toSingle finite (notInfinite _)
  | lreal => exact finite

theorem zeroLeaf_canonical (leaf : Leaf) :
    leaf.Canonical (Native.zeroLeaf leaf) := by
  cases leaf with
  | bool => trivial
  | integer type => cases type <;> exact ⟨by decide, by decide⟩
  | float type =>
      refine ⟨by decide, ?_⟩
      cases type with
      | real => exact Double.toSingle_zero
      | lreal => rfl
  | string length => exact Nat.zero_le length

theorem decode_encode (canonical : leaf.Canonical value) :
    leaf.decode (leaf.encode value) = .ok value := by
  cases leaf <;> cases value <;> try exact canonical.elim
  case bool.bool value => rfl
  case integer.int type value =>
    simp [decode, encode, toWire, ofWire, Wire.number?,
      IntegerType.wrap_toWireInt canonical]
  case float.float type value =>
    obtain ⟨finite, rounded⟩ := canonical
    simp [decode, encode, toWire, ofWire, Wire.number?, Wire.ofDouble,
      rounded, finite]
  case string.string length text =>
    have short : text.utf8ByteSize ≤ length := canonical
    simp [decode, encode, toWire, ofWire, Wire.text?,
      Text.truncate_of_le short, Nat.not_lt.mpr short]

theorem number?_isFinite {wire : Wire} {number : Double}
    (found : wire.number? = some number) : number.isFinite = true := by
  cases wire <;> cases found
  case int number =>
    have bounds := number.inRange
    exact Double.isFinite_ofInt (by omega)
  case double number => exact number.isFinite

theorem stores_of_decode {wire : Wire}
    (decoded : leaf.decode wire = .ok value) : leaf.Stores value := by
  cases leaf with
  | bool =>
      cases found : wire.bool? with
      | none => simp [decode, ofWire, found] at decoded
      | some flag =>
          obtain rfl : Native.bool flag = value := by
            simpa [decode, ofWire, found] using decoded
          trivial
  | integer type =>
      cases found : wire.number? with
      | none => simp [decode, ofWire, found] at decoded
      | some number =>
          obtain rfl : Native.int (type.wrap (toInt32 number)) = value := by
            simpa [decode, ofWire, found] using decoded
          exact type.wrap_inRange _
  | float type =>
      cases found : wire.number? with
      | none => simp [decode, ofWire, found] at decoded
      | some number =>
          obtain rfl : Native.float (type.round number) = value := by
            simpa [decode, ofWire, found] using decoded
          exact ⟨number, number?_isFinite found, rfl⟩
  | string length =>
      cases found : wire.text? with
      | none => simp [decode, ofWire, found] at decoded
      | some text =>
          by_cases long : length < text.utf8ByteSize
          · simp [decode, ofWire, found, long] at decoded
          · obtain rfl : Native.string text = value := by
              simpa [decode, ofWire, found, long] using decoded
            exact Nat.le_of_not_lt long

end Leaf

end DataBridge
