import DataBridge.Marshal.Value
import DataBridge.Program.Basic
import DataBridge.Text.Utf8

/-!
# Conversion of leaves

How a single leaf becomes a JavaScript value and how a JavaScript value becomes
a leaf, with the faults of either way.
-/

namespace DataBridge

/-- What a program expects of a JavaScript value. -/
inductive WireKind where
  | object
  | array
  | bool
  | int32
  | double
  | string
deriving DecidableEq, Repr

def WireKind.words : WireKind → String
  | .object => "an object"
  | .array => "an array"
  | .bool => "bool"
  | .int32 => "number convertible to 32bit integer"
  | .double => "number convertible to double"
  | .string => "string"

/-- What a program expects of a native value. -/
inductive NativeKind where
  | record
  | recordWithMember
  | array
  | bool
  | integer
  | float
  | string
deriving DecidableEq, Repr

def NativeKind.words : NativeKind → String
  | .record => "a record"
  | .recordWithMember => "a record with this member"
  | .array => "an array"
  | .bool => "a bool"
  | .integer => "an integer"
  | .float => "a float"
  | .string => "a string"

/-- Why a program stops. -/
inductive Fault where
  | stringTooLong (path : String) (limit actual : Nat)
  | typeMismatch (expected : WireKind) (path : String)
  | missingProperty (name : String)
  | indexOutOfRange (index length : Nat)
  | unboundHandle (name : String)
  | unboundIterator (iterator : Char)
  | nativeShape (path : String) (expected : NativeKind)
deriving DecidableEq, Repr

def Fault.message : Fault → String
  | .stringTooLong path limit actual =>
      "String too long for " ++ path ++ " (max " ++ toString limit ++
        " bytes, got " ++
        toString actual ++ ")"
  | .typeMismatch expected path =>
      "Expected " ++ expected.words ++ " for " ++ path
  | .missingProperty name => "object has no property '" ++ name ++ "'"
  | .indexOutOfRange index length =>
      "index " ++ toString index ++ " out of range for length " ++
        toString length
  | .unboundHandle name => "handle '" ++ name ++ "' read before it was bound"
  | .unboundIterator iterator =>
      "loop iterator '" ++ iterator.toString ++ "' used outside its loop"
  | .nativeShape path expected =>
      "native value at '" ++ path ++ "' is not " ++ expected.words

namespace IntegerType

def modulus (type : IntegerType) : Nat := 1 <<< type.bits

/-- The value of the type that agrees with a whole number modulo the number of
its values. -/
def wrap (type : IntegerType) (n : Int) : Int :=
  if type.signed then n.bmod type.modulus else n % type.modulus

/-- The 32-bit carrier that the type travels through. -/
def carrier (type : IntegerType) : IntegerType :=
  if type.signed then .dint else .udint

/-- The smallest value of the type. -/
def least (type : IntegerType) : Int :=
  if type.signed then -((type.modulus / 2 : Nat) : Int) else 0

/-- The values of the type: as many from the smallest on as it has. -/
def InRange (type : IntegerType) (n : Int) : Prop :=
  type.least ≤ n ∧ n < type.least + type.modulus

instance (type : IntegerType) (n : Int) : Decidable (type.InRange n) :=
  inferInstanceAs (Decidable (_ ∧ _))

theorem wrap_inRange (type : IntegerType) (n : Int) :
    type.InRange (type.wrap n) := by
  have positive : 0 < type.modulus := by cases type <;> decide
  have even : type.modulus % 2 = 0 := by cases type <;> decide
  unfold InRange least wrap
  by_cases signed : type.signed = true
  · have lower := Int.le_bmod (x := n) positive
    have upper := Int.bmod_lt (x := n) positive
    simp only [signed, if_true]
    omega
  · have lower :=
      Int.emod_nonneg n (Int.natCast_ne_zero.mpr (Nat.ne_of_gt positive))
    have upper := Int.emod_lt_of_pos n (Int.natCast_pos.mpr positive)
    simp only [signed, Bool.false_eq_true, if_false]
    omega

/-- A value as its carrier brings it over. -/
def toWireInt (type : IntegerType) (n : Int) : WireInt where
  value := type.carrier.wrap n
  inRange := by
    have bounds := type.carrier.wrap_inRange n
    have carriers : type.carrier = .dint ∨ type.carrier = .udint := by
      unfold carrier
      split
      · exact .inl rfl
      · exact .inr rfl
    rcases carriers with signed | unsigned
    · rw [signed] at bounds ⊢
      exact ⟨Int.le_trans (by decide) bounds.1,
        Int.lt_trans bounds.2 (by decide)⟩
    · rw [unsigned] at bounds ⊢
      exact ⟨Int.le_trans (by decide) bounds.1,
        Int.lt_trans bounds.2 (by decide)⟩

end IntegerType

/-- Rounds a double to the precision of a float type. -/
def FloatType.round : FloatType → Double → Double
  | .real, value => value.toSingle
  | .lreal, value => value

/-- A double as a JavaScript value, which has no infinities. -/
def Wire.ofDouble (value : Double) : Wire :=
  if isFinite : value.isFinite = true then .double ⟨value, isFinite⟩ else .null

/-- The 32-bit integer of a double, and zero when it is not finite.  The whole
part is brought into the range of an unsigned word, and the word is taken as a
signed one. -/
def toInt32 (value : Double) : Int :=
  if value.isFinite then
    IntegerType.dint.wrap
      (value.trunc.remEuclid (.ofInt 4294967296)).toWord.toNat
  else 0

namespace Leaf

/-- The native value that a leaf expects. -/
def nativeKind : Leaf → NativeKind
  | .bool => .bool
  | .integer _ => .integer
  | .float _ => .float
  | .string _ => .string

/-- The JavaScript value of a native leaf at a place.  An integer goes through
its carrier, and a text stops where its buffer ends. -/
def toWire (leaf : Leaf) (value : Native) (source : Place) :
    Except Fault Wire :=
  match leaf, value with
  | .bool, .bool value => .ok (.bool value)
  | .integer type, .int value => .ok (.int (type.toWireInt value))
  | .float type, .float value => .ok (.ofDouble (type.round value))
  | .string length, .string text => .ok (.string (Text.truncate length text))
  | leaf, _ => .error (.nativeShape source.text leaf.nativeKind)

/-- The native leaf of a JavaScript value, for a place. -/
def ofWire (leaf : Leaf) (value : Wire) (target : Place) :
    Except Fault Native :=
  match leaf with
  | .bool =>
      match value.bool? with
      | some value => .ok (.bool value)
      | none => .error (.typeMismatch .bool target.path)
  | .integer type =>
      match value.number? with
      | some number => .ok (.int (type.wrap (toInt32 number)))
      | none => .error (.typeMismatch .int32 target.path)
  | .float type =>
      match value.number? with
      | some number => .ok (.float (type.round number))
      | none => .error (.typeMismatch .double target.path)
  | .string length =>
      match value.text? with
      | some text =>
          if length < text.utf8ByteSize then
            .error (.stringTooLong target.path length text.utf8ByteSize)
          else .ok (.string text)
      | none => .error (.typeMismatch .string target.path)

end Leaf

end DataBridge
