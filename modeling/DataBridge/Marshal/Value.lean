import DataBridge.Double
import DataBridge.Record

/-!
# Values on either side

The values of the native struct and the JavaScript values that marshalling
programs move between.
-/

namespace DataBridge

/-- A whole number that a JavaScript value can hold: one of a signed or of an
unsigned word of 64 bits. -/
structure WireInt where
  value : Int
  inRange : -9223372036854775808 ≤ value ∧ value < 18446744073709551616
deriving DecidableEq, Repr

/-- A double that a JavaScript value can hold. -/
structure WireDouble where
  value : Double
  isFinite : value.isFinite = true
deriving DecidableEq, Repr

/-- A JavaScript value.  Whole numbers and doubles are kept apart. -/
inductive Wire where
  | null
  | bool (value : Bool)
  | int (number : WireInt)
  | double (number : WireDouble)
  | string (text : String)
  | array (items : List Wire)
  | object (members : List (String × Wire))

instance : Inhabited Wire := ⟨.null⟩

namespace Wire

/-- Sets a member of an object.  A name that is there keeps its position. -/
def insert (name : String) (value : Wire) :
    List (String × Wire) → List (String × Wire)
  | [] => [(name, value)]
  | (first, old) :: rest =>
      if first = name then (name, value) :: rest
      else (first, old) :: insert name value rest

/-- Sets an element of an array.  Elements missing before it are null. -/
def setElement (value : Wire) : Nat → List Wire → List Wire
  | 0, [] => [value]
  | 0, _ :: rest => value :: rest
  | index + 1, [] => .null :: setElement value index []
  | index + 1, first :: rest => first :: setElement value index rest

/-- The value as a number, whole numbers as their nearest double. -/
def number? : Wire → Option Double
  | .int number => some (.ofInt number.value)
  | .double number => some number.value
  | _ => none

def bool? : Wire → Option Bool
  | .bool value => some value
  | _ => none

def text? : Wire → Option String
  | .string text => some text
  | _ => none

end Wire

/-- A value of the native struct: a leaf, an array or a record. -/
inductive Native where
  | bool (value : Bool)
  | int (value : Int)
  | float (value : Double)
  | string (text : String)
  | array (items : List Native)
  | record (members : List (String × Native))

instance : Inhabited Native := ⟨.bool false⟩

namespace Native

/-- The value of a leaf in memory that was never written. -/
def zeroLeaf : Leaf → Native
  | .bool => .bool false
  | .integer _ => .int 0
  | .float _ => .float .zero
  | .string _ => .string ""

mutual

/-- The value of a member in memory that was never written. -/
def zeroed (field : Field) : Native :=
  match field with
  | { type := .leaf leaf, arraySize := 0, .. } => zeroLeaf leaf
  | { type := .leaf leaf, arraySize := size + 1, .. } =>
      .array (List.replicate (size + 1) (zeroLeaf leaf))
  | { type := .record inner, arraySize := 0, .. } => zeroedRecord inner
  | { type := .record inner, arraySize := size + 1, .. } =>
      .array (List.replicate (size + 1) (zeroedRecord inner))

/-- The value of a record in memory that was never written. -/
def zeroedRecord (whole : Record) : Native :=
  match whole with
  | { fields, .. } => .record (zeroedMembers fields)

/-- The members of a record in memory that was never written. -/
def zeroedMembers : List Field → List (String × Native)
  | [] => []
  | field :: rest => (field.name, zeroed field) :: zeroedMembers rest

end

end Native

end DataBridge
