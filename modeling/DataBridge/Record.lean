import DataBridge.Scalar

/-!
# Resolved records

Records in which every member has a resolved type: a leaf, or another record.
An enumeration is an integer leaf that keeps its name for declarations.
-/

namespace DataBridge

/-- The integer types.  Each travels through a 32-bit carrier. -/
inductive IntegerType where
  | sint
  | int
  | dint
  | usint
  | uint
  | udint
  | byte
deriving DecidableEq, Repr

namespace IntegerType

def signed : IntegerType → Bool
  | .sint | .int | .dint => true
  | .usint | .uint | .udint | .byte => false

def bits : IntegerType → Nat
  | .sint | .usint | .byte => 8
  | .int | .uint => 16
  | .dint | .udint => 32

def scalar : IntegerType → Scalar
  | .sint => .sint
  | .int => .int
  | .dint => .dint
  | .usint => .usint
  | .uint => .uint
  | .udint => .udint
  | .byte => .byte

def nativeType (type : IntegerType) : String :=
  type.scalar.nativeType

end IntegerType

inductive FloatType where
  | real
  | lreal
deriving DecidableEq, Repr

def FloatType.nativeType : FloatType → String
  | .real => "float"
  | .lreal => "double"

/-- A resolved elementary type.  Only a string has a length, in bytes. -/
inductive Leaf where
  | bool
  | integer (type : IntegerType)
  | float (type : FloatType)
  | string (length : Nat)
deriving DecidableEq, Repr

namespace Leaf

def nativeType : Leaf → String
  | .bool => "bool"
  | .integer type => type.nativeType
  | .float type => type.nativeType
  | .string _ => "char"

/-- The leaf of an elementary type.  A string needs a length other than zero,
and no other type looks at the length. -/
def ofScalar? (stringLength : Option Nat) : Scalar → Option Leaf
  | .bool => some .bool
  | .sint => some (.integer .sint)
  | .int => some (.integer .int)
  | .dint => some (.integer .dint)
  | .usint => some (.integer .usint)
  | .uint => some (.integer .uint)
  | .udint => some (.integer .udint)
  | .byte => some (.integer .byte)
  | .real => some (.float .real)
  | .lreal => some (.float .lreal)
  | .string =>
      match stringLength with
      | some (length + 1) => some (.string (length + 1))
      | some 0 | none => none

end Leaf

/-- How a member takes part in the exchange. -/
structure FieldFlags where
  published : Bool := false
  subscribed : Bool := false
  isPrivate : Bool := false
deriving DecidableEq, Repr

mutual

/-- A resolved member.  An `arraySize` of zero means no array, and `enumName`
is the declared type when that is an enumeration. -/
structure Field where
  name : String
  type : FieldType
  arraySize : Nat := 0
  flags : FieldFlags := {}
  comment : Option String := none
  enumName : Option String := none

/-- The type of a member, or of one element when the member is an array. -/
inductive FieldType where
  | leaf (leaf : Leaf)
  | record (record : Record)

/-- A record: its members in declared order, private ones included. -/
structure Record where
  name : String
  comment : Option String := none
  fields : List Field

end

instance : Inhabited Record := ⟨{ name := "", fields := [] }⟩

instance : Inhabited Field := ⟨{ name := "", type := .leaf .bool }⟩

namespace Field

def isArray (field : Field) : Bool :=
  0 < field.arraySize

/-- Whether the member stays out of the exchange. -/
def isPrivate (field : Field) : Bool :=
  field.flags.isPrivate

/-- The name of the native type that a declaration of the member uses. -/
def nativeType (field : Field) : String :=
  match field.enumName, field.type with
  | some name, _ => name
  | none, .leaf leaf => leaf.nativeType
  | none, .record record => record.name

/-- The member seen as one element of its array. -/
def element (field : Field) : Field :=
  { field with arraySize := 0 }

end Field

/-- The members that take part in the exchange, in declared order. -/
def Record.exchanged (record : Record) : List Field :=
  record.fields.filter fun field => !field.isPrivate

/-- A datamodel: its root record, whose exchanged members are the datasets. -/
structure Datamodel where
  name : String
  root : Record

def Datamodel.datasets (datamodel : Datamodel) : List Field :=
  datamodel.root.exchanged

end DataBridge
