import DataBridge.Text.Parts

/-!
# Elementary types

The elementary types of a datamodel, the names that declarations use for them,
and their spelling in a native struct.
-/

namespace DataBridge

/-- An elementary type.  Whether a member is an array is said by the member,
never by the name of its type. -/
inductive Scalar where
  | bool
  | sint
  | int
  | dint
  | usint
  | uint
  | udint
  | byte
  | real
  | lreal
  | string
deriving DecidableEq, Repr

namespace Scalar

/-- Every elementary type, in the order in which names are tried. -/
def all : List Scalar :=
  [.bool, .sint, .int, .dint, .usint, .uint, .udint, .byte, .real, .lreal,
    .string]

/-- The name of the type in a declaration. -/
def name : Scalar → String
  | .bool => "BOOL"
  | .sint => "SINT"
  | .int => "INT"
  | .dint => "DINT"
  | .usint => "USINT"
  | .uint => "UINT"
  | .udint => "UDINT"
  | .byte => "BYTE"
  | .real => "REAL"
  | .lreal => "LREAL"
  | .string => "STRING"

/-- The native spelling.  A string is a buffer of `char` whose size the member
gives. -/
def nativeType : Scalar → String
  | .bool => "bool"
  | .sint => "int8_t"
  | .int => "int16_t"
  | .dint => "int32_t"
  | .usint | .byte => "uint8_t"
  | .uint => "uint16_t"
  | .udint => "uint32_t"
  | .real => "float"
  | .lreal => "double"
  | .string => "char"

/-- The elementary type of a name.  Blanks around the name and the case of its
ASCII letters do not count. -/
def ofName? (text : String) : Option Scalar :=
  let wanted := (Text.trim text).toList.map Char.toUpper
  all.find? fun scalar => scalar.name.toList == wanted

theorem mem_all (scalar : Scalar) : scalar ∈ all := by
  cases scalar <;> decide

end Scalar

end DataBridge
