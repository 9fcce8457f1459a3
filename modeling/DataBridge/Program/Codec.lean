import DataBridge.Json.Basic
import DataBridge.Program.Basic

/-!
# Programs as documents

A program is written as a JSON document and read back from one.  Each
statement is an object with one member, named for the kind of statement.
-/

namespace DataBridge

/-- The name of a direction in a document. -/
def Direction.tag : Direction → String
  | .outgoing => "out"
  | .incoming => "in"

def Direction.ofTag? : String → Option Direction
  | "out" => some .outgoing
  | "in" => some .incoming
  | _ => none

/-- The name of an integer type in a document. -/
def IntegerType.tag : IntegerType → String
  | .sint => "sint"
  | .int => "int"
  | .dint => "dint"
  | .usint => "usint"
  | .uint => "uint"
  | .udint => "udint"
  | .byte => "byte"

def IntegerType.ofTag? : String → Option IntegerType
  | "sint" => some .sint
  | "int" => some .int
  | "dint" => some .dint
  | "usint" => some .usint
  | "uint" => some .uint
  | "udint" => some .udint
  | "byte" => some .byte
  | _ => none

/-- The name of a float type in a document. -/
def FloatType.tag : FloatType → String
  | .real => "real"
  | .lreal => "lreal"

def FloatType.ofTag? : String → Option FloatType
  | "real" => some .real
  | "lreal" => some .lreal
  | _ => none

/-- The name of a default value in a document. -/
def DefaultValue.tag : DefaultValue → String
  | .bool => "bool"
  | .number => "number"
  | .string => "string"

def DefaultValue.ofTag? : String → Option DefaultValue
  | "bool" => some .bool
  | "number" => some .number
  | "string" => some .string
  | _ => none

namespace Json

def text? : Json → Option String
  | .string text => some text
  | _ => none

/-- The number of a whole number that is not negative. -/
def nat? : Json → Option Nat
  | .number (.ofNat value) => some value
  | _ => none

/-- The character of a string that has just one. -/
def char? : Json → Option Char
  | .string text =>
      match text.toList with
      | [c] => some c
      | _ => none
  | _ => none

end Json

def Leaf.toJson : Leaf → Json
  | .bool => "bool"
  | .integer type => .object [("integer", type.tag)]
  | .float type => .object [("float", type.tag)]
  | .string length => .object [("string", .object [("length", .number length)])]

def Leaf.ofJson? : Json → Option Leaf
  | .string "bool" => some .bool
  | .object [("integer", type)] => type.text? >>= IntegerType.ofTag?
      |>.map .integer
  | .object [("float", type)] => type.text? >>= FloatType.ofTag? |>.map .float
  | .object [("string", shape)] => shape.member? "length" >>= Json.nat?
      |>.map .string
  | _ => none

def Handle.toJson : Handle → Json
  | .slot index => .object [("slot", .number index)]
  | .property => "property"
  | .arrayItem => "array-item"
  | .external expression => .object [("external", expression)]

def Handle.ofJson? : Json → Option Handle
  | .string "property" => some .property
  | .string "array-item" => some .arrayItem
  | .object [("slot", index)] => index.nat?.map .slot
  | .object [("external", expression)] => expression.text?.map .external
  | _ => none

/-- The document of a step of a path. -/
def Segment.toJson : Segment → Json
  | .field name => .object [("field", name)]
  | .index iterator => .object [("index", iterator.toString)]

def Segment.ofJson? : Json → Option Segment
  | .object [("field", name)] => name.text?.map .field
  | .object [("index", iterator)] => iterator.char?.map .index
  | _ => none

def Place.toJson (place : Place) : Json :=
  .object [("root", place.root),
    ("segments", .array (place.segments.map Segment.toJson))]

def Place.ofJson? (document : Json) : Option Place := do
  let root ← document.member? "root" >>= Json.text?
  match document.member? "segments" with
  | some (.array segments) =>
      return { root, segments := ← segments.mapM Segment.ofJson? }
  | _ => none

mutual

def Stmt.toJson : Stmt → Json
  | .createObject target =>
      .object [("create-object", .object [("target", target.toJson)])]
  | .createArray target =>
      .object [("create-array", .object [("target", target.toJson)])]
  | .setNamed object name value =>
      .object [("set-named",
        .object [("object", object.toJson), ("name", name),
          ("value", value.toJson)])]
  | .setElement array index value =>
      .object [("set-element",
        .object [("array", array.toJson), ("index", index.toString),
          ("value", value.toJson)])]
  | .getNamed object name target =>
      .object [("get-named",
        .object [("object", object.toJson), ("name", name),
          ("target", target.toJson)])]
  | .getElement array index target =>
      .object [("get-element",
        .object [("array", array.toJson), ("index", index.toString),
          ("target", target.toJson)])]
  | .assign target value =>
      .object [("assign",
        .object [("target", target.toJson), ("value", value.toJson)])]
  | .leafOut leaf source target =>
      .object [("leaf-out",
        .object [("leaf", leaf.toJson), ("source", source.toJson),
          ("target", target.toJson)])]
  | .leafIn leaf source target =>
      .object [("leaf-in",
        .object [("leaf", leaf.toJson), ("source", source.toJson),
          ("target", target.toJson)])]
  | .default value target =>
      .object [("default",
        .object [("value", value.tag), ("target", target.toJson)])]
  | .forEach iterator count body =>
      .object [("for-each",
        .object [("iterator", iterator.toString), ("count", .number count),
          ("body", .array (Stmt.listToJson body))])]

def Stmt.listToJson : List Stmt → List Json
  | [] => []
  | first :: rest => first.toJson :: Stmt.listToJson rest

end

namespace Json

def handle? (name : String) (document : Json) : Option Handle :=
  document.member? name >>= Handle.ofJson?

def memberText? (name : String) (document : Json) : Option String :=
  document.member? name >>= Json.text?

def memberChar? (name : String) (document : Json) : Option Char :=
  document.member? name >>= Json.char?

end Json

/-- The statement of a kind whose members are in a document, loops apart. -/
def Stmt.ofMembers? (kind : String) (shape : Json) : Option Stmt := do
  match kind with
  | "create-object" => return .createObject (← shape.handle? "target")
  | "create-array" => return .createArray (← shape.handle? "target")
  | "set-named" =>
      return .setNamed (← shape.handle? "object") (← shape.memberText? "name")
        (← shape.handle? "value")
  | "set-element" =>
      return .setElement (← shape.handle? "array") (← shape.memberChar? "index")
        (← shape.handle? "value")
  | "get-named" =>
      return .getNamed (← shape.handle? "object") (← shape.memberText? "name")
        (← shape.handle? "target")
  | "get-element" =>
      return .getElement (← shape.handle? "array") (← shape.memberChar? "index")
        (← shape.handle? "target")
  | "assign" =>
      return .assign (← shape.handle? "target") (← shape.handle? "value")
  | "leaf-out" =>
      return .leafOut (← shape.member? "leaf" >>= Leaf.ofJson?)
        (← shape.member? "source" >>= Place.ofJson?) (← shape.handle? "target")
  | "leaf-in" =>
      return .leafIn (← shape.member? "leaf" >>= Leaf.ofJson?)
        (← shape.handle? "source") (← shape.member? "target" >>= Place.ofJson?)
  | "default" =>
      return .default (← shape.memberText? "value" >>= DefaultValue.ofTag?)
        (← shape.handle? "target")
  | _ => none

mutual

def Stmt.ofJson? : Json → Option Stmt
  | .object [("for-each", .object members)] => do
      let shape : Json := .object members
      let body ← Stmt.bodyOfMembers? members
      return .forEach (← shape.memberChar? "iterator")
        (← shape.member? "count" >>= Json.nat?) body
  | .object [(kind, shape)] => Stmt.ofMembers? kind shape
  | _ => none

/-- The statements in the first member named for a body. -/
def Stmt.bodyOfMembers? : List (String × Json) → Option (List Stmt)
  | [] => none
  | (name, value) :: rest =>
      if name = "body" then
        match value with
        | .array items => Stmt.listOfJson? items
        | _ => none
      else Stmt.bodyOfMembers? rest

def Stmt.listOfJson? : List Json → Option (List Stmt)
  | [] => some []
  | first :: rest => do
      let statement ← Stmt.ofJson? first
      let others ← Stmt.listOfJson? rest
      return statement :: others

end

def Emission.toJson (emission : Emission) : Json :=
  .object
    [("direction", emission.direction.tag),
      ("body", .array (Stmt.listToJson emission.body)),
      ("max-slot",
        (emission.maxSlot.map fun slot => Json.number slot).getD .null)]

/-- The program of a document.  A largest slot that is absent or null is
none. -/
def Emission.ofJson? (document : Json) : Option Emission := do
  let direction ← document.memberText? "direction" >>= Direction.ofTag?
  let maxSlot ←
    match document.member? "max-slot" with
    | none | some .null => pure none
    | some slot => slot.nat?.map some
  match document.member? "body" with
  | some (.array items) =>
      return { direction, body := ← Stmt.listOfJson? items, maxSlot }
  | _ => none

end DataBridge
