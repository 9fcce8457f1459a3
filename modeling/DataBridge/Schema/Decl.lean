import DataBridge.Text.Parts

/-!
# Declarations of a datamodel

The type definitions of a datamodel as they are declared, before any name is
looked up, and the catalogs in which they are found.  In a catalog made from a
list of definitions each has its own name; in a keyed catalog it has a key,
which may differ from the name inside the definition.
-/

namespace DataBridge

def publishMarker : String := "PUB"

def subscribeMarker : String := "SUB"

def privateMarker : String := "private"

/-- A declared member of a struct.  `typeName` is the name of an elementary
type or of another definition, and an `arraySize` of zero means no array. -/
structure FieldDecl where
  name : String
  typeName : String
  arraySize : Nat := 0
  stringLength : Option Nat := none
  comment : Option String := none
  publish : Bool := false
  subscribe : Bool := false
  isPrivate : Bool := false
deriving DecidableEq, Repr

namespace FieldDecl

def commentMarks (decl : FieldDecl) (marker : String) : Bool :=
  decl.comment.any (Text.contains · marker)

/-- Whether the native side publishes the member. -/
def published (decl : FieldDecl) : Bool :=
  decl.publish || decl.commentMarks publishMarker

/-- Whether the native side subscribes to the member. -/
def subscribed (decl : FieldDecl) : Bool :=
  decl.subscribe || decl.commentMarks subscribeMarker

/-- Whether the member stays out of the exchange. -/
def hidden (decl : FieldDecl) : Bool :=
  decl.isPrivate || decl.commentMarks privateMarker

end FieldDecl

structure StructDecl where
  comment : Option String := none
  fields : List FieldDecl
deriving DecidableEq, Repr

/-- A declared variant of an enumeration, numbered or not. -/
structure Variant where
  name : String
  value : Option Int := none
deriving DecidableEq, Repr

structure EnumDecl where
  comment : Option String := none
  variants : List Variant
deriving DecidableEq, Repr

/-- The signed 32-bit integer that agrees with `n` modulo `2 ^ 32`. -/
def wrapInt32 (n : Int) : Int :=
  n.bmod 4294967296

namespace EnumDecl

/-- Numbers variants, the first of them by `next` unless it has its own
value. -/
def numberFrom (next : Int) : List Variant → List (String × Int)
  | [] => []
  | variant :: rest =>
      let value := variant.value.getD next
      (variant.name, value) :: numberFrom (wrapInt32 (value + 1)) rest

/-- The variants with their values.  A variant without a value of its own
follows the one before it, and the first starts at zero. -/
def numbered (decl : EnumDecl) : List (String × Int) :=
  numberFrom 0 decl.variants

end EnumDecl

inductive TypeKind where
  | struct (decl : StructDecl)
  | enum (decl : EnumDecl)
deriving DecidableEq, Repr

structure TypeDef where
  name : String
  kind : TypeKind
deriving DecidableEq, Repr

def TypeDef.isEnum (definition : TypeDef) : Bool :=
  match definition.kind with
  | .struct _ => false
  | .enum _ => true

/-- Definitions with the keys under which they are found, the first of a key
counting. -/
structure Catalog where
  entries : List (String × TypeDef)
deriving DecidableEq, Repr

namespace Catalog

/-- Each definition under its own name. -/
def ofList (definitions : List TypeDef) : Catalog :=
  ⟨definitions.map fun definition => (definition.name, definition)⟩

/-- The first definition under the key. -/
def find? (catalog : Catalog) (key : String) : Option TypeDef :=
  catalog.entries.lookup key

/-- Every definition found has the key for its name. -/
def ByName (catalog : Catalog) : Prop :=
  ∀ entry ∈ catalog.entries, entry.1 = entry.2.name

theorem byName_ofList (definitions : List TypeDef) :
    (ofList definitions).ByName := by
  intro entry member
  obtain ⟨definition, _, rfl⟩ := List.mem_map.mp member
  rfl

end Catalog

end DataBridge
