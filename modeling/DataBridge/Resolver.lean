import DataBridge.Record
import DataBridge.Schema.Decl

/-!
# Resolution of type names

A resolver turns type names into elementary types, enumerations and records.
It keeps every record that it has finished, so that a name met again costs no
second walk, and it keeps the names of the structs that it is inside of, so
that a struct which contains itself is found.
-/

namespace DataBridge

/-- What a type name stands for. -/
inductive Resolution where
  | scalar (scalar : Scalar)
  | enum (underlying : IntegerType)
  | record (record : Record)

/-- Why a type name or a member cannot be resolved. -/
inductive ResolveError where
  | schemaNotFound (typeName : String)
  | circularReference (chain : List String)
  | missingStringLength (record field : String)
  | unexpectedStringLength (record field : String)
  | duplicateField (record field : String)
  | notARecord (typeName : String)
  | unboundedNesting (typeName : String)
deriving DecidableEq, Repr

def ResolveError.message : ResolveError → String
  | .schemaNotFound typeName => "type '" ++ typeName ++ "' not found in schema"
  | .circularReference chain =>
      "circular type reference: " ++ " -> ".intercalate chain
  | .missingStringLength record field =>
      "field '" ++ record ++ "." ++ field ++
        "' is a STRING and needs a non-zero string-length"
  | .unexpectedStringLength record field =>
      "field '" ++ record ++ "." ++ field ++
        "' has a string-length but is not a STRING"
  | .duplicateField record field =>
      "record '" ++ record ++ "' declares field '" ++ field ++
        "' more than once"
  | .notARecord typeName =>
      "'" ++ typeName ++ "' is not a record and cannot be a datamodel root"
  | .unboundedNesting typeName =>
      "type '" ++ typeName ++ "' nests without bound"

/-- What a resolver remembers between calls. -/
structure Resolver where
  /-- Finished records by name, the newest of a name first. -/
  records : List (String × Record) := []
  /-- Names of finished records, dependencies first. -/
  order : List String := []
  /-- Enumerations by name, in the order of their first use. -/
  enums : List (String × EnumDecl) := []
  /-- Names of the structs being resolved, the outermost first. -/
  visiting : List String := []

/-- A computation that reads and extends the memory of a resolver.  What it
remembered stays when it fails. -/
abbrev Resolving := ExceptT ResolveError (StateM Resolver)

namespace Resolver

def record? (resolver : Resolver) (name : String) : Option Record :=
  resolver.records.lookup name

/-- Remembers an enumeration, unless one of its name is known. -/
def noteEnum (name : String) (decl : EnumDecl) (resolver : Resolver) :
    Resolver :=
  if resolver.enums.any (·.1 == name) then resolver
  else { resolver with enums := resolver.enums ++ [(name, decl)] }

def noteRecord (record : Record) (resolver : Resolver) : Resolver :=
  { resolver with
    records := (record.name, record) :: resolver.records
    order := resolver.order ++ [record.name] }

/-- Runs a computation inside the struct of the given name. -/
def inside {α : Type} (name : String) (body : Resolving α) : Resolving α :=
  fun resolver =>
    let (result, after) :=
      body { resolver with visiting := resolver.visiting ++ [name] }
    (result, { after with visiting := after.visiting.dropLast })

/-- The type of a member once its type name is resolved.  A length belongs to
strings and to nothing else. -/
def fieldType (owner : String) (decl : FieldDecl) (resolution : Resolution) :
    Except ResolveError FieldType :=
  match resolution with
  | .scalar .string =>
      match Leaf.ofScalar? decl.stringLength .string with
      | some leaf => .ok (.leaf leaf)
      | none => .error (.missingStringLength owner decl.name)
  | .scalar scalar =>
      if decl.stringLength.isSome then
        .error (.unexpectedStringLength owner decl.name)
      else
        match Leaf.ofScalar? none scalar with
        | some leaf => .ok (.leaf leaf)
        | none => .error (.missingStringLength owner decl.name)
  | .enum underlying =>
      if decl.stringLength.isSome then
        .error (.unexpectedStringLength owner decl.name)
      else .ok (.leaf (.integer underlying))
  | .record record =>
      if decl.stringLength.isSome then
        .error (.unexpectedStringLength owner decl.name)
      else .ok (.record record)

/-- The name that a member keeps when its type is an enumeration. -/
def enumName (decl : FieldDecl) : Resolution → Option String
  | .enum _ => some decl.typeName
  | .scalar _ | .record _ => none

/-- The resolved member of a declaration inside the struct `owner`. -/
def field (owner : String) (decl : FieldDecl) (resolution : Resolution) :
    Except ResolveError Field := do
  let type ← fieldType owner decl resolution
  return {
    name := decl.name
    type := type
    arraySize := decl.arraySize
    flags :=
      { published := decl.published, subscribed := decl.subscribed,
        isPrivate := decl.hidden }
    comment := decl.comment
    enumName := enumName decl resolution }

/-- Resolves the members of a struct in order, each type name by `resolve`.
`seen` holds the names of the members before. -/
def fieldsWith (resolve : String → Resolving Resolution) (owner : String) :
    List String → List FieldDecl → Resolving (List Field)
  | _, [] => pure []
  | seen, decl :: rest => do
      if seen.contains decl.name then throw (.duplicateField owner decl.name)
      let resolution ← resolve decl.typeName
      let first ← (field owner decl resolution : Except ResolveError Field)
      let others ← fieldsWith resolve owner (decl.name :: seen) rest
      return first :: others

/-- Resolves a name with structs nested at most `depth` deep. -/
def resolveWithin (catalog : Catalog) : Nat → String → Resolving Resolution
  | 0, typeName => throw (.unboundedNesting typeName)
  | depth + 1, typeName => do
      if let some scalar := Scalar.ofName? typeName then
        return .scalar scalar
      let resolver ← get
      if let some record := resolver.record? typeName then
        return .record record
      if resolver.visiting.contains typeName then
        throw (.circularReference (resolver.visiting ++ [typeName]))
      match catalog.find? typeName with
      | none => throw (.schemaNotFound typeName)
      | some ⟨name, .enum decl⟩ =>
          modify (noteEnum name decl)
          return .enum .dint
      | some ⟨name, .struct decl⟩ =>
          let fields ← inside name
            (fieldsWith (resolveWithin catalog depth) name [] decl.fields)
          let record : Record := { name, comment := decl.comment, fields }
          modify (noteRecord record)
          return .record record

/-- A depth that no finite resolution exceeds.  A key is met again inside
itself only after a further name was finished or entered, and there are at most
as many names of either kind as entries. -/
def depthBound (catalog : Catalog) : Nat :=
  let size := catalog.entries.length
  (2 * size + 2) * (size + 1)

def resolve (catalog : Catalog) (typeName : String) : Resolving Resolution :=
  resolveWithin catalog (depthBound catalog) typeName

/-- Resolves a declaration that stands outside of any struct. -/
def resolveField (catalog : Catalog) (decl : FieldDecl) : Resolving Field := do
  let resolution ← resolve catalog decl.typeName
  (field "" decl resolution : Except ResolveError Field)

/-- Resolves the root of a datamodel, which must be a record. -/
def resolveDatamodel (catalog : Catalog) (typeName : String) :
    Resolving Datamodel := do
  match ← resolve catalog typeName with
  | .record root => return { name := typeName, root }
  | .scalar _ | .enum _ => throw (.notARecord typeName)

/-- The finished records, dependencies first. -/
def recordsInOrder (resolver : Resolver) : List Record :=
  resolver.order.filterMap resolver.record?

end Resolver

end DataBridge
