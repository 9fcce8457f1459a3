import DataBridge.Schema.File
import DataBridge.Yaml.Node
import DataBridge.Yaml.Number

/-!
# Reading datamodel files

A datamodel file is a document whose mappings have known members.  Members that
are not known are passed over, and no known member may occur twice.  Aliases are
followed where they are read, and only so often as the size of the document
allows, so that a short document cannot stand for a huge file.
-/

namespace DataBridge

open Yaml (Node Document Scalar)

/-- Why a text is not a datamodel file. -/
inductive ReadError where
  /-- The text is no document. -/
  | document (fault : Yaml.Fault)
  /-- A node is not of the form that its place asks for. -/
  | shape (expected : String)
  /-- A member is not there. -/
  | missing (member : String)
  /-- A member is there twice. -/
  | repeated (member : String)
  /-- A word is none of those that may stand at its place. -/
  | word (text : String)
  /-- Aliases are followed too often. -/
  | repetition
deriving DecidableEq, Repr

namespace ReadError

def faultMessage : Yaml.Fault → String
  | .forbidden => "control characters are not allowed"
  | .character line =>
      atLine line "found a character that cannot start any token"
  | .tab line =>
      atLine line "found a tab where an indentation space is expected"
  | .unclosed line =>
      atLine line "found the end of a document in a quoted scalar"
  | .escape line => atLine line "found an unknown escape"
  | .blockMark line => atLine line "found an unknown mark of a block scalar"
  | .colon line => atLine line "found an unexpected ':'"
  | .name line =>
      atLine line "did not find the name of an anchor, an alias or a tag"
  | .directive line => atLine line "found an unknown directive"
  | .misplaced line =>
      atLine line "entries, keys and values are not allowed here"
  | .keyExpected line => atLine line "could not find the expected ':'"
  | .content => "did not find the expected node content"
  | .unknownAnchor name => "unknown anchor " ++ name
  | .unknownHandle handle => "undefined tag handle " ++ handle
  | .documents => "more than one document is not supported"
where
  /-- A text with the number of a line, counted from one. -/
  atLine (line : Nat) (text : String) : String :=
    text ++ " at line " ++ toString (line + 1)

def message : ReadError → String
  | .document fault => faultMessage fault
  | .shape expected => "invalid type, expected " ++ expected
  | .missing member => "missing field '" ++ member ++ "'"
  | .repeated member => "duplicate field '" ++ member ++ "'"
  | .word text => "unknown variant '" ++ text ++ "'"
  | .repetition => "repetition limit exceeded"

end ReadError

/-- Reading a part of a file.  The state is the number of aliases that may still
be followed. -/
abbrev Read (α : Type) := StateT Nat (Except ReadError) α

namespace Yaml.Document

/-- The number of aliases that may be followed in a document. -/
def aliasLimit (document : Document) : Nat :=
  document.size * 100

/-- The node that a node stands for, which counts if it is an alias.  Aliases
stand for anchored nodes, and those are no aliases. -/
def follow (document : Document) (node : Node) : Read Node := do
  match node with
  | .alias number =>
      match ← get with
      | 0 => throw .repetition
      | left + 1 =>
          set left
          match document.anchors.find? number with
          | some target => return target
          | none => throw (.document (.unknownAnchor (toString number)))
  | node => return node

def scalar (document : Document) (expected : String) (node : Node) :
    Read Scalar := do
  match ← document.follow node with
  | .scalar scalar => return scalar
  | _ => throw (.shape expected)

/-- The text of a node.  Any scalar has one. -/
def text (document : Document) (node : Node) : Read String := do
  return (← document.scalar "a string" node).text

def truth (document : Document) (node : Node) : Read Bool := do
  match (← document.scalar "a boolean" node).truth? with
  | some value => return value
  | none => throw (.shape "a boolean")

/-- The natural number below `2 ^ 32` of a node. -/
def natural (document : Document) (node : Node) : Read Nat := do
  match (← document.scalar "u32" node).natural? with
  | some value => if value < 4294967296 then
      return value else throw (.shape "u32")
  | none => throw (.shape "u32")

def integer (document : Document) (node : Node) : Read Int := do
  match (← document.scalar "i32" node).integer? with
  | some value =>
      if -2147483648 ≤ value ∧ value < 2147483648 then return value
      else throw (.shape "i32")
  | none => throw (.shape "i32")

/-- What a node stands for, unless it stands for nothing. -/
def optional {α : Type} (document : Document) (read : Node → Read α)
    (node : Node) : Read (Option α) := do
  match ← document.follow node with
  | .scalar scalar =>
      if scalar.isNull then return none else some <$> read (.scalar scalar)
  | target => some <$> read target

/-- The items of a sequence.  A node that is left out has none. -/
def items {α : Type} (document : Document) (read : Node → Read α)
    (node : Node) : Read (List α) := do
  match ← document.follow node with
  | .sequence items => items.mapM read
  | .scalar scalar =>
      if scalar.isEmpty then return [] else throw (.shape "a sequence")
  | _ => throw (.shape "a sequence")

/-- The members of a mapping by their names.  A node that is left out has
none. -/
def members (document : Document) (node : Node) :
    Read (List (String × Node)) := do
  match ← document.follow node with
  | .mapping members =>
      members.mapM fun (key, value) => do return (← document.text key, value)
  | .scalar scalar =>
      if scalar.isEmpty then return [] else throw (.shape "a mapping")
  | _ => throw (.shape "a mapping")

end Yaml.Document

namespace Members

/-- The member with a name, if there is one. -/
def optional {α : Type} (members : List (String × Node)) (name : String)
    (read : Node → Read α) : Read (Option α) :=
  match members.filter (·.1 == name) with
  | [] => return none
  | [(_, node)] => some <$> read node
  | _ => throw (.repeated name)

/-- The member with a name, or what counts without it. -/
def withDefault {α : Type} (members : List (String × Node)) (name : String)
    (read : Node → Read α) (default : α) : Read α := do
  return (← optional members name read).getD default

/-- The member with a name, which must be there. -/
def required {α : Type} (members : List (String × Node)) (name : String)
    (read : Node → Read α) : Read α := do
  match ← optional members name read with
  | some value => return value
  | none => throw (.missing name)

end Members

open Members (required withDefault)

def FieldDecl.read (document : Document) (node : Node) : Read FieldDecl := do
  let members ← document.members node
  return {
    name := ← required members "name" document.text
    typeName := ← required members "type" document.text
    arraySize := ← withDefault members "array-size" document.natural 0
    stringLength := ← withDefault members "string-length"
      (document.optional document.natural) none
    comment := ← withDefault members "comment"
      (document.optional document.text) none
    publish := ← withDefault members "publish" document.truth false
    subscribe := ← withDefault members "subscribe" document.truth false
    isPrivate := ← withDefault members "private" document.truth false }

def StructDecl.read (document : Document) (node : Node) : Read StructDecl := do
  let members ← document.members node
  return {
    comment := ← withDefault members "comment"
      (document.optional document.text) none
    fields := ← required members "fields"
      (document.items (FieldDecl.read document)) }

def Variant.read (document : Document) (node : Node) : Read Variant := do
  let members ← document.members node
  return {
    name := ← required members "name" document.text
    value := ← withDefault members "value"
      (document.optional document.integer) none }

def EnumDecl.read (document : Document) (node : Node) : Read EnumDecl := do
  let members ← document.members node
  return {
    comment := ← withDefault members "comment"
      (document.optional document.text) none
    variants := ← required members "variants"
      (document.items (Variant.read document)) }

/-- Reads what a definition defines: a mapping with one member, which is named
for the kind of the definition. -/
def TypeKind.read (document : Document) (node : Node) : Read TypeKind := do
  match ← document.follow node with
  | .mapping [(key, value)] =>
      match ← document.text key with
      | "struct" => .struct <$> StructDecl.read document value
      | "enum" => .enum <$> EnumDecl.read document value
      | other => throw (.word other)
  | _ => throw (.shape "a mapping with one member")

def TypeDef.read (document : Document) (node : Node) : Read TypeDef := do
  let members ← document.members node
  return {
    name := ← required members "name" document.text
    kind := ← required members "kind" (TypeKind.read document) }

def Packaging.read (document : Document) (node : Node) : Read Packaging := do
  let word ← document.text node
  match Packaging.ofWord? word with
  | some packaging => return packaging
  | .none => throw (.word word)

def PackagingOptions.read (document : Document) (node : Node) :
    Read PackagingOptions := do
  let members ← document.members node
  return {
    packaging := ← withDefault members "packaging"
      (Packaging.read document) .none
    destinationDirectory :=
      ← withDefault members "destination-directory"
        (document.optional document.text) none }

/-- Reads what a file says about its datamodel. -/
def Metadata.read (document : Document) (node : Node) : Read Metadata := do
  let members ← document.members node
  return {
    name := ← required members "name" document.text
    version := ← withDefault members "version" document.text "1.0.0"
    description := ← withDefault members "description"
      (document.optional document.text) none }

namespace DatamodelFile

def readImport (document : Document) (node : Node) : Read String := do
  required (← document.members node) "path" document.text

def readRoot (document : Document) (root : Node) : Read DatamodelFile := do
  let members ← document.members root
  return {
    datamodel :=
      ← withDefault members "datamodel"
        (document.optional (Metadata.read document)) none
    options := ← withDefault members "options" (PackagingOptions.read document)
      {}
    imports := ← withDefault members "imports"
      (document.items (readImport document)) []
    types := ← withDefault members "types"
      (document.items (TypeDef.read document)) [] }

/-- Reads a datamodel file.  An empty text declares nothing. -/
def ofText (text : String) : Except ReadError DatamodelFile := do
  let document ← (Document.ofText text).mapError .document
  match document.root with
  | some root => (readRoot document root).run' document.aliasLimit
  | none => return {}

end DatamodelFile

end DataBridge
