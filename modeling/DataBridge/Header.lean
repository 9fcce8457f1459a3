import DataBridge.Resolver
import DataBridge.Source
import DataBridge.Text.Casing

/-!
# The header of a datamodel

The native declarations of every enumeration and record that a resolver has
met.  Private members are declared too, so that the layout agrees with the
other side of the exchange.
-/

namespace DataBridge

namespace Header

/-- The name of the header file of a datamodel. -/
def fileName (datamodel : String) : String :=
  "exos_" ++ Text.lower datamodel ++ ".h"

/-- The macro that guards the header against a second inclusion. -/
def guardName (datamodel : String) : String :=
  "_EXOS_COMP_" ++ Text.upper datamodel ++ "_H_"

def dimension (size : Nat) : String :=
  "[" ++ toString size ++ "]"

/-- A declared member: its type, its name, its dimensions and its comment.  A
string has one byte more than its length. -/
structure Member where
  type : String
  name : String
  dimensions : List Nat
  comment : Option String
deriving DecidableEq, Repr

/-- The declaration of a resolved member.  An empty comment is left out.  The
buffer of a text has one byte more than the text; the sum is one of natural
numbers, so that it does not overflow at 4294967295 as a 32-bit word would. -/
def Member.ofField (field : Field) : Member where
  type := field.nativeType
  name := field.name
  dimensions :=
    (if field.isArray then [field.arraySize] else []) ++
      match field.type with
      | .leaf (.string length) => [length + 1]
      | _ => []
  comment := field.comment.filter fun comment => !comment.isEmpty

/-- The text of a member without its comment. -/
def Member.declaration (member : Member) : String :=
  member.type ++ " " ++ member.name ++
    String.join (member.dimensions.map dimension)

def Member.line (member : Member) : Line :=
  .plain 1 (member.declaration ++ ";" ++
    match member.comment with
    | some comment => " //" ++ comment
    | none => "")

inductive Declaration where
  | enum (name : String) (variants : List (String × Int))
  | struct (name : String) (members : List Member)
deriving Repr

def Declaration.name : Declaration → String
  | .enum name _ => name
  | .struct name _ => name

def Declaration.ofEnum (entry : String × EnumDecl) : Declaration :=
  .enum entry.1 entry.2.numbered

def Declaration.ofRecord (record : Record) : Declaration :=
  .struct record.name (record.fields.map Member.ofField)

/-- The lines of numbered variants, with commas between them. -/
def variantLines : List (String × Int) → Source
  | [] => []
  | [(name, value)] => [.plain 1 (name ++ " = " ++ toString value)]
  | (name, value) :: rest =>
      .plain 1 (name ++ " = " ++ toString value ++ ",") :: variantLines rest

def Declaration.lines : Declaration → Source
  | .enum name variants =>
      [.plain 0 ("typedef enum " ++ name), .plain 0 r"{"] ++
        variantLines variants ++
        [.plain 0 (r"} " ++ name ++ ";"), .blank]
  | .struct name members =>
      [.plain 0 ("typedef struct " ++ name), .plain 0 r"{"] ++
        members.map Member.line ++
        [.plain 0 (r"} " ++ name ++ ";"), .blank]

/-- The declarations of everything that a resolver has met, enumerations
first and records after the records that they contain. -/
def declarations (resolver : Resolver) : List Declaration :=
  resolver.enums.map Declaration.ofEnum ++
    resolver.recordsInOrder.map Declaration.ofRecord

def lines (datamodel : Datamodel) (resolver : Resolver) (sourceFile : String) :
    Source :=
  let name := datamodel.name
  let guard := guardName name
  [.plain 0 ("/* Generated by dm-gen from " ++ sourceFile ++
      ". Do not edit. */"),
    .blank,
    .plain 0 ("#ifndef " ++ guard),
    .plain 0 ("#define " ++ guard),
    .blank,
    .plain 0 "#include <stdint.h>",
    .plain 0 "#include <stdbool.h>",
    .blank] ++
  (declarations resolver).flatMap Declaration.lines ++
  [.plain 0 "#ifndef EXOS_INCLUDE_ONLY_DATATYPE",
    .plain 0 ("#define exos_datamodel_connect_" ++ Text.lower name ++
      "(datamodel, event_callback) exos_datamodel_connect(datamodel, \"" ++
        name ++
      "\", event_callback)"),
    .plain 0 "#endif",
    .blank,
    .plain 0 ("#endif // " ++ guard)]

def text (datamodel : Datamodel) (resolver : Resolver) (sourceFile : String) :
    String :=
  Source.render (lines datamodel resolver sourceFile)

end Header

end DataBridge
