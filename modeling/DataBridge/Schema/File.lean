import DataBridge.Schema.Decl
import DataBridge.Text.Casing

/-!
# Datamodel files

What a datamodel file declares: the datamodel itself, how its component is
packaged, the files it imports and its type definitions.
-/

namespace DataBridge

inductive Packaging where
  /-- As a package that is installed. -/
  | deb
  /-- As a plain file. -/
  | none
deriving DecidableEq, Repr

namespace Packaging

def word : Packaging → String
  | .deb => "deb"
  | .none => "none"

def ofWord? : String → Option Packaging
  | "deb" => some .deb
  | "none" => some .none
  | _ => Option.none

/-- The text that refuses a word. -/
def refusal (word : String) : String :=
  "unknown packaging '" ++ word ++ "', expected 'deb' or 'none'"

end Packaging

/-- How and where to a component is packaged. -/
structure PackagingOptions where
  packaging : Packaging := .none
  destinationDirectory : Option String := none
deriving DecidableEq, Repr

/-- The directory that a component is installed into. -/
def PackagingOptions.destination (options : PackagingOptions)
    (datamodel : String) : String :=
  options.destinationDirectory.getD ("/home/user/" ++ Text.lower datamodel)

/-- What a file says about its datamodel.  The name is that of the root type. -/
structure Metadata where
  name : String
  version : String := "1.0.0"
  description : Option String := none
deriving DecidableEq, Repr

/-- A datamodel file.  A file that only brings types has no datamodel. -/
structure DatamodelFile where
  datamodel : Option Metadata := none
  options : PackagingOptions := {}
  imports : List String := []
  types : List TypeDef := []
deriving DecidableEq, Repr

end DataBridge
