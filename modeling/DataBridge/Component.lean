import DataBridge.Artifacts
import DataBridge.Package.Project

/-!
# A component

Everything that is generated for a datamodel: the header, the module and the
files of the package.  Nothing is written here, so a failure leaves nothing
behind.
-/

namespace DataBridge

/-- A datamodel file with everything that it imports. -/
structure Schema where
  datamodel : Metadata
  options : PackagingOptions
  /-- The path of the datamodel file. -/
  rootPath : String
  /-- The definitions, each under its own name. -/
  types : List TypeDef
  /-- The paths of all files, in order. -/
  files : List String := []

namespace Schema

/-- Adds a definition.  It takes the position of one with the same name. -/
def addType (definition : TypeDef) : List TypeDef → List TypeDef
  | [] => [definition]
  | first :: rest =>
      if first.name = definition.name then definition :: rest
      else first :: addType definition rest

def catalog (schema : Schema) : Catalog :=
  .ofList schema.types

/-- The name of the datamodel file, empty if its path does not end in one. -/
def sourceFile (schema : Schema) : String :=
  (Path.fileName? schema.rootPath).getD ""

end Schema

/-- Why a component cannot be generated. -/
inductive GenerateError where
  | resolve (error : ResolveError)
  | emit (error : EmitError)
deriving DecidableEq, Repr

def GenerateError.message : GenerateError → String
  | .resolve error => error.message
  | .emit error => error.message

namespace Component

/-- What may be chosen against the datamodel file. -/
structure Options where
  /-- The root type instead of the one that the file names. -/
  typeName : Option String := none
  packaging : Option Packaging := none
  destination : Option String := none
  addon : Addon.Options := {}
deriving DecidableEq, Repr

def rootName (schema : Schema) (options : Options) : String :=
  options.typeName.getD schema.datamodel.name

/-- What the package is made from. -/
def settings (schema : Schema) (options : Options) (datamodel : Datamodel) :
    Package.Settings where
  datamodel := datamodel
  metadata := schema.datamodel
  packaging := options.packaging.getD schema.options.packaging
  destination :=
    options.destination.getD (schema.options.destination datamodel.name)
  sourceFile := schema.sourceFile

/-- The files of a resolved datamodel. -/
def artifacts (schema : Schema) (options : Options) (datamodel : Datamodel)
    (resolver : Resolver) : Except EmitError Artifacts := do
  let name := datamodel.name
  let linux := Path.join name "Linux"
  let header := Header.text datamodel resolver schema.sourceFile
  let code ← Addon.text datamodel options.addon
  let package := Package.files (settings schema options datamodel)
  return package.foldl (fun made file =>
    made.insert (Path.join name file.1) file.2)
    (Artifacts.insert
      (Artifacts.insert {} (Path.join linux (Header.fileName name)) header)
      (Path.join linux (Addon.fileName name)) code)

def generate (schema : Schema) (options : Options) :
    Except GenerateError Artifacts :=
  match Resolver.resolveDatamodel schema.catalog
      (rootName schema options) {} with
  | (.error error, _) => .error (.resolve error)
  | (.ok datamodel, resolver) =>
      (artifacts schema options datamodel resolver).mapError .emit

end Component

end DataBridge
