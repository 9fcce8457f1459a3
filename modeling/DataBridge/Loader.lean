import DataBridge.Component
import DataBridge.Schema.Reading

/-!
# Loading datamodel files

Loading follows the imports of a file and collects the definitions of all files
met on the way, those of an imported file before those of the importing one.
Each file is visited once, whatever the imports are, and it counts as visited
before it is read.
-/

namespace DataBridge

/-- Why files cannot be loaded. -/
inductive LoadError where
  /-- A path that leads nowhere, or a file that cannot be read. -/
  | io (path : String) (failure : FileError)
  /-- A file that is no datamodel file. -/
  | parse (path : String) (error : ReadError)
  /-- An import that leads nowhere. -/
  | importNotFound (imported importer : String)
  /-- A name that two definitions have. -/
  | duplicateType (name first second : String)
  /-- A root without a datamodel, or no root. -/
  | missingDatamodel (path : String)
  /-- More files inside each other than there are. -/
  | unboundedImports (path : String)
deriving DecidableEq, Repr

namespace LoadError

def message : LoadError → String
  | .io path failure => "failed to read '" ++ path ++ "': " ++ failure.message
  | .parse path error => "failed to parse '" ++ path ++ "': " ++ error.message
  | .importNotFound imported importer =>
      "import '" ++ imported ++ "' not found relative to '" ++ importer ++
        "' or in include directories"
  | .duplicateType name first second =>
      "type '" ++ name ++ "' is declared in both '" ++ first ++ "' and '" ++
        second ++ "'"
  | .missingDatamodel path =>
      "'" ++ path ++ "' has no datamodel block naming the root type"
  | .unboundedImports path =>
      "imports of '" ++ path ++ "' are nested too deeply"

/-- The text of what an error comes from, if it comes from another one. -/
def cause? : LoadError → Option String
  | .io _ failure => some failure.message
  | .parse _ error => some error.message
  | _ => none

end LoadError

/-- What has been loaded so far. -/
structure Loader where
  /-- Where imports are looked for, besides beside their importer. -/
  includeDirs : List String := []
  /-- The absolute paths of the files that were visited. -/
  loaded : List String := []
  /-- The first file that could be read, with its absolute path. -/
  root : Option (String × DatamodelFile) := none
  /-- The definitions, each with the absolute path of its file. -/
  types : List (TypeDef × String) := []

/-- A computation that loads files.  What was loaded stays, also after a
failure. -/
abbrev Loading (α : Type) := ExceptT LoadError (StateM Loader) α

namespace Loader

def canonical (fs : FileSystem) (path : String) : Except LoadError String :=
  (fs.canonicalize path).mapError (.io path)

/-- The paths that an import may mean: beside its importer, and then in each of
the other directories. -/
def candidates (includeDirs : List String) (imported importer : String) :
    List String :=
  ((Path.parent? importer).toList ++ includeDirs).map (Path.join · imported)

/-- The absolute path of an import: that of the first candidate which leads
anywhere. -/
def importPath (fs : FileSystem) (includeDirs : List String)
    (imported importer : String) : Except LoadError String :=
  match (candidates includeDirs imported importer).find? fs.pathExists with
  | some found => canonical fs found
  | none => .error (.importNotFound imported importer)

def readFile (fs : FileSystem) (path : String) :
    Except LoadError DatamodelFile := do
  let text ← (fs.readText path).mapError (.io path)
  (DatamodelFile.ofText text).mapError (.parse path)

/-- Adds a definition of a file, unless its name is taken. -/
def declare (definition : TypeDef) (path : String) : Loading Unit := do
  match (← get).types.find? (·.1.name == definition.name) with
  | some (_, first) => throw (.duplicateType definition.name first path)
  | none => modify fun loader =>
      { loader with types := loader.types ++ [(definition, path)] }

/-- Notes a visit to a file. -/
def visit (path : String) (loader : Loader) : Loader :=
  { loader with loaded := loader.loaded ++ [path] }

/-- The file becomes the root, unless there is one. -/
def offerRoot (path : String) (file : DatamodelFile) (loader : Loader) :
    Loader :=
  { loader with root := loader.root.or (some (path, file)) }

/-- Loads a file, its imports and theirs, with files nested at most `depth`
deep. -/
def loadWithin (fs : FileSystem) : Nat → String → Loading Unit
  | 0, path => throw (.unboundedImports path)
  | depth + 1, path => do
      let place ← (canonical fs path : Except LoadError String)
      if (← get).loaded.contains place then return
      modify (visit place)
      let file ← (readFile fs path : Except LoadError DatamodelFile)
      modify (offerRoot place file)
      file.imports.forM fun imported => do
        let found ← (importPath fs (← get).includeDirs imported path :
          Except LoadError String)
        loadWithin fs depth found
      file.types.forM (declare · place)

/-- A depth that no loading exceeds: inside each file another one is visited,
and at last one is met again. -/
def depthBound (fs : FileSystem) : Nat :=
  fs.entries.length + 2

/-- Loads a file and everything that it imports. -/
def loadFile (fs : FileSystem) (path : String) : Loading Unit :=
  loadWithin fs (depthBound fs) path

def finish (loader : Loader) : Except LoadError Schema :=
  match loader.root with
  | none => .error (.missingDatamodel "")
  | some (path, file) =>
      match file.datamodel with
      | none => .error (.missingDatamodel path)
      | some datamodel =>
          .ok {
            datamodel := datamodel
            options := file.options
            rootPath := path
            types := loader.types.map (·.1)
            files := loader.loaded.mergeSort fun first second =>
              (Path.compare first second).isLE }

end Loader

/-- Loads a datamodel file and everything that it imports. -/
def Schema.load (fs : FileSystem) (path : String) (includeDirs : List String) :
    Except LoadError Schema := do
  let (result, loader) :=
    (Loader.loadFile fs path).run.run { includeDirs := includeDirs }
  result
  loader.finish

end DataBridge
