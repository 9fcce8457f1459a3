import DataBridge.Addon.Module
import DataBridge.Schema.File

/-!
# Settings of a package

What the files of a component's package need to know, and the names of the
files that they mention.
-/

namespace DataBridge.Package

/-- What the package files are made from. -/
structure Settings where
  datamodel : Datamodel
  metadata : Metadata
  packaging : Packaging
  destination : String
  /-- The name of the datamodel file, for descriptions. -/
  sourceFile : String

namespace Settings

def name (settings : Settings) : String :=
  settings.datamodel.name

/-- The name of the component in lower case. -/
def lower (settings : Settings) : String :=
  Text.lower settings.name

def nodeModule (settings : Settings) : String :=
  "l_" ++ settings.name ++ ".node"

def debFile (settings : Settings) : String :=
  "exos-comp-" ++ settings.lower ++ "-" ++ settings.metadata.version ++ ".deb"

def scriptFile (settings : Settings) : String :=
  settings.lower ++ ".js"

def headerFile (settings : Settings) : String :=
  Header.fileName settings.name

def moduleFile (settings : Settings) : String :=
  Addon.fileName settings.name

end Settings

end DataBridge.Package
