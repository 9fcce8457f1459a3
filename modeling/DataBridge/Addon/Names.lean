import DataBridge.Naming
import DataBridge.Program.Basic
import DataBridge.Text.Casing

/-!
# Names of an addon

The names that the Node-API module of a datamodel introduces, the datasets that
it connects, and the check that none of the objects takes the name of a type of
the header.
-/

namespace DataBridge

namespace Datamodel

/-- The name of the datamodel's object.  A name that is in lower case already
gets an ending, so that the object does not take the name of the type. -/
def objectNameOf (name : String) : String :=
  let lower := Text.lower name
  if lower = name then lower ++ "_datamodel" else lower

def objectName (model : Datamodel) : String :=
  objectNameOf model.name

/-- The datasets that either side publishes. -/
def connected (model : Datamodel) : List Field :=
  model.datasets.filter fun dataset =>
    dataset.flags.published || dataset.flags.subscribed

/-- The datasets that the native side publishes. -/
def published (model : Datamodel) : List Field :=
  model.connected.filter fun dataset => dataset.flags.published

/-- The datasets that the native side subscribes to. -/
def subscribed (model : Datamodel) : List Field :=
  model.connected.filter fun dataset => dataset.flags.subscribed

end Datamodel

namespace Addon

/-- The place of a dataset in the module's native instance. -/
def nativePlace (dataset : Field) : Place :=
  Place.field { root := "exos_data" } dataset.name

def handleName (dataset : Field) : String :=
  dataset.name ++ "_handle"

def datasetName (dataset : Field) : String :=
  dataset.name ++ "_dataset"

def datamodelName (model : Datamodel) : String :=
  model.objectName ++ "_datamodel"

/-- The JavaScript value in a dataset's object. -/
def valueHandle (dataset : Field) : Handle :=
  .external (handleName dataset ++ ".value")

/-- The names of the objects that the module declares outside of functions. -/
def identifiers (model : Datamodel) : List String :=
  [model.objectName, datamodelName model, "exos_data", "logger", "cyclic_h"] ++
    model.connected.flatMap fun dataset =>
      [handleName dataset, datasetName dataset]

/-- Adds the name of an enumeration, unless it is known. -/
def addEnumType (known : List String) : Option String → List String
  | some name => if known.contains name then known else name :: known
  | none => known

mutual

/-- Adds the names of the types of a record, unless the record is known. -/
def addRecordTypes (known : List String) (record : Record) : List String :=
  match record with
  | { name, fields, .. } =>
      if known.contains name then known
      else addFieldTypes (name :: known) fields

/-- Adds the names of the types of members. -/
def addFieldTypes (known : List String) : List Field → List String
  | [] => known
  | field :: rest => addFieldTypes (addTypesOf known field) rest

/-- Adds the names of the types of one member. -/
def addTypesOf (known : List String) (field : Field) : List String :=
  match field with
  | { type := .leaf _, enumName, .. } => addEnumType known enumName
  | { type := .record record, enumName, .. } =>
      addRecordTypes (addEnumType known enumName) record

end

/-- The names that the header gives to types, in the order of their bytes. -/
def typeNames (model : Datamodel) : List String :=
  (addRecordTypes [] model.root).mergeSort fun first second =>
    first < second || first == second

/-- Fails at the first object that takes the name of a type of the header. -/
def checkIdentifiers (model : Datamodel) : Except EmitError Unit :=
  match (identifiers model).find? (typeNames model).contains with
  | some identifier => .error (.identifierCollision identifier)
  | none => .ok ()

end Addon

end DataBridge
