import DataBridge.Addon.Names
import DataBridge.Addon.Service
import DataBridge.Source

/-!
# The application script

A script to begin an application with.  It opens with a legend of everything
that the module offers.
-/

namespace DataBridge.Package

/-- The type of a dataset in the legend, with the length of a string. -/
def legendType (dataset : Field) : String :=
  let brackets := fun (size : Nat) => "[" ++ toString size ++ "]"
  "(" ++ dataset.nativeType ++
    (if dataset.isArray then brackets dataset.arraySize else "") ++
    (match dataset.type with
    | .leaf (.string length) => brackets length
    | _ => "") ++ ")"

/-- Whether a dataset holds more than one value. -/
def isCompound (dataset : Field) : Bool :=
  match dataset.type with
  | .leaf _ => dataset.isArray
  | .record _ => true

def stateLine (object : String) : Line :=
  .plain 2 (object ++
    ".connectionState : (string) \"Connected\", \"Operational\", " ++
    "\"Disconnected\" or \"Aborted\"")

def opening (depth : Nat) (event : String) : Line :=
  .plain depth (event ++ r"(() => {")

/-- The part of the legend about a dataset. -/
def datasetLegend (model : Datamodel) (dataset : Field) : Source :=
  let object := model.objectName ++ ".dataModel." ++ dataset.name
  [.blank,
    .plain 0 ("dataset " ++ dataset.name ++ ":"),
    .plain 1 (object ++ ".value : " ++ legendType dataset ++
      " actual dataset value" ++
      if isCompound dataset then "s" else "")] ++
  (if dataset.flags.subscribed then
    [.plain 1 (object ++ ".publish()")] else []) ++
  (if dataset.flags.published then
    [opening 1 (object ++ ".onChange"),
      .plain 2 (object ++ ".value ..."),
      .plain 2 (object ++ ".nettime : (int32_t) nettime @ time of publish"),
      .plain 2 (object ++
        ".latency : (int32_t) time in us between publish and arrival"),
      .plain 1 r"})"]
  else []) ++
  [opening 1 (object ++ ".onConnectionChange"),
    stateLine object,
    .plain 1 r"});"]

def legend (model : Datamodel) : Source :=
  let object := model.objectName
  [.plain 0 "/* datamodel features:",
    .blank,
    .plain 0 "main methods:",
    .plain 1 (object ++ ".nettime() : (int32_t) get current nettime"),
    .blank,
    .plain 0 "state change events:",
    opening 1 (object ++ ".onConnectionChange"),
    stateLine object,
    .plain 1 r"})",
    .blank,
    .plain 0 "boolean values:",
    .plain 1 (object ++ ".isConnected"),
    .plain 1 (object ++ ".isOperational"),
    .blank,
    .plain 0 "logging methods:"] ++
  Addon.logLevels.map (fun (level, _) =>
    .plain 1 (object ++ ".log." ++ level ++ "(string)")) ++
  model.connected.flatMap (datasetLegend model) ++
  [.plain 0 "*/",
    .blank]

def applicationLines (model : Datamodel) : Source :=
  let object := model.objectName
  let dataset := fun (field : Field) => object ++ ".dataModel." ++ field.name
  [.plain 0 ("let " ++ object ++ " = require(\"./l_" ++ model.name ++
      ".node\")." ++
      model.name ++ ";"),
    .blank] ++
  legend model ++
  [.plain 0 "//connection state changes",
    opening 0 (object ++ ".onConnectionChange"),
    .plain 1 ("switch (" ++ object ++ r".connectionState) {")] ++
  ["Connected", "Operational", "Disconnected", "Aborted"].flatMap (fun state =>
    [.plain 1 ("case \"" ++ state ++ "\":"), .plain 2 "break;"]) ++
  [.plain 1 r"}",
    .plain 0 r"});"] ++
  model.connected.flatMap (fun field =>
    [opening 0 (dataset field ++ ".onConnectionChange"),
      .plain 1 ("// switch (" ++ dataset field ++ ".connectionState) ..."),
      .plain 0 r"});"]) ++
  [.blank,
    .plain 0 "//value change events"] ++
  model.published.flatMap (fun field =>
    [opening 0 (dataset field ++ ".onChange"),
      .plain 1 ("//" ++ dataset field ++ ".value.."),
      .plain 0 r"});"]) ++
  [.blank,
    .plain 0 "//Cyclic call triggered from the Component Server",
    opening 0 (object ++ ".onProcessed"),
    .plain 1 "//Publish values",
    .plain 1 ("//if (" ++ object ++ r".isConnected) {")] ++
  model.subscribed.flatMap (fun field =>
    [.plain 2 ("//" ++ dataset field ++ ".value = .."),
      .plain 2 ("//" ++ dataset field ++ ".publish();")]) ++
  [.plain 1 r"//}",
    .plain 0 r"});"]

end DataBridge.Package
