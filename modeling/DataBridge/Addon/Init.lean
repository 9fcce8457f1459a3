import DataBridge.Addon.Exchange
import DataBridge.Addon.Service

/-!
# Start of an addon

The function that runs when the module is loaded.  It builds the application
object with the initial value of every dataset, and connects the datamodel and
its datasets.
-/

namespace DataBridge.Addon

def logVariable (level : String) : String :=
  match level.toList with
  | [] => "log"
  | first :: rest => "log" ++ String.ofList (first.toUpper :: rest)

/-- The program that builds the initial value of a dataset. -/
def defaultsProgram (dataset : Field) : Except EmitError Emission :=
  (dataset.defaultsEmission (.external (dataset.name ++ "_value"))).fresh

/-- A declaration of local values, left out when there are none. -/
def declareValues (names : List String) : Source :=
  if names.isEmpty then []
  else [.indented 1
    (.text "napi_value " ::
      (Render.commas (names.map declares) ++ [.text ";"]))]

/-- The line that makes a function of the module into a local value. -/
def createFunction (function variableName : String) : Line :=
  .indented 1
    ["napi_create_function(env, NULL, 0, ", usesFunction function, ", NULL, &",
      uses variableName, ");"]

/-- The lines that make an object or leave the function. -/
def createOrReturn (target : String) : Source :=
  [.indented 1 ["if (napi_ok != napi_create_object(env, &", uses target, "))"],
    .indented 2 returnNull,
    .blank]

/-- The lines that build the object of a dataset. -/
def datasetObject (dataset : Field) (program : Emission) : Source :=
  let name := dataset.name
  let object := handleName dataset ++ ".value"
  program.lines .throwAndReturn 1 ++
  (if dataset.flags.published then
    [createFunction (name ++ "_onchange_init") (name ++ "_onchange"),
      .indented 1 (setProperty object "onChange" (name ++ "_onchange")),
      .indented 1 (setProperty object "nettime" "undefined"),
      .indented 1 (setProperty object "latency" "undefined")]
  else []) ++
  (if dataset.flags.subscribed then
    [createFunction (name ++ "_publish_method") (name ++ "_publish"),
      .indented 1 (setProperty object "publish" (name ++ "_publish"))]
  else []) ++
  [.indented 1 (setProperty object "value" (name ++ "_value")),
    createFunction (name ++ "_connonchange_init") (name ++ "_conn_change"),
    .indented 1 (setProperty object "onConnectionChange"
      (name ++ "_conn_change")),
    .indented 1 (setProperty object "connectionState" "def_string"),
    .blank]

def initDeclarations (model : Datamodel) (temps : List Temp) : Source :=
  let names := fun (datasets : List Field) (ending : String) =>
    datasets.map fun dataset => dataset.name ++ ending
  declareValues
    ([model.objectName ++ "_conn_change", model.objectName ++ "_onprocessed"] ++
      names model.connected "_conn_change") ++
  declareValues (names model.published "_onchange") ++
  declareValues (names model.subscribed "_publish") ++
  declareValues (names model.connected "_value") ++
  [.blank] ++
  declareValues ["dataModel", "getNetTime", "undefined", "def_bool",
    "def_number", "def_string"] ++
  declareValues ("log" :: logLevels.map fun level => logVariable level.1) ++
  Render.declarations 1 temps ++
  [.blank]

/-- The lines that give the shared default values. -/
def initDefaults : Source :=
  [.indented 1 ["napi_get_boolean(env, BUR_NAPI_DEFAULT_BOOL_INIT, &",
      uses "def_bool", ");"],
    .indented 1 ["napi_create_int32(env, BUR_NAPI_DEFAULT_NUM_INIT, &",
      uses "def_number", ");"],
    .indented 1
      ["napi_create_string_utf8(env, BUR_NAPI_DEFAULT_STRING_INIT, " ++
        "strlen(BUR_NAPI_DEFAULT_STRING_INIT), &", uses "def_string", ");"],
    .indented 1 ["napi_get_undefined(env, &", uses "undefined", ");"],
    .blank]

/-- The lines that make the objects to build on. -/
def initObjects (model : Datamodel) : Source :=
  .plain 1 "// create base objects" ::
    (createOrReturn "dataModel" ++ createOrReturn "log" ++
      createOrReturn (model.objectName ++ ".value") ++
      model.connected.flatMap fun dataset =>
        createOrReturn (handleName dataset ++ ".value"))

def initLogging : Source :=
  .plain 1 "//connect logging functions" ::
    (logLevels.flatMap fun (level, _) =>
      [createFunction (logMethodName level) (logVariable level),
        .indented 1 (setProperty "log" level (logVariable level))]) ++
  [.blank]

/-- The lines that put everything into the application object. -/
def initBindings (model : Datamodel) : Source :=
  let name := model.objectName
  let object := name ++ ".value"
  .plain 1 "// bind dataset objects to datamodel object" ::
    (model.connected.map fun dataset =>
      .indented 1 (setProperty "dataModel" dataset.name
        (handleName dataset ++ ".value"))) ++
  [.indented 1 (setProperty object "dataModel" "dataModel"),
    createFunction (name ++ "_connonchange_init") (name ++ "_conn_change"),
    .indented 1 (setProperty object "onConnectionChange"
      (name ++ "_conn_change")),
    .indented 1 (setProperty object "connectionState" "def_string"),
    .indented 1 (setProperty object "isConnected" "def_bool"),
    .indented 1 (setProperty object "isOperational" "def_bool"),
    createFunction (name ++ "_onprocessed_init") (name ++ "_onprocessed"),
    .indented 1 (setProperty object "onProcessed" (name ++ "_onprocessed")),
    createFunction netTimeName "getNetTime",
    .indented 1 (setProperty object "nettime" "getNetTime"),
    .indented 1 (setProperty object "log" "log"),
    .blank,
    .plain 1 "// export application object",
    .indented 1 (setProperty "exports" model.name object),
    .blank]

/-- The lines that keep a reference to an object. -/
def createReference (object : String) : Source :=
  Source.guarded 1
    ["napi_ok != napi_create_reference(env, ", uses (object ++ ".value"), ", ",
      uses (object ++ ".ref_count"), ", &", uses (object ++ ".ref"), ")"]
    [throwStatement ("Can't create " ++ object ++ " reference"), returnNull]

/-- The lines that keep references and register the cleanup hook. -/
def initReferences (model : Datamodel) : Source :=
  .plain 1 "// save references to object as globals for this C-file" ::
    ((model.objectName :: model.connected.map handleName).flatMap
      createReference) ++
  [.blank, .plain 1 "// register clean up hook"] ++
  Source.guarded 1
    ["napi_ok != napi_add_env_cleanup_hook(env, ",
      usesFunction (cleanupName model), ", env)"]
    [throwStatement "Can't register cleanup hook", returnNull] ++
  [.blank]

def initDataset (model : Datamodel) (dataset : Field) : Source :=
  let name := dataset.name
  Source.guarded 1
    ["EXOS_ERROR_OK != exos_dataset_init(&", uses (datasetName dataset), ", &",
      uses (datamodelName model), ", \"" ++ name ++ "\", &",
      uses ("exos_data." ++ name),
      ", sizeof(", uses ("exos_data." ++ name), "))"]
    [throwStatement ("Can't initialize " ++ name)] ++
  [.indented 1 [uses (datasetName dataset), ".user_context = NULL;"],
    .indented 1 [uses (datasetName dataset), ".user_tag = 0;"],
    .blank]

/-- The lines that initialise the datamodel, its datasets and the logger. -/
def initConnections (model : Datamodel) : Source :=
  let name := model.name
  .plain 1 "// exOS inits" ::
    Source.guarded 1
      ["EXOS_ERROR_OK != exos_datamodel_init(&", uses (datamodelName model),
        ", \"" ++ name ++ "\", \"" ++ name ++ "_NodeJS\")"]
      [throwStatement ("Can't initialize " ++ name)] ++
  [.indented 1 [uses (datamodelName model), ".user_context = NULL;"],
    .indented 1 [uses (datamodelName model), ".user_tag = 0;"],
    .blank] ++
  model.connected.flatMap (initDataset model) ++
  Source.guarded 1 ["EXOS_ERROR_OK != exos_log_init(&logger, \"" ++ name ++
    "_0\")"]
    [throwStatement ("Can't register logger for " ++ name)] ++
  [.blank, .plain 1 ("INFO(\"" ++ name ++ " starting!\")"), .blank]

/-- How this side connects to a dataset: it subscribes to what the native side
publishes. -/
def connectionMode (flags : FieldFlags) : String :=
  match flags.published, flags.subscribed with
  | true, true => "EXOS_DATASET_SUBSCRIBE + EXOS_DATASET_PUBLISH"
  | true, false => "EXOS_DATASET_SUBSCRIBE"
  | false, _ => "EXOS_DATASET_PUBLISH"

def connectDataset (dataset : Field) : Source :=
  Source.guarded 1
    ["EXOS_ERROR_OK != exos_dataset_connect(&", uses (datasetName dataset),
      ", " ++ connectionMode dataset.flags ++ ", ", usesFunction "datasetEvent",
      ")"]
    [throwStatement ("Can't connect " ++ dataset.name)] ++
  [.blank]

/-- The lines that register the datamodel and its datasets. -/
def connectAll (model : Datamodel) : Source :=
  .plain 1 "// exOS register datamodel" ::
    Source.guarded 1
      ["EXOS_ERROR_OK != exos_datamodel_connect_" ++
        Text.lower model.name ++ "(&",
        uses (datamodelName model), ", ", usesFunction "datamodelEvent", ")"]
      [throwStatement ("Can't connect " ++ model.name)] ++
  [.blank, .plain 1 "// exOS register datasets"] ++
  model.connected.flatMap connectDataset

/-- The name of the function that runs when the module is loaded. -/
def initName (model : Datamodel) : String :=
  "init_" ++ model.objectName

/-- The function that runs when the module is loaded. -/
def initFunction (model : Datamodel) : Except EmitError Function := do
  let programs ← model.connected.mapM fun dataset => do
    return (dataset, ← defaultsProgram dataset)
  let temps := Temp.ordered (programs.flatMap fun entry => entry.2.temps)
  return {
    comment := [.plain 0 "// init of module, called at \"require\""]
    result := "napi_value"
    name := initName model
    parameters := "napi_env env, napi_value exports"
    body :=
      initDeclarations model temps ++
      initDefaults ++
      initObjects model ++
      [.plain 1 "// build object structures"] ++
      programs.flatMap (fun (dataset, program) =>
        datasetObject dataset program) ++
      initLogging ++
      initBindings model ++
      initReferences model ++
      initConnections model ++
      connectAll model ++
      [.plain 1 "// start up module",
        .plain 1 "uv_idle_init(uv_default_loop(), &cyclic_h);",
        .indented 1 ["uv_idle_start(&cyclic_h, ",
          usesFunction cyclicName, ");"],
        .blank,
        .plain 1 ("SUCCESS(\"" ++ model.name ++ " started!\")"),
        .plain 1 "return exports;"] }

end DataBridge.Addon
