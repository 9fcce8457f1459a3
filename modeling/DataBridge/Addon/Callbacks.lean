import DataBridge.Addon.Function
import DataBridge.Addon.Names

/-!
# JavaScript callbacks of an addon

The functions that tell JavaScript about connection changes and processing, the
shared function that registers a callback, and the methods that use it.
-/

namespace DataBridge.Addon

/-- The first steps of the shared registration function, each with the name of
the call that it checks. -/
def registrationSteps : List (String × String) :=
  [("napi_get_cb_info(env, info, &argc, argv, NULL, NULL)", "napi_get_cb_info"),
    ("napi_create_string_utf8(env, identifier, NAPI_AUTO_LENGTH, &work_name)",
      "napi_create_string_utf8"),
    ("napi_typeof(env, argv[0], &cb_typ)", "napi_typeof")]

/-- The lines of one first step.  The number of arguments is checked as soon as
it is known. -/
def registrationStep (call step : String) : Source :=
  Source.guarded 1 ["napi_ok != " ++ call]
    [["char msg[100] = {};"],
      ["strcpy(msg, \"init_napi_onchange() " ++ step ++ " failed - \");"],
      ["strncat(msg, identifier, sizeof(msg) - strlen(msg) - 1);"],
      ["napi_throw_error(env, \"EINVAL\", msg);"],
      returnNull] ++
  (if step = "napi_get_cb_info" then
    .blank :: Source.guarded 1 ["argc < 1"] [throwStatement "Too few arguments",
      returnNull]
  else []) ++
  [.blank]

def registrationName : String := "init_napi_onchange"

/-- The shared function that turns a JavaScript callback into one that other
threads may call. -/
def registration : Function where
  comment := [.plain 0 "// napi callback setup main function"]
  result := "napi_value"
  name := registrationName
  parameters :=
    "napi_env env, napi_callback_info info, const char *identifier, " ++
      "napi_threadsafe_function_call_js call_js_cb, napi_threadsafe_function *result"
  body :=
    [.plain 1 "size_t argc = 1;",
      .plain 1 "napi_value argv[1];",
      .plain 1 "napi_value work_name;",
      .plain 1 "napi_valuetype cb_typ;",
      .blank] ++
    registrationSteps.flatMap (fun (call, step) =>
      registrationStep call step) ++
    [.plain 1 "if (cb_typ == napi_function)"] ++
    Source.block 1
      (Source.guarded 2
        ["napi_ok != napi_create_threadsafe_function(env, argv[0], NULL, work_name, 0, 1, " ++
          "NULL, NULL, NULL, call_js_cb, result)"]
        [["const napi_extended_error_info *error_info;"],
          ["napi_get_last_error_info(env, &error_info);"],
          ["napi_throw_error(env, NULL, error_info->error_message);"],
          returnNull]) ++
    [.plain 1 "return NULL;"]

/-- The lines that set a flag of the datamodel's object. -/
def setFlag (object property value : String) : Source :=
  [.indented 2
      ["if (napi_ok != napi_set_named_property(env, ",
        uses (object ++ ".object_value"),
        ", \"" ++ property ++ "\", " ++ value ++ "))"],
    .indented 3 (throwStatement ("Can't set " ++ property ++ " property - " ++
      object))]

/-- The connection states, each with the truth of being connected and of being
operational. -/
def connectionStates : List (String × String × String) :=
  [("EXOS_STATE_DISCONNECTED", "napi_false", "napi_false"),
    ("EXOS_STATE_CONNECTED", "napi_true", "napi_false"),
    ("EXOS_STATE_OPERATIONAL", "napi_true", "napi_true"),
    ("EXOS_STATE_ABORTED", "napi_false", "napi_false")]

/-- The lines that set the flags for a connection state. -/
def stateCase (object : String) (state : String × String × String) : Source :=
  .plain 1 ("case " ++ state.1 ++ ":") ::
    (setFlag object "isConnected" state.2.1 ++
      setFlag object "isOperational" state.2.2 ++
      [.plain 2 "break;"])

def callJavaScript : Line :=
  .plain 1
    "if (napi_ok != napi_call_function(env, undefined, js_cb, 0, NULL, NULL))"

/-- The name of the function that reports an uncaught failure. -/
def fatalName : String := "throw_fatal_exception_callbacks"

/-- The line that reports an uncaught failure of a callback. -/
def throwFatal (message : String) : Line :=
  .indented 2 [usesFunction fatalName,
    "(env, \"EINVAL\", \"" ++ message ++ "\");"]

/-- The lines that put the new connection state into an object's value. -/
def stateText (object : String) : Source :=
  [.indented 1
      ["if (napi_ok != napi_create_string_utf8(env, string, strlen(string), &",
        uses (object ++ ".value"), "))"],
    .indented 2 (throwStatement ("Can't create utf8 string from char* - " ++
      object ++ ".value")),
    .blank]

/-- The lines that set the connection state of an object; `name` stands in the
message of a failure. -/
def setStateText (object name : String) : Source :=
  [.indented 1
      ["if (napi_ok != napi_set_named_property(env, ",
        uses (object ++ ".object_value"), ", \"connectionState\", ",
        uses (object ++ ".value"), "))"],
    .indented 2 (throwStatement
      ("Can't set connectionState property - " ++ name)),
    .blank]

/-- The lines that get an object from its reference; `name` stands in the
message of a failure. -/
def dereference (object name : String) : Source :=
  [.indented 1 (.text "if (" :: (referenceValue object ++ [.text ")"])),
    .indented 2 (throwStatement ("Can't get reference - " ++ name)),
    .blank]

/-- The function that tells JavaScript about a connection change of the
datamodel. -/
def connectionCallback (model : Datamodel) : Function :=
  let object := model.objectName
  { comment := [.plain 0 "// js object callbacks"]
    result := "void"
    name := object ++ "_connonchange_js_cb"
    parameters := callParameters
    body :=
      [.plain 1 "const char *string = data;",
        .plain 1 "napi_value napi_true, napi_false, undefined;",
        .blank,
        .plain 1 "napi_get_undefined(env, &undefined);",
        .plain 1 "napi_get_boolean(env, true, &napi_true);",
        .plain 1 "napi_get_boolean(env, false, &napi_false);",
        .blank] ++
      stateText object ++
      dereference object object ++
      [.indented 1 ["switch (", uses (datamodelName model),
          ".connection_state)"]] ++
      Source.block 1 (connectionStates.flatMap (stateCase object)) ++
      [.blank] ++
      setStateText object object ++
      [callJavaScript,
        throwFatal ("Can't call onConnectionChange callback - " ++ object)] }

/-- The function that tells JavaScript about a processed cycle. -/
def processedCallback (model : Datamodel) : Function where
  result := "void"
  name := model.objectName ++ "_onprocessed_js_cb"
  parameters := callParameters
  body :=
    [.plain 1 "napi_value undefined;",
      .blank,
      .plain 1 "napi_get_undefined(env, &undefined);",
      .blank,
      callJavaScript,
      throwFatal ("Error calling onProcessed - " ++ model.name)]

/-- The function that tells JavaScript about a connection change of a
dataset. -/
def datasetConnectionCallback (dataset : Field) : Function :=
  let object := handleName dataset
  { result := "void"
    name := dataset.name ++ "_connonchange_js_cb"
    parameters := callParameters
    body :=
      [.plain 1 "const char *string = data;",
        .plain 1 "napi_value undefined;",
        .blank,
        .plain 1 "napi_get_undefined(env, &undefined);",
        .blank] ++
      stateText object ++
      dereference object dataset.name ++
      setStateText object dataset.name ++
      [callJavaScript,
        throwFatal ("Can't call onConnectionChange callback - " ++
          dataset.name)] }

def connectionCallbacks (model : Datamodel) : List Function :=
  connectionCallback model :: processedCallback model ::
    model.connected.map datasetConnectionCallback

/-- A method that registers a callback: its own name, the words for it, the
function that will call it, and the object's member that keeps it. -/
def registrationMethod (name label callback listener : String) : Function where
  result := "napi_value"
  name := name
  parameters := methodParameters
  body :=
    [.indented 1
      ["return ", usesFunction registrationName,
        "(env, info, \"" ++ label ++ "\", ", usesFunction callback, ", &",
        uses listener, ");"]]

def registrationMethods (model : Datamodel) : List Function :=
  let object := model.objectName
  [registrationMethod (object ++ "_connonchange_init")
      (model.name ++ " connection change")
      (object ++ "_connonchange_js_cb") (object ++ ".connectiononchange_cb"),
    registrationMethod (object ++ "_onprocessed_init")
      (model.name ++ " onProcessed")
      (object ++ "_onprocessed_js_cb") (object ++ ".onprocessed_cb")] ++
  model.connected.map (fun dataset =>
    registrationMethod (dataset.name ++ "_connonchange_init")
      (dataset.name ++ " connection change")
      (dataset.name ++ "_connonchange_js_cb")
      (handleName dataset ++ ".connectiononchange_cb")) ++
  model.published.map fun dataset =>
    registrationMethod (dataset.name ++ "_onchange_init")
      (dataset.name ++ " dataset change")
      (dataset.name ++ "_onchange_js_cb") (handleName dataset ++ ".onchange_cb")

end DataBridge.Addon
