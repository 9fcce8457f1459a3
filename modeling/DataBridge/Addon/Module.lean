import DataBridge.Addon.Events
import DataBridge.Addon.Init
import DataBridge.Header

/-!
# The module of an addon

The whole Node-API module: its preamble with the objects of the datamodel and
its datasets, and then its functions in sections.
-/

namespace DataBridge.Addon

/-- What may be chosen for a module. -/
structure Options where
  /-- Whether the known issues stand at the top. -/
  knownIssues : Bool := true
  /-- The version of the Node-API that the module asks for. -/
  apiVersion : Nat := 6
deriving DecidableEq, Repr

def fileName (datamodel : String) : String :=
  "lib" ++ Text.lower datamodel ++ ".c"

def issueLines : Source :=
  [.plain 0 "//KNOWN ISSUES",
    .plain 0 "/*",
    .plain 0
      ("NO range checks are made on numbers. JavaScript only has \"number\", " ++
      "written into SINT, INT etc."),
    .plain 0
      "with a plain cast. Make sure the value written from NodeJS fits the target type.",
    .blank,
    .plain 0
      ("Strings are utf8 encoded in NodeJS, so multibyte characters reduce the " ++
      "usable length."),
    .plain 0
      ("Strings longer than the declared length are rejected with a RangeError (ERANGE)."),
    .blank,
    .plain 0 "Enums are exchanged as int32_t numbers.",
    .plain 0 "*/",
    .blank]

def includeLines (model : Datamodel) (apiVersion : Nat) : Source :=
  [.plain 0 ("#define NAPI_VERSION " ++ toString apiVersion),
    .plain 0 "#include <node_api.h>",
    .plain 0 "#include <stdint.h>",
    .plain 0 "#include <exos_api.h>",
    .plain 0 "#include <exos_log.h>",
    .plain 0 ("#include \"" ++ Header.fileName model.name ++ "\""),
    .plain 0 "#include <uv.h>",
    .plain 0 "#include <unistd.h>",
    .plain 0 "#include <string.h>",
    .blank,
    .plain 0
      ("#define SUCCESS(_format_, ...) exos_log_success(&logger, EXOS_LOG_TYPE_USER, " ++
      "_format_, ##__VA_ARGS__);"),
    .plain 0
      ("#define INFO(_format_, ...) exos_log_info(&logger, EXOS_LOG_TYPE_USER, " ++
      "_format_, ##__VA_ARGS__);"),
    .plain 0 ("#define VERBOSE(_format_, ...) exos_log_debug(&logger, " ++
      "EXOS_LOG_TYPE_USER + EXOS_LOG_TYPE_VERBOSE, _format_, ##__VA_ARGS__);"),
    .plain 0
      ("#define ERROR(_format_, ...) exos_log_error(&logger, _format_, ##__VA_ARGS__);"),
    .blank,
    .plain 0 "#define BUR_NAPI_DEFAULT_BOOL_INIT false",
    .plain 0 "#define BUR_NAPI_DEFAULT_NUM_INIT 0",
    .plain 0 "#define BUR_NAPI_DEFAULT_STRING_INIT \"\"",
    .blank]

/-- An object of the module, set to zeros. -/
def objectLine (type name : String) : Line :=
  .indented 0 [type, " ", declares name, " = {};"]

def objectLines (model : Datamodel) : Source :=
  [.indented 0 ["static exos_log_handle_t ", declares "logger", ";"],
    .blank,
    .plain 0 "typedef struct",
    .plain 0 r"{",
    .plain 1 "napi_ref ref;",
    .plain 1 "uint32_t ref_count;",
    .plain 1 "napi_threadsafe_function onchange_cb;",
    .plain 1 "napi_threadsafe_function connectiononchange_cb;",
    .plain 1
      "napi_threadsafe_function onprocessed_cb; //used only for datamodel",
    .plain 1 "napi_value object_value; //volatile placeholder.",
    .plain 1 "napi_value value;        //volatile placeholder.",
    .indented 0 [r"} ", declares "obj_handles", ";"],
    .blank,
    objectLine "obj_handles" model.objectName] ++
  model.connected.map (fun dataset =>
    objectLine "obj_handles" (handleName dataset)) ++
  [.blank,
    .indented 0 ["uv_idle_t ", declares "cyclic_h", ";"],
    .blank,
    objectLine model.name "exos_data",
    .indented 0 ["exos_datamodel_handle_t ", declares (datamodelName model),
      ";"]] ++
  model.connected.map (fun dataset =>
    .indented 0 ["exos_dataset_handle_t ", declares (datasetName dataset),
      ";"]) ++
  [.blank]

/-- The function that reports an uncaught failure. -/
def fatal : Function where
  comment := [.plain 0 "// error handling (Node.js)"]
  result := "void"
  name := fatalName
  parameters :=
    "napi_env env, const char *defaultCode, const char *defaultMessage"
  body :=
    [.plain 1 "napi_value err;",
      .plain 1 "bool is_exception = false;",
      .blank,
      .plain 1 "napi_is_exception_pending(env, &is_exception);",
      .blank,
      .plain 1 "if (is_exception)"] ++
    Source.block 1
      [.plain 2 "napi_get_and_clear_last_exception(env, &err);",
        .plain 2 "napi_fatal_exception(env, err);"] ++
    [.plain 1 "else"] ++
    Source.block 1
      [.plain 2 "napi_value code, msg;",
        .plain 2
          "napi_create_string_utf8(env, defaultCode, NAPI_AUTO_LENGTH, &code);",
        .plain 2
          "napi_create_string_utf8(env, defaultMessage, NAPI_AUTO_LENGTH, &msg);",
        .plain 2 "napi_create_error(env, code, msg, &err);",
        .plain 2 "napi_fatal_exception(env, err);"]

/-- What stands in front of the functions. -/
def preamble (model : Datamodel) (options : Options) : Source :=
  (if options.knownIssues then issueLines else []) ++
    includeLines model options.apiVersion ++ objectLines model

def functions (model : Datamodel) : Except EmitError (List Function) := do
  let values ← valueCallbacks model
  let publishing ← publishMethods model
  let init ← initFunction model
  return [fatal] ++ eventHandlers model ++ [registration] ++
    connectionCallbacks model ++ values ++
    registrationMethods model ++ publishing ++ logMethods model ++
      serviceFunctions model ++ [init]

/-- The lines that hand the module to the runtime. -/
def hook (model : Datamodel) : Source :=
  [.plain 0 "// hook for Node-API",
    .indented 0 ["NAPI_MODULE(NODE_GYP_MODULE_NAME, ",
      usesFunction (initName model), ");"]]

/-- The lines of the module.  No module is made when an object would take the
name of a type. -/
def lines (model : Datamodel) (options : Options) :
    Except EmitError Source := do
  checkIdentifiers model
  let functions ← functions model
  return preamble model options ++ functionLines functions ++ hook model

def text (model : Datamodel) (options : Options) : Except EmitError String := do
  return Source.render (← lines model options)

end DataBridge.Addon
