import DataBridge.Addon.Function
import DataBridge.Addon.Names

/-!
# Service functions of an addon

The logging methods, the cleanup hook, the cyclic handler and the method that
reads the net time.
-/

namespace DataBridge.Addon

/-- The log levels, each with the statement that writes an entry of it. -/
def logLevels : List (String × String) :=
  [("error", "exos_log_error(&logger, log_entry);"),
    ("warning", "exos_log_warning(&logger, EXOS_LOG_TYPE_USER, log_entry);"),
    ("success", "exos_log_success(&logger, EXOS_LOG_TYPE_USER, log_entry);"),
    ("info", "exos_log_info(&logger, EXOS_LOG_TYPE_USER, log_entry);"),
    ("debug", "exos_log_debug(&logger, EXOS_LOG_TYPE_USER, log_entry);"),
    ("verbose",
      "exos_log_warning(&logger, EXOS_LOG_TYPE_USER + EXOS_LOG_TYPE_VERBOSE, log_entry);")]

/-- The name of the method for a log level. -/
def logMethodName (level : String) : String :=
  "log_" ++ level

def logMethod (model : Datamodel) (level : String × String) : Function where
  result := "napi_value"
  name := logMethodName level.1
  parameters := methodParameters
  body :=
    let method := model.objectName ++ ".log." ++ level.1 ++ "()"
    [.plain 1 "napi_value argv[1];",
      .plain 1 "size_t argc = 1;",
      .plain 1 "char log_entry[81] = {};",
      .plain 1 "size_t res;",
      .blank,
      .plain 1 "napi_get_cb_info(env, info, &argc, argv, NULL, NULL);",
      .blank] ++
    Source.guarded 1 ["argc < 1"]
      [throwStatement ("Too few arguments for " ++ method), returnNull] ++
    [.blank] ++
    Source.guarded 1
      ["napi_ok != napi_get_value_string_utf8(env, argv[0], log_entry, sizeof(log_entry), &res)"]
      [throwStatement ("Expected string as argument for " ++ method),
        returnNull] ++
    [.blank, .plain 1 level.2, .indented 1 returnNull]

def logMethods (model : Datamodel) : List Function :=
  commented "//logging functions" (logLevels.map (logMethod model))

def cleanupName (model : Datamodel) : String :=
  "cleanup_" ++ model.objectName

/-- The hook that runs when the environment ends. -/
def cleanup (model : Datamodel) : Function where
  comment := [.plain 0 "// cleanup/cyclic"]
  result := "void"
  name := cleanupName model
  parameters := "void *env"
  body :=
    [.plain 1 "uv_idle_stop(&cyclic_h);",
      .blank] ++
    Source.guarded 1
      ["EXOS_ERROR_OK != exos_datamodel_delete(&", uses (datamodelName model),
        ")"]
      [throwStatement "Can't delete datamodel"] ++
    [.blank] ++
    Source.guarded 1 ["EXOS_ERROR_OK != exos_log_delete(&logger)"]
      [throwStatement "Can't delete logger"]

def cyclicName : String := "cyclic"

/-- The handler that runs in every turn of the event loop. -/
def cyclic (model : Datamodel) : Function where
  result := "void"
  name := cyclicName
  parameters := "uv_idle_t *handle"
  body :=
    [.plain 1 "int dummy = 0;",
      .indented 1 ["exos_datamodel_process(&", uses (datamodelName model),
        ");"]] ++
    callThreadsafe 1 (model.objectName ++ ".onprocessed_cb") "&dummy" ++
    [.plain 1 "exos_log_process(&logger);"]

/-- The name of the method that reads the net time. -/
def netTimeName : String := "get_net_time"

def netTime (model : Datamodel) : Function where
  comment := [.plain 0 "//read nettime for DataModel"]
  result := "napi_value"
  name := netTimeName
  parameters := methodParameters
  body :=
    [.plain 1 "napi_value netTime;",
      .blank,
      .indented 1
        ["if (napi_ok == napi_create_int32(env, exos_datamodel_get_nettime(&",
          uses (datamodelName model), "), &netTime))"]] ++
    Source.block 1 [.plain 2 "return netTime;"] ++
    [.indented 1 returnNull]

/-- The cleanup hook, the cyclic handler and the net time. -/
def serviceFunctions (model : Datamodel) : List Function :=
  [cleanup model, cyclic model, netTime model]

end DataBridge.Addon
