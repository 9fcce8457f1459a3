import DataBridge.Addon.Callbacks
import DataBridge.Flatten
import DataBridge.Program.Render

/-!
# Exchange functions of an addon

The functions that carry values: for a published dataset one that hands the new
value to JavaScript, and for a subscribed dataset one that takes a value from
JavaScript and publishes it.
-/

namespace DataBridge.Addon

/-- The program that moves a dataset between the native instance and the value
in its object. -/
def exchangeProgram (dataset : Field) (direction : Direction) :
    Except EmitError Emission :=
  (dataset.emission (nativePlace dataset) (valueHandle dataset) direction).fresh

/-- The function that hands a new value of a dataset to JavaScript. -/
def valueCallback (model : Datamodel) (dataset : Field) :
    Except EmitError Function := do
  let program ← exchangeProgram dataset .outgoing
  let object := handleName dataset
  return {
    result := "void"
    name := dataset.name ++ "_onchange_js_cb"
    parameters :=
      "napi_env env, napi_value js_cb, void *context, void *netTime_exos"
    body :=
      program.declarations 1 ++
      [.plain 1 "napi_value undefined, netTime, latency;",
        .plain 1 "napi_get_undefined(env, &undefined);",
        .blank] ++
      Source.guarded 1 (referenceValue object)
        [throwStatement "Can't get reference"] ++
      [.blank] ++
      program.lines program.direction.onFailure 1 ++
      [.blank,
        .indented 1
          ["int32_t _latency = exos_datamodel_get_nettime(&",
            uses (datamodelName model), ") - *(int32_t *)netTime_exos;"],
        .plain 1 "napi_create_int32(env, *(int32_t *)netTime_exos, &netTime);",
        .plain 1 "napi_create_int32(env, _latency, &latency);",
        .indented 1 (setProperty (object ++ ".object_value") "nettime"
          "netTime"),
        .indented 1
          (setProperty (object ++ ".object_value") "latency" "latency")] ++
      Source.guarded 1
        ["napi_ok != napi_set_named_property(env, ",
          uses (object ++ ".object_value"), ", \"value\", ",
          uses (object ++ ".value"), ")"]
        [throwStatement "Can't set value property"] ++
      [.blank, callJavaScript, throwFatal "Can't call onChange callback"] }

/-- The functions that hand new values to JavaScript. -/
def valueCallbacks (model : Datamodel) : Except EmitError (List Function) := do
  let functions ← model.published.mapM (valueCallback model)
  return commented "// js value callbacks" functions

/-- The method that takes a value of a dataset from JavaScript and publishes
it. -/
def publishMethod (dataset : Field) : Except EmitError Function := do
  let program ← exchangeProgram dataset .incoming
  let object := handleName dataset
  return {
    result := "napi_value"
    name := dataset.name ++ "_publish_method"
    parameters := methodParameters
    body :=
      program.declarations 1 ++
      [.blank] ++
      Source.guarded 1 (referenceValue object)
        [throwStatement "Can't get reference", returnNull] ++
      [.blank] ++
      Source.guarded 1
        ["napi_ok != napi_get_named_property(env, ",
          uses (object ++ ".object_value"), ", \"value\", &",
          uses (object ++ ".value"), ")"]
        [throwStatement "Can't get property", returnNull] ++
      [.blank] ++
      program.lines program.direction.onFailure 1 ++
      [.blank,
        .indented 1 ["exos_dataset_publish(&", uses (datasetName dataset),
          ");"],
        .indented 1 returnNull] }

def publishMethods (model : Datamodel) : Except EmitError (List Function) := do
  let functions ← model.subscribed.mapM publishMethod
  return commented "// publish methods" functions

end DataBridge.Addon
