import DataBridge.Source

/-!
# Functions of an addon

A function of the module is kept as its name, its parameters and its body, so
that what the module defines can be told apart from how it is laid out.
-/

namespace DataBridge.Addon

/-- A function that only the module itself sees. -/
structure Function where
  /-- What stands above the function. -/
  comment : Source := []
  result : String
  name : String
  parameters : String
  body : Source

/-- The lines of a function, with an empty line after it. -/
def Function.lines (function : Function) : Source :=
  function.comment ++
    .indented 0 ["static ", function.result, " ", definesFunction function.name,
      "(", function.parameters, ")"] ::
    Source.block 0 function.body ++ [.blank]

/-- The lines of functions, one after the other. -/
def functionLines (functions : List Function) : Source :=
  functions.flatMap Function.lines

/-- A comment above the first of some functions. -/
def commented (comment : String) : List Function → List Function
  | [] => []
  | first :: rest => { first with comment := [.plain 0 comment] } :: rest

/-- The parameters of a function that JavaScript calls. -/
def methodParameters : String :=
  "napi_env env, napi_callback_info info"

/-- The parameters of a function that calls into JavaScript. -/
def callParameters : String :=
  "napi_env env, napi_value js_cb, void *context, void *data"

/-- The statement that throws an error with a message. -/
def throwStatement (message : String) : List Piece :=
  ["napi_throw_error(env, \"EINVAL\", \"" ++ message ++ "\");"]

/-- The statement that leaves a method. -/
def returnNull : List Piece :=
  ["return NULL;"]

/-- The statement that sets a property of an object. -/
def setProperty (object name value : String) : List Piece :=
  ["napi_set_named_property(env, ", uses object, ", \"" ++ name ++ "\", ",
    uses value, ");"]

/-- The call that gives an object its value from its reference. -/
def referenceValue (object : String) : List Piece :=
  ["napi_ok != napi_get_reference_value(env, ", uses (object ++ ".ref"), ", &",
    uses (object ++ ".object_value"), ")"]

/-- The lines that call back into JavaScript when somebody listens. -/
def callThreadsafe (depth : Nat) (listener data : String) : Source :=
  .indented depth ["if (", uses listener, " != NULL)"] ::
    Source.block depth
      [.indented (depth + 1) ["napi_acquire_threadsafe_function(",
          uses listener, ");"],
        .indented (depth + 1)
          ["napi_call_threadsafe_function(", uses listener, ", " ++ data ++
            ", napi_tsfn_blocking);"],
        .indented (depth + 1)
          ["napi_release_threadsafe_function(", uses listener,
            ", napi_tsfn_release);"]]

end DataBridge.Addon
