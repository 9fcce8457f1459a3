import DataBridge.Program.Temp
import DataBridge.Source

/-!
# The text of a program

A program becomes source lines for the Node-API, together with the
declarations of its temporaries.
-/

namespace DataBridge

/-- What the source does after it has reported a failed conversion. -/
inductive OnFailure where
  /-- Nothing more: the pending exception is enough. -/
  | throw
  /-- It leaves the function at once. -/
  | throwAndReturn
deriving DecidableEq, Repr

/-- The policy that a direction implies: only incoming programs stop at a
failure. -/
def Direction.onFailure : Direction → OnFailure
  | .outgoing => .throw
  | .incoming => .throwAndReturn

/-- The line that leaves the function, where the policy asks for it. -/
def OnFailure.lines (depth : Nat) : OnFailure → Source
  | .throw => []
  | .throwAndReturn => [.plain depth "return NULL;"]

namespace Render

def handle (handle : Handle) : Piece := uses handle.text

/-- A call whose failure is reported with an error. -/
def checked (policy : OnFailure) (depth : Nat) (call : List Piece)
    (code message : String) : Source :=
  .indented depth (.text "if (napi_ok != " :: (call ++ [.text ")"])) ::
    Source.block depth
      (.plain (depth + 1) ("napi_throw_error(env, \"" ++ code ++ "\", \"" ++
        message ++ "\");") ::
        policy.lines (depth + 1))

/-- The call that converts a native leaf, and the words for its result. -/
def leafOutCall (leaf : Leaf) (source : Place) (target : Handle) :
    List Piece × String :=
  match leaf with
  | .bool =>
      (["napi_get_boolean(env, " ++ source.text ++ ", &", handle target, ")"],
        "boolean")
  | .integer type =>
      if type.signed then
        (["napi_create_int32(env, (int32_t)" ++ source.text ++ ", &",
          handle target, ")"],
          "32bit integer")
      else
        (["napi_create_uint32(env, (uint32_t)" ++ source.text ++ ", &",
          handle target, ")"],
          "32bit unsigned integer")
  | .float _ =>
      (["napi_create_double(env, (double)" ++ source.text ++ ", &",
        handle target, ")"], "double")
  | .string length =>
      (["napi_create_string_utf8(env, " ++ source.text ++ ", strnlen(" ++
        source.text ++ ", " ++
          toString length ++ "), &", handle target, ")"],
        "utf8 string")

def leafOut (policy : OnFailure) (depth : Nat) (leaf : Leaf) (source : Place)
    (target : Handle) : Source :=
  let (call, words) := leafOutCall leaf source target
  checked policy depth call "EINVAL"
    ("Can't convert " ++ source.path ++ " to " ++ words)

/-- The lines that read a native leaf from a handle. -/
def leafIn (policy : OnFailure) (depth : Nat) (leaf : Leaf) (source : Handle)
    (target : Place) : Source :=
  let path := target.path
  match leaf with
  | .bool =>
      checked policy depth
        ["napi_get_value_bool(env, ", handle source,
          ", &" ++ target.text ++ ")"]
        "EINVAL" ("Expected bool for " ++ path)
  | .integer type =>
      checked policy depth ["napi_get_value_int32(env, ", handle source,
        ", &_value)"]
        "EINVAL" ("Expected number convertible to 32bit integer for " ++
          path) ++
      [.plain depth (target.text ++ " = (" ++ type.nativeType ++ ")_value;")]
  | .float type =>
      checked policy depth ["napi_get_value_double(env, ", handle source,
        ", &__value)"]
        "EINVAL" ("Expected number convertible to double for " ++ path) ++
      [.plain depth (target.text ++ " = (" ++ type.nativeType ++ ")__value;")]
  | .string length =>
      checked policy depth
        ["napi_get_value_string_utf8(env, ", handle source, ", NULL, 0, &_r)"]
        "EINVAL" ("Expected string for " ++ path) ++
      .plain depth ("if (_r > " ++ toString length ++ ")") ::
      Source.block depth
        (.plain (depth + 1)
          ("napi_throw_range_error(env, \"ERANGE\", \"String too long for " ++
            path ++ " (max " ++
            toString length ++ " bytes)\");") ::
          policy.lines (depth + 1)) ++
      checked policy depth
        ["napi_get_value_string_utf8(env, ", handle source,
          ", " ++ target.text ++ ", sizeof(" ++ target.text ++ "), &_r)"]
        "EINVAL" ("Expected string for " ++ path)

def loopHead (iterator : Char) (count : Nat) : String :=
  let name := iterator.toString
  "for (uint32_t " ++ name ++ " = 0; " ++ name ++ " < " ++ toString count ++
    "; " ++ name ++ "++)"

mutual

def stmt (policy : OnFailure) (depth : Nat) : Stmt → Source
  | .createObject target =>
      [.indented depth ["napi_create_object(env, &", handle target, ");"]]
  | .createArray target =>
      [.indented depth ["napi_create_array(env, &", handle target, ");"]]
  | .setNamed object name value =>
      [.indented depth
        ["napi_set_named_property(env, ", handle object,
          ", \"" ++ name ++ "\", ", handle value, ");"]]
  | .setElement array index value =>
      [.indented depth
        ["napi_set_element(env, ", handle array, ", " ++ index.toString ++ ", ",
          handle value, ");"]]
  | .getNamed object name target =>
      [.indented depth
        ["napi_get_named_property(env, ", handle object,
          ", \"" ++ name ++ "\", &", handle target, ");"]]
  | .getElement array index target =>
      [.indented depth
        ["napi_get_element(env, ", handle array,
          ", " ++ index.toString ++ ", &", handle target, ");"]]
  | .assign target value =>
      [.indented depth [handle target, " = ", handle value, ";"]]
  | .leafOut leaf source target => leafOut policy depth leaf source target
  | .leafIn leaf source target => leafIn policy depth leaf source target
  | .default value target =>
      [.indented depth [handle target, " = ", uses value.variableName, ";"]]
  | .forEach iterator count body =>
      .plain depth (loopHead iterator count) ::
        Source.block depth (stmts policy (depth + 1) body)

def stmts (policy : OnFailure) (depth : Nat) : List Stmt → Source
  | [] => []
  | first :: rest => stmt policy depth first ++ stmts policy depth rest

end

def commas : List Piece → List Piece
  | [] => []
  | [last] => [last]
  | first :: rest => first :: ", " :: commas rest

/-- The declarations of temporaries.  The slots share one line. -/
def declarations (depth : Nat) (temps : List Temp) : Source :=
  let declare (temp : Temp) : Piece := declares temp.identifier
  let slots := temps.filter Temp.isSlot
  let others := temps.filter fun temp => !temp.isSlot
  (if slots.isEmpty then []
    else [.indented depth
      (.text "napi_value " :: (commas (slots.map declare) ++ [.text ";"]))]) ++
  others.map fun temp =>
    .indented depth [temp.nativeType ++ " ", declare temp, ";"]

end Render

def Emission.declarations (emission : Emission) (depth : Nat) : Source :=
  Render.declarations depth emission.temps

/-- The lines of a program under a failure policy. -/
def Emission.lines (emission : Emission) (policy : OnFailure) (depth : Nat) :
    Source :=
  Render.stmts policy depth emission.body

end DataBridge
