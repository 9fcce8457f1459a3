import DataBridge.Proofs.Program.Temporary

/-!
# Calls in a program's text

The text of a program calls functions of the Node-API.  The parameters of these
functions say at which native type a line uses its temporaries.
-/

namespace DataBridge

/-- The functions of the Node-API that programs call, with the types of their
parameters after the environment. -/
def signatures : List (String × List String) :=
  [("napi_create_object", ["napi_value*"]),
    ("napi_create_array", ["napi_value*"]),
    ("napi_set_named_property", ["napi_value", "const char*", "napi_value"]),
    ("napi_set_element", ["napi_value", "uint32_t", "napi_value"]),
    ("napi_get_named_property", ["napi_value", "const char*", "napi_value*"]),
    ("napi_get_element", ["napi_value", "uint32_t", "napi_value*"]),
    ("napi_get_boolean", ["bool", "napi_value*"]),
    ("napi_create_int32", ["int32_t", "napi_value*"]),
    ("napi_create_uint32", ["uint32_t", "napi_value*"]),
    ("napi_create_double", ["double", "napi_value*"]),
    ("napi_create_string_utf8", ["const char*", "size_t", "napi_value*"]),
    ("napi_get_value_bool", ["napi_value", "bool*"]),
    ("napi_get_value_int32", ["napi_value", "int32_t*"]),
    ("napi_get_value_double", ["napi_value", "double*"]),
    ("napi_get_value_string_utf8",
      ["napi_value", "char*", "size_t", "size_t*"])]

def callText (function : String) (arguments : List String) : String :=
  function ++ ("(env, " ++ (", ".intercalate arguments ++ ")"))

/-- The name itself as an argument, or its address. -/
inductive Passes (name type : String) : String → String → Prop where
  | value : Passes name type name type
  | address : Passes name type ("&" ++ name) (type ++ "*")

/-- What stands before and behind a call: it is a statement of its own, or the
condition of its failure. -/
def callFrames : List (String × String) :=
  [("", ";"), ("if (napi_ok != ", ")")]

def numberTypes : List String := ["size_t", "int32_t", "double"]

/-- A line uses a variable of a native type. -/
inductive UsedAt (line name type : String) : Prop where
  /-- As an argument of a call, or through its address. -/
  | passed {depth : Nat} {start finish function argument parameter : String}
      {arguments parameters : List String}
      (frame : (start, finish) ∈ callFrames)
      (known : (function, parameters) ∈ signatures)
      (text : line =
        indentation depth ++
          (start ++ (callText function arguments ++ (finish ++ "\n"))))
      (complete : arguments.length = parameters.length)
      (position : (argument, parameter) ∈ arguments.zip parameters)
      (passes : Passes name type argument parameter)
  /-- As either side of an assignment between JavaScript values. -/
  | assigned {depth : Nat} {target value : String}
      (text : line =
        indentation depth ++ (target ++ (" = " ++ (value ++ ";\n"))))
      (side : name = target ∨ name = value) (javascript : type = "napi_value")
  /-- As a number that is cast. -/
  | cast {depth : Nat} {target kind : String}
      (text : line =
        indentation depth ++
          (target ++ (" = (" ++ (kind ++ (")" ++ (name ++ ";\n"))))))
      (number : type ∈ numberTypes)
  /-- As a number that is compared. -/
  | compared {depth : Nat} {bound : String}
      (text : line =
        indentation depth ++ ("if (" ++ (name ++ (" > " ++ (bound ++ ")\n")))))
      (number : type ∈ numberTypes)

/-- An argument names these temporaries and has them at the type of its
parameter. -/
structure Argument (argument parameter : String) (temps : List Temp) :
    Prop where
  names : temporaries argument = temps.map Temp.identifier
  passes : ∀ temp ∈ temps,
    Passes temp.identifier temp.nativeType argument parameter

/-- The arguments of a call with their parameters and the temporaries in
them. -/
inductive Arguments : List String → List String → List Temp → Prop where
  | nil : Arguments [] [] []
  | cons {argument parameter : String} {temps others : List Temp}
      {arguments parameters : List String}
      (first : Argument argument parameter temps)
      (rest : Arguments arguments parameters others) :
      Arguments (argument :: arguments) (parameter :: parameters)
        (temps ++ others)

theorem Argument.quiet {argument : String} (parameter : String)
    (quiet : temporaries argument = []) : Argument argument parameter [] where
  names := quiet
  passes _ known := nomatch known

theorem Argument.scratch (temp : Temp) :
    Argument ("&" ++ temp.identifier) (temp.nativeType ++ "*") [temp] where
  names := by
    rw [temporaries_start _ (by decide) (by decide),
      Temp.temporaries_identifier, List.map_singleton]
  passes other known := by
    rw [List.mem_singleton] at known
    rw [known]
    exact .address

namespace Arguments

variable {arguments parameters : List String} {temps : List Temp}

theorem last {argument parameter : String}
    (only : Argument argument parameter temps) :
    Arguments [argument] [parameter] temps := by
  have all := cons only nil
  rw [List.append_nil] at all
  exact all

theorem quiet {argument : String} (parameter : String)
    (quiet : temporaries argument = [])
    (rest : Arguments arguments parameters temps) :
    Arguments (argument :: arguments) (parameter :: parameters) temps :=
  cons (.quiet parameter quiet) rest

theorem length_eq (fits : Arguments arguments parameters temps) :
    arguments.length = parameters.length := by
  induction fits with
  | nil => rfl
  | cons _ _ induction => exact congrArg (· + 1) induction

theorem temporaries_eq (fits : Arguments arguments parameters temps)
    {after : List Char} (begins : Text.opens after = true)
    (quiet : calm after = true) :
    temporaries (", ".intercalate arguments ++ String.ofList after) =
      temps.map Temp.identifier := by
  induction fits with
  | nil => rw [String.intercalate_nil, temporaries_last _ begins quiet]; rfl
  | @cons argument parameter temps others arguments parameters first rest
        induction =>
      cases rest with
      | nil =>
          rw [String.intercalate_singleton, temporaries_last _ begins quiet,
            first.names, List.append_nil]
      | @cons next =>
          -- the comma keeps the last word of an argument from the next one
          rw [String.intercalate_cons_cons, String.append_assoc,
            String.append_assoc,
            temporaries_between _ _ (by decide) (by decide) (by decide),
            induction, first.names, ← List.map_append]

theorem position (fits : Arguments arguments parameters temps) {temp : Temp}
    (known : temp ∈ temps) : ∃ argument parameter,
      (argument, parameter) ∈ arguments.zip parameters ∧
        Passes temp.identifier temp.nativeType argument parameter := by
  induction fits with
  | nil => cases known
  | cons first rest induction =>
      cases List.mem_append.mp known with
      | inl here => exact ⟨_, _, List.mem_cons_self, first.passes temp here⟩
      | inr later =>
          obtain ⟨argument, parameter, inside, passes⟩ := induction later
          exact ⟨argument, parameter, List.mem_cons_of_mem _ inside, passes⟩

end Arguments

/-- The name of a function of the Node-API is no temporary. -/
theorem temporaries_function {function : String} {parameters : List String}
    (known : (function, parameters) ∈ signatures) (rest : String) :
    temporaries (function ++ ("(env, " ++ rest)) = temporaries rest := by
  have quiet : ∀ entry ∈ signatures, temporaries entry.1 = [] := by
    simp only [signatures, List.forall_mem_cons, List.not_mem_nil,
      IsEmpty.forall_iff, implies_true, and_true]
    and_intros <;> exact temporaries_fixed (by decide)
  rw [temporaries_between _ _ (by decide) (by decide) (by decide),
    quiet _ known, List.nil_append]

end DataBridge
