import DataBridge.Text.Parts

/-!
# Arguments

The options that an argument list gives, for a command that knows certain
options.  An option is written with its name or with its letter, its value
behind it or as the next argument, and letters without values may share one
argument.  Arguments are read from the left, and the first one that is wrong or
asks for help decides.
-/

namespace DataBridge

/-- What the value of an option must be. -/
inductive ValueForm where
  | text
  /-- A path, which is not empty. -/
  | path
  /-- A number below `2 ^ 32`. -/
  | number
  | oneOf (words : List String)
deriving DecidableEq, Repr

inductive OptionRole where
  /-- It asks for help. -/
  | help
  /-- It says something without a value. -/
  | flag
  | value (form : ValueForm)
deriving DecidableEq, Repr

/-- An option that a command knows. -/
structure OptionForm where
  name : String
  letter : Option Char := none
  role : OptionRole := .value .text
  /-- Whether the option may be given more than once. -/
  repeatable : Bool := false
deriving DecidableEq, Repr

/-- An option that was given.  One without a value has an empty one. -/
structure GivenOption where
  name : String
  value : String := ""
deriving DecidableEq, Repr

/-- Why arguments are rejected. -/
inductive ArgumentError where
  | noCommand
  | unknownCommand (word : String)
  | unknownOption (argument : String)
  | unexpected (argument : String)
  | missingValue (option : String)
  | unneededValue (option : String)
  | repeated (option : String)
  | badValue (option value : String)
  | missing (option : String)
deriving DecidableEq, Repr

def ArgumentError.message : ArgumentError → String
  | .noCommand => "a command is required"
  | .unknownCommand word => "unknown command '" ++ word ++ "'"
  | .unknownOption argument => "unexpected argument '" ++ argument ++ "'"
  | .unexpected argument => "unexpected argument '" ++ argument ++ "'"
  | .missingValue option => "a value is required for '--" ++ option ++ "'"
  | .unneededValue option => "no value is allowed for '--" ++ option ++ "'"
  | .repeated option =>
      "the argument '--" ++ option ++ "' cannot be used multiple times"
  | .badValue option value =>
      "invalid value '" ++ value ++ "' for '--" ++ option ++ "'"
  | .missing option => "the argument '--" ++ option ++ "' is required"

namespace Arguments

/-- A number below `2 ^ 32`, with or without a sign. -/
def word32? (text : String) : Option Nat :=
  let (negative, digits) : Bool × List Char :=
    match text.toList with
    | '+' :: digits => (false, digits)
    | '-' :: digits => (true, digits)
    | digits => (false, digits)
  if digits.isEmpty || !digits.all Char.isDigit then none
  else
    let value :=
      digits.foldl (fun total digit => total * 10 + (digit.toNat - '0'.toNat)) 0
    if value < 4294967296 && !(negative && value != 0) then some value else none

/-- Whether a value has a form. -/
def fits : ValueForm → String → Bool
  | .text, _ => true
  | .path, value => value != ""
  | .number, value => (word32? value).isSome
  | .oneOf words, value => words.contains value

/-- What the arguments so far say. -/
inductive Progress where
  /-- Help is asked for, and whatever follows does not count. -/
  | help
  | options (given : List GivenOption)
  /-- The value of one more option must follow. -/
  | awaiting (given : List GivenOption) (form : OptionForm)
      (valueForm : ValueForm)

def add (given : List GivenOption) (form : OptionForm) (value : String) :
    Except ArgumentError (List GivenOption) :=
  if !form.repeatable && given.any (·.name == form.name) then
    .error (.repeated form.name)
  else .ok (given ++ [{ name := form.name, value }])

def addValue (given : List GivenOption) (form : OptionForm)
    (valueForm : ValueForm) (value : String) :
    Except ArgumentError (List GivenOption) :=
  if fits valueForm value then add given form value
  else .error (.badValue form.name value)

/-- Whether an argument is written as an option.  A single dash is not. -/
def isOption (argument : String) : Bool :=
  argument.toList.head? == some '-' && argument != "-"

/-- Reads an option that is written with its name. -/
def readNamed (forms : List OptionForm) (given : List GivenOption)
    (argument : String) (chars : List Char) : Except ArgumentError Progress :=
  let name := String.ofList (chars.takeWhile (· != '='))
  let value? : Option String :=
    match chars.dropWhile (· != '=') with
    | [] => none
    | _ :: value => some (String.ofList value)
  match forms.find? (·.name == name) with
  | none => .error (.unknownOption argument)
  | some form =>
      match form.role, value? with
      | .help, none => .ok .help
      | .flag, none => .options <$> add given form ""
      | .value valueForm, none => .ok (.awaiting given form valueForm)
      | .value valueForm, some value =>
          .options <$> addValue given form valueForm value
      | _, some _ => .error (.unneededValue name)

/-- Reads options that are written with their letters.  Behind the letter of an
option with a value the rest is that value. -/
def readLetters (forms : List OptionForm) (argument : String)
    (given : List GivenOption) : List Char → Except ArgumentError Progress
  | [] => .ok (.options given)
  | letter :: rest =>
      match forms.find? (·.letter == some letter) with
      | none => .error (.unknownOption argument)
      | some form =>
          match form.role, rest with
          | .help, _ => .ok .help
          | .flag, rest => do
              readLetters forms argument (← add given form "") rest
          | .value valueForm, [] => .ok (.awaiting given form valueForm)
          | .value valueForm, '=' :: value | .value valueForm, value =>
              .options <$> addValue given form valueForm (String.ofList value)

def readOne (forms : List OptionForm) (given : List GivenOption)
    (argument : String) : Except ArgumentError Progress :=
  if !isOption argument then .error (.unexpected argument)
  else
    match argument.toList with
    | '-' :: '-' :: chars => readNamed forms given argument chars
    | chars => readLetters forms argument given (chars.drop 1)

/-- Reads arguments behind those that gave some options.  Two dashes end the
options, and nothing may follow them.  There is no answer if help is asked
for. -/
def read (forms : List OptionForm) (given : List GivenOption) :
    List String → Except ArgumentError (Option (List GivenOption))
  | [] => .ok (some given)
  | argument :: rest =>
      if argument = "--" then
        match rest with
        | [] => .ok (some given)
        | extra :: _ => .error (.unexpected extra)
      else do
        match ← readOne forms given argument, rest with
        | .help, _ => return none
        | .options given, rest => read forms given rest
        | .awaiting _ form _, [] => throw (.missingValue form.name)
        | .awaiting given form valueForm, value :: others =>
            if isOption value then throw (.missingValue form.name)
            read forms (← addValue given form valueForm value) others

def values (given : List GivenOption) (name : String) : List String :=
  (given.filter (·.name == name)).map (·.value)

def isGiven (given : List GivenOption) (name : String) : Bool :=
  given.any (·.name == name)

def value? (given : List GivenOption) (name : String) : Option String :=
  (values given name).head?

end Arguments

end DataBridge
