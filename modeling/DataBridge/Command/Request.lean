import DataBridge.Command.Arguments
import DataBridge.Component

/-!
# Requests

What a user asks for: the files of a component, or a report on a datamodel.
-/

namespace DataBridge

/-- The datamodel that a request is about. -/
structure Subject where
  file : String
  /-- The root type instead of the one that the file names. -/
  typeName : Option String := none
  includeDirs : List String := []
  verbose : Bool := false
deriving DecidableEq, Repr

/-- A request for the files of a component. -/
structure GenerateRequest where
  subject : Subject
  output : String := "generated"
  packaging : Option Packaging := none
  addon : Addon.Options := {}
deriving DecidableEq, Repr

inductive ListingFormat where
  | json
  | yaml
deriving DecidableEq, Repr

def ListingFormat.ofWord? : String → Option ListingFormat
  | "json" => some .json
  | "yaml" => some .yaml
  | _ => none

structure AnalyzeRequest where
  subject : Subject
  /-- Whether the programs of the datasets are listed. -/
  listing : Bool := false
  format : ListingFormat := .json
  direction : Direction := .outgoing
deriving DecidableEq, Repr

inductive Request where
  | generate (request : GenerateRequest)
  | analyze (request : AnalyzeRequest)
  | help
deriving DecidableEq, Repr

namespace Request

def helpForm : OptionForm :=
  { name := "help", letter := some 'h', role := .help }

def subjectForms : List OptionForm :=
  [helpForm,
    { name := "file", letter := some 'f', role := .value .path },
    { name := "type", letter := some 't' },
    { name := "include-dir", letter := some 'i',
      role := .value .path, repeatable := true },
    { name := "verbose", letter := some 'v', role := .flag }]

/-- The options for the files of a component. -/
def generateForms : List OptionForm :=
  subjectForms ++
    [{ name := "output", letter := some 'o', role := .value .path },
      { name := "packaging", role := .value (.oneOf ["deb", "none"]) },
      { name := "napi-version", role := .value .number },
      { name := "no-known-issues", role := .flag }]

def analyzeForms : List OptionForm :=
  subjectForms ++
    [{ name := "print-ir", role := .flag },
      { name := "ir-format", role := .value (.oneOf ["json", "yaml"]) },
      { name := "direction", role := .value (.oneOf ["out", "in"]) }]

def directionOf? : String → Option Direction
  | "out" => some .outgoing
  | "in" => some .incoming
  | _ => none

def subject (given : List GivenOption) : Except ArgumentError Subject :=
  match Arguments.value? given "file" with
  | none => .error (.missing "file")
  | some file =>
      .ok {
        file := file
        typeName := Arguments.value? given "type"
        includeDirs := Arguments.values given "include-dir"
        verbose := Arguments.isGiven given "verbose" }

def generateOf (given : List GivenOption) :
    Except ArgumentError GenerateRequest := do
  return {
    subject := ← subject given
    output := (Arguments.value? given "output").getD "generated"
    packaging := (Arguments.value? given "packaging").bind Packaging.ofWord?
    addon := {
      knownIssues := !Arguments.isGiven given "no-known-issues"
      apiVersion :=
        ((Arguments.value? given "napi-version").bind Arguments.word32?).getD 6
          } }

/-- The request for a report that options make. -/
def analyzeOf (given : List GivenOption) :
    Except ArgumentError AnalyzeRequest := do
  return {
    subject := ← subject given
    listing := Arguments.isGiven given "print-ir"
    format :=
      ((Arguments.value? given "ir-format").bind ListingFormat.ofWord?).getD
        .json
    direction :=
      ((Arguments.value? given "direction").bind directionOf?).getD .outgoing }

/-- The request that options make, or help if they ask for it. -/
def ofOptions {α : Type} (request : α → Request)
    (make : List GivenOption → Except ArgumentError α) :
    Option (List GivenOption) → Except ArgumentError Request
  | none => .ok .help
  | some given => request <$> make given

/-- Fails if words behind `help` name no command.  Commands have no parts that
could be named behind them. -/
def checkTopic : List String → Except ArgumentError Unit
  | [] => .ok ()
  | [word] =>
      if ["codegen", "analyze", "help"].contains word then .ok ()
      else .error (.unknownCommand word)
  | _ :: word :: _ => .error (.unknownCommand word)

/-- The request of an argument list, whose first argument is the command. -/
def ofArguments : List String → Except ArgumentError Request
  | [] => .error .noCommand
  | "help" :: words => do
      checkTopic words
      return .help
  | "codegen" :: arguments => do
      ofOptions .generate generateOf
        (← Arguments.read generateForms [] arguments)
  | "analyze" :: arguments => do
      ofOptions .analyze analyzeOf (← Arguments.read analyzeForms [] arguments)
  | word :: _ =>
      match Arguments.readOne [helpForm] [] word with
      | .ok .help => .ok .help
      | _ => .error (.unknownCommand word)

end Request

end DataBridge
