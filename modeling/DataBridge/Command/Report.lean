import DataBridge.Addon.Names
import DataBridge.Flatten
import DataBridge.Json.Basic
import DataBridge.Program.Listing
import DataBridge.Resolver

/-!
# Reports

A report on a resolved datamodel: the order of its records, its enumerations,
its datasets and the programs of the datasets that are exchanged.
-/

namespace DataBridge.Report

/-- The words for how a member takes part in the exchange. -/
def flagWords (flags : FieldFlags) : List String :=
  (if flags.published then ["PUB"] else []) ++
    (if flags.subscribed then ["SUB"] else []) ++
    (if flags.isPrivate then ["private"] else [])

/-- A member of the root in one line: its name, its native type, the number of
members of its record, and how it takes part in the exchange. -/
def datasetLine (member : Field) : String :=
  let count :=
    match member.type with
    | .leaf _ => ""
    | .record record => " (" ++ toString record.fields.length ++ " fields)"
  let size := if member.isArray then
    "[" ++ toString member.arraySize ++ "]" else ""
  let words := flagWords member.flags
  let flags :=
    if words.isEmpty then "" else " [" ++ " ".intercalate words ++ "]"
  member.name ++ ": " ++ member.nativeType ++ size ++ count ++ flags

/-- Lines in front of which blanks stand. -/
def listed (blanks : String) (lines : List String) : List String :=
  lines.map (blanks ++ ·)

/-- The lines on a datamodel and on what its resolver met. -/
def lines (datamodel : Datamodel) (resolver : Resolver) : List String :=
  "[~] Resolution order:" :: listed "    - " resolver.order ++
    (if resolver.enums.isEmpty then []
      else
        "[~] Enums (exchanged as int32_t):" ::
          listed "    - " (resolver.enums.map (·.1))) ++
    [""] ++
    ("[~] Datasets of " ++ datamodel.name ++ ":") ::
      listed "    " (datamodel.root.fields.map datasetLine) ++
    [""]

/-- A dataset whose program cannot be made, and why. -/
structure ListingError where
  dataset : String
  error : EmitError
deriving DecidableEq, Repr

/-- The programs of datasets by their names. -/
def programs (direction : Direction) (datasets : List Field) :
    Except ListingError (List (String × Emission)) :=
  datasets.mapM fun dataset =>
    let program :=
      dataset.emission (Addon.nativePlace dataset) (Addon.valueHandle dataset)
        direction
    match program.fresh with
    | .ok emission => .ok (dataset.name, emission)
    | .error error => .error ⟨dataset.name, error⟩

/-- The text of programs as one JSON document. -/
def jsonListing (programs : List (String × Emission)) : String :=
  (Json.object (programs.map fun (name, program) =>
    (name, program.toJson))).pretty

/-- The text of programs as one tagged document. -/
def yamlListing (programs : List (String × Emission)) : String :=
  Yaml.Tree.document (programs.map fun (name, program) =>
    (name, program.toTree))

end DataBridge.Report
