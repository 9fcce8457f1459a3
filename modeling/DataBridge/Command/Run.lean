import DataBridge.Command.Report
import DataBridge.Command.Request
import DataBridge.Loader

/-!
# Running requests

A request reads files, prints lines and may write files.  A failure ends it;
what was printed and written before stays.
-/

namespace DataBridge

/-- Why a request fails, and what that comes from. -/
structure Failure where
  message : String
  cause : Option String := none
deriving DecidableEq, Repr

namespace Failure

/-- What is printed about a failure. -/
def report (failure : Failure) : String :=
  "Error: " ++ failure.message ++ "\n" ++
    failure.cause.elim "" fun cause => "\nCaused by:\n    " ++ cause ++ "\n"

def ofLoad (error : LoadError) : Failure :=
  { message := error.message, cause := error.cause? }

def ofGenerate (error : GenerateError) : Failure :=
  { message := error.message }

def ofWrite (failed : Artifacts.WriteFailure) : Failure :=
  { message := failed.message, cause := some failed.failure.message }

def ofListing (failed : Report.ListingError) : Failure :=
  { message := "flattening dataset " ++ failed.dataset,
    cause := some failed.error.message }

end Failure

structure Session where
  fs : FileSystem
  printed : String := ""

abbrev Running (α : Type) := ExceptT Failure (StateM Session) α

namespace Running

def say (line : String) : Running Unit :=
  modify fun session =>
    { session with printed := session.printed ++ line ++ "\n" }

def sayAll (lines : List String) : Running Unit :=
  lines.forM say

/-- What succeeds gives, or the failure that it ends in. -/
def attempt {ε α : Type} (failure : ε → Failure) (result : Except ε α) :
    Running α :=
  match result with
  | .ok value => return value
  | .error error => throw (failure error)

/-- The lines in front of loading. -/
def loadingLines (subject : Subject) (verbose : Bool) : List String :=
  ("[~] Loading " ++ subject.file ++ " and resolving imports...") ::
    if verbose && !subject.includeDirs.isEmpty then
      "    Include directories:" :: subject.includeDirs.map ("      - " ++ ·)
    else []

def loadedLines (schema : Schema) (verbose : Bool) : List String :=
  ("[~] Loaded " ++ toString schema.types.length ++ " type definitions from " ++
      toString schema.files.length ++ " file(s)") ::
    if verbose then
      schema.types.map (fun definition => "  - " ++ definition.name) ++
      [""] else []

def loadSchema (subject : Subject) (verbose : Bool) : Running Schema := do
  sayAll (loadingLines subject verbose)
  let schema ← attempt Failure.ofLoad
    (Schema.load (← get).fs subject.file subject.includeDirs)
  sayAll (loadedLines schema verbose)
  return schema

def writeAll (artifacts : Artifacts) (output : String) : Running Unit := do
  let session ← get
  let (result, fs) := artifacts.write output session.fs
  set { session with fs }
  attempt Failure.ofWrite result

/-- Generates the files of a component and writes them. -/
def generate (request : GenerateRequest) : Running Unit := do
  let schema ← loadSchema request.subject request.subject.verbose
  let options : Component.Options :=
    { typeName := request.subject.typeName
      packaging := request.packaging
      addon := request.addon }
  say ("[~] Generating component " ++ Component.rootName schema options ++
    "...")
  let artifacts ← attempt Failure.ofGenerate (Component.generate schema options)
  writeAll artifacts request.output
  sayAll (artifacts.paths.map fun path =>
    "[✓] Generated " ++ Path.join request.output path)
  say ("[✓] Code generation complete! (" ++ toString artifacts.files.length ++
    " files)")

def analyze (request : AnalyzeRequest) : Running Unit := do
  sayAll ["Datamodel Generator - Analysis Tool",
    "===================================", ""]
  let schema ← loadSchema request.subject true
  let name := request.subject.typeName.getD schema.datamodel.name
  let (result, resolver) :=
    (Resolver.resolveDatamodel schema.catalog name).run.run {}
  let datamodel ← attempt (fun error : ResolveError =>
    { message := error.message }) result
  sayAll (Report.lines datamodel resolver)
  let exchanged := datamodel.connected
  if exchanged.isEmpty then
    throw
      { message := "datamodel " ++ datamodel.name ++
        " has no published or subscribed datasets" }
  if request.listing then
    let programs ← attempt Failure.ofListing
      (Report.programs request.direction exchanged)
    match request.format with
    | .json => say (Report.jsonListing programs)
    | .yaml => say (Report.yamlListing programs)

def usage : String :=
  "Commands:\n" ++
    "  codegen  Generate header, N-API module and package files for a datamodel\n" ++
    "  analyze  Show the resolved datamodel and optionally its marshalling IR\n" ++
    "\n" ++
    "Options of both commands:\n" ++
    "  -f, --file FILE        Root datamodel file\n" ++
    "  -t, --type TYPE        Root type, defaults to the datamodel name in the file\n" ++
    "  -i, --include-dir DIR  Include directory for imported datamodel files\n" ++
    "  -v, --verbose          Enable verbose output\n" ++
    "\n" ++
    "Options of codegen:\n" ++
    "  -o, --output DIR       Output directory for the generated component\n" ++
    "  --packaging MODE       Override the packaging (deb or none)\n" ++
    "  --napi-version N       N-API version pinned by the generated module\n" ++
    "  --no-known-issues      Leave out the known-issues comment\n" ++
    "\n" ++
    "Options of analyze:\n" ++
    "  --print-ir             Print the marshalling IR of every exchanged dataset\n" ++
    "  --ir-format FORMAT     Format of the IR (json or yaml)\n" ++
    "  --direction DIRECTION  Direction of the IR (out or in)"

def request : Request → Running Unit
  | .generate request => generate request
  | .analyze request => analyze request
  | .help => say usage

end Running

structure Outcome where
  /-- Zero after success, one after a failure, two if the arguments are
  rejected. -/
  status : Nat
  printed : String := ""
  complaint : String := ""
  fs : FileSystem

def Request.run (request : Request) (fs : FileSystem) : Outcome :=
  let (result, session) := (Running.request request).run.run { fs := fs }
  match result with
  | .ok () => { status := 0, printed := session.printed, fs := session.fs }
  | .error failure =>
      { status := 1
        printed := session.printed
        complaint := failure.report
        fs := session.fs }

/-- Runs an argument list on a file system. -/
def run (arguments : List String) (fs : FileSystem) : Outcome :=
  match Request.ofArguments arguments with
  | .ok request => request.run fs
  | .error error =>
      { status := 2, complaint := "error: " ++ error.message ++ "\n", fs := fs }

end DataBridge
