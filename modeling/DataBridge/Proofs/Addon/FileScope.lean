import DataBridge.Addon.Module
import DataBridge.Proofs.Failure

/-!
# Names at file scope

A line without indentation may introduce a name for the whole file.  A module
introduces its objects, the type of its handles, and its functions; whatever the
functions introduce stays inside of their braces.
-/

namespace DataBridge

def Piece.introduced? : Piece → Option String
  | .name .declares introduced => some introduced
  | .name .definesFunction introduced => some introduced
  | _ => none

/-- The names that a line introduces for the whole file. -/
def Line.defines : Line → List String
  | .indented 0 pieces => pieces.filterMap Piece.introduced?
  | _ => []

/-- The names that a source introduces for the whole file, in order. -/
def Source.definitions (source : Source) : List String :=
  source.flatMap Line.defines

namespace Line

variable {depth : Nat}

@[simp]
theorem defines_indented (deep : depth ≠ 0) (pieces : List Piece) :
    (indented depth pieces).defines = [] := by
  cases depth with
  | zero => exact (deep rfl).elim
  | succ depth => rfl

@[simp]
theorem defines_plain (depth : Nat) (text : String) :
    (plain depth text).defines = [] := by
  cases depth <;> rfl

@[simp]
theorem defines_blank : blank.defines = [] :=
  rfl

end Line

namespace Source

variable {depth : Nat}

@[simp]
theorem definitions_nil : definitions [] = [] :=
  rfl

@[simp]
theorem definitions_cons (line : Line) (source : Source) :
    definitions (line :: source) = line.defines ++ definitions source :=
  List.flatMap_cons

@[simp]
theorem definitions_append (first second : Source) :
    definitions (first ++ second) = definitions first ++ definitions second :=
  List.flatMap_append

@[simp]
theorem definitions_flatMap {α : Type} (xs : List α) (part : α → Source) :
    definitions (xs.flatMap part) = xs.flatMap fun x => definitions (part x) :=
  List.flatMap_assoc

@[simp]
theorem definitions_map {α : Type} (xs : List α) (line : α → Line) :
    definitions (xs.map line) = xs.flatMap fun x => (line x).defines :=
  List.flatMap_map line Line.defines xs

@[simp]
theorem definitions_block (depth : Nat) (body : Source) :
    definitions (block depth body) = definitions body := by
  simp [block]

@[simp]
theorem definitions_guarded (deep : depth ≠ 0) (condition : List Piece)
    (body : List (List Piece)) :
    definitions (guarded depth condition body) = [] := by
  simp [guarded, deep]

end Source

open Source (definitions)

namespace Render

variable {policy : OnFailure}

@[simp]
theorem definitions_onFailure (policy : OnFailure) (depth : Nat) :
    definitions (policy.lines depth) = [] := by
  cases policy <;> simp [OnFailure.lines]

theorem definitions_checked {depth : Nat} (deep : depth ≠ 0) (call : List Piece)
    (code message : String) :
    definitions (checked policy depth call code message) = [] := by
  simp [checked, deep]

mutual

/-- A statement introduces nothing outside of the function that it stands in. -/
theorem definitions_stmt {depth : Nat} (deep : depth ≠ 0) (statement : Stmt) :
    definitions (stmt policy depth statement) = [] := by
  cases statement with
  | leafOut leaf source target =>
      rw [stmt, leafOut]
      exact definitions_checked deep _ _ _
  | leafIn leaf source target =>
      rw [stmt]
      cases leaf <;> simp [leafIn, definitions_checked deep]
  | forEach iterator count body =>
      rw [stmt]
      simpa using definitions_stmts (Nat.succ_ne_zero depth) body
  | _ => simp [stmt, deep]

theorem definitions_stmts {depth : Nat} (deep : depth ≠ 0)
    (statements : List Stmt) :
    definitions (stmts policy depth statements) = [] := by
  cases statements with
  | nil => rfl
  | cons first rest =>
      rw [stmts, Source.definitions_append, definitions_stmt deep first,
        definitions_stmts deep rest]
      rfl

end

end Render

@[simp]
theorem Emission.definitions_lines {depth : Nat} (deep : depth ≠ 0)
    (emission : Emission) (policy : OnFailure) :
    definitions (emission.lines policy depth) = [] :=
  Render.definitions_stmts deep emission.body

@[simp]
theorem Render.definitions_declarations {depth : Nat} (deep : depth ≠ 0)
    (temps : List Temp) :
    definitions (Render.declarations depth temps) = [] := by
  simp only [Render.declarations]
  split <;> simp [deep]

@[simp]
theorem Emission.definitions_declarations {depth : Nat} (deep : depth ≠ 0)
    (emission : Emission) : definitions (emission.declarations depth) = [] :=
  Render.definitions_declarations deep emission.temps

namespace Addon

variable {model : Datamodel}

/-- Nothing in a function is introduced for the whole file but its name. -/
structure Function.Enclosed (function : Function) : Prop where
  comment : definitions function.comment = []
  body : definitions function.body = []

theorem Function.definitions_lines {function : Function}
    (enclosed : function.Enclosed) :
    definitions function.lines = [function.name] := by
  have head :
      (Line.indented 0 ["static ", function.result, " ",
        definesFunction function.name, "(", function.parameters,
        ")"]).defines = [function.name] :=
    rfl
  simp [Function.lines, enclosed.comment, enclosed.body, head]

private theorem definitions_functionLines {functions : List Function}
    (enclosed : ∀ function ∈ functions, function.Enclosed) :
    definitions (functionLines functions) = functions.map Function.name := by
  induction functions with
  | nil => rfl
  | cons first rest induction =>
      obtain ⟨here, later⟩ := List.forall_mem_cons.mp enclosed
      have rest := induction later
      rw [functionLines] at rest ⊢
      rw [List.flatMap_cons, Source.definitions_append,
        Function.definitions_lines here, rest]
      rfl

@[simp]
theorem definitions_callThreadsafe {depth : Nat} (deep : depth ≠ 0)
    (listener data : String) :
    definitions (callThreadsafe depth listener data) = [] := by
  simp [callThreadsafe, deep]

private theorem definitions_datasetBranches {block : Field → Source}
    (enclosed : ∀ dataset, definitions (block dataset) = [])
    (datasets : List Field) :
    definitions (datasetBranches block datasets) = [] := by
  have branch : ∀ before dataset,
      definitions (datasetBranches.branch block before dataset) = [] := by
    intro before dataset
    simp [datasetBranches.branch, enclosed]
  cases datasets with
  | nil => rfl
  | cons first rest => simp [datasetBranches, branch]

private theorem enclosed_datasetEvent (model : Datamodel) :
    (datasetEvent model).Enclosed := by
  constructor
  · simp [datasetEvent]
  · simp [datasetEvent, definitions_datasetBranches]

private theorem enclosed_datamodelEvent (model : Datamodel) :
    (datamodelEvent model).Enclosed := by
  constructor <;> simp [datamodelEvent]

private theorem enclosed_fatal : fatal.Enclosed := by
  constructor <;> simp [fatal]

@[simp]
theorem definitions_registrationStep (call step : String) :
    definitions (registrationStep call step) = [] := by
  rw [registrationStep]
  split <;> simp

private theorem enclosed_registration : registration.Enclosed := by
  constructor <;> simp [registration]

@[simp]
theorem definitions_stateText (object : String) :
    definitions (stateText object) = [] := by
  simp [stateText]

@[simp]
theorem definitions_setStateText (object name : String) :
    definitions (setStateText object name) = [] := by
  simp [setStateText]

@[simp]
theorem definitions_dereference (object name : String) :
    definitions (dereference object name) = [] := by
  simp [dereference]

@[simp]
theorem defines_callJavaScript : callJavaScript.defines = [] := by
  simp [callJavaScript]

@[simp]
theorem defines_throwFatal (message : String) :
    (throwFatal message).defines = [] := by
  simp [throwFatal]

private theorem enclosed_connectionCallback (model : Datamodel) :
    (connectionCallback model).Enclosed := by
  constructor <;> simp [connectionCallback, stateCase, setFlag]

private theorem enclosed_processedCallback (model : Datamodel) :
    (processedCallback model).Enclosed := by
  constructor <;> simp [processedCallback]

private theorem enclosed_datasetConnectionCallback (dataset : Field) :
    (datasetConnectionCallback dataset).Enclosed := by
  constructor <;> simp [datasetConnectionCallback]

theorem enclosed_registrationMethod (name label callback listener : String) :
    (registrationMethod name label callback listener).Enclosed := by
  constructor <;> simp [registrationMethod]

private theorem enclosed_logMethod (model : Datamodel)
    (level : String × String) :
    (logMethod model level).Enclosed := by
  constructor <;> simp [logMethod]

private theorem enclosed_cleanup (model : Datamodel) :
    (cleanup model).Enclosed := by
  constructor <;> simp [cleanup]

private theorem enclosed_cyclic (model : Datamodel) :
    (cyclic model).Enclosed := by
  constructor <;> simp [cyclic]

private theorem enclosed_netTime (model : Datamodel) :
    (netTime model).Enclosed := by
  constructor <;> simp [netTime]

private theorem enclosed_valueCallback {dataset : Field} {function : Function}
    (made : valueCallback model dataset = .ok function) :
    function.Enclosed ∧ function.name = dataset.name ++ "_onchange_js_cb" := by
  obtain ⟨program, _, same⟩ := bind_eq_ok_iff.mp made
  cases same
  refine ⟨?_, rfl⟩
  constructor <;> simp

private theorem enclosed_publishMethod {dataset : Field} {function : Function}
    (made : publishMethod dataset = .ok function) :
    function.Enclosed ∧ function.name = dataset.name ++ "_publish_method" := by
  obtain ⟨program, _, same⟩ := bind_eq_ok_iff.mp made
  cases same
  refine ⟨?_, rfl⟩
  constructor <;> simp

@[simp]
theorem definitions_declareValues (names : List String) :
    definitions (declareValues names) = [] := by
  rw [declareValues]
  split <;> simp

@[simp]
theorem defines_createFunction (function variableName : String) :
    (createFunction function variableName).defines = [] := by
  simp [createFunction]

@[simp]
theorem definitions_datasetObject (dataset : Field) (program : Emission) :
    definitions (datasetObject dataset program) = [] := by
  simp only [datasetObject]
  split <;> split <;> simp

-- The local values of the function are declared with marks too, but indented.
private theorem enclosed_initFunction {function : Function}
    (made : initFunction model = .ok function) :
    function.Enclosed ∧ function.name = initName model := by
  obtain ⟨programs, _, same⟩ := bind_eq_ok_iff.mp made
  cases same
  refine ⟨?_, rfl⟩
  constructor
  · simp
  · simp [initDeclarations, initDefaults, initObjects, createOrReturn,
      initLogging, initBindings, initReferences, createReference,
      initConnections, initDataset, connectAll, connectDataset]

/-- Functions with these names, in order, that introduce nothing else. -/
structure Define (functions : List Function) (names : List String) : Prop where
  enclosed : ∀ function ∈ functions, function.Enclosed
  names : functions.map Function.name = names

namespace Define

variable {functions others : List Function} {names more : List String}

theorem single {function : Function} (enclosed : function.Enclosed) :
    Define [function] [function.name] :=
  ⟨List.forall_mem_singleton.mpr enclosed, rfl⟩

theorem append (first : Define functions names) (second : Define others more) :
    Define (functions ++ others) (names ++ more) where
  enclosed := List.forall_mem_append.mpr ⟨first.enclosed, second.enclosed⟩
  names := by rw [List.map_append, first.names, second.names]

theorem map {α : Type} {make : α → Function} (enclosed : ∀ x, (make x).Enclosed)
    (xs : List α) : Define (xs.map make) (xs.map fun x => (make x).name) where
  enclosed := List.forall_mem_map.mpr fun x _ => enclosed x
  names := List.map_map

theorem commented (define : Define functions names) (comment : String) :
    Define (Addon.commented comment functions) names := by
  cases functions with
  | nil => exact define
  | cons first rest =>
      obtain ⟨here, later⟩ := List.forall_mem_cons.mp define.enclosed
      exact ⟨List.forall_mem_cons.mpr ⟨⟨by simp, here.body⟩, later⟩,
        define.names⟩

theorem mapM {make : Field → Except EmitError Function} {ending : String}
    (each : ∀ dataset function, make dataset = .ok function →
      function.Enclosed ∧ function.name = dataset.name ++ ending)
    {datasets : List Field} (made : datasets.mapM make = .ok functions) :
    Define functions (datasets.map fun dataset => dataset.name ++ ending) := by
  induction datasets generalizing functions with
  | nil =>
      cases made
      exact ⟨nofun, rfl⟩
  | cons dataset rest induction =>
      rw [List.mapM_cons] at made
      obtain ⟨first, here, made⟩ := bind_eq_ok_iff.mp made
      obtain ⟨others, later, same⟩ := bind_eq_ok_iff.mp made
      cases same
      obtain ⟨enclosed, name⟩ := each dataset first here
      rw [List.map_cons, ← name]
      exact (single enclosed).append (induction later)

end Define

def endings (datasets : List Field) (ending : String) : List String :=
  datasets.map fun dataset => dataset.name ++ ending

/-- The names of a module's functions, in order. -/
def functionNames (model : Datamodel) : List String :=
  let object := model.objectName
  ["throw_fatal_exception_callbacks"] ++ ["datasetEvent", "datamodelEvent"] ++
    ["init_napi_onchange"] ++
    ([object ++ "_connonchange_js_cb", object ++ "_onprocessed_js_cb"] ++
      endings model.connected "_connonchange_js_cb") ++
    endings model.published "_onchange_js_cb" ++
    ([object ++ "_connonchange_init", object ++ "_onprocessed_init"] ++
      endings model.connected "_connonchange_init" ++
        endings model.published "_onchange_init") ++
    endings model.subscribed "_publish_method" ++
    ["log_error", "log_warning", "log_success", "log_info", "log_debug",
      "log_verbose"] ++
    ["cleanup_" ++ object, "cyclic", "get_net_time"] ++ ["init_" ++ object]

theorem define_valueCallbacks {functions : List Function}
    (made : valueCallbacks model = .ok functions) :
    Define functions (endings model.published "_onchange_js_cb") := by
  obtain ⟨values, mapped, same⟩ := bind_eq_ok_iff.mp made
  cases same
  exact (Define.mapM (fun _ _ => enclosed_valueCallback) mapped).commented _

private theorem define_publishMethods {functions : List Function}
    (made : publishMethods model = .ok functions) :
    Define functions (endings model.subscribed "_publish_method") := by
  obtain ⟨methods, mapped, same⟩ := bind_eq_ok_iff.mp made
  cases same
  exact (Define.mapM (fun _ _ => enclosed_publishMethod) mapped).commented _

private theorem define_registrationMethods (model : Datamodel) :
    Define (registrationMethods model)
      ([model.objectName ++ "_connonchange_init",
          model.objectName ++ "_onprocessed_init"] ++
        endings model.connected "_connonchange_init" ++
        endings model.published "_onchange_init") := by
  have method := fun name label callback listener =>
    Define.single (enclosed_registrationMethod name label callback listener)
  apply Define.append
  · apply Define.append
    · exact (method _ _ _ _).append (method _ _ _ _)
    · exact Define.map (fun dataset => enclosed_registrationMethod _ _ _ _) _
  · exact Define.map (fun dataset => enclosed_registrationMethod _ _ _ _) _

theorem define_functions {functions : List Function}
    (made : Addon.functions model = .ok functions) :
    Define functions (functionNames model) := by
  obtain ⟨values, valued, made⟩ := bind_eq_ok_iff.mp made
  obtain ⟨publishing, published, made⟩ := bind_eq_ok_iff.mp made
  obtain ⟨init, started, same⟩ := bind_eq_ok_iff.mp made
  cases same
  obtain ⟨enclosed, named⟩ := enclosed_initFunction started
  have handlers := (Define.single (enclosed_datasetEvent model)).append
    (.single (enclosed_datamodelEvent model))
  have connections :=
    ((Define.single (enclosed_connectionCallback model)).append
    (.single (enclosed_processedCallback model))).append
      (.map enclosed_datasetConnectionCallback model.connected)
  have logging :=
    (Define.map (enclosed_logMethod model) logLevels).commented
      "//logging functions"
  have services := (Define.single (enclosed_cleanup model)).append
    ((Define.single (enclosed_cyclic model)).append
      (.single (enclosed_netTime model)))
  have start := Define.single enclosed
  rw [named] at start
  have front := ((Define.single enclosed_fatal).append handlers).append
    (.single enclosed_registration)
  have callbacks :=
    (front.append connections).append (define_valueCallbacks valued)
  have methods := (callbacks.append (define_registrationMethods model)).append
    (define_publishMethods published)
  exact ((methods.append logging).append services).append start

/-- The names of a module's objects and of their type, in order. -/
def objectNames (model : Datamodel) : List String :=
  ["logger", "obj_handles", model.objectName] ++
    model.connected.map handleName ++
    ["cyclic_h", "exos_data", datamodelName model] ++
      model.connected.map datasetName

private theorem definitions_objectLines (model : Datamodel) :
    definitions (objectLines model) = objectNames model := by
  have object : ∀ type name, (objectLine type name).defines = [name] :=
    fun _ _ => rfl
  have line : ∀ before name after,
      (Line.indented 0 [.text before, declares name, .text after]).defines =
          [name] :=
    fun _ _ _ => rfl
  simp [objectLines, objectNames, object, line, List.map_eq_flatMap]

private theorem definitions_preamble (model : Datamodel) (options : Options) :
    definitions (preamble model options) = objectNames model := by
  have issues : definitions (if options.knownIssues then issueLines else []) =
      [] := by
    split <;> simp [issueLines]
  rw [preamble, Source.definitions_append, Source.definitions_append, issues,
    definitions_objectLines]
  simp [includeLines]

/-- A module introduces its objects, their type, and its functions. -/
theorem definitions_lines {options : Options} {source : Source}
    (made : lines model options = .ok source) :
    definitions source = objectNames model ++ functionNames model := by
  obtain ⟨_, _, made⟩ := bind_eq_ok_iff.mp made
  obtain ⟨functions, built, same⟩ := bind_eq_ok_iff.mp made
  cases same
  have define := define_functions built
  have hooked : definitions (hook model) = [] := rfl
  rw [Source.definitions_append, Source.definitions_append,
    definitions_preamble, definitions_functionLines define.enclosed,
    define.names, hooked, List.append_nil]

end Addon

end DataBridge
