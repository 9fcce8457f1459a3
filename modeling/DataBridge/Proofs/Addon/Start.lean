import DataBridge.Proofs.Addon.Calls
import DataBridge.Proofs.Program.Declaration

/-!
# The function that runs at the start

The function that runs when the module is loaded hands over functions above it,
names objects of the datamodel, and writes to local values that it declares
first.
-/

namespace DataBridge

open Text (inWord IsWord Quotable)

open Datamodel (mem_fields_of_connected)

namespace Addon

variable {scope : Scope} {dataset : Field} {temps : List Temp} {name : String}

def fixedLocals : List String :=
  ["dataModel", "getNetTime", "undefined", "def_bool", "def_number",
    "def_string", "log", "logError", "logWarning", "logSuccess", "logInfo",
    "logDebug", "logVerbose"]

/-- The local values of the function, of which `temps` belong to programs. -/
inductive LocalName (model : Datamodel) (temps : List Temp) :
    String → Prop where
  | connection : LocalName model temps (model.objectName ++ "_conn_change")
  | processed : LocalName model temps (model.objectName ++ "_onprocessed")
  | datasetConnection {dataset : Field} (known : dataset ∈ model.connected) :
      LocalName model temps (dataset.name ++ "_conn_change")
  | change {dataset : Field} (known : dataset ∈ model.published) :
      LocalName model temps (dataset.name ++ "_onchange")
  | publish {dataset : Field} (known : dataset ∈ model.subscribed) :
      LocalName model temps (dataset.name ++ "_publish")
  | value {dataset : Field} (known : dataset ∈ model.connected) :
      LocalName model temps (dataset.name ++ "_value")
  | fixed {name : String} (listed : name ∈ fixedLocals) :
      LocalName model temps name
  | temp {temp : Temp} (known : temp ∈ temps) (type : temp.nativeType =
      "napi_value") :
      LocalName model temps temp.identifier

theorem LocalName.plain (spelled : scope.model.Spelled)
    (localName : LocalName scope.model temps name) :
    IsWord name ∧ ¬ IsObjectName name := by
  cases localName with
  | connection =>
      exact ⟨spelled.objectEnding (by decide),
        not_isObjectName_append (by decide) _⟩
  | processed =>
      exact ⟨spelled.objectEnding (by decide),
        not_isObjectName_append (by decide) _⟩
  | datasetConnection known =>
      exact ⟨spelled.ending known (by decide),
        not_isObjectName_append (by decide) _⟩
  | change known =>
      have connected := Datamodel.mem_connected_of_published known
      exact ⟨spelled.ending connected (by decide),
        not_isObjectName_append (by decide) _⟩
  | publish known =>
      have connected := Datamodel.mem_connected_of_subscribed known
      exact ⟨spelled.ending connected (by decide),
        not_isObjectName_append (by decide) _⟩
  | value known =>
      exact ⟨spelled.ending known (by decide),
        not_isObjectName_append (by decide) _⟩
  | fixed listed =>
      have fixed : ∀ name ∈ fixedLocals, IsWord name ∧
          ∀ ending ∈ LineReader.objectEndings, ¬ ending <:+ name.toList :=
            by decide
      obtain ⟨isWord, apart⟩ := fixed name listed
      exact ⟨isWord, not_isObjectName apart⟩
  | temp known type => exact ⟨isWord_temp _, not_isObjectName_temp _⟩

/-- What the function that runs at the start relies on. -/
structure Scope.Starts (scope : Scope) (temps : List Temp) : Prop where
  spelled : scope.model.Spelled
  above : ∀ name ∈ (functionNames scope.model).dropLast, scope.functions name
  declared : ∀ names, scope.locals = some names →
    ∀ name, LocalName scope.model temps name → names name

namespace Scope.Starts

theorem knows (starts : scope.Starts temps)
    (localName : LocalName scope.model temps name) : scope.Knows name := by
  obtain ⟨isWord, other⟩ := localName.plain starts.spelled
  exact .of_local isWord other fun names restricted =>
    starts.declared names restricted name localName

end Scope.Starts

private theorem split_createFunction :
    "napi_create_function(env, NULL, 0, " =
      "napi_create_function" ++ "(env, NULL, 0, " := by
  decide

theorem allowed_createFunction {function : String} (isWord : IsWord function)
    (known : scope.functions function) (knows : scope.Knows name) :
    Allowed scope (createFunction function name) := by
  have listed : ("napi_create_function", 3) ∈ callees scope.model :=
    List.mem_cons_self
  refine .indented ?_
  rw [List.map_cons, Piece.render, split_createFunction]
  refine .split (.call listed (by decide) isWord known (by decide)
    (.lit rfl (.inl rfl)) ?_)
  refine .lit rfl
    (.plain isWord (by decide) (.inl (by decide)) (.lit rfl (by decide)) ?_)
  exact .lit rfl (.known knows (.lit rfl (by decide)) (.lit rfl (.nil rfl)))

section Sections

variable (starts : scope.Starts temps)
include starts

private theorem allowed_initDefaults : AllAllowed scope initDefaults := by
  have value : ∀ name ∈ fixedLocals, scope.Knows name := fun name listed =>
    starts.knows (.fixed listed)
  simp only [initDefaults, AllAllowed.cons_iff, AllAllowed.nil,
    AllAllowed.blank, and_true]
  refine ⟨.indented ?_, .indented ?_, .indented ?_, .indented ?_⟩
  · exact .lit rfl (.known (value _ (by decide)) (.lit rfl (by decide))
      (.lit rfl (.nil rfl)))
  · exact .lit rfl (.known (value _ (by decide)) (.lit rfl (by decide))
      (.lit rfl (.nil rfl)))
  · refine .split (.long LineReader.gap (by decide +kernel)
      (by decide +kernel) ?_)
    refine .long ⟨false, some '&', []⟩ (by decide +kernel)
      (by decide +kernel) ?_
    exact .known (value _ (by decide)) (.lit rfl (by decide))
      (.lit rfl (.nil rfl))
  · exact .lit rfl (.known (value _ (by decide)) (.lit rfl (by decide))
      (.lit rfl (.nil rfl)))

omit starts in
theorem allowed_createOrReturn {target : String}
    (reaches : scope.Reaches target) :
    AllAllowed scope (createOrReturn target) := by
  simp only [createOrReturn, AllAllowed.cons_iff, AllAllowed.nil,
    AllAllowed.blank, and_true]
  refine ⟨.indented ?_, .indented reads_returnNull⟩
  exact .lit rfl (.reached reaches (.lit rfl (by decide)) (.lit rfl (.nil rfl)))

private theorem allowed_initObjects :
    AllAllowed scope (initObjects scope.model) := by
  have value : ∀ name ∈ fixedLocals, scope.Knows name := fun name listed =>
    starts.knows (.fixed listed)
  have object := knows_objectName starts.spelled
  simp only [initObjects, AllAllowed.append_iff, AllAllowed.cons_iff,
    AllAllowed.flatMap_iff]
  refine ⟨.lit rfl rfl, ⟨⟨?_, ?_⟩, ?_⟩, ?_⟩
  · exact allowed_createOrReturn (.name (value _ (by decide)))
  · exact allowed_createOrReturn (.name (value _ (by decide)))
  · exact allowed_createOrReturn (.member object (by decide) (by decide))
  · intro dataset known
    have handle := knows_handleName starts.spelled known
    exact allowed_createOrReturn (.member handle (by decide) (by decide))

/-- The program that builds the value of a dataset. -/
theorem allowed_defaults {program : Emission}
    (known : dataset ∈ scope.model.connected)
    (made : defaultsProgram dataset = .ok program)
    (within : ∀ temp ∈ program.temps, temp ∈ temps) :
    AllAllowed scope (program.lines .throwAndReturn 1) := by
  have fixed : ∀ name ∈ fixedLocals, scope.Knows name := fun name listed =>
    starts.knows (.fixed listed)
  have spelled := starts.spelled.types dataset (mem_fields_of_connected known)
  obtain ⟨maxSlot, equal⟩ := (Layout.outDataset_computes .defaults
    (.external (dataset.name ++ "_value")) dataset).finish .outgoing {}
  rw [defaultsProgram, Flattening.fresh, Field.defaultsEmission, equal] at made
  split at made <;> cases made
  have holds : Layout.Holds fun _ => False :=
    ⟨fun _ _ never _ => never, fun _ _ never _ => never⟩
  have origin : Layout.OriginWithin (fun _ => False) .defaults := trivial
  rw [Emission.lines]
  apply allowed_program
    (Layout.outDataset_spelled holds origin Naming.inWord_of_mem_free spelled)
  · intro temp used type
    exact starts.knows
      (.temp (within temp (Temp.mem_ordered_iff.mpr used)) type)
  · exact .name (starts.knows (.value known))
  · exact fun _ never => never.elim
  · intro value
    cases value <;> exact fixed _ (by decide)

/-- The functions above that belong to a dataset. -/
theorem above_dataset (known : dataset ∈ scope.model.connected) :
    scope.functions (dataset.name ++ "_connonchange_init") ∧
      (dataset.flags.published = true →
        scope.functions (dataset.name ++ "_onchange_init")) ∧
      (dataset.flags.subscribed = true →
        scope.functions (dataset.name ++ "_publish_method")) := by
  have listed : ∀ {datasets : List Field} {ending : String},
      dataset ∈ datasets →
        dataset.name ++ ending ∈ endings datasets ending :=
    fun inside => List.mem_map.mpr ⟨dataset, inside, rfl⟩
  have above := starts.above
  simp only [functionNames, List.dropLast_concat, List.forall_mem_append]
    at above
  obtain ⟨⟨⟨⟨_, ⟨_, connections⟩, changes⟩, methods⟩, _⟩, _⟩ := above
  refine ⟨connections _ (listed known), ?_, ?_⟩
  · intro published
    exact changes _ (listed (List.mem_filter.mpr ⟨known, published⟩))
  · intro subscribed
    exact methods _ (listed (List.mem_filter.mpr ⟨known, subscribed⟩))

theorem above_module :
    ∀ name ∈ [scope.model.objectName ++ "_connonchange_init",
        scope.model.objectName ++ "_onprocessed_init",
        "cleanup_" ++ scope.model.objectName, "datasetEvent", "datamodelEvent",
        "cyclic", "get_net_time", "log_error", "log_warning", "log_success",
        "log_info", "log_debug", "log_verbose"],
      scope.functions name := by
  have above := starts.above
  simp only [functionNames, List.dropLast_concat, List.forall_mem_append,
    List.forall_mem_cons]
    at above ⊢
  grind

private theorem allowed_datasetObject {program : Emission}
    (known : dataset ∈ scope.model.connected)
    (made : defaultsProgram dataset = .ok program)
    (within : ∀ temp ∈ program.temps, temp ∈ temps) :
    AllAllowed scope (datasetObject dataset program) := by
  obtain ⟨connection, change, publish⟩ := above_dataset starts known
  have spelled := starts.spelled
  have fixed : ∀ name ∈ fixedLocals, scope.Reaches name := fun name listed =>
    .name (starts.knows (.fixed listed))
  have object : scope.Reaches (handleName dataset ++ ".value") :=
    .member (knows_handleName spelled known) (by decide) (by decide)
  have connectionValue := starts.knows (.datasetConnection known)
  simp only [datasetObject, AllAllowed.append_iff, AllAllowed.cons_iff,
    AllAllowed.nil, AllAllowed.blank, and_true]
  refine ⟨⟨⟨allowed_defaults starts known made within, ?_⟩, ?_⟩, .indented ?_,
    allowed_createFunction (spelled.ending known (by decide)) connection
      connectionValue,
    .indented ?_, .indented ?_⟩
  · split
    · rename_i published
      have value :=
        starts.knows (.change (List.mem_filter.mpr ⟨known, published⟩))
      simp only [AllAllowed.cons_iff, AllAllowed.nil, and_true]
      exact ⟨allowed_createFunction (spelled.ending known (by decide))
        (change published) value,
        .indented (reads_setProperty (.lit (by decide)) object (.name value)),
        .indented (reads_setProperty (.lit (by decide)) object
          (fixed _ (by decide))),
        .indented (reads_setProperty (.lit (by decide)) object
          (fixed _ (by decide)))⟩
    · exact .nil
  · split
    · rename_i subscribed
      have value :=
        starts.knows (.publish (List.mem_filter.mpr ⟨known, subscribed⟩))
      simp only [AllAllowed.cons_iff, AllAllowed.nil, and_true]
      exact ⟨allowed_createFunction (spelled.ending known (by decide))
        (publish subscribed) value,
        .indented (reads_setProperty (.lit (by decide)) object (.name value))⟩
    · exact .nil
  · exact reads_setProperty (.lit (by decide)) object
      (.name (starts.knows (.value known)))
  · exact reads_setProperty (.lit (by decide)) object (.name connectionValue)
  · exact reads_setProperty (.lit (by decide)) object (fixed _ (by decide))

private theorem allowed_initLogging : AllAllowed scope initLogging := by
  have above := above_module starts
  have fixed : ∀ name ∈ fixedLocals, scope.Knows name := fun name listed =>
    starts.knows (.fixed listed)
  have each : ∀ level ∈ logLevels,
      IsWord level.1 ∧ IsWord (logMethodName level.1) ∧
      logMethodName level.1 ∈ ["log_error", "log_warning", "log_success",
        "log_info", "log_debug", "log_verbose"] ∧
      logVariable level.1 ∈ fixedLocals := by
    decide
  simp only [initLogging, AllAllowed.append_iff, AllAllowed.cons_iff,
    AllAllowed.flatMap_iff, AllAllowed.nil, AllAllowed.blank, and_true]
  refine ⟨.lit rfl rfl, ?_⟩
  intro level listed
  obtain ⟨name, method, known, value⟩ := each level listed
  have value := fixed _ value
  have known : scope.functions (logMethodName level.1) := by
    apply above
    simp only [List.mem_cons, List.not_mem_nil, or_false] at known ⊢
    simp only [known, or_true]
  exact ⟨allowed_createFunction method known value,
    .indented (reads_setProperty name.quotable (.name (fixed "log" (by decide)))
      (.name value))⟩

private theorem allowed_initBindings :
    AllAllowed scope (initBindings scope.model) := by
  have above := above_module starts
  simp only [List.forall_mem_cons] at above
  obtain ⟨connection, processed, _, _, _, _, netTime, _⟩ := above
  have spelled := starts.spelled
  have fixed : ∀ name ∈ fixedLocals, scope.Reaches name := fun name listed =>
    .name (starts.knows (.fixed listed))
  have object : scope.Reaches (scope.model.objectName ++ ".value") :=
    .member (knows_objectName spelled) (by decide) (by decide)
  have exported : Reads scope {} ((setProperty "exports" scope.model.name
      (scope.model.objectName ++ ".value")).map Piece.render) := by
    have quotable := spelled.name.quotable
    have exports : IsWord "exports" := by decide
    refine .lit rfl (.plain exports (by decide) (.inl (by decide))
      (.split (.split (.lit rfl (by decide)))) ?_)
    refine .split (.split (.lit rfl
      (.quoted quotable.1 quotable.2 (.lit rfl ?_))))
    exact .reached object (.lit rfl (by decide)) (.lit rfl (.nil rfl))
  simp only [initBindings, AllAllowed.append_iff, AllAllowed.cons_iff,
    AllAllowed.map_iff, AllAllowed.nil, AllAllowed.blank, true_and, and_true]
  refine ⟨⟨.lit rfl rfl, ?_⟩, .indented ?_,
    allowed_createFunction (spelled.objectEnding (by decide)) connection
      (starts.knows .connection),
    .indented ?_, .indented ?_, .indented ?_, .indented ?_,
    allowed_createFunction (spelled.objectEnding (by decide)) processed
      (starts.knows .processed),
    .indented ?_,
    allowed_createFunction (by decide) netTime
      (starts.knows (.fixed (by decide))),
    .indented ?_, .indented ?_, .lit rfl rfl, .indented exported⟩
  · intro dataset known
    have isWord := spelled.names dataset (mem_fields_of_connected known)
    refine .indented
      (reads_setProperty isWord.quotable (fixed _ (by decide)) ?_)
    exact .member (knows_handleName spelled known) (by decide) (by decide)
  · exact reads_setProperty (.lit (by decide)) object (fixed _ (by decide))
  · exact reads_setProperty (.lit (by decide)) object
      (.name (starts.knows .connection))
  · exact reads_setProperty (.lit (by decide)) object (fixed _ (by decide))
  · exact reads_setProperty (.lit (by decide)) object (fixed _ (by decide))
  · exact reads_setProperty (.lit (by decide)) object (fixed _ (by decide))
  · exact reads_setProperty (.lit (by decide)) object
      (.name (starts.knows .processed))
  · exact reads_setProperty (.lit (by decide)) object (fixed _ (by decide))
  · exact reads_setProperty (.lit (by decide)) object (fixed _ (by decide))

omit starts in
theorem allowed_createReference {object : String} (known : scope.Knows object) :
    AllAllowed scope (createReference object) := by
  have value : scope.Reaches (object ++ ".value") :=
    .member known (by decide) (by decide)
  have count : scope.Reaches (object ++ ".ref_count") :=
    .member known (by decide) (by decide)
  have reference : scope.Reaches (object ++ ".ref") :=
    .member known (by decide) (by decide)
  refine .refused
    ?_ (((Quotable.lit (by decide)).append known.word.quotable).append
    (.lit (by decide)))
  refine .lit rfl (.reached value (.lit rfl (by decide)) (.lit rfl ?_))
  refine .reached count (.lit rfl (by decide)) (.lit rfl ?_)
  exact .reached reference (.lit rfl (by decide))
    (.lit rfl (.lit rfl (.nil rfl)))

omit starts in
private theorem split_cleanupHook :
    "napi_ok != napi_add_env_cleanup_hook(env, " =
    "napi_ok != " ++ ("napi_add_env_cleanup_hook" ++ "(env, ") := by
  decide

private theorem allowed_initReferences :
    AllAllowed scope (initReferences scope.model) := by
  have above := above_module starts
  simp only [List.forall_mem_cons] at above
  obtain ⟨_, _, cleanup, _⟩ := above
  have spelled := starts.spelled
  have isWord : IsWord (cleanupName scope.model) :=
    (show IsWord "cleanup_" by decide).append spelled.objectName.2
  have listed : ("napi_add_env_cleanup_hook", 1) ∈ callees scope.model :=
    .tail _ (.tail _ List.mem_cons_self)
  simp only [initReferences, AllAllowed.append_iff, AllAllowed.cons_iff,
    AllAllowed.flatMap_iff, AllAllowed.nil, AllAllowed.blank, true_and,
    and_true, List.forall_mem_cons, List.forall_mem_map]
  refine ⟨⟨⟨.lit rfl rfl, allowed_createReference (knows_objectName spelled),
    ?_⟩, .lit rfl rfl⟩,
    .refused ?_ (.lit (by decide))⟩
  · exact fun dataset known =>
      allowed_createReference (knows_handleName spelled known)
  · rw [List.map_cons, Piece.render, split_cleanupHook]
    refine .split (.lit rfl (.split ?_))
    refine .call listed (by decide) isWord cleanup (by decide)
      (.lit rfl (.inl rfl)) ?_
    refine .lit rfl
      (.plain isWord (by decide) (.inl (by decide)) (.lit rfl (by decide)) ?_)
    exact .lit rfl (.lit rfl (.nil rfl))

private theorem allowed_initDataset (known : dataset ∈ scope.model.connected) :
    AllAllowed scope (initDataset scope.model dataset) := by
  have spelled := starts.spelled
  have connection := knows_datasetName spelled known
  have isWord := spelled.names dataset (mem_fields_of_connected known)
  have quotable := isWord.quotable
  simp only [initDataset, AllAllowed.append_iff, AllAllowed.cons_iff,
    AllAllowed.nil, AllAllowed.blank, and_true]
  refine ⟨.reported ?_ (.append (.lit (by decide)) quotable), .indented ?_,
    .indented ?_⟩
  · refine .lit rfl (.known connection (.lit rfl (by decide)) (.lit rfl ?_))
    refine .known (knows_datamodelName spelled)
      (.split (.split (.lit rfl (by decide)))) ?_
    refine .split (.split (.lit rfl
      (.quoted quotable.1 quotable.2 (.lit rfl ?_))))
    refine .split (.lit rfl
      (.member isWord (.lit rfl (by decide)) (.lit rfl ?_)))
    exact .split (.lit rfl
      (.member isWord (.lit rfl (by decide)) (.lit rfl (.lit rfl (.nil rfl)))))
  · exact .known connection (.lit rfl (by decide)) (.lit rfl (.nil rfl))
  · exact .known connection (.lit rfl (by decide)) (.lit rfl (.nil rfl))

private theorem allowed_initConnections :
    AllAllowed scope (initConnections scope.model) := by
  have spelled := starts.spelled
  have connection := knows_datamodelName spelled
  have quotable := spelled.name.quotable
  simp only [initConnections, AllAllowed.append_iff, AllAllowed.cons_iff,
    AllAllowed.flatMap_iff, AllAllowed.nil, AllAllowed.blank, true_and,
    and_true]
  refine ⟨⟨⟨⟨⟨.lit rfl rfl, .reported ?_ (.append (.lit (by decide)) quotable)⟩,
    .indented ?_, .indented ?_⟩, fun dataset known =>
      allowed_initDataset starts known⟩,
    .reported ?_ (.append (.lit (by decide)) quotable)⟩, .text ?_⟩
  · refine .lit rfl
      (.known connection
        (.split (.split (.split (.split (.lit rfl (by decide)))))) ?_)
    refine .split (.split (.split (.split (.lit rfl ?_))))
    refine .quoted quotable.1 quotable.2 (.lit rfl ?_)
    exact .quoted quotable.1 quotable.2 (.lit rfl (.lit rfl (.nil rfl)))
  · exact .known connection (.lit rfl (by decide)) (.lit rfl (.nil rfl))
  · exact .known connection (.lit rfl (by decide)) (.lit rfl (.nil rfl))
  · refine .split (.split (.lit rfl
      (.quoted quotable.1 quotable.2 (.lit rfl ?_))))
    exact .lit rfl (.nil rfl)
  · exact .split (.split (.lit rfl
      (.quoted quotable.1 quotable.2 (.lit rfl (.nil rfl)))))

omit starts in
private theorem split_datasetConnect :
    "EXOS_ERROR_OK != exos_dataset_connect(&" =
    "EXOS_ERROR_OK != " ++ ("exos_dataset_connect" ++ "(&") := by
  decide

omit starts in
private theorem split_datamodelConnect :
    "EXOS_ERROR_OK != exos_datamodel_connect_" =
    "EXOS_ERROR_OK != " ++ "exos_datamodel_connect_" := by
  decide

theorem reads_datasetConnect (known : dataset ∈ scope.model.connected)
    {mode : List Char} (whole : ∀ c ∈ mode, (c ≠ ',' && c ≠ ')') = true)
    (harmless : LineReader.harmless true LineReader.gap (mode ++ [',', ' ']) =
      true)
    (after : LineReader.gap.after (mode ++ [',', ' ']) = LineReader.gap) :
    Reads scope ⟨false, some '(', []⟩
      ["EXOS_ERROR_OK != exos_dataset_connect(&", datasetName dataset,
        ", " ++ String.ofList mode ++ ", ", "datasetEvent", ")", ")"] := by
  have above := above_module starts "datasetEvent" (by simp)
  have connection := knows_datasetName starts.spelled known
  have listed : ("exos_dataset_connect", 2) ∈ callees scope.model :=
    .tail _ (.tail _ (.tail _ List.mem_cons_self))
  have event : IsWord "datasetEvent" := by decide
  have front :
      leads 2 ('&' :: (datasetName dataset).toList ++
        ',' :: (' ' :: mode ++ [',', ' '])) = true := by
    have address : ∀ c ∈ '&' :: (datasetName dataset).toList,
        (c ≠ ',' && c ≠ ')') = true :=
      List.forall_mem_cons.mpr ⟨by decide, whole_of_inWord connection.word.2⟩
    have blank : ∀ c ∈ ' ' :: mode, (c ≠ ',' && c ≠ ')') = true :=
      List.forall_mem_cons.mpr ⟨by decide, whole⟩
    exact leads_cut address (leads_cut blank rfl)
  have hands : Hands 2 "datasetEvent"
      ["(&", datasetName dataset, ", " ++ String.ofList mode ++ ", ",
          "datasetEvent", ")", ")"] :=
    ⟨_, ')', [')'], by simp, front, .inr rfl⟩
  have joined : ", " ++ String.ofList mode ++ ", " =
      ", " ++ String.ofList (mode ++ [',', ' ']) := by
    rw [String.append_assoc, String.ofList_append]
  rw [split_datasetConnect]
  refine .split (.lit rfl
    (.split (.call listed (by decide) event above (by decide) hands ?_)))
  refine .lit rfl
    (.known connection (.split (.split (.lit rfl (by decide)))) ?_)
  rw [joined]
  refine .split (.lit rfl (.long LineReader.gap harmless after ?_))
  exact .plain event (by decide) (.inl (by decide)) (.lit rfl (by decide))
    (.lit rfl (.lit rfl (.nil rfl)))

private theorem allowed_connectDataset
    (known : dataset ∈ scope.model.connected) :
    AllAllowed scope (connectDataset dataset) := by
  have quotable :=
    (starts.spelled.names dataset (mem_fields_of_connected known)).quotable
  simp only [connectDataset, AllAllowed.append_iff, AllAllowed.cons_iff,
    AllAllowed.nil, AllAllowed.blank, and_true]
  refine .reported ?_ (.append (.lit (by decide)) quotable)
  unfold connectionMode
  split
  · exact reads_datasetConnect starts known (by decide) rfl rfl
  · exact reads_datasetConnect starts known (by decide) rfl rfl
  · exact reads_datasetConnect starts known (by decide) rfl rfl

private theorem allowed_connectAll :
    AllAllowed scope (connectAll scope.model) := by
  have above := above_module starts "datamodelEvent" (by simp)
  have spelled := starts.spelled
  have connection := knows_datamodelName spelled
  have listed : ("exos_datamodel_connect_" ++ Text.lower scope.model.name, 1) ∈
      callees scope.model :=
        .tail _ (.tail _ (.tail _ (.tail _ List.mem_cons_self)))
  have connect :
      IsWord ("exos_datamodel_connect_" ++ Text.lower scope.model.name) :=
    (show IsWord "exos_datamodel_connect_" by decide).append
      spelled.name.lower.2
  have event : IsWord "datamodelEvent" := by decide
  have front :
      leads 1 ('&' :: (datamodelName scope.model).toList ++ [',', ' ']) =
      true := by
    have address : ∀ c ∈ '&' :: (datamodelName scope.model).toList,
        (c ≠ ',' && c ≠ ')') = true :=
      List.forall_mem_cons.mpr ⟨by decide, whole_of_inWord connection.word.2⟩
    exact leads_cut address rfl
  have hands : Hands 1 "datamodelEvent"
      ["(&", datamodelName scope.model, ", ", "datamodelEvent", ")", ")"] :=
    ⟨_, ')', [')'], by simp, front, .inr rfl⟩
  simp only [connectAll, AllAllowed.append_iff, AllAllowed.cons_iff,
    AllAllowed.flatMap_iff, AllAllowed.nil, AllAllowed.blank, true_and,
    and_true]
  refine ⟨⟨⟨.lit rfl rfl,
    .reported ?_ (.append (.lit (by decide)) spelled.name.quotable)⟩,
    .lit rfl rfl⟩, fun dataset known => allowed_connectDataset starts known⟩
  have callee :
      "EXOS_ERROR_OK != exos_datamodel_connect_" ++
        Text.lower scope.model.name ++ "(&" =
      "EXOS_ERROR_OK != " ++
        ("exos_datamodel_connect_" ++ Text.lower scope.model.name ++
          "(&") := by
    rw [split_datamodelConnect]
    simp only [String.append_assoc]
  rw [List.map_cons, Piece.render, callee]
  refine .split (.lit rfl
    (.split (.call listed connect event above (by decide) hands ?_)))
  refine .lit rfl (.known connection (.lit rfl (by decide)) (.lit rfl ?_))
  exact .plain event (by decide) (.inl (by decide)) (.lit rfl (by decide))
    (.lit rfl (.lit rfl (.nil rfl)))

omit starts in
private theorem split_idleStart :
    "uv_idle_start(&cyclic_h, " = "uv_idle_start" ++ "(&cyclic_h, " := by
  decide

private theorem reads_idleStart :
    Reads scope {} ["uv_idle_start(&cyclic_h, ", cyclicName, ");"] := by
  have above := above_module starts "cyclic" (by simp)
  have listed : ("uv_idle_start", 1) ∈ callees scope.model :=
    .tail _ (.tail _ (.tail _ (.tail _ (.tail _ List.mem_cons_self))))
  have handler : IsWord cyclicName := by decide
  rw [split_idleStart]
  refine .split (.call listed (by decide) handler above (by decide)
    (.lit rfl (.inr rfl)) ?_)
  refine .lit rfl
    (.plain handler (by decide) (.inl (by decide)) (.lit rfl (by decide)) ?_)
  exact .lit rfl (.nil rfl)

end Sections

section Declarations

variable {model : Datamodel}

theorem allowed_initDeclarations (spelled : scope.model.Spelled)
    (temps : List Temp) :
    AllAllowed scope (initDeclarations scope.model temps) := by
  have ends : ∀ {datasets : List Field} {ending : String},
      (∀ dataset ∈ datasets, dataset ∈ scope.model.connected) →
      (∀ c ∈ ending.toList, inWord c = true) → ∀ name ∈ endings datasets ending,
          IsWord name := by
    intro datasets ending known inside
    refine List.forall_mem_map.mpr fun dataset listed => ?_
    exact (spelled.names dataset
      (mem_fields_of_connected (known dataset listed))).append inside
  have published := fun dataset =>
    @Datamodel.mem_connected_of_published scope.model dataset
  have subscribed := fun dataset =>
    @Datamodel.mem_connected_of_subscribed scope.model dataset
  have shared : ∀ name ∈ ["dataModel", "getNetTime", "undefined", "def_bool",
      "def_number", "def_string"], IsWord name := by decide
  have logging : ∀ name ∈ "log" :: logLevels.map fun level =>
      logVariable level.1, IsWord name := by
    decide
  simp only [initDeclarations, AllAllowed.append_iff, AllAllowed.cons_iff,
    AllAllowed.nil, AllAllowed.blank, and_true, and_assoc]
  refine ⟨?_, ?_, ?_, ?_, ?_, ?_, allowed_declarations 1 temps⟩
  · apply allowed_declareValues
    simp only [List.forall_mem_append, List.forall_mem_cons]
    exact ⟨⟨spelled.objectEnding (by decide), spelled.objectEnding (by decide),
      List.forall_mem_nil _⟩,
      ends (fun _ known => known) (by decide)⟩
  · exact allowed_declareValues (ends published (by decide))
  · exact allowed_declareValues (ends subscribed (by decide))
  · exact allowed_declareValues (ends (fun _ known => known) (by decide))
  · exact allowed_declareValues shared
  · exact allowed_declareValues logging

/-- A line that declares a value for JavaScript, and maybe others. -/
def DeclaresValue (line name : String) : Prop :=
  ∃ names : List String,
    line = "    napi_value " ++ ", ".intercalate names ++ ";" ∧ name ∈ names

theorem declaresValue_of_commas {pieces : List Piece} {names : List String}
    (spelled : pieces.map Piece.render = names) (known : name ∈ names) :
    DeclaresValue
      (Line.indented 1
        (.text "napi_value " :: (Render.commas pieces ++ [.text ";"]))).content
      name := by
  refine ⟨names, ?_, known⟩
  apply String.toList_injective
  rw [Line.content, List.map_cons, List.map_append, String.join_cons,
    String.join_append, Render.commas_text, spelled]
  simp [indentation, Piece.render]

private theorem declareValues_declares {names : List String}
    (known : name ∈ names) :
    ∃ line ∈ declareValues names, DeclaresValue line.content name := by
  have some : ¬ names.isEmpty = true := by
    rw [List.isEmpty_iff]
    rintro rfl
    cases known
  rw [declareValues, if_neg some]
  refine ⟨_, List.mem_singleton_self _, declaresValue_of_commas ?_ known⟩
  rw [List.map_map]
  exact List.map_id _

private theorem declarations_declare {temps : List Temp} {temp : Temp}
    (known : temp ∈ temps) (type : temp.nativeType = "napi_value") :
    ∃ line ∈ Render.declarations 1 temps,
      DeclaresValue line.content temp.identifier := by
  by_cases slot : temp.isSlot = true
  · have listed : temp ∈ temps.filter Temp.isSlot :=
      List.mem_filter.mpr ⟨known, slot⟩
    have some : ¬ (temps.filter Temp.isSlot).isEmpty = true := by
      rw [List.isEmpty_iff]
      exact List.ne_nil_of_mem listed
    simp only [Render.declarations, if_neg some]
    refine ⟨_, List.mem_append_left _ (List.mem_singleton_self _),
      declaresValue_of_commas rfl ?_⟩
    rw [List.map_map]
    exact List.mem_map.mpr ⟨temp, listed, rfl⟩
  · have listed : temp ∈ temps.filter fun temp => !temp.isSlot :=
      List.mem_filter.mpr ⟨known, by simpa using slot⟩
    refine ⟨_, List.mem_append_right _ (List.mem_map.mpr ⟨temp, listed, rfl⟩),
      ?_⟩
    refine ⟨[temp.identifier], ?_, List.mem_singleton_self _⟩
    apply String.toList_injective
    simp [Line.content, indentation, Piece.render, declares, type]

/-- The names that are declared together. -/
def declaredTogether (model : Datamodel) : List (List String) :=
  [[model.objectName ++ "_conn_change", model.objectName ++ "_onprocessed"] ++
      endings model.connected "_conn_change",
    endings model.published "_onchange", endings model.subscribed "_publish",
    endings model.connected "_value",
    ["dataModel", "getNetTime", "undefined", "def_bool", "def_number",
      "def_string"],
    "log" :: logLevels.map fun level => logVariable level.1]

theorem LocalName.together {temps : List Temp}
    (localName : LocalName model temps name) :
    (∃ names ∈ declaredTogether model, name ∈ names) ∨
      ∃ temp ∈ temps, temp.nativeType = "napi_value" ∧ temp.identifier =
        name := by
  have listed : ∀ {dataset : Field} {datasets : List Field} {ending : String},
      dataset ∈ datasets → dataset.name ++ ending ∈ endings datasets ending :=
    fun inside => List.mem_map.mpr ⟨_, inside, rfl⟩
  have fixed : ∀ name ∈ fixedLocals,
      name ∈ ["dataModel", "getNetTime", "undefined", "def_bool", "def_number",
        "def_string"] ∨
      name ∈ "log" :: logLevels.map fun level => logVariable level.1 := by
    decide
  simp only [declaredTogether, List.exists_mem_cons_iff]
  cases localName with
  | connection => simp
  | processed => simp
  | datasetConnection known => simp [listed known]
  | change known => simp [listed known]
  | publish known => simp [listed known]
  | value known => simp [listed known]
  | fixed known =>
      rcases fixed name known with inside | inside
      · exact .inl (.inr (.inr (.inr (.inr (.inl inside)))))
      · exact .inl (.inr (.inr (.inr (.inr (.inr (.inl inside))))))
  | temp known type => exact .inr ⟨_, known, type, rfl⟩

/-- Every local value is declared in front of the other lines of the
function. -/
theorem LocalName.declared {temps : List Temp}
    (localName : LocalName model temps name) :
    ∃ line ∈ initDeclarations model temps, DeclaresValue line.content name := by
  rcases localName.together with ⟨names, listed, known⟩ |
    ⟨temp, known, type, rfl⟩
  · obtain ⟨line, inside, declares⟩ := declareValues_declares known
    refine ⟨line, ?_, declares⟩
    simp only [declaredTogether, endings, List.mem_cons, List.not_mem_nil,
      or_false] at listed
    simp only [initDeclarations, List.mem_append]
    rcases listed with rfl | rfl | rfl | rfl | rfl | rfl
    all_goals simp only [inside, true_or, or_true]
  · obtain ⟨line, inside, declares⟩ := declarations_declare known type
    exact ⟨line, by simp [initDeclarations, inside], declares⟩

end Declarations

/-- The function that runs at the start declares its local values first. -/
theorem exists_start {model : Datamodel} {init : Function}
    (made : initFunction model = .ok init) :
    ∃ temps rest,
      init = {
        comment := [.plain 0 "// init of module, called at \"require\""]
        result := "napi_value"
        name := initName model
        parameters := "napi_env env, napi_value exports"
        body := initDeclarations model temps ++ rest } ∧
      ∀ functions locals, Scope.Starts ⟨model, functions, locals⟩ temps →
        AllAllowed ⟨model, functions, locals⟩ rest := by
  obtain ⟨programs, mapped, same⟩ := bind_eq_ok_iff.mp made
  cases same
  have each : ∀ entry ∈ programs, entry.1 ∈ model.connected ∧
      defaultsProgram entry.1 = .ok entry.2 := by
    intro entry known
    obtain ⟨dataset, connected, made⟩ := exists_of_mem_mapM mapped known
    obtain ⟨program, built, same⟩ := bind_eq_ok_iff.mp made
    cases same
    exact ⟨connected, built⟩
  refine ⟨Temp.ordered (programs.flatMap fun entry => entry.2.temps), ?rest,
    ?whole, ?allowed⟩
  case whole =>
    simp only [List.append_assoc]
    rfl
  case allowed =>
    intro functions locals starts
    have quotable := starts.spelled.name.quotable
    have built : ∀ entry ∈ programs,
        AllAllowed ⟨model, functions, locals⟩
            (datasetObject entry.1 entry.2) := by
      intro entry known
      obtain ⟨connected, made⟩ := each entry known
      apply allowed_datasetObject starts connected made
      exact fun temp used =>
        Temp.mem_ordered_iff.mpr (List.mem_flatMap.mpr ⟨entry, known, used⟩)
    simp only [AllAllowed.append_iff, AllAllowed.cons_iff,
      AllAllowed.flatMap_iff, AllAllowed.nil, AllAllowed.blank, true_and,
      and_true]
    refine ⟨allowed_initDefaults starts, allowed_initObjects starts,
      .lit rfl rfl, built, allowed_initLogging starts,
      allowed_initBindings starts, allowed_initReferences starts,
      allowed_initConnections starts, allowed_connectAll starts, .lit rfl rfl,
      .lit rfl rfl, .indented (reads_idleStart starts), .text ?_, .lit rfl rfl⟩
    exact .split (.split (.lit rfl
      (.quoted quotable.1 quotable.2 (.lit rfl (.nil rfl)))))

theorem fits_initFunction {model : Datamodel} (spelled : model.Spelled)
    {init : Function} (made : initFunction model = .ok init)
    {functions : String → Prop}
    (above : ∀ name ∈ (functionNames model).dropLast, functions name) :
    init.Fits ⟨model, functions, none⟩ := by
  obtain ⟨temps, rest, rfl, allowed⟩ := exists_start made
  have result : IsWord "napi_value" := by decide
  have isWord : IsWord (initName model) :=
    (show IsWord "init_" by decide).append spelled.objectName.2
  refine ⟨List.forall_mem_singleton.mpr (.note rfl rfl rfl (by decide)),
    result, isWord, .lit rfl rfl rfl, AllAllowed.append_iff.mpr ⟨?_, ?_⟩⟩
  · exact @allowed_initDeclarations ⟨model, functions, none⟩ spelled temps
  · exact allowed functions none ⟨spelled, above, nofun⟩

end Addon

end DataBridge
