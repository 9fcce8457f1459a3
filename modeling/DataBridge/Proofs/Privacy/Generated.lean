import DataBridge.Package.Project
import DataBridge.Proofs.Privacy.Native
import DataBridge.Proofs.Privacy.Program

/-!
# Private members and generated files

No section of a module and no file of a package looks at a private member, at
any depth: each is the same for a datamodel and for its visible part.  Only the
check of identifiers does, since the header declares the types of private
members too.
-/

namespace DataBridge

namespace Addon

variable {dataset : Field}

@[simp] theorem handleName_visible :
    handleName dataset.visible = handleName dataset := by
  simp [handleName]

@[simp] theorem datasetName_visible :
    datasetName dataset.visible = datasetName dataset := by
  simp [datasetName]

@[simp] theorem exchangeProgram_visible :
    exchangeProgram dataset.visible = exchangeProgram dataset := by
  funext direction
  simp [exchangeProgram, Field.visible_emission, nativePlace, valueHandle]

@[simp] theorem defaultsProgram_visible :
    defaultsProgram dataset.visible = defaultsProgram dataset := by
  simp [defaultsProgram, Field.visible_defaultsEmission]

@[simp] theorem datasetObject_visible :
    datasetObject dataset.visible = datasetObject dataset := by
  funext program
  simp [datasetObject]

private theorem datasetBranches_visible {block : Field → Source}
    (datasets : List Field)
    (blind : ∀ dataset, block dataset.visible = block dataset) :
    datasetBranches block (datasets.map Field.visible) =
      datasetBranches block datasets := by
  have branches : ∀ before dataset,
      datasetBranches.branch block before dataset.visible =
        datasetBranches.branch block before dataset := by
    intro before dataset
    simp [datasetBranches.branch, blind]
  cases datasets with
  | nil => rfl
  | cons first rest => simp [datasetBranches, branches, List.flatMap_map]

variable (model : Datamodel)

@[simp] theorem datamodelName_visible :
    datamodelName model.visible = datamodelName model :=
  rfl

@[simp] theorem valueCallback_visible :
    valueCallback model.visible dataset.visible =
      valueCallback model dataset := by
  simp [valueCallback]

@[simp] theorem publishMethod_visible :
    publishMethod dataset.visible = publishMethod dataset := by
  simp [publishMethod]

@[simp] theorem datasetConnectionCallback_visible :
    datasetConnectionCallback dataset.visible =
      datasetConnectionCallback dataset := by
  simp [datasetConnectionCallback]

@[simp] theorem initDataset_visible :
    initDataset model.visible dataset.visible = initDataset model dataset := by
  simp [initDataset]

@[simp] theorem connectDataset_visible :
    connectDataset dataset.visible = connectDataset dataset := by
  simp [connectDataset]

theorem eventHandlers_visible :
    eventHandlers model.visible = eventHandlers model := by
  simp [eventHandlers, datasetEvent, datamodelEvent, datasetBranches_visible]

theorem connectionCallbacks_visible :
    connectionCallbacks model.visible = connectionCallbacks model := by
  simp [connectionCallbacks, connectionCallback, processedCallback]

theorem valueCallbacks_visible :
    valueCallbacks model.visible = valueCallbacks model := by
  simp [valueCallbacks, List.mapM_map, Function.comp_def]

theorem registrationMethods_visible :
    registrationMethods model.visible = registrationMethods model := by
  simp [registrationMethods, Function.comp_def]

theorem publishMethods_visible :
    publishMethods model.visible = publishMethods model := by
  simp [publishMethods, List.mapM_map, Function.comp_def]

theorem logMethods_visible : logMethods model.visible = logMethods model :=
  rfl

theorem serviceFunctions_visible :
    serviceFunctions model.visible = serviceFunctions model :=
  rfl

private theorem initDeclarations_visible (temps : List Temp) :
    initDeclarations model.visible temps = initDeclarations model temps := by
  simp [initDeclarations, Function.comp_def]

private theorem initObjects_visible :
    initObjects model.visible = initObjects model := by
  simp [initObjects, List.flatMap_map]

private theorem initBindings_visible :
    initBindings model.visible = initBindings model := by
  simp [initBindings, Function.comp_def]

private theorem initReferences_visible :
    initReferences model.visible = initReferences model := by
  simp [initReferences, cleanupName, Function.comp_def]

private theorem initConnections_visible :
    initConnections model.visible = initConnections model := by
  simp [initConnections, List.flatMap_map]

private theorem connectAll_visible :
    connectAll model.visible = connectAll model := by
  simp [connectAll, List.flatMap_map]

theorem initFunction_visible :
    initFunction model.visible = initFunction model := by
  have programs : (model.visible.connected.mapM fun dataset => do
        return (dataset, ← defaultsProgram dataset)) = do
      return (← model.connected.mapM fun dataset => do
        return (dataset, ← defaultsProgram dataset)).map fun entry =>
          (entry.1.visible, entry.2) := by
    rw [Datamodel.visible_connected, List.mapM_map, ← mapM_change]
    congr 1
    funext dataset
    simp
  rw [initFunction, programs]
  simp [initFunction, initDeclarations_visible, initObjects_visible,
    initBindings_visible, initReferences_visible, initConnections_visible,
    connectAll_visible, List.flatMap_map, initName]

private theorem preamble_visible (options : Options) :
    preamble model.visible options = preamble model options := by
  simp [preamble, includeLines, objectLines, Function.comp_def]

private theorem functions_visible :
    functions model.visible = functions model := by
  simp [functions, eventHandlers_visible, connectionCallbacks_visible,
    valueCallbacks_visible, registrationMethods_visible, publishMethods_visible,
    logMethods_visible, serviceFunctions_visible, initFunction_visible]

/-- A module without a collision is its preamble, its functions and its hook. -/
theorem text_of_no_collision {model : Datamodel} {options : Options}
    (free : ∀ identifier,
      text model options ≠ .error (.identifierCollision identifier)) :
    text model options = do
      return Source.render
        (preamble model options ++ functionLines (← functions model) ++
          hook model) := by
  cases checked : checkIdentifiers model with
  | error error =>
      have failed : text model options = .error error := by
        rw [text, lines, checked]
        rfl
      unfold checkIdentifiers at checked
      split at checked
      · cases checked
        exact (free _ failed).elim
      · cases checked
  | ok passed =>
      rw [text, lines, checked]
      cases functions model <;> rfl

end Addon

namespace Package

@[simp] theorem legendType_visible {dataset : Field} :
    legendType dataset.visible = legendType dataset := by
  obtain ⟨name, type, size, flags, comment, enumName⟩ := dataset
  cases type with
  | leaf leaf => rfl
  | record record => simp [legendType]

@[simp] theorem isCompound_visible {dataset : Field} :
    isCompound dataset.visible = isCompound dataset := by
  obtain ⟨name, type, size, flags, comment, enumName⟩ := dataset
  cases type with
  | leaf leaf => rfl
  | record record => simp [isCompound]

@[simp] theorem datasetLegend_visible {model : Datamodel} {dataset : Field} :
    datasetLegend model.visible dataset.visible =
      datasetLegend model dataset := by
  simp [datasetLegend]

private theorem applicationLines_visible (model : Datamodel) :
    applicationLines model.visible = applicationLines model := by
  simp [applicationLines, legend, List.flatMap_map]

theorem files_visible (settings : Settings) :
    files { settings with datamodel := settings.datamodel.visible } =
      files settings := by
  simp only [files, applicationLines_visible]
  rfl

end Package

/-- Members that have the same programs, in every naming context. -/
structure Field.SamePrograms (one other : Field) : Prop where
  name : one.name = other.name
  emission : one.emission = other.emission
  defaultsEmission : one.defaultsEmission = other.defaultsEmission

/-- The outgoing programs of a record and of its exchanged members do the same
on two native values. -/
structure Record.Indistinct (record : Record) (one other : Native) : Prop where
  whole : ∀ root handle naming emission,
    (record.emission { root } handle .outgoing naming).1 = .ok emission →
      emission.marshalOut one = emission.marshalOut other
  datasets : ∀ dataset ∈ record.exchanged, ∀ root handle naming emission,
    (dataset.emission (Place.field { root } dataset.name) handle .outgoing
      naming).1 =
        .ok emission →
      emission.marshalOut one = emission.marshalOut other

/-- Datamodels with the same module, the check of identifiers apart. -/
structure Datamodel.SameModule (first second : Datamodel) : Prop where
  preamble : Addon.preamble first = Addon.preamble second
  eventHandlers : Addon.eventHandlers first = Addon.eventHandlers second
  connectionCallbacks : Addon.connectionCallbacks first =
    Addon.connectionCallbacks second
  valueCallbacks : Addon.valueCallbacks first = Addon.valueCallbacks second
  registrationMethods : Addon.registrationMethods first =
    Addon.registrationMethods second
  publishMethods : Addon.publishMethods first = Addon.publishMethods second
  logMethods : Addon.logMethods first = Addon.logMethods second
  serviceFunctions : Addon.serviceFunctions first =
    Addon.serviceFunctions second
  initFunction : Addon.initFunction first = Addon.initFunction second
  text : ∀ options,
    (∀ identifier,
      Addon.text first options ≠ .error (.identifierCollision identifier)) →
    (∀ identifier,
      Addon.text second options ≠ .error (.identifierCollision identifier)) →
      Addon.text first options = Addon.text second options

theorem Field.samePrograms {one other : Field}
    (same : one.visible = other.visible) : one.SamePrograms other where
  name := by rw [← visible_name, same, visible_name]
  emission := by rw [← visible_emission, same, visible_emission]
  defaultsEmission := by
    rw [← visible_defaultsEmission, same, visible_defaultsEmission]

theorem Record.indistinct {record : Record} {one other : Native}
    (alike : Native.Alike (.record record) 0 one other) :
    record.Indistinct one other := by
  constructor
  · intro root handle naming emission flattened
    rw [emission_eq_asField] at flattened
    exact Field.marshalOut_alike flattened (.root alike)
  · intro dataset inside root handle naming emission flattened
    have whole : Place.Alike { root } (.record record) 0 one other :=
      .root alike
    exact Field.marshalOut_alike flattened (whole.field inside)

theorem Datamodel.sameModule {first second : Datamodel}
    (same : first.visible = second.visible) : first.SameModule second := by
  have equal : ∀ {α : Type} (part : Datamodel → α),
      (∀ model, part model.visible = part model) →
          part first = part second := by
    intro α part visible
    rw [← visible first, same, visible second]
  have preambles := equal Addon.preamble fun model =>
    funext (Addon.preamble_visible model)
  constructor
  case preamble => exact preambles
  case eventHandlers => exact equal _ Addon.eventHandlers_visible
  case connectionCallbacks => exact equal _ Addon.connectionCallbacks_visible
  case valueCallbacks => exact equal _ Addon.valueCallbacks_visible
  case registrationMethods => exact equal _ Addon.registrationMethods_visible
  case publishMethods => exact equal _ Addon.publishMethods_visible
  case logMethods => exact equal _ Addon.logMethods_visible
  case serviceFunctions => exact equal _ Addon.serviceFunctions_visible
  case initFunction => exact equal _ Addon.initFunction_visible
  case text =>
    intro options free other
    rw [Addon.text_of_no_collision free, Addon.text_of_no_collision other,
      preambles, equal Addon.functions Addon.functions_visible,
      equal Addon.hook fun _ => rfl]

/-- Datamodels that are equal but for private members, at any depth, have the
same programs, the same module and the same package.  The outgoing programs do
not tell native values apart that are alike but for private members. -/
theorem private_members_hidden {first second : Datamodel}
    (same : first.visible = second.visible) :
    (∀ one other, first.root.Counterpart second.root one other →
      one.emission = other.emission ∧
        List.Forall₂ Field.SamePrograms one.exchanged other.exchanged ∧
        ∀ native twin, Native.Alike (.record one) 0 native twin →
          one.Indistinct native twin) ∧
      first.SameModule second ∧
      ∀ settings : Package.Settings,
        Package.files { settings with datamodel := first } =
          Package.files { settings with datamodel := second } := by
  refine ⟨?_, Datamodel.sameModule same, ?_⟩
  · intro one other counterpart
    have visible := counterpart.visible (congrArg Datamodel.root same)
    refine ⟨?_, ?_, ?_⟩
    · rw [← one.visible_emission, visible, other.visible_emission]
    · exact (Record.exchanged_counterparts visible).imp fun _ _ =>
        Field.samePrograms
    · exact fun _ _ => Record.indistinct
  · intro settings
    rw [← Package.files_visible,
      ← Package.files_visible { settings with datamodel := second }]
    simp only [same]

/-- A kiln with two zones and a label. -/
def kiln : Datamodel where
  name := "Kiln"
  root := {
    name := "Kiln"
    fields := [
      { name := "zones", arraySize := 2, flags := { published := true }
        type := .record {
          name := "Zone"
          fields := [{ name := "heat", type := .leaf (.float .real) }] } },
      { name := "label", type := .leaf (.string 8),
        flags := { subscribed := true } }] }

/-- A zone with a private array of records. -/
def lockedZone : Record where
  name := "Zone"
  fields := [
    { name := "heat", type := .leaf (.float .real) },
    { name := "probes", arraySize := 3, flags := { isPrivate := true }
      type := .record {
        name := "Probe"
        fields := [{ name := "serial", type := .leaf (.integer .udint) }] } }]

/-- The kiln with private members in itself and in its zones. -/
def lockedKiln : Datamodel where
  name := "Kiln"
  root := {
    name := "Kiln"
    fields := [
      { name := "fuse", type := .leaf .bool,
        flags := { isPrivate := true, published := true } },
      { name := "zones", type := .record lockedZone, arraySize := 2
        flags := { published := true } },
      { name := "label", type := .leaf (.string 8),
        flags := { subscribed := true } }] }

/-- The values of a kiln whose fuse and probes hold what is given. -/
def kilnValues (fuse probes : Native) : Native :=
  .record [("fuse", fuse),
    ("zones", .array [
      .record [("heat", .float .zero), ("probes", probes)],
      .record [("probes", probes), ("heat", .float .zero)]]),
    ("label", .string "lime")]

theorem zone_alike {first second : List (String × Native)}
    (heat : first.lookup "heat" = second.lookup "heat") :
    Native.Alike (.record lockedZone) 0 (.record first) (.record second) := by
  constructor
  · simp [Record.exchanged, lockedZone, Field.isPrivate, heat]
  · simp only [Record.exchanged, lockedZone, Field.isPrivate]
    intro member inside one other here there
    cases List.mem_singleton.mp inside
    cases here.symm.trans (heat.trans there)
    exact .same _ _ _

private theorem kilnValues_alike (fuse probes other change : Native) :
    Native.Alike (.record lockedKiln.root) 0 (kilnValues fuse probes)
      (kilnValues other change) := by
  constructor
  · simp [Record.exchanged, lockedKiln, Field.isPrivate, List.lookup_cons]
  · simp [Record.exchanged, lockedKiln, Field.isPrivate, List.lookup_cons]
    refine ⟨?_, .same _ _ _⟩
    constructor
    · rfl
    · intro index one image here there
      rcases index with _ | _ | index
      · cases here
        cases there
        exact zone_alike rfl
      · cases here
        cases there
        exact zone_alike rfl
      · cases here

theorem kiln_hides :
    lockedKiln.visible = kiln.visible ∧
      lockedKiln.root.emission = kiln.root.emission ∧
      lockedKiln.SameModule kiln ∧
      lockedKiln.root.Indistinct (kilnValues (.bool true) (.int 7))
        (kilnValues (.string "") (.array [])) := by
  have same : lockedKiln.visible = kiln.visible := rfl
  have hidden := private_members_hidden same
  obtain ⟨emission, _, indistinct⟩ := hidden.1 _ _ .root
  exact ⟨same, emission, hidden.2.1, indistinct _ _ (kilnValues_alike _ _ _ _)⟩

end DataBridge
