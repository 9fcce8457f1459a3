import DataBridge.Proofs.Addon.FileScope
import DataBridge.Proofs.Addon.TypeNames
import DataBridge.Proofs.Flatten.Layout

/-!
# Collisions with types

The check of a module fails at the first object that has the name of a type of
the header.  A module that passes it introduces no such name with its objects.
The check does not look at the type of the handles and at the functions.
-/

namespace DataBridge

/-- A result that is a failure only with an allowed error. -/
def FailsOnly {ε α : Type} (allowed : ε → Prop) (result : Except ε α) : Prop :=
  ∀ error, result = .error error → allowed error

namespace FailsOnly

variable {ε α β : Type} {allowed : ε → Prop}

theorem pure (value : α) : FailsOnly allowed (Pure.pure value : Except ε α) :=
  nofun

theorem bind {result : Except ε α} {next : α → Except ε β}
    (first : FailsOnly allowed result)
    (second : ∀ value, FailsOnly allowed (next value)) :
    FailsOnly allowed (result >>= next) := by
  cases result with
  | error error =>
      intro other same
      cases same
      exact first error rfl
  | ok value => exact second value

theorem mapM {make : α → Except ε β} (each : ∀ x, FailsOnly allowed (make x))
    (xs : List α) : FailsOnly allowed (xs.mapM make) := by
  induction xs with
  | nil => exact nofun
  | cons x rest induction =>
      rw [List.mapM_cons]
      apply (each x).bind
      intro first
      apply induction.bind
      exact fun others => .pure (first :: others)

end FailsOnly

def EmitError.IsNesting (error : EmitError) : Prop :=
  ∃ limit, error = .loopNestingTooDeep limit

theorem Flattening.Computes.failsOnly {body : Flattening (List Stmt)}
    {depth : Nat} {value : Nat → List Char → List Stmt}
    (computes : body.Computes depth value) (direction : Direction) :
    FailsOnly EmitError.IsNesting
      (Flattening.fresh (body >>= Flatten.finish direction)) := by
  obtain ⟨maxSlot, equal⟩ := computes.finish direction {}
  intro error failed
  rw [Flattening.fresh, equal] at failed
  split at failed <;> cases failed
  exact ⟨_, rfl⟩

namespace Addon

variable {model : Datamodel}

theorem exchangeProgram_failsOnly (dataset : Field) (direction : Direction) :
    FailsOnly EmitError.IsNesting (exchangeProgram dataset direction) := by
  cases direction with
  | outgoing => exact (Layout.outDataset_computes _ _ dataset).failsOnly _
  | incoming => exact (Layout.inDataset_computes _ _ dataset).failsOnly _

/-- The functions of a module fail only where loops nest too deep. -/
theorem functions_failsOnly (model : Datamodel) :
    FailsOnly EmitError.IsNesting (functions model) := by
  have values : FailsOnly EmitError.IsNesting (valueCallbacks model) :=
    (FailsOnly.mapM (fun dataset =>
      (exchangeProgram_failsOnly dataset _).bind fun _ =>
        .pure _) _).bind fun _ => .pure _
  have methods : FailsOnly EmitError.IsNesting (publishMethods model) :=
    (FailsOnly.mapM (fun dataset =>
      (exchangeProgram_failsOnly dataset _).bind fun _ =>
        .pure _) _).bind fun _ => .pure _
  have init : FailsOnly EmitError.IsNesting (initFunction model) :=
    (FailsOnly.mapM (fun dataset =>
      ((Layout.outDataset_computes .defaults _ dataset).failsOnly _).bind
        fun _ => .pure _)
        _).bind fun _ => .pure _
  exact values.bind fun _ => methods.bind fun _ => init.bind fun _ => .pure _

/-- The check alone fails with a collision, at the first object that has the
name of a type. -/
theorem text_eq_collision_iff {options : Options} {identifier : String} :
    text model options = .error (.identifierCollision identifier) ↔
      (identifiers model).find? (typeNames model).contains =
        some identifier := by
  rw [text, lines]
  cases found : (identifiers model).find? (typeNames model).contains with
  | some first =>
      have failed : checkIdentifiers model =
          .error (.identifierCollision first) := by
        rw [checkIdentifiers, found]
      simp [failed]
  | none =>
      have passed : checkIdentifiers model = .ok () := by
        rw [checkIdentifiers, found]
      rw [passed, ok_bind]
      constructor
      · intro failed
        cases built : functions model with
        | error error =>
            obtain ⟨limit, rfl⟩ := functions_failsOnly model error built
            rw [built] at failed
            cases failed
        | ok made =>
            rw [built] at failed
            cases failed
      · rintro ⟨⟩

theorem mem_objectNames_iff {name : String} :
    name ∈ objectNames model ↔ name = "obj_handles" ∨
      name ∈ identifiers model := by
  simp only [objectNames, identifiers, List.mem_append, List.mem_flatMap,
    List.mem_map, List.mem_cons, List.not_mem_nil, or_false]
  grind

end Addon

/-- With a fresh resolver, a module is refused at the first object that has the
name of a type of the header.  What it introduces otherwise keeps clear of all
types exactly if the type of its handles and its functions do, which nothing
checks. -/
theorem module_names_apart_iff {catalog : Catalog} (byName : catalog.ByName)
    {root : String} {model : Datamodel} {resolver : Resolver}
    (resolved : Resolver.resolveDatamodel catalog root {} =
      (.ok model, resolver))
    (options : Addon.Options) :
    (∀ identifier,
      Addon.text model options = .error (.identifierCollision identifier) ↔
      (Addon.identifiers model).find? (Header.typeNames resolver).contains =
        some identifier) ∧
    ∀ source, Addon.lines model options = .ok source →
      Addon.text model options = .ok source.render ∧
      ((∀ name ∈ source.definitions, name ∉ Header.typeNames resolver) ↔
        ∀ name ∈ "obj_handles" :: Addon.functionNames model,
        name ∉ Header.typeNames resolver) := by
  have same : ∀ name, name ∈ Addon.typeNames model ↔
      name ∈ Header.typeNames resolver :=
    fun _ => mem_typeNames_iff_header byName resolved
  have contains : (Addon.typeNames model).contains =
      (Header.typeNames resolver).contains := by
    funext name
    rw [Bool.eq_iff_iff, List.contains_iff_mem, List.contains_iff_mem]
    exact same name
  constructor
  · intro identifier
    rw [Addon.text_eq_collision_iff, contains]
  · intro source made
    refine ⟨?_, ?_⟩
    · rw [Addon.text, made]
      rfl
    · obtain ⟨_, passed, _⟩ := bind_eq_ok_iff.mp made
      have apart := Addon.checkIdentifiers_eq_ok_iff.mp passed
      rw [Addon.definitions_lines made, List.forall_mem_append,
        List.forall_mem_cons]
      constructor
      · rintro ⟨objects, functions⟩
        exact ⟨objects _ (Addon.mem_objectNames_iff.mpr (.inl rfl)), functions⟩
      · rintro ⟨handles, functions⟩
        refine ⟨?_, functions⟩
        intro name known
        rcases Addon.mem_objectNames_iff.mp known with rfl | identifier
        · exact handles
        · exact fun taken => apart name identifier ((same name).mpr taken)

/-- A motor whose dataset has a type of the given name. -/
def motorCatalog (type : String) : Catalog :=
  .ofList [
    { name := "Motor", kind := .struct { fields := [
      { name := "Turn", typeName := type, publish := true }] } },
    { name := type,
      kind := .struct { fields := [{ name := "Count", typeName := "DINT" }] } }]

def motor (type : String) : Datamodel where
  name := "Motor"
  root := {
    name := "Motor"
    fields := [
      { name := "Turn", flags := { published := true }
        type := .record {
          name := type
          fields := [{ name := "Count", type := .leaf (.integer .dint) }] } }] }

theorem motor_made (type : String)
    (apart : ∀ identifier ∈ Addon.identifiers (motor type),
    identifier ∉ Addon.addRecordTypes [] (motor type).root) :
    ∃ source, Addon.lines (motor type) {} = .ok source ∧
      Addon.text (motor type) {} = .ok (Source.render source) := by
  have built : ∃ functions, Addon.functions (motor type) = .ok functions :=
    ⟨_, rfl⟩
  obtain ⟨functions, built⟩ := built
  exact Addon.exists_source {} apart built

/-- What the module of a motor with a `Shaft` introduces keeps clear of both
types. -/
theorem shaft_names_apart :
    ∃ (resolver : Resolver) (source : Source), (motorCatalog "Shaft").ByName ∧
      Resolver.resolveDatamodel (motorCatalog "Shaft") "Motor" {} =
        (.ok (motor "Shaft"), resolver) ∧
      Addon.text (motor "Shaft") {} = .ok source.render ∧
      ∀ name ∈ source.definitions, name ∉ Header.typeNames resolver := by
  have byName : (motorCatalog "Shaft").ByName := Catalog.byName_ofList _
  have resolved : ∃ resolver,
      Resolver.resolveDatamodel (motorCatalog "Shaft") "Motor" {} =
        (.ok (motor "Shaft"), resolver) ∧
      Header.typeNames resolver = ["Shaft", "Motor"] :=
    ⟨_, rfl, rfl⟩
  obtain ⟨resolver, resolved, names⟩ := resolved
  obtain ⟨source, made, _⟩ := motor_made "Shaft" (by decide)
  obtain ⟨text, apart⟩ :=
    (module_names_apart_iff byName resolved {}).2 source made
  refine ⟨resolver, source, byName, resolved, text, apart.mpr ?_⟩
  rw [names]
  decide

/-- The name of a type may be that of a function, such as `cyclic`. -/
theorem cyclic_shadowed :
    ∃ (resolver : Resolver) (source : Source), (motorCatalog "cyclic").ByName ∧
      Resolver.resolveDatamodel (motorCatalog "cyclic") "Motor" {} =
        (.ok (motor "cyclic"), resolver) ∧
      Addon.lines (motor "cyclic") {} = .ok source ∧
      Addon.text (motor "cyclic") {} = .ok source.render ∧
      "cyclic" ∈ source.definitions ∧ "cyclic" ∈ Header.typeNames resolver := by
  have resolved : ∃ resolver,
      Resolver.resolveDatamodel (motorCatalog "cyclic") "Motor" {} =
        (.ok (motor "cyclic"), resolver) ∧
      Header.typeNames resolver = ["cyclic", "Motor"] :=
    ⟨_, rfl, rfl⟩
  obtain ⟨resolver, resolved, names⟩ := resolved
  obtain ⟨source, made, text⟩ := motor_made "cyclic" (by decide)
  refine ⟨resolver, source, Catalog.byName_ofList _, resolved, made,
    text, ?_, ?_⟩
  · rw [Addon.definitions_lines made]
    decide
  · rw [names]
    decide

end DataBridge
