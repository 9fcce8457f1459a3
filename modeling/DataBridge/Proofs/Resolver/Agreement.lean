import DataBridge.Component
import DataBridge.Proofs.Addon.TypeNames
import DataBridge.Proofs.Resolver.Search

/-!
# What generation depends on

A resolver looks up nothing but the types that its root reaches.  So two
catalogs that find the same there are told apart by no resolution, and two
datamodels that differ in other types, or in the order of their types, make the
same component or fail for the same reason.
-/

namespace DataBridge

namespace Catalog

variable {one other : Catalog} {root : String}

/-- The catalogs find the same definition, or none, for every type that the root
reaches in the first of them. -/
def Agrees (one other : Catalog) (root : String) : Prop :=
  ∀ name, one.Reaches root name → Scalar.ofName? name = none →
    one.find? name = other.find? name

/-- Names that lead to no further ones are all that a root among them
reaches. -/
theorem agrees_of_closed (names : List String) (start : root ∈ names)
    (closed : ∀ outer ∈ names,
      ∀ decl ∈ one.struct? outer, ∀ field ∈ decl.fields,
      field.typeName ∈ names)
    (same : ∀ name ∈ names, Scalar.ofName? name = none →
      one.find? name = other.find? name) :
    one.Agrees other root := by
  have inside : ∀ name, one.Reaches root name → name ∈ names := by
    intro name reached
    induction reached with
    | refl => exact start
    | @tail outer inner _ uses induction =>
        obtain ⟨decl, found, field, part, rfl⟩ := uses
        exact closed outer induction decl found field part
  exact fun name reached => same name (inside name reached)

end Catalog

namespace Resolver

variable {one other : Catalog} {root name : String}

private theorem fieldsWith_congr {resolve alike : String → Resolving Resolution}
    {owner : String} {decls : List FieldDecl} (seen : List String)
    (same : ∀ decl ∈ decls, resolve decl.typeName = alike decl.typeName) :
    fieldsWith resolve owner seen decls =
      fieldsWith alike owner seen decls := by
  induction decls generalizing seen with
  | nil => rfl
  | cons decl rest induction =>
      obtain ⟨first, later⟩ := List.forall_mem_cons.mp same
      rw [fieldsWith, fieldsWith, first]
      simp only [induction _ later]

/-- On what the root reaches the catalogs are resolved step by step alike, also
where a resolution fails. -/
theorem resolveWithin_agrees (agrees : one.Agrees other root) (depth : Nat)
    (reached : one.Reaches root name) :
    resolveWithin one depth name = resolveWithin other depth name := by
  induction depth generalizing name with
  | zero => rfl
  | succ depth induction =>
      funext resolver
      obtain ⟨result, after, runs⟩ := exists_runs one depth name resolver
      rw [runs.eq]
      apply (Runs.eq _).symm
      apply runs.elsewhere fun unnamed => (agrees name reached unnamed).symm
      intro declared decl unnamed found _
      have struct := Catalog.struct?_eq_some_iff.mpr ⟨unnamed, declared, found⟩
      rw [membersWithin, membersWithin]
      rw [fieldsWith_congr [] fun field inside =>
        (induction (reached.tail ⟨decl, struct, field, inside, rfl⟩)).symm]

/-- The bound of a catalog suffices, so that every greater one does the same. -/
theorem resolveWithin_eq_resolve {catalog : Catalog} (byName : catalog.ByName)
    {depth : Nat} (more : depthBound catalog ≤ depth) :
    resolveWithin catalog depth name {} = resolve catalog name {} := by
  have fresh : Searching catalog [] {} := ⟨rfl, nofun⟩
  apply resolveWithin_eq_of_le more
  intro typeName unbounded
  exact (resolve_search (byName.namedByKey name)).error {} fresh _ unbounded

private theorem resolve_agrees (byName : one.ByName) (alsoByName : other.ByName)
    (agrees : one.Agrees other root) :
    resolve one root {} = resolve other root {} := by
  let depth := max (depthBound one) (depthBound other)
  calc resolve one root {}
      = resolveWithin one depth root {} :=
        (resolveWithin_eq_resolve byName (Nat.le_max_left _ _)).symm
    _ = resolveWithin other depth root {} := by
      rw [resolveWithin_agrees agrees depth .refl]
    _ = resolve other root {} :=
      resolveWithin_eq_resolve alsoByName (Nat.le_max_right _ _)

private theorem resolveDatamodel_agrees (byName : one.ByName)
    (alsoByName : other.ByName) (agrees : one.Agrees other root) :
    resolveDatamodel one root {} = resolveDatamodel other root {} := by
  rw [resolveDatamodel, resolveDatamodel, stateful_bind, stateful_bind,
    resolve_agrees byName alsoByName agrees]

end Resolver

/-- Two datamodels with the same description make the same component, or fail
for the same reason, when they agree on the types that the root reaches and on
which of these are missing. -/
theorem generate_eq_of_agrees {one other : Schema}
    (metadata : one.datamodel = other.datamodel)
    (packaging : one.options = other.options)
    (path : one.rootPath = other.rootPath) (options : Component.Options)
    (agrees : one.catalog.Agrees other.catalog
      (Component.rootName one options)) :
    Component.generate one options = Component.generate other options := by
  have root : Component.rootName one options =
      Component.rootName other options := by
    rw [Component.rootName, Component.rootName, metadata]
  have artifacts : Component.artifacts one options =
      Component.artifacts other options := by
    funext model resolver
    unfold Component.artifacts Component.settings Schema.sourceFile
    rw [metadata, packaging, path]
  have resolved :
      Resolver.resolveDatamodel one.catalog
        (Component.rootName one options) {} =
      Resolver.resolveDatamodel other.catalog
        (Component.rootName one options) {} :=
    Resolver.resolveDatamodel_agrees (Catalog.byName_ofList _)
      (Catalog.byName_ofList _) agrees
  rw [Component.generate, Component.generate, ← root, resolved, artifacts]

/-- A buoy with a lamp, which shows a signal. -/
def buoyTypes : List TypeDef :=
  [{ name := "Buoy", kind := .struct { fields := [
      { name := "lamp", typeName := "Lamp", arraySize := 2, publish := true },
      { name := "depth", typeName := "REAL", isPrivate := true }] } },
    { name := "Lamp",
      kind :=
        .struct { fields := [{ name := "signal", typeName := "Signal" }] } },
    { name := "Signal",
      kind := .enum { variants := [{ name := "Dark" }, { name := "Lit" }] } }]

/-- Types that nothing of the buoy leads to: a circle, a struct with a field of
no type, and one with the name of an elementary type. -/
def driftwood : List TypeDef :=
  [{ name := "Eddy",
     kind := .struct { fields := [{ name := "inner", typeName := "Eddy" }] } },
    { name := "Anchor",
      kind :=
        .struct { fields := [{ name := "chain", typeName := "Chain" }] } },
    { name := "REAL",
      kind := .struct { fields := [{ name := "lamp", typeName := "Lamp" }] } }]

/-- The description of the buoy over some types. -/
def buoySchema (types : List TypeDef) : Schema where
  datamodel := { name := "Buoy" }
  options := {}
  rootPath := "sea/buoy.yaml"
  types

theorem buoy_generated :
    ∃ made, Component.generate (buoySchema buoyTypes) {} = .ok made := by
  have resolved : ∃ model resolver,
      Resolver.resolveDatamodel (buoySchema buoyTypes).catalog "Buoy" {} =
        (.ok model, resolver) ∧
      (∃ functions, Addon.functions model = .ok functions) ∧
      ∀ identifier ∈ Addon.identifiers model,
          identifier ∉ Addon.addRecordTypes [] model.root :=
    ⟨_, _, rfl, ⟨_, rfl⟩, by decide⟩
  obtain ⟨model, resolver, resolved, ⟨functions, built⟩, apart⟩ := resolved
  obtain ⟨_, _, text⟩ := Addon.exists_source {} apart built
  have made : ∃ files,
      Component.artifacts (buoySchema buoyTypes) {} model resolver =
      .ok files := by
    rw [Component.artifacts, text]
    exact ⟨_, rfl⟩
  obtain ⟨files, made⟩ := made
  refine ⟨files, ?_⟩
  rw [Component.generate, show Component.rootName (buoySchema buoyTypes) {} =
    "Buoy" from rfl,
    resolved]
  exact mapError_eq_ok_iff.mpr made

theorem buoy_generated_alike :
    ∃ made, (buoySchema buoyTypes).catalog.Agrees
        (buoySchema (driftwood ++ buoyTypes.reverse)).catalog "Buoy" ∧
      Component.generate (buoySchema buoyTypes) {} = .ok made ∧
      Component.generate (buoySchema (driftwood ++ buoyTypes.reverse)) {} =
        .ok made := by
  have agrees : (buoySchema buoyTypes).catalog.Agrees
      (buoySchema (driftwood ++ buoyTypes.reverse)).catalog "Buoy" :=
    Catalog.agrees_of_closed ["Buoy", "Lamp", "Signal", "REAL"] (by decide)
      (by decide) (by decide)
  have same : Component.generate (buoySchema buoyTypes) {} =
      Component.generate (buoySchema (driftwood ++ buoyTypes.reverse)) {} :=
    @generate_eq_of_agrees (buoySchema buoyTypes)
      (buoySchema (driftwood ++ buoyTypes.reverse))
      rfl rfl rfl {} agrees
  obtain ⟨made, generated⟩ := buoy_generated
  exact ⟨made, agrees, generated, same ▸ generated⟩

end DataBridge
