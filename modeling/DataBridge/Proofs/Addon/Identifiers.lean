import DataBridge.Proofs.Addon.TypeNames
import Mathlib.Data.List.Nodup

/-!
# Names of a module's objects

A name that ends in a fixed suffix shows in its last character which of the
suffixes it is.  So the objects of a module have different names, unless the
object of the datamodel takes the name of another.
-/

namespace DataBridge

namespace Addon

variable {model : Datamodel} {dataset other : Field}

/-- The objects that every module has under the same names. -/
def fixedNames : List String :=
  ["exos_data", "logger", "cyclic_h"]

def datasetObjects (dataset : Field) : List String :=
  [handleName dataset, datasetName dataset]

theorem identifiers_eq (model : Datamodel) : identifiers model =
    model.objectName :: datamodelName model ::
      (fixedNames ++ model.connected.flatMap datasetObjects) :=
  rfl

section Last

def last (name : String) : Option Char :=
  name.toList.getLast?

theorem last_append (name : String) {suffix : String} (nonempty : suffix ≠ "") :
    last (name ++ suffix) = last suffix := by
  have chars : suffix.toList ≠ [] := by simpa using nonempty
  rw [last, String.toList_append, List.getLast?_append_of_ne_nil _ chars, last]

theorem last_datamodelName (model : Datamodel) :
    last (datamodelName model) = some 'l' :=
  last_append _ (by decide)

theorem last_handleName (dataset : Field) :
    last (handleName dataset) = some 'e' :=
  last_append _ (by decide)

theorem last_datasetName (dataset : Field) :
    last (datasetName dataset) = some 't' :=
  last_append _ (by decide)

theorem ne_of_last {first second : String}
    (different : last first ≠ last second) : first ≠ second :=
  fun same => different (congrArg last same)

theorem last_mem_datasetObjects {name : String}
    (listed : name ∈ datasetObjects dataset) :
    last name = some 'e' ∨ last name = some 't' := by
  rcases List.mem_pair.mp listed with rfl | rfl
  · exact .inl (last_handleName dataset)
  · exact .inr (last_datasetName dataset)

theorem last_mem_fixedNames : ∀ name ∈ fixedNames,
    last name ≠ some 'l' ∧ last name ≠ some 'e' ∧ last name ≠ some 't' := by
  decide

end Last

private theorem objectName_ne_datamodelName (model : Datamodel) :
    model.objectName ≠ datamodelName model := by
  intro same
  have length := congrArg String.length same
  rw [datamodelName, String.length_append] at length
  exact absurd length (by simp)

private theorem datasetObjects_nodup (dataset : Field) :
    (datasetObjects dataset).Nodup := by
  apply List.nodup_cons.mpr
  refine ⟨?_, List.nodup_singleton _⟩
  rw [List.mem_singleton]
  apply ne_of_last
  rw [last_handleName, last_datasetName]
  decide

private theorem datasetObjects_disjoint
    (different : dataset.name ≠ other.name) :
    (datasetObjects dataset).Disjoint (datasetObjects other) := by
  intro name here there
  rcases List.mem_pair.mp here with rfl | rfl
    <;> rcases List.mem_pair.mp there with same | same
  · exact different (String.append_left_inj _ |>.mp same)
  · exact ne_of_last (by rw [last_handleName, last_datasetName]; decide) same
  · exact ne_of_last (by rw [last_handleName, last_datasetName]; decide) same
  · exact different (String.append_left_inj _ |>.mp same)

-- The object's own name is left out: it is the only one without a fixed ending.
private theorem nodup_behind_objectName
    (distinct : (model.connected.map Field.name).Nodup) :
    (datamodelName model ::
      (fixedNames ++ model.connected.flatMap datasetObjects)).Nodup := by
  have objects : (model.connected.flatMap datasetObjects).Nodup := by
    rw [List.nodup_flatMap]
    refine ⟨fun dataset _ => datasetObjects_nodup dataset, ?_⟩
    rw [List.Nodup, List.pairwise_map] at distinct
    exact distinct.imp datasetObjects_disjoint
  have apart :
      fixedNames.Disjoint (model.connected.flatMap datasetObjects) := by
    intro name fixed inside
    obtain ⟨dataset, _, listed⟩ := List.mem_flatMap.mp inside
    obtain ⟨_, handle, connection⟩ := last_mem_fixedNames name fixed
    rcases last_mem_datasetObjects listed with ends | ends
    · exact handle ends
    · exact connection ends
  rw [List.nodup_cons, List.mem_append, not_or]
  refine ⟨⟨?_, ?_⟩, List.Nodup.append (by decide) objects apart⟩
  · exact fun fixed =>
      (last_mem_fixedNames _ fixed).1 (last_datamodelName model)
  · intro inside
    obtain ⟨dataset, _, listed⟩ := List.mem_flatMap.mp inside
    have ends := last_mem_datasetObjects listed
    rw [last_datamodelName] at ends
    exact absurd ends (by decide)

private theorem identifiers_nodup_of_distinct
    (distinct : (model.connected.map Field.name).Nodup) :
    (identifiers model).Nodup ↔ model.objectName ∉ fixedNames ∧
      ∀ dataset ∈ model.connected, model.objectName ≠ handleName dataset ∧
        model.objectName ≠ datasetName dataset := by
  rw [identifiers_eq, List.nodup_cons]
  constructor
  · rintro ⟨apart, _⟩
    simp only [List.mem_cons, List.mem_append, List.mem_flatMap, not_or,
      not_exists, not_and] at apart
    refine ⟨apart.2.1, ?_⟩
    intro dataset connected
    have objects := apart.2.2 dataset connected
    simpa [datasetObjects] using objects
  · rintro ⟨fixed, datasets⟩
    refine ⟨?_, nodup_behind_objectName distinct⟩
    rw [List.mem_cons, List.mem_append, not_or, not_or]
    refine ⟨objectName_ne_datamodelName model, fixed, ?_⟩
    intro inside
    obtain ⟨dataset, connected, listed⟩ := List.mem_flatMap.mp inside
    rcases List.mem_pair.mp listed with same | same
    · exact (datasets dataset connected).1 same
    · exact (datasets dataset connected).2 same

end Addon

theorem Datamodel.connected_distinct {model : Datamodel}
    (wellNamed : model.root.WellNamed) :
    (model.connected.map Field.name).Nodup := by
  apply List.Nodup.sublist _ wellNamed.distinct
  apply List.Sublist.map
  exact List.filter_sublist.trans List.filter_sublist

/-- The objects of a resolved datamodel have different names unless the object
of the datamodel itself is called like another. -/
theorem objects_distinct_iff {catalog : Catalog} {resolver : Resolver}
    (reachable : Resolver.Reachable catalog resolver) {root : String}
    {model : Datamodel}
    (resolved : (Resolver.resolveDatamodel catalog root resolver).1 =
      .ok model) :
    (Addon.identifiers model).Nodup ↔
      model.objectName ∉ ["exos_data", "logger", "cyclic_h"] ∧
      ∀ dataset ∈ model.connected, model.objectName ≠ Addon.handleName dataset ∧
        model.objectName ≠ Addon.datasetName dataset := by
  obtain ⟨record, _⟩ := Resolver.resolveDatamodel_eq_ok_iff.mp resolved
  have produced : Resolver.Produces catalog model.root :=
    ⟨resolver, root, reachable, record⟩
  exact Addon.identifiers_nodup_of_distinct
    (Datamodel.connected_distinct produced.wellNamed)

/-- A datamodel of the given name with one dataset. -/
def gaugeCatalog (name : String) : Catalog :=
  .ofList [
    { name, kind := .struct { fields := [
      { name := "level", typeName := "DINT", publish := true }] } }]

def gauge (name : String) : Datamodel where
  name
  root := {
    name
    fields := [
      { name := "level", type := .leaf (.integer .dint),
        flags := { published := true } }] }

theorem gauge_objects_distinct :
    Resolver.Reachable (gaugeCatalog "Gauge") {} ∧
      (Resolver.resolveDatamodel (gaugeCatalog "Gauge") "Gauge" {}).1 =
        .ok (gauge "Gauge") ∧
      (Addon.identifiers (gauge "Gauge")).Nodup := by
  have resolved :
      (Resolver.resolveDatamodel (gaugeCatalog "Gauge") "Gauge" {}).1 =
        .ok (gauge "Gauge") := rfl
  refine ⟨.fresh, resolved, (objects_distinct_iff .fresh resolved).mpr ?_⟩
  decide

/-- The object of a datamodel may be called like the one that writes the log. -/
theorem logger_objects_repeated :
    (Resolver.resolveDatamodel (gaugeCatalog "Logger") "Logger" {}).1 =
      .ok (gauge "Logger") ∧
      (∃ text, Addon.text (gauge "Logger") {} = .ok text) ∧
      Addon.identifiers (gauge "Logger") =
        ["logger", "logger_datamodel", "exos_data", "logger", "cyclic_h",
          "level_handle", "level_dataset"] ∧
      ¬ (Addon.identifiers (gauge "Logger")).Nodup := by
  have built : ∃ functions, Addon.functions (gauge "Logger") = .ok functions :=
    ⟨_, rfl⟩
  obtain ⟨functions, built⟩ := built
  obtain ⟨source, _, text⟩ := Addon.exists_source {} (by decide) built
  exact ⟨rfl, ⟨_, text⟩, by decide, by decide⟩

end DataBridge
