import DataBridge.Proofs.Loader.Closure
import DataBridge.Proofs.Path.Order
import Mathlib.Data.List.Pairwise

/-!
# What a schema is loaded from

A schema can be loaded from a file when nothing is wrong with the files that it
leads to through imports.  It then holds the definitions of all of them, those
of an imported file before those of the importing one.
-/

namespace DataBridge

open FileSystem (absolute)

/-- A schema can be loaded from a place. -/
structure FileSystem.Loadable (fs : FileSystem) (dirs : List String)
    (root : Location) : Prop where
  ready : ∀ place, fs.Imports dirs root place → fs.Ready dirs place
  within : ∀ place, fs.Imports dirs root place →
    ((fs.definitions place).map TypeDef.name).Nodup
  across : ∀ first second, fs.Imports dirs root first →
    fs.Imports dirs root second →
    first ≠ second →
    ((fs.definitions first).map TypeDef.name).Disjoint
      ((fs.definitions second).map TypeDef.name)
  datamodel : ∃ file,
    fs.datamodelFile? root = some file ∧ file.datamodel.isSome = true

/-- A schema holds what the files hold that a place leads to. -/
structure Schema.Collects (schema : Schema) (fs : FileSystem)
    (dirs : List String) (root : Location) : Prop where
  origin : ∃ file, fs.datamodelFile? root = some file ∧
    file.datamodel = some schema.datamodel ∧ schema.options = file.options
  rootPath : schema.rootPath = absolute root
  /-- Each file once, behind its imports. -/
  types : ∃ seen order,
    DepthFirst (fs.importedPlaces dirs) [] [root] seen order ∧
    order.Nodup ∧ (∀ place, place ∈ order ↔ fs.Imports dirs root place) ∧
    schema.types = order.flatMap fs.definitions
  keyed : ∀ definition,
    schema.catalog.find? definition.name = some definition ↔
      definition ∈ schema.types
  files : ∀ path, path ∈ schema.files ↔
    ∃ place, fs.Imports dirs root place ∧ absolute place = path
  sorted : schema.files.Pairwise (Path.compare · · = .lt)

theorem Catalog.find?_ofList {definitions : List TypeDef}
    (unique : (definitions.map TypeDef.name).Nodup) (definition : TypeDef) :
    (ofList definitions).find? definition.name = some definition ↔
      definition ∈ definitions := by
  induction definitions with
  | nil => exact ⟨nofun, nofun⟩
  | cons first rest induction =>
      obtain ⟨fresh, unique⟩ := List.nodup_cons.mp unique
      have later := induction unique
      rw [find?, ofList] at later ⊢
      rw [List.map_cons, List.lookup_cons]
      by_cases same : definition.name = first.name
      · have absent : definition ∉ rest := by
          intro inside
          exact fresh (same ▸ List.mem_map_of_mem inside)
        simp [same, absent, eq_comm]
      · have different : definition ≠ first := by
          rintro rfl
          exact same rfl
        have unlike : (definition.name == first.name) = false := by
          simpa using same
        simpa [unlike, different] using later

namespace Loader

variable {fs : FileSystem} {dirs : List String} {root : Location}
  {path : String} {later order : List Location} {loader : Loader}

theorem load_eq (fs : FileSystem) (path : String) (dirs : List String) :
    Schema.load fs path dirs =
      (loadFile fs path { includeDirs := dirs }).1 >>=
        fun _ => (loadFile fs path { includeDirs := dirs }).2.finish := by
  rfl

/-- A path that leads nowhere changes nothing. -/
theorem loadFile_of_locate_error {failure : FileError}
    (nowhere : fs.locate path = .error failure) (loader : Loader) :
    loadFile fs path loader = (.error (.io path failure), loader) := by
  have fails : canonical fs path = .error (.io path failure) := by
    rw [canonical, FileSystem.canonicalize, nowhere]
    rfl
  rw [loadFile, depthBound, loadWithin, fails]
  rfl

private theorem finish_ne_unboundedImports (loader : Loader) (deep : String) :
    loader.finish ≠ .error (.unboundedImports deep) := by
  unfold finish
  split
  · simp
  · split <;> simp

private theorem loadFile_ends (tree : fs.IsTree) (dirs : List String)
    (located : fs.locate path = .ok root) :
    EndsIn (loadFile fs path) { includeDirs := dirs }
      (fun _ after => ∃ later order,
        Gathers fs dirs [] [root] { includeDirs := dirs } later order after)
      (fun error _ => Failed fs dirs [] root error) :=
  loads tree dirs (depthBound fs) path root [] _ located (.start fs dirs)
    (by simp [depthBound])

namespace Gathers

variable (gathers : Gathers fs dirs [] [root]
  { includeDirs := dirs } later order loader)

include gathers

theorem root_eq : ∃ file, fs.datamodelFile? root = some file ∧
    loader.root = some (absolute root, file) := by
  have known := gathers.visits.todo_subset List.mem_cons_self
  obtain ⟨file, read⟩ :=
    Option.isSome_iff_exists.mp (gathers.visited.readable root known)
  refine ⟨file, read, ?_⟩
  rw [gathers.visited.root, gathers.visits.head?_of_root,
    Option.bind_some, read]
  rfl

private theorem mem_later {place : Location} :
    place ∈ later ↔ fs.Imports dirs root place := by
  rw [gathers.visits.mem_after, gathers.visits.mem_order_iff]
  simp

theorem types_eq :
    loader.types.map Prod.fst = order.flatMap fs.definitions := by
  have each : ∀ place,
      (fs.declarations place).map Prod.fst = fs.definitions place := by
    simp [FileSystem.declarations, Function.comp_def]
  rw [gathers.types, List.nil_append, List.map_flatMap]
  simp only [each]

theorem unique : ((order.flatMap fs.definitions).map TypeDef.name).Nodup := by
  have unique := gathers.visited.unique
  rw [← gathers.types_eq, List.map_map]
  exact unique

theorem loadable (datamodel : ∃ file, fs.datamodelFile? root = some file ∧
    file.datamodel.isSome = true) : fs.Loadable dirs root := by
  have reached : ∀ place, fs.Imports dirs root place → place ∈ order :=
    fun place => gathers.visits.mem_order_iff.mpr
  have unique := gathers.unique
  rw [List.map_flatMap, List.nodup_flatMap] at unique
  obtain ⟨within, across⟩ := unique
  refine ⟨?_, ?_, ?_, datamodel⟩
  · intro place leads
    exact gathers.ready place (reached place leads)
  · intro place leads
    exact within place (reached place leads)
  · intro first second here there different
    have symmetric : Std.Symm (Function.onFun List.Disjoint fun place =>
        (fs.definitions place).map TypeDef.name) := ⟨fun _ _ =>
          List.disjoint_symm⟩
    exact across.forall (reached first here) (reached second there) different

theorem sorted (tree : fs.IsTree) : (loader.loaded.mergeSort fun first second =>
    (Path.compare first second).isLE).Pairwise (Path.compare · · = .lt) := by
  have there : ∀ place ∈ later, fs.Exists place :=
    fun _ => gathers.visited.exists_of_mem
  rw [gathers.visited.loaded]
  apply Path.pairwise_mergeSort
  · exact gathers.visited.distinct.map_on fun first here second known =>
      FileSystem.absolute_injective tree (there first here) (there second known)
  · simp only [List.forall_mem_map]
    intro first here second known same
    rw [FileSystem.parts_absolute tree (there first here),
      FileSystem.parts_absolute tree (there second known)] at same
    have names :=
      List.map_injective_iff.mpr (fun _ _ => PathPart.name.inj)
        (List.cons.inj same).2
    rw [names]

theorem collects (tree : fs.IsTree) {schema : Schema}
    (finished : loader.finish = .ok schema) : schema.Collects fs dirs root := by
  obtain ⟨file, read, root_eq⟩ := gathers.root_eq
  rw [Loader.finish, root_eq] at finished
  cases datamodel : file.datamodel with
  | none =>
      simp only [datamodel] at finished
      cases finished
  | some metadata =>
      simp only [datamodel] at finished
      cases finished
      refine ⟨⟨file, read, datamodel, rfl⟩, rfl, ⟨later, order, gathers.visits,
        gathers.visits.nodup_append .nil, fun _ => gathers.visits.mem_order_iff,
        gathers.types_eq⟩, ?_, ?_, gathers.sorted tree⟩
      · apply Catalog.find?_ofList
        rw [gathers.types_eq]
        exact gathers.unique
      · intro path
        rw [List.mem_mergeSort, gathers.visited.loaded]
        simp [gathers.mem_later]

private theorem exists_finish (loadable : fs.Loadable dirs root) :
    ∃ schema, loader.finish = .ok schema := by
  obtain ⟨file, read, root_eq⟩ := gathers.root_eq
  obtain ⟨other, again, named⟩ := loadable.datamodel
  rw [read] at again
  cases again
  obtain ⟨metadata, datamodel⟩ := Option.isSome_iff_exists.mp named
  rw [Loader.finish, root_eq]
  simp [datamodel]

end Gathers

end Loader

namespace FileSystem

variable {fs : FileSystem} {dirs : List String} {root : Location}

theorem Loadable.not_flawed (loadable : fs.Loadable dirs root) :
    ¬ fs.Flawed dirs [] root := by
  rintro (⟨reached, fails⟩ | ⟨reached, twice⟩ |
    ⟨reached, there, different, first, second, same⟩)
  · exact fails (loadable.ready _ reached)
  · exact twice (loadable.within _ reached)
  · rcases there with known | reachedToo
    · cases known
    · exact loadable.across _ _ reached reachedToo different
        (List.mem_map_of_mem first) (same ▸ List.mem_map_of_mem second)

end FileSystem

/-- Loading ends.  It succeeds for a path to a place from which a schema can be
loaded, and for no other, and it makes the schema that the files reached through
imports determine. -/
theorem Schema.load_follows_imports {fs : FileSystem} (tree : fs.IsTree)
    (path : String) (dirs : List String) :
    ((∃ schema, Schema.load fs path dirs = .ok schema) ↔
      ∃ root, fs.locate path = .ok root ∧ fs.Loadable dirs root) ∧
    (∀ schema, Schema.load fs path dirs = .ok schema →
      ∃ root, fs.locate path = .ok root ∧ schema.Collects fs dirs root) ∧
    ∀ deep, Schema.load fs path dirs ≠ .error (.unboundedImports deep) := by
  rw [Loader.load_eq]
  cases located : fs.locate path with
  | error failure =>
      rw [Loader.loadFile_of_locate_error located]
      simp
  | ok root =>
      have ends := Loader.loadFile_ends tree dirs located
      cases result : (Loader.loadFile fs path { includeDirs := dirs }).1 with
      | error error =>
          obtain ⟨bounded, flawed⟩ := ends.error error result
          have refused : ¬ fs.Loadable dirs root := fun loadable =>
            loadable.not_flawed flawed
          simpa [refused] using bounded
      | ok value =>
          obtain ⟨later, order, gathers⟩ := ends.value value result
          rw [ok_bind]
          refine ⟨⟨?_, ?_⟩, ?_, ?_⟩
          · rintro ⟨schema, finished⟩
            have collects := gathers.collects tree finished
            obtain ⟨file, read, datamodel, _⟩ := collects.origin
            refine ⟨root, rfl, gathers.loadable ⟨file, read, ?_⟩⟩
            rw [datamodel]
            rfl
          · rintro ⟨_, ⟨⟩, loadable⟩
            exact gathers.exists_finish loadable
          · intro schema finished
            exact ⟨root, rfl, gathers.collects tree finished⟩
          · exact Loader.finish_ne_unboundedImports _

/-- A boat and its winch import each other.  The winch is found in a directory
for imports. -/
def harborFiles : FileSystem where
  entries := [
    (["d"], .directory),
    (["d", "b"], .file "datamodel: {name: Winch}\nimports: [{path: w}]".toUTF8),
    (["p"], .directory),
    (["p", "w"], .file ("imports: [{path: ../d/b}]\n" ++
      "types: [{name: Winch, kind: {enum: {variants: []}}}]").toUTF8)]

theorem harborFiles_isTree : harborFiles.IsTree where
  named := by simp [harborFiles, Path.isName_iff]
  nested := by
    intro entry inside
    simp only [harborFiles, List.mem_cons, List.not_mem_nil, or_false] at inside
    rcases inside with rfl | rfl | rfl | rfl
    all_goals rfl
  working := rfl

theorem harbor_follows_imports :
    harborFiles.IsTree ∧
    ∃ schema, Schema.load harborFiles "d/./b" ["p"] = .ok schema ∧
      schema.types.map TypeDef.name = ["Winch"] ∧
      harborFiles.Loadable ["p"] ["d", "b"] ∧
      schema.Collects harborFiles ["p"] ["d", "b"] := by
  have names : (Schema.load harborFiles "d/./b" ["p"]).toOption.map
      (fun schema => schema.types.map TypeDef.name) = some ["Winch"] := by
    decide +kernel
  have place : (harborFiles.locate "d/./b").toOption = some ["d", "b"] := by
    decide +kernel
  obtain ⟨schema, loaded, listed⟩ := Option.map_eq_some_iff.mp names
  have loaded := toOption_eq_some_iff.mp loaded
  have located := toOption_eq_some_iff.mp place
  have follows := Schema.load_follows_imports harborFiles_isTree "d/./b" ["p"]
  obtain ⟨root, here, loadable⟩ := follows.1.mp ⟨schema, loaded⟩
  obtain ⟨again, there, collects⟩ := follows.2.1 schema loaded
  cases located.symm.trans here
  cases located.symm.trans there
  exact ⟨harborFiles_isTree, schema, loaded, listed, loadable, collects⟩

end DataBridge
