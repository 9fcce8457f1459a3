import DataBridge.Loader
import DataBridge.Proofs.FileSystem
import DataBridge.Proofs.Loader.DepthFirst

/-!
# Imports between places

What the files of a tree import, by the places where they stand.  An import
means the same place however the path of its importer is written.
-/

namespace DataBridge

namespace FileSystem

variable {fs : FileSystem} {dirs : List String} {place found : Location}
  {path imported : String} {file : DatamodelFile}

/-- The datamodel file at a place. -/
def datamodelFile? (fs : FileSystem) (place : Location) :
    Option DatamodelFile :=
  match fs.entry? place with
  | some (.file bytes) =>
      (String.fromUTF8? bytes).bind fun text =>
        (DatamodelFile.ofText text).toOption
  | _ => none

/-- The place of an import: the first one that exists, beside the importer and
then below each of the directories. -/
def importPlace? (fs : FileSystem) (dirs : List String) (importer : Location)
    (imported : String) : Option Location :=
  (fs.locateFrom importer.dropLast imported ::
    dirs.map fun dir =>
      fs.locate (Path.join dir imported)).findSome? Except.toOption

/-- The places that the file at a place imports, as far as they exist. -/
def importedPlaces (fs : FileSystem) (dirs : List String) (place : Location) :
    List Location :=
  ((fs.datamodelFile? place).map DatamodelFile.imports).getD []
    |>.filterMap (fs.importPlace? dirs place)

/-- A place leads to another one through imports. -/
abbrev Imports (fs : FileSystem) (dirs : List String) :
    Location → Location → Prop :=
  DepthFirst.Leads (fs.importedPlaces dirs)

theorem not_directory_of_datamodelFile?
    (read : fs.datamodelFile? place = some file) :
    fs.entry? place ≠ some .directory := by
  intro directory
  rw [datamodelFile?, directory] at read
  cases read

theorem exists_of_datamodelFile? (read : fs.datamodelFile? place = some file) :
    fs.Exists place := by
  unfold Exists
  cases entry : fs.entry? place with
  | some entry => rfl
  | none =>
      rw [datamodelFile?, entry] at read
      cases read

theorem exists_of_isSome (file : (fs.datamodelFile? place).isSome = true) :
    fs.Exists place := by
  obtain ⟨_, read⟩ := Option.isSome_iff_exists.mp file
  exact exists_of_datamodelFile? read

theorem isSome_of_mem_importedPlaces
    (follows : found ∈ fs.importedPlaces dirs place) :
    (fs.datamodelFile? place).isSome = true := by
  unfold importedPlaces at follows
  cases read : fs.datamodelFile? place with
  | some file => rfl
  | none =>
      rw [read] at follows
      cases follows

theorem importedPlaces_of_file (read : fs.datamodelFile? place = some file) :
    fs.importedPlaces dirs place =
      file.imports.filterMap (fs.importPlace? dirs place) := by
  rw [importedPlaces, read]
  rfl

theorem mem_importedPlaces {imported : String}
    (read : fs.datamodelFile? place = some file)
    (inside : imported ∈ file.imports)
    (means : fs.importPlace? dirs place imported = some found) :
    found ∈ fs.importedPlaces dirs place := by
  rw [importedPlaces_of_file read]
  exact List.mem_filterMap.mpr ⟨imported, inside, means⟩

/-- The empty import is the directory of its importer. -/
theorem importPlace?_empty (tree : fs.IsTree)
    (read : fs.datamodelFile? place = some file) :
    fs.importPlace? dirs place "" = some place.dropLast := by
  have above := tree.above (exists_of_datamodelFile? read)
  have stays : fs.locateFrom place.dropLast "" = .ok place.dropLast := by
    rw [locateFrom, if_neg (by simp [Path.isAbsolute]),
      Text.split_of_not_mem (by simp), walk_cons, step_blank above (.inl rfl)]
    rfl
  rw [importPlace?, List.findSome?_cons, stays]
  rfl

theorem exists_of_importPlace? (tree : fs.IsTree)
    (read : fs.datamodelFile? place = some file)
    (means : fs.importPlace? dirs place imported = some found) :
    fs.Exists found := by
  obtain ⟨result, candidate, leads⟩ := List.exists_of_findSome?_eq_some means
  cases result with
  | error failure => cases leads
  | ok reached =>
      cases leads
      rcases List.mem_cons.mp candidate with beside | below
      · refine walk_exists tree ?_ beside.symm
        split
        · rfl
        · exact exists_of_directory (tree.above (exists_of_datamodelFile? read))
      · obtain ⟨dir, _, located⟩ := List.mem_map.mp below
        exact locate_exists tree located

end FileSystem

namespace Loader

open FileSystem (absolute)

variable {fs : FileSystem} {dirs : List String} {place found : Location}
  {path imported : String} {file : DatamodelFile}

theorem canonical_of_locate (located : fs.locate path = .ok place) :
    canonical fs path = .ok (absolute place) := by
  rw [canonical, FileSystem.canonicalize, located]
  rfl

theorem readFile_toOption (located : fs.locate path = .ok place) :
    (readFile fs path).toOption = fs.datamodelFile? place := by
  rw [readFile, FileSystem.readText, FileSystem.readBytes, located,
    FileSystem.datamodelFile?, ok_bind]
  rcases fs.entry? place with _ | _ | bytes
  · rfl
  · rfl
  · simp only [pure_eq_ok, ok_bind]
    cases String.fromUTF8? bytes with
    | none => rfl
    | some text =>
        simp only [mapError_ok, ok_bind, Option.bind_some]
        cases DatamodelFile.ofText text <;> rfl

theorem readFile_ne_unboundedImports (fs : FileSystem) (path deep : String) :
    readFile fs path ≠ .error (.unboundedImports deep) := by
  rw [readFile]
  cases fs.readText path with
  | error failure => simp
  | ok text =>
      rw [mapError_ok, ok_bind]
      cases DatamodelFile.ofText text <;> simp

theorem importPath_eq_findSome? (fs : FileSystem) (dirs : List String)
    (imported path : String) : importPath fs dirs imported path =
      match (candidates dirs imported path).findSome? fun candidate =>
        (fs.locate candidate).toOption with
      | some place => .ok (absolute place)
      | none => .error (.importNotFound imported path) := by
  rw [importPath]
  induction candidates dirs imported path with
  | nil => rfl
  | cons candidate rest induction =>
      cases located : fs.locate candidate with
      | error failure =>
          have absent : fs.pathExists candidate = false := by
            rw [FileSystem.pathExists, located]
            rfl
          rw [List.find?_cons_of_neg (by simp [absent]), induction,
            List.findSome?_cons, located]
          rfl
      | ok place =>
          have present : fs.pathExists candidate = true := by
            rw [FileSystem.pathExists, located]
            rfl
          rw [List.find?_cons_of_pos present, List.findSome?_cons, located]
          exact canonical_of_locate located

theorem importPath_error {error : LoadError}
    (fails : importPath fs dirs imported path = .error error) :
    error = .importNotFound imported path := by
  rw [importPath_eq_findSome?] at fails
  split at fails
  · cases fails
  · cases fails
    rfl

theorem importPath_eq (tree : fs.IsTree) (located : fs.locate path = .ok place)
    (read : fs.datamodelFile? place = some file) (nonempty : imported ≠ "")
    (dirs : List String) : importPath fs dirs imported path =
      match fs.importPlace? dirs place imported with
      | some found => .ok (absolute found)
      | none => .error (.importNotFound imported path) := by
  obtain ⟨parent, above, beside⟩ := FileSystem.locate_beside tree located
    (FileSystem.not_directory_of_datamodelFile? read) nonempty
  have same : (candidates dirs imported path).findSome? (fun candidate =>
      (fs.locate candidate).toOption) =
          fs.importPlace? dirs place imported := by
    simp [candidates, above, FileSystem.importPlace?,
      List.findSome?_cons, beside, List.findSome?_map, Function.comp_def]
  rw [importPath_eq_findSome?, same]

theorem exists_of_importPath (tree : fs.IsTree) {result : String}
    (means : importPath fs dirs imported path = .ok result) :
    ∃ found, fs.Exists found ∧ absolute found = result := by
  rw [importPath_eq_findSome?] at means
  split at means
  · rename_i found leads
    cases means
    obtain ⟨candidate, _, located⟩ := List.exists_of_findSome?_eq_some leads
    exact ⟨found,
      FileSystem.locate_exists tree (toOption_eq_some_iff.mp located), rfl⟩
  · cases means

/-- An empty import leads to a directory, if anywhere. -/
theorem directory_of_importPath_empty {result : String}
    (means : importPath fs dirs "" path = .ok result) :
    ∃ place, absolute place = result ∧ fs.Exists place ∧ fs.entry? place =
      some .directory := by
  rw [importPath_eq_findSome?] at means
  split at means
  · rename_i place located
    cases means
    obtain ⟨candidate, inside, leads⟩ :=
      List.exists_of_findSome?_eq_some located
    obtain ⟨base, _, rfl⟩ := List.mem_map.mp inside
    have directory :=
      FileSystem.directory_of_join_empty (toOption_eq_some_iff.mp leads)
    exact ⟨place, rfl, FileSystem.exists_of_directory directory, directory⟩
  · cases means

/-- Loads an import of the file at a path. -/
def loadImport (fs : FileSystem) (depth : Nat) (path imported : String) :
    Loading Unit := do
  let found ← (importPath fs (← get).includeDirs imported path :
    Except LoadError String)
  loadWithin fs depth found

/-- Loading from a path that leads somewhere. -/
theorem loadWithin_succ (located : fs.locate path = .ok place) (depth : Nat) :
    loadWithin fs (depth + 1) path = (do
      if (← get).loaded.contains (absolute place) then return
      modify (visit (absolute place))
      let file ← (readFile fs path : Except LoadError DatamodelFile)
      modify (offerRoot (absolute place) file)
      file.imports.forM (loadImport fs depth path)
      file.types.forM (declare · (absolute place))) := by
  rw [loadWithin, canonical_of_locate located]
  rfl

end Loader

end DataBridge
