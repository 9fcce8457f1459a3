import DataBridge.Proofs.Loader.Schema

/-!
# Loading again

A loader can be used for several calls, some of which fail.  A file that was
first visited by a call that failed counts as loaded all the same, although its
definitions and imports may be missing.  For all other files loading keeps its
promise.
-/

namespace DataBridge

namespace Loader

open FileSystem (absolute)

variable {fs : FileSystem} {dirs : List String} {left more : List String}
  {place root : Location} {path : String} {file : DatamodelFile}
  {loader before after : Loader}

/-- What a later loader keeps of an earlier one. -/
structure Grows (before after : Loader) : Prop where
  includeDirs : after.includeDirs = before.includeDirs
  loaded : before.loaded <+: after.loaded
  types : before.types <+: after.types

theorem Grows.refl (loader : Loader) : Grows loader loader :=
  ⟨rfl, List.prefix_rfl, List.prefix_rfl⟩

theorem Grows.trans {middle : Loader} (first : Grows before middle)
    (second : Grows middle after) : Grows before after :=
  ⟨second.includeDirs.trans first.includeDirs, first.loaded.trans second.loaded,
    first.types.trans second.types⟩

theorem grows_enter (loader : Loader) (path : String) (file : DatamodelFile) :
    Grows loader (offerRoot path file (visit path loader)) :=
  ⟨rfl, List.prefix_append _ _, List.prefix_rfl⟩

private theorem grows_visit (loader : Loader) (path : String) :
    Grows loader (visit path loader) :=
  ⟨rfl, List.prefix_append _ _, List.prefix_rfl⟩

theorem grows_note (loader : Loader) (definitions : List TypeDef)
    (path : String) : Grows loader (loader.note definitions path) :=
  ⟨rfl, List.prefix_rfl, List.prefix_append _ _⟩

/-- All that the file at a place brings is there or under way. -/
structure Complete (fs : FileSystem) (dirs : List String) (loader : Loader)
    (place : Location) : Prop where
  declared : ∀ entry ∈ fs.declarations place, entry ∈ loader.types
  followed : ∀ next ∈ fs.importedPlaces dirs place,
    (fs.datamodelFile? next).isSome = true →
    absolute next ∈ loader.loaded

theorem Complete.mono (complete : Complete fs dirs before place)
    (grows : Grows before after) : Complete fs dirs after place where
  declared entry inside := grows.types.subset (complete.declared entry inside)
  followed next inside file :=
    grows.loaded.subset (complete.followed next inside file)

/-- What was visited is complete, except for what is left over. -/
structure Kept (fs : FileSystem) (dirs : List String) (left : List String)
    (loader : Loader) : Prop where
  includeDirs : loader.includeDirs = dirs
  complete : ∀ place, fs.Exists place → absolute place ∈ loader.loaded →
    absolute place ∉ left →
    Complete fs dirs loader place

namespace Kept

/-- While its imports are loaded, a file is left over. -/
theorem enter (kept : Kept fs dirs left loader) (path : String)
    (file : DatamodelFile) :
    Kept fs dirs (path :: left) (offerRoot path file (visit path loader)) where
  includeDirs := kept.includeDirs
  complete := by
    intro other there noted clean
    obtain ⟨different, clean⟩ := not_or.mp (mt List.mem_cons.mpr clean)
    rcases List.mem_append.mp noted with earlier | last
    · exact (kept.complete other there earlier clean).mono
        (grows_enter loader path file)
    · exact (different (List.mem_singleton.mp last)).elim

/-- A file is left over no longer when its definitions are noted, too. -/
theorem leave (tree : fs.IsTree) (found : fs.Exists place)
    (kept : Kept fs dirs (absolute place :: left) loader)
    (followed : ∀ next ∈ fs.importedPlaces dirs place,
      (fs.datamodelFile? next).isSome = true →
      absolute next ∈ loader.loaded) :
    Kept fs dirs
    left (loader.note (fs.definitions place) (absolute place)) where
  includeDirs := kept.includeDirs
  complete := by
    intro other there noted clean
    by_cases same : absolute other = absolute place
    · rw [FileSystem.absolute_injective tree there found same]
      exact ⟨fun entry own => List.mem_append_right _ own, followed⟩
    · apply (kept.complete other there noted _).mono (grows_note loader _ _)
      exact fun member => (List.mem_cons.mp member).elim same clean

end Kept

/-- A loader is kept in order by loading to a depth. -/
def Keeps (fs : FileSystem) (dirs : List String) (depth : Nat) : Prop :=
  ∀ path place left before, fs.locate path = .ok place →
    Kept fs dirs left before →
    EndsIn (loadWithin fs depth path) before
      (fun _ after => Grows before after ∧ Kept fs dirs left after ∧
        absolute place ∈ after.loaded)
      (fun _ after => Grows before after)

private theorem import_keeps (tree : fs.IsTree) {depth : Nat}
    (keeps : Keeps fs dirs depth) (located : fs.locate path = .ok place)
    (read : fs.datamodelFile? place = some file) (imported : String)
    (kept : Kept fs dirs left before) :
    EndsIn (loadImport fs depth path imported) before
      (fun _ after => Grows before after ∧ Kept fs dirs left after ∧
        ∀ next, fs.importPlace? dirs place imported = some next →
          (fs.datamodelFile? next).isSome = true → absolute next ∈ after.loaded)
      (fun _ after => Grows before after) := by
  apply EndsIn.get_bind
  rw [kept.includeDirs]
  apply EndsIn.bind
  apply EndsIn.lift
  · intro result means
    obtain ⟨found, there, rfl⟩ := exists_of_importPath tree means
    apply (keeps _ found left before (FileSystem.locate_absolute tree there)
      kept).mono
    · rintro _ after ⟨grows, kept, loaded⟩
      refine ⟨grows, kept, ?_⟩
      intro next leads file
      by_cases empty : imported = ""
      · -- The empty import is no file.
        rw [empty, FileSystem.importPlace?_empty tree read] at leads
        cases leads
        obtain ⟨other, again⟩ := Option.isSome_iff_exists.mp file
        have directory := tree.above (FileSystem.exists_of_datamodelFile? read)
        exact (FileSystem.not_directory_of_datamodelFile? again directory).elim
      · rw [importPath_eq tree located read empty dirs, leads] at means
        rw [Except.ok.inj means]
        exact loaded
    · exact fun _ _ grows => grows
  · exact fun _ _ => .refl before

private theorem imports_keep (tree : fs.IsTree) {depth : Nat}
    (keeps : Keeps fs dirs depth) (located : fs.locate path = .ok place)
    (read : fs.datamodelFile? place = some file)
    (kept : Kept fs dirs left before) :
    EndsIn (file.imports.forM (loadImport fs depth path)) before
      (fun _ after => Grows before after ∧ Kept fs dirs left after ∧
        ∀ next ∈ fs.importedPlaces dirs place,
        (fs.datamodelFile? next).isSome = true →
          absolute next ∈ after.loaded)
      (fun _ after => Grows before after) := by
  rw [FileSystem.importedPlaces_of_file read]
  apply EndsIn.forM (fun done after =>
    Grows before after ∧ Kept fs dirs left after ∧
      ∀ next ∈ done.filterMap (fs.importPlace? dirs place),
        (fs.datamodelFile? next).isSome = true → absolute next ∈ after.loaded)
    ⟨.refl before, kept, nofun⟩
  rintro first imported rest loader split ⟨grows, kept, followed⟩
  apply (import_keeps tree keeps located read imported kept).mono
  · rintro _ after ⟨further, kept, leads⟩
    refine ⟨grows.trans further, kept, ?_⟩
    intro next inside file
    rw [List.filterMap_append] at inside
    rcases List.mem_append.mp inside with earlier | last
    · exact further.loaded.subset (followed next earlier file)
    · obtain ⟨_, here, means⟩ := List.mem_filterMap.mp last
      rw [List.mem_singleton.mp here] at means
      exact leads next means file
  · exact fun _ _ further => grows.trans further

/-- A call that ends well completes what it visits, and one that fails loses
nothing. -/
theorem keeps (tree : fs.IsTree) (dirs : List String) (depth : Nat) :
    Keeps fs dirs depth := by
  induction depth with
  | zero => exact fun _ _ _ before _ _ => .throw (.refl before)
  | succ depth induction =>
      intro path place left before located kept
      have found := FileSystem.locate_exists tree located
      apply loadWithin_ends located
      · exact fun noted => ⟨.refl before, kept, noted⟩
      · exact fun _ _ _ => grows_visit before _
      · intro file _ read
        have begun := grows_enter before (absolute place) file
        have entered := kept.enter (absolute place) file
        apply (imports_keep tree induction located read entered).mono
        · rintro _ middle ⟨grows, kept, followed⟩
          have noted : absolute place ∈ middle.loaded :=
            grows.loaded.subset List.mem_concat_self
          have grows := begun.trans grows
          rw [← FileSystem.definitions_of_file read]
          apply (declareAll_ends _ _ middle).mono
          · rintro _ _ ⟨rfl, _⟩
            exact ⟨grows.trans (grows_note _ _ _),
              .leave tree found kept followed, noted⟩
          · rintro _ _ ⟨⟨noted, rfl⟩, _⟩
            exact grows.trans (grows_note _ _ _)
        · exact fun _ _ grows => begun.trans grows

/-- What calls make of a loader, with the paths that failed calls were the first
to visit. -/
inductive History (fs : FileSystem) (dirs : List String) :
    List String → Loader → Prop
  | start : History fs dirs [] { includeDirs := dirs }
  | loads {left : List String} {before : Loader}
      (earlier : History fs dirs left before)
      (path : String) (succeeds : (loadFile fs path before).1 = .ok ()) :
      History fs dirs left (loadFile fs path before).2
  | fails {left : List String} {before : Loader}
      (earlier : History fs dirs left before)
      (path : String) {error : LoadError}
      (fails : (loadFile fs path before).1 = .error error) :
      History fs dirs
        (left ++ (loadFile fs path before).2.loaded.drop before.loaded.length)
        (loadFile fs path before).2

theorem Kept.after_failure (kept : Kept fs dirs left before)
    (grows : Grows before after) :
    Kept fs dirs (left ++ after.loaded.drop before.loaded.length) after where
  includeDirs := grows.includeDirs.trans kept.includeDirs
  complete := by
    intro place there noted clean
    obtain ⟨fresh, loaded⟩ := grows.loaded
    obtain ⟨earlier, later⟩ := not_or.mp (mt List.mem_append.mpr clean)
    rw [← loaded, List.drop_left] at later
    rw [← loaded] at noted
    have noted := (List.mem_append.mp noted).resolve_right later
    exact (kept.complete place there noted earlier).mono grows

theorem loadFile_keeps (tree : fs.IsTree) (kept : Kept fs dirs left before)
    (path : String) :
    EndsIn (loadFile fs path) before (fun _ after => Kept fs dirs left after)
      (fun _ after => Grows before after) := by
  cases located : fs.locate path with
  | error failure =>
      have same := loadFile_of_locate_error located before
      constructor
      · intro value succeeds
        rw [same] at succeeds
        cases succeeds
      · intro error _
        rw [same]
        exact .refl before
  | ok place =>
      apply (keeps tree dirs (depthBound fs) path place left before located
        kept).mono
      · exact fun _ _ kept => kept.2.1
      · exact fun _ _ grows => grows

theorem History.kept (tree : fs.IsTree)
    (history : History fs dirs left loader) : Kept fs dirs left loader := by
  induction history with
  | start => exact ⟨rfl, nofun⟩
  | loads _ path succeeds induction =>
      exact (loadFile_keeps tree induction path).value () succeeds
  | fails _ path fails induction =>
      exact induction.after_failure
        ((loadFile_keeps tree induction path).error _ fails)

/-- A file behind an import of a complete file is visited, and so it is complete
itself. -/
theorem Kept.complete_of_imports (kept : Kept fs dirs left loader)
    (noted : absolute root ∈ loader.loaded)
    (clean : ∀ place, fs.Imports dirs root place → absolute place ∉ left)
    (reached : fs.Imports dirs root place)
    (file : (fs.datamodelFile? place).isSome = true) :
    Complete fs dirs loader place := by
  refine kept.complete place (FileSystem.exists_of_isSome file)
    ?_ (clean place reached)
  induction reached with
  | refl => exact noted
  | tail reached follows induction =>
      have importer := FileSystem.isSome_of_mem_importedPlaces follows
      have above :=
        kept.complete _ (FileSystem.exists_of_isSome importer)
          (induction importer)
        (clean _ reached)
      exact above.followed _ follows file

private theorem finish_types {schema : Schema}
    (finished : loader.finish = .ok schema) :
    schema.types = loader.types.map Prod.fst := by
  unfold finish at finished
  split at finished
  · cases finished
  · split at finished
    · cases finished
    · cases finished
      rfl

/-- Whatever was called before: when a call ends well, and no failed call was
the first to visit a file that the called file leads to, then the definitions of
all those files are there. -/
theorem definitions_loaded (tree : fs.IsTree)
    (history : History fs dirs left loader)
    (located : fs.locate path = .ok root)
    (clean : ∀ place, fs.Imports dirs root place → absolute place ∉ left)
    (succeeds : (loadFile fs path loader).1 = .ok ()) :
    ∀ place, fs.Imports dirs root place → ∀ definition ∈ fs.definitions place,
      (definition, absolute place) ∈ (loadFile fs path loader).2.types ∧
      ∀ schema, (loadFile fs path loader).2.finish = .ok schema →
        definition ∈ schema.types := by
  have ends :=
    keeps tree dirs (depthBound fs) path root left loader located
      (history.kept tree)
  obtain ⟨_, kept, noted⟩ := ends.value () succeeds
  change Kept fs dirs left (loadFile fs path loader).2 at kept
  change _ ∈ (loadFile fs path loader).2.loaded at noted
  generalize (loadFile fs path loader).2 = after at kept noted ⊢
  intro place reached definition own
  have complete := kept.complete_of_imports noted clean reached
    (FileSystem.isSome_of_mem_definitions own)
  have declared := complete.declared (definition, absolute place)
    (FileSystem.mem_declarations.mpr ⟨own, rfl⟩)
  refine ⟨declared, ?_⟩
  intro schema finished
  rw [finish_types finished]
  exact List.mem_map_of_mem declared

/-- A rope imports a file that is not there, and a bollard the one of a
chain. -/
def quayFiles : FileSystem where
  entries := [
    (["r"], .file ("imports: [{path: m}]\n" ++
      "types: [{name: Rope, kind: {enum: {variants: []}}}]").toUTF8),
    (["b"], .file ("imports: [{path: c}]\n" ++
      "types: [{name: Bollard, kind: {enum: {variants: []}}}]").toUTF8),
    (["c"],
      .file "types: [{name: Chain, kind: {enum: {variants: []}}}]".toUTF8)]

/-- The loader after a call that failed. -/
def quayLoader : Loader :=
  (loadFile quayFiles "r" {}).2

theorem quayFiles_isTree : quayFiles.IsTree where
  named := by simp [quayFiles, Path.isName_iff]
  nested := by simp [quayFiles, FileSystem.entry?]
  working := rfl

theorem quayLoader_history : History quayFiles [] ["/r"] quayLoader := by
  have call : (loadFile quayFiles "r" {}).1 = .error (.importNotFound "m" "r") ∧
      quayLoader.loaded = ["/r"] := by
    decide +kernel
  have failed : History quayFiles []
      ([] ++ quayLoader.loaded.drop ({} : Loader).loaded.length) quayLoader :=
    .fails .start "r" call.1
  rwa [call.2] at failed

theorem quay_bollard_loaded :
    quayFiles.IsTree ∧ History quayFiles [] ["/r"] quayLoader ∧
    quayFiles.locate "b" = .ok ["b"] ∧
    quayFiles.Imports [] ["b"] ["c"] ∧
    (∀ place, quayFiles.Imports [] ["b"] place → absolute place ∉ ["/r"]) ∧
    (loadFile quayFiles "b" quayLoader).1 = .ok () ∧
    (⟨"Bollard", .enum { variants := [] }⟩, "/b") ∈
      (loadFile quayFiles "b" quayLoader).2.types ∧
    (⟨"Chain", .enum { variants := [] }⟩, "/c") ∈
      (loadFile quayFiles "b" quayLoader).2.types := by
  have located : quayFiles.locate "b" = .ok ["b"] := by decide +kernel
  have imported : quayFiles.importedPlaces [] ["b"] = [["c"]] := by
    decide +kernel
  have last : quayFiles.importedPlaces [] ["c"] = [] := by decide +kernel
  have own : ⟨"Bollard", .enum { variants := [] }⟩ ∈
    quayFiles.definitions ["b"] ∧
      ⟨"Chain", .enum { variants := [] }⟩ ∈ quayFiles.definitions ["c"] := by
    decide +kernel
  have chain : quayFiles.Imports [] ["b"] ["c"] :=
    .single (imported ▸ List.mem_singleton_self _)
  have clean : ∀ place, quayFiles.Imports [] ["b"] place →
      absolute place ∉ ["/r"] := by
    intro place reached
    rcases reached.cases_head with rfl | ⟨next, follows, further⟩
    · decide +kernel
    · rw [imported] at follows
      obtain rfl := List.mem_singleton.mp follows
      rcases further.cases_head with rfl | ⟨next, follows, _⟩
      · decide +kernel
      · rw [last] at follows
        cases follows
  have succeeds : (loadFile quayFiles "b" quayLoader).1 = .ok () := by
    decide +kernel
  have loaded := definitions_loaded quayFiles_isTree quayLoader_history located
    clean succeeds
  exact ⟨quayFiles_isTree, quayLoader_history, located, chain, clean, succeeds,
    (loaded ["b"] .refl _ own.1).1, (loaded ["c"] chain _ own.2).1⟩

/-- The rope is not there after a call for it that ends well: it counts as
loaded since the call that failed. -/
theorem quay_rope_missing :
    History quayFiles [] ["/r"] quayLoader ∧
    quayFiles.locate "r" = .ok ["r"] ∧
    (loadFile quayFiles "r" quayLoader).1 = .ok () ∧
    (loadFile quayFiles "r" quayLoader).2.types = [] ∧
    quayFiles.definitions ["r"] = [⟨"Rope", .enum { variants := [] }⟩] := by
  refine ⟨quayLoader_history, ?_⟩
  decide +kernel

end Loader

end DataBridge
