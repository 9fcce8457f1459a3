import DataBridge.Proofs.Loader.Imports
import DataBridge.Proofs.Ending
import Mathlib.Data.List.Perm.Subperm

/-!
# Loading follows all imports

Loading a file visits the places that it leads to through imports, depth first.
It goes wrong only for a flaw of one of them: a place without a datamodel file,
an import that leads nowhere, or a name that is declared twice.
-/

namespace DataBridge

namespace FileSystem

/-- The definitions of the file at a place. -/
def definitions (fs : FileSystem) (place : Location) : List TypeDef :=
  ((fs.datamodelFile? place).map DatamodelFile.types).getD []

/-- The definitions of the file at a place, as they are noted. -/
def declarations (fs : FileSystem) (place : Location) :
    List (TypeDef × String) :=
  (fs.definitions place).map (·, absolute place)

/-- A datamodel file stands at the place, and all its imports lead somewhere. -/
def Ready (fs : FileSystem) (dirs : List String) (place : Location) : Prop :=
  ∃ file, fs.datamodelFile? place = some file ∧
    ∀ imported ∈ file.imports,
      (fs.importPlace? dirs place imported).isSome = true

/-- What is wrong with the files that a place leads to, after the files at some
places are known. -/
inductive Flawed (fs : FileSystem) (dirs : List String) (known : List Location)
    (root : Location) : Prop
  | unready {place : Location} (reached : fs.Imports dirs root place)
      (fails : ¬ fs.Ready dirs place)
  | repeated {place : Location} (reached : fs.Imports dirs root place)
      (twice : ¬ ((fs.definitions place).map TypeDef.name).Nodup)
  | shared {place other : Location} (reached : fs.Imports dirs root place)
      (there : other ∈ known ∨ fs.Imports dirs root other)
      (different : place ≠ other)
      {first second : TypeDef} (declared : first ∈ fs.definitions place)
      (again : second ∈ fs.definitions other) (same : first.name = second.name)

variable {fs : FileSystem} {dirs : List String} {place root inner : Location}
  {known more : List Location}

theorem Flawed.lift (flawed : fs.Flawed dirs more inner)
    (reached : fs.Imports dirs root inner)
    (covered : ∀ place ∈ more, place ∈ known ∨ fs.Imports dirs root place) :
    fs.Flawed dirs known root := by
  cases flawed with
  | unready deeper fails => exact .unready (reached.trans deeper) fails
  | repeated deeper twice => exact .repeated (reached.trans deeper) twice
  | shared deeper there different declared again same =>
      refine .shared (reached.trans deeper) ?_ different declared again same
      rcases there with before | below
      · exact covered _ before
      · exact .inr (reached.trans below)

private theorem not_ready_of_directory
    (directory : fs.entry? place = some .directory) :
    ¬ fs.Ready dirs place := by
  rintro ⟨file, read, _⟩
  exact not_directory_of_datamodelFile? read directory

theorem definitions_of_file {file : DatamodelFile}
    (read : fs.datamodelFile? place = some file) :
    fs.definitions place = file.types := by
  rw [definitions, read]
  rfl

theorem isSome_of_mem_definitions {definition : TypeDef}
    (own : definition ∈ fs.definitions place) :
    (fs.datamodelFile? place).isSome = true := by
  unfold definitions at own
  cases read : fs.datamodelFile? place with
  | some file => rfl
  | none =>
      rw [read] at own
      cases own

theorem mem_declarations {entry : TypeDef × String} :
    entry ∈ fs.declarations place ↔
      entry.1 ∈ fs.definitions place ∧ absolute place = entry.2 := by
  rcases entry with ⟨definition, path⟩
  simp [declarations]

end FileSystem

namespace Loader

open FileSystem (Flawed absolute)

variable {fs : FileSystem} {dirs : List String}
  {seen later order todo : List Location} {place : Location} {path : String}
  {file : DatamodelFile} {before after loader : Loader}

def names (loader : Loader) : List String :=
  loader.types.map (·.1.name)

/-- What a loader holds when it has seen some places, and none of them has made
it fail. -/
structure Visited (fs : FileSystem) (dirs : List String) (seen : List Location)
    (loader : Loader) : Prop where
  includeDirs : loader.includeDirs = dirs
  loaded : loader.loaded = seen.map absolute
  distinct : seen.Nodup
  readable : ∀ place ∈ seen, (fs.datamodelFile? place).isSome = true
  root : loader.root =
    seen.head?.bind fun first =>
      (fs.datamodelFile? first).map (absolute first, ·)
  declared : ∀ entry ∈ loader.types,
    ∃ place ∈ seen, entry ∈ fs.declarations place
  unique : loader.names.Nodup

namespace Visited

theorem start (fs : FileSystem) (dirs : List String) :
    Visited fs dirs [] { includeDirs := dirs } where
  includeDirs := rfl
  loaded := rfl
  distinct := .nil
  readable := nofun
  root := rfl
  declared := nofun
  unique := .nil

theorem exists_of_mem (visited : Visited fs dirs seen loader)
    (known : place ∈ seen) : fs.Exists place :=
  FileSystem.exists_of_isSome (visited.readable place known)

/-- There are no more places than entries, and the root. -/
theorem length_le (visited : Visited fs dirs seen loader) :
    seen.length ≤ fs.entries.length + 1 := by
  have inside : seen ⊆ [] :: fs.entries.map Prod.fst := fun place known =>
    FileSystem.mem_of_exists (visited.exists_of_mem known)
  simpa using (List.subperm_of_subset visited.distinct inside).length_le

theorem mem_loaded_iff (visited : Visited fs dirs seen loader)
    (tree : fs.IsTree) (found : fs.Exists place) :
    absolute place ∈ loader.loaded ↔ place ∈ seen := by
  rw [visited.loaded]
  constructor
  · intro noted
    obtain ⟨other, known, same⟩ := List.mem_map.mp noted
    have there := visited.exists_of_mem known
    exact FileSystem.absolute_injective tree there found same ▸ known
  · exact List.mem_map_of_mem

/-- A new place with a datamodel file is seen. -/
theorem enter (visited : Visited fs dirs seen loader) (fresh : place ∉ seen)
    (read : fs.datamodelFile? place = some file) :
    Visited fs dirs (seen ++ [place])
      (offerRoot (absolute place) file (visit (absolute place) loader)) where
  includeDirs := visited.includeDirs
  loaded := by simp [offerRoot, visit, visited.loaded]
  distinct := List.nodup_middle.mpr (by simpa using ⟨fresh, visited.distinct⟩)
  readable := by
    intro other known
    rcases List.mem_append.mp known with known | last
    · exact visited.readable other known
    · rw [List.mem_singleton.mp last, read]
      rfl
  root := by
    have root := visited.root
    cases seen with
    | nil => simp_all [offerRoot, visit]
    | cons first rest =>
        obtain ⟨other, there⟩ :=
          Option.isSome_iff_exists.mp
            (visited.readable first List.mem_cons_self)
        simp_all [offerRoot, visit]
  declared := by
    intro entry inside
    obtain ⟨other, known, declared⟩ := visited.declared entry inside
    exact ⟨other, List.mem_append_left _ known, declared⟩
  unique := visited.unique

end Visited

/-- What loading the places in `todo` makes of a loader. -/
structure Gathers (fs : FileSystem) (dirs : List String)
    (seen todo : List Location) (before : Loader) (later order : List Location)
    (after : Loader) : Prop where
  visits : DepthFirst (fs.importedPlaces dirs) seen todo later order
  visited : Visited fs dirs later after
  ready : ∀ place ∈ order, fs.Ready dirs place
  types : after.types = before.types ++ order.flatMap fs.declarations

theorem Gathers.append {others last more : List Location} {final : Loader}
    (first : Gathers fs dirs seen todo before later order after)
    (second : Gathers fs dirs later others after last more final) :
    Gathers fs dirs seen (todo ++ others) before last (order ++ more)
      final where
  visits := first.visits.append second.visits
  visited := second.visited
  ready place member :=
    (List.mem_append.mp member).elim (first.ready place) (second.ready place)
  types := by
    rw [second.types, first.types, List.flatMap_append, List.append_assoc]

/-- A loader that has noted definitions of a file besides. -/
def note (loader : Loader) (definitions : List TypeDef) (path : String) :
    Loader :=
  { loader with types := loader.types ++ definitions.map (·, path) }

theorem names_note (loader : Loader) (definitions : List TypeDef)
    (path : String) :
    (loader.note definitions path).names =
      loader.names ++ definitions.map TypeDef.name := by
  simp [names, note, Function.comp_def]

private theorem declare_ends (definition : TypeDef) (path : String)
    (loader : Loader) :
    EndsIn (declare definition path) loader
      (fun _ after =>
        after = loader.note [definition] path ∧ definition.name ∉ loader.names)
      (fun error after =>
        after = loader ∧ (∀ deep, error ≠ .unboundedImports deep) ∧
        definition.name ∈ loader.names) := by
  apply EndsIn.get_bind
  split
  · rename_i other first found
    apply EndsIn.throw
    refine ⟨rfl, nofun,
      List.mem_map.mpr ⟨(other, first), List.mem_of_find?_eq_some found, ?_⟩⟩
    simpa using List.find?_some found
  · rename_i absent
    apply EndsIn.modify
    refine ⟨rfl, ?_⟩
    intro taken
    obtain ⟨entry, inside, same⟩ := List.mem_map.mp taken
    exact List.find?_eq_none.mp absent entry inside (by simpa using same)

theorem declareAll_ends (definitions : List TypeDef) (path : String)
    (before : Loader) : EndsIn (definitions.forM (declare · path)) before
      (fun _ after => after = before.note definitions path ∧
        (before.names.Nodup → after.names.Nodup))
      (fun error after => (∃ noted, after = before.note noted path) ∧
        (∀ deep, error ≠ .unboundedImports deep) ∧
        ¬ (before.names ++ definitions.map TypeDef.name).Nodup) := by
  apply EndsIn.forM (fun done after =>
    after = before.note done path ∧ (before.names.Nodup → after.names.Nodup))
  · exact ⟨by simp [note], id⟩
  · rintro first definition rest loader split ⟨rfl, distinct⟩
    apply (declare_ends definition path (before.note first path)).mono
    · rintro _ _ ⟨rfl, free⟩
      refine ⟨by simp [note], ?_⟩
      intro unique
      rw [names_note]
      exact List.nodup_middle.mpr (by simpa using ⟨free, distinct unique⟩)
    · rintro error _ ⟨rfl, bounded, taken⟩
      refine ⟨⟨first, rfl⟩, bounded, ?_⟩
      intro distinct
      rw [names_note] at taken
      rw [split, List.map_append, ← List.append_assoc, List.map_cons]
        at distinct
      have free := (List.nodup_cons.mp (List.nodup_middle.mp distinct)).1
      exact free (List.mem_append_left _ taken)

/-- A call visits a file once, and before its imports and its definitions. -/
theorem loadWithin_ends {path : String} {depth : Nat}
    {done : Unit → Loader → Prop} {failed : LoadError → Loader → Prop}
    (located : fs.locate path = .ok place)
    (again : absolute place ∈ before.loaded → done () before)
    (unread : ∀ error, fs.datamodelFile? place = none →
      (∀ deep, error ≠ .unboundedImports deep) →
        failed error (visit (absolute place) before))
    (imports : ∀ file, absolute place ∉ before.loaded →
      fs.datamodelFile? place = some file →
      EndsIn (file.imports.forM (loadImport fs depth path))
        (offerRoot (absolute place) file (visit (absolute place) before))
        (fun _ middle =>
          EndsIn (file.types.forM (declare · (absolute place))) middle
            done failed)
        failed) :
    EndsIn (loadWithin fs (depth + 1) path) before done failed := by
  have readable := readFile_toOption located
  rw [loadWithin_succ located]
  apply EndsIn.get_bind
  split
  · rename_i noted
    exact .pure (again (List.contains_iff_mem.mp noted))
  rename_i unnoted
  have fresh : absolute place ∉ before.loaded := by simpa using unnoted
  apply EndsIn.bind
  apply EndsIn.modify
  apply EndsIn.bind
  apply EndsIn.lift
  · intro file reads
    have read : fs.datamodelFile? place = some file := by
      rw [← readable, reads]
      rfl
    apply EndsIn.bind
    apply EndsIn.modify
    apply EndsIn.bind
    exact imports file fresh read
  · intro error fails
    apply unread error
    · rw [← readable, fails]
      rfl
    · rintro deep rfl
      exact readFile_ne_unboundedImports fs path deep fails

theorem Visited.note (visited : Visited fs dirs seen loader)
    (known : place ∈ seen)
    (unique : (loader.note (fs.definitions place)
      (absolute place)).names.Nodup) :
    Visited fs dirs seen
      (loader.note (fs.definitions place) (absolute place)) where
  includeDirs := visited.includeDirs
  loaded := visited.loaded
  distinct := visited.distinct
  readable := visited.readable
  root := visited.root
  declared := by
    intro entry inside
    rcases List.mem_append.mp inside with earlier | own
    · exact visited.declared entry earlier
    · exact ⟨place, known, own⟩
  unique := unique

namespace Gathers

/-- What is gathered from imports of a place, the place leads to. -/
theorem reached (gathers : Gathers fs dirs seen todo before later order after)
    (follow : todo ⊆ fs.importedPlaces dirs place) {other : Location}
    (visited : other ∈ order) : fs.Imports dirs place other := by
  obtain ⟨start, asked, leads⟩ := gathers.visits.exists_leads visited
  exact .head (follow asked) leads

/-- A file whose names clash with what was gathered before it is flawed. -/
theorem flawed
    (gathers : Gathers fs dirs (seen ++ [place]) todo before later order after)
    (follow : todo ⊆ fs.importedPlaces dirs place)
    (visited : Visited fs dirs seen before) (fresh : place ∉ seen)
    (clash : ¬ (after.names ++ (fs.definitions place).map TypeDef.name).Nodup) :
    Flawed fs dirs seen place := by
  by_cases unique : ((fs.definitions place).map TypeDef.name).Nodup
  · obtain ⟨name, taken, own⟩ : ∃ name, name ∈ after.names ∧
        name ∈ (fs.definitions place).map TypeDef.name := by
      by_contra apart
      apply clash
      refine List.nodup_append.mpr ⟨gathers.visited.unique, unique, ?_⟩
      rintro name taken _ own rfl
      exact apart ⟨name, taken, own⟩
    obtain ⟨first, declared, rfl⟩ := List.mem_map.mp own
    obtain ⟨entry, noted, same⟩ := List.mem_map.mp taken
    rw [gathers.types] at noted
    rcases List.mem_append.mp noted with earlier | below
    · obtain ⟨other, known, again⟩ := visited.declared entry earlier
      have different : place ≠ other := by
        rintro rfl
        exact fresh known
      exact .shared .refl (.inl known) different declared
        (FileSystem.mem_declarations.mp again).1 same.symm
    · obtain ⟨other, member, again⟩ := List.mem_flatMap.mp below
      have distinct : (seen ++ [place]).Nodup :=
        List.nodup_middle.mpr (by simpa using ⟨fresh, visited.distinct⟩)
      have different : place ≠ other := by
        rintro rfl
        exact gathers.visits.not_mem_order distinct List.mem_concat_self member
      exact .shared .refl (.inr (gathers.reached follow member)) different
        declared (FileSystem.mem_declarations.mp again).1 same.symm
  · exact .repeated .refl unique

/-- A file stands behind what its imports gather. -/
theorem complete
    (gathers : Gathers fs dirs (seen ++ [place])
      (fs.importedPlaces dirs place) before
      later order after)
    (fresh : place ∉ seen) (ready : fs.Ready dirs place)
    (unique : (after.note (fs.definitions place)
      (absolute place)).names.Nodup) :
    Gathers fs dirs seen [place] before later (order ++ [place])
      (after.note (fs.definitions place) (absolute place)) where
  visits := .enter fresh gathers.visits .done
  visited :=
    gathers.visited.note
      (gathers.visits.mem_after.mpr (.inl List.mem_concat_self)) unique
  ready := by
    intro other member
    rcases List.mem_append.mp member with below | last
    · exact gathers.ready other below
    · exact List.mem_singleton.mp last ▸ ready
  types := by simp [note, gathers.types, FileSystem.declarations]

end Gathers

/-- A failure for a flaw, and not for want of depth. -/
structure Failed (fs : FileSystem) (dirs : List String) (known : List Location)
    (root : Location) (error : LoadError) : Prop where
  bounded : ∀ deep, error ≠ .unboundedImports deep
  flawed : Flawed fs dirs known root

theorem Failed.lift {known more : List Location} {root inner : Location}
    {error : LoadError} (failed : Failed fs dirs more inner error)
    (reached : fs.Imports dirs root inner)
    (covered : ∀ place ∈ more, place ∈ known ∨ fs.Imports dirs root place) :
    Failed fs dirs known root error :=
  ⟨failed.bounded, failed.flawed.lift reached covered⟩

/-- Loading does what it should for every place, if as many files as there are
left may be nested. -/
def Loads (fs : FileSystem) (dirs : List String) (depth : Nat) : Prop :=
  ∀ path place seen before, fs.locate path = .ok place →
    Visited fs dirs seen before →
    fs.entries.length + 1 < depth + seen.length →
    EndsIn (loadWithin fs depth path) before
      (fun _ after =>
        ∃ later order, Gathers fs dirs seen [place] before later order after)
      (fun error _ => Failed fs dirs seen place error)

/-- No file is loaded for an empty import: the directory of the importer cannot
be read, and neither can another one. -/
theorem emptyImport_ends (tree : fs.IsTree) {depth : Nat}
    (loads : Loads fs dirs depth) (read : fs.datamodelFile? place = some file)
    (inside : "" ∈ file.imports) (visited : Visited fs dirs seen before)
    (enough : fs.entries.length + 1 < depth + seen.length) :
    EndsIn (loadImport fs depth path "") before (fun _ _ => False)
      (fun error _ => Failed fs dirs seen place error) := by
  have flawed : Flawed fs dirs seen place := by
    have directory := tree.above (FileSystem.exists_of_datamodelFile? read)
    have means : fs.importPlace? dirs place "" = some place.dropLast :=
      FileSystem.importPlace?_empty tree read
    exact .unready (.single (FileSystem.mem_importedPlaces read inside means))
      (FileSystem.not_ready_of_directory directory)
  apply EndsIn.get_bind
  rw [visited.includeDirs]
  apply EndsIn.bind
  apply EndsIn.lift
  · intro found means
    obtain ⟨other, rfl, there, directory⟩ := directory_of_importPath_empty means
    have back := FileSystem.locate_absolute tree there
    apply (loads _ other seen before back visited enough).mono
    · rintro _ after ⟨later, order, gathers⟩
      have known := gathers.visits.todo_subset List.mem_cons_self
      obtain ⟨file, read⟩ :=
        Option.isSome_iff_exists.mp (gathers.visited.readable other known)
      exact FileSystem.not_directory_of_datamodelFile? read directory
    · rintro error _ failed
      exact ⟨failed.bounded, flawed⟩
  · intro error fails
    obtain rfl := importPath_error fails
    exact ⟨nofun, flawed⟩

private theorem import_ends (tree : fs.IsTree) {depth : Nat}
    (loads : Loads fs dirs depth) (located : fs.locate path = .ok place)
    (read : fs.datamodelFile? place = some file) {imported : String}
    (inside : imported ∈ file.imports) (visited : Visited fs dirs seen before)
    (enough : fs.entries.length + 1 < depth + seen.length) :
    EndsIn (loadImport fs depth path imported) before
      (fun _ after =>
        ∃ found later order, fs.importPlace? dirs place imported = some found ∧
        Gathers fs dirs seen [found] before later order after)
      (fun error _ => Failed fs dirs seen place error) := by
  by_cases empty : imported = ""
  · subst empty
    exact (emptyImport_ends tree loads read inside visited enough).mono
      (fun _ _ => False.elim) fun _ _ failed => failed
  · have path := importPath_eq tree located read empty dirs
    apply EndsIn.get_bind
    rw [visited.includeDirs, path]
    apply EndsIn.bind
    cases means : fs.importPlace? dirs place imported with
    | none =>
        apply EndsIn.throw
        refine ⟨nofun, .unready .refl ?_⟩
        rintro ⟨other, again, leads⟩
        rw [read] at again
        cases again
        have found := leads imported inside
        rw [means] at found
        cases found
    | some found =>
        apply EndsIn.pure
        have there := FileSystem.exists_of_importPlace? tree read means
        have back := FileSystem.locate_absolute tree there
        apply (loads _ found seen before back visited enough).mono
        · rintro _ after ⟨later, order, gathers⟩
          exact ⟨found, later, order, rfl, gathers⟩
        · rintro error _ failed
          exact failed.lift
            (.single (FileSystem.mem_importedPlaces read inside means))
            fun _ known => .inl known

/-- What the first imports of a file make of a loader that has entered it. -/
structure Follows (fs : FileSystem) (dirs : List String) (seen : List Location)
    (place : Location) (before : Loader) (done : List String) (after : Loader) :
    Prop where
  leads : ∀ imported ∈ done, (fs.importPlace? dirs place imported).isSome = true
  gathers : ∃ later order, Gathers fs dirs (seen ++ [place])
    (done.filterMap (fs.importPlace? dirs place)) before later order after

private theorem follows_step (tree : fs.IsTree) {depth : Nat}
    (loads : Loads fs dirs depth) (located : fs.locate path = .ok place)
    (read : fs.datamodelFile? place = some file)
    (enough : fs.entries.length + 1 < depth + 1 + seen.length)
    {done rest : List String} {imported : String}
    (split : file.imports = done ++ imported :: rest)
    (follows : Follows fs dirs seen place before done loader) :
    EndsIn (loadImport fs depth path imported) loader
      (fun _ => Follows fs dirs seen place before (done ++ [imported]))
      (fun error _ => Failed fs dirs seen place error) := by
  obtain ⟨leads, later, order, gathers⟩ := follows
  have inside : imported ∈ file.imports := by simp [split]
  have longer : seen.length + 1 ≤ later.length := by
    rw [gathers.visits.perm.length_eq]
    simp
  apply (import_ends tree loads located read inside gathers.visited
    (by omega)).mono
  · rintro _ after ⟨found, last, more, means, further⟩
    refine ⟨?_, last, order ++ more, ?_⟩
    · intro other member
      rcases List.mem_append.mp member with earlier | last
      · exact leads other earlier
      · rw [List.mem_singleton.mp last, means]
        rfl
    · rw [List.filterMap_append, List.filterMap_cons, means]
      exact gathers.append further
  · -- What was seen by now was seen before, or the file itself leads to it.
    rintro error _ failed
    have follow : done.filterMap (fs.importPlace? dirs place) ⊆
        fs.importedPlaces dirs place := by
      rw [FileSystem.importedPlaces_of_file read, split, List.filterMap_append]
      exact List.subset_append_left _ _
    refine failed.lift .refl ?_
    intro other known
    rcases gathers.visits.mem_after.mp known with known | member
    · rcases List.mem_append.mp known with known | last
      · exact .inl known
      · exact .inr (List.mem_singleton.mp last ▸ .refl)
    · exact .inr (gathers.reached follow member)

private theorem imports_ends (tree : fs.IsTree) {depth : Nat}
    (loads : Loads fs dirs depth) (located : fs.locate path = .ok place)
    (read : fs.datamodelFile? place = some file)
    (visited : Visited fs dirs seen before) (fresh : place ∉ seen)
    (enough : fs.entries.length + 1 < depth + 1 + seen.length) :
    EndsIn (file.imports.forM (loadImport fs depth path))
      (offerRoot (absolute place) file (visit (absolute place) before))
      (fun _ => Follows fs dirs seen place before file.imports)
      (fun error _ => Failed fs dirs seen place error) := by
  apply EndsIn.forM (Follows fs dirs seen place before)
  · exact ⟨nofun, _, [], .done, visited.enter fresh read, nofun,
      (List.append_nil _).symm⟩
  · intro done imported rest loader split follows
    exact follows_step tree loads located read enough split follows

theorem loads (tree : fs.IsTree) (dirs : List String) (depth : Nat) :
    Loads fs dirs depth := by
  induction depth with
  | zero =>
      intro path place seen before located visited enough
      have bound := visited.length_le
      omega
  | succ depth induction =>
      intro path place seen before located visited enough
      have found := FileSystem.locate_exists tree located
      apply loadWithin_ends located
      · intro noted
        have known := (visited.mem_loaded_iff tree found).mp noted
        exact ⟨seen, [], .again known .done, visited, nofun, by simp⟩
      · intro error unread bounded
        refine ⟨bounded, .unready .refl ?_⟩
        rintro ⟨file, read, _⟩
        cases unread.symm.trans read
      · intro file unnoted read
        have fresh : place ∉ seen :=
          mt (visited.mem_loaded_iff tree found).mpr unnoted
        apply (imports_ends tree induction located read visited fresh
          enough).mono
        · rintro _ after ⟨leads, later, order, gathers⟩
          rw [← FileSystem.importedPlaces_of_file read] at gathers
          rw [← FileSystem.definitions_of_file read]
          apply (declareAll_ends _ _ after).mono
          · rintro _ _ ⟨rfl, unique⟩
            have unique := unique gathers.visited.unique
            exact ⟨later, order ++ [place],
              gathers.complete fresh ⟨file, read, leads⟩ unique⟩
          · rintro error _ ⟨_, bounded, clash⟩
            exact ⟨bounded,
              gathers.flawed (List.Subset.refl _) visited fresh clash⟩
        · exact fun _ _ failed => failed

end Loader

end DataBridge
