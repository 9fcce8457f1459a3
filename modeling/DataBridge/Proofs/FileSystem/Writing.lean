import DataBridge.Proofs.FileSystem
import Mathlib.Logic.Function.Basic

/-!
# Changes to a file system

Making directories and writing a file keep the tree and everything that stands
in it, and change no file but the one that is written.
-/

namespace DataBridge.FileSystem

open DataBridge.Path (IsBlank IsName)

variable {fs before after : FileSystem} {place next : Location}
  {entry : FileEntry} {path : String}

/-- The bytes of the file at a place. -/
def contents (fs : FileSystem) (place : Location) : Option ByteArray :=
  match fs.entry? place with
  | some (.file bytes) => some bytes
  | _ => none

section Put

theorem lookup_cons_eq_if (old : Location × FileEntry)
    (rest : List (Location × FileEntry)) (other : Location) :
    (old :: rest).lookup other = if other = old.1 then
      some old.2 else rest.lookup other := by
  rw [List.lookup_cons]
  by_cases same : other = old.1
  · rw [if_pos same, beq_iff_eq.mpr same]
  · rw [if_neg same, beq_eq_false_iff_ne.mpr same]

private theorem lookup_replace_of_ne {other : Location}
    (different : other ≠ place)
    (entries : List (Location × FileEntry)) :
    (entries.map fun old =>
      if old.1 = place then (place, entry) else old).lookup other =
      entries.lookup other := by
  induction entries with
  | nil => rfl
  | cons old rest induction =>
      rw [List.map_cons, lookup_cons_eq_if, lookup_cons_eq_if, induction]
      by_cases here : old.1 = place
      · rw [if_pos here, here, if_neg different, if_neg different]
      · rw [if_neg here]

private theorem lookup_replace_self {entries : List (Location × FileEntry)}
    (listed : ∃ old ∈ entries, old.1 = place) :
    (entries.map fun old =>
      if old.1 = place then (place, entry) else old).lookup place =
      some entry := by
  induction entries with
  | nil => simp at listed
  | cons old rest induction =>
      rw [List.map_cons, lookup_cons_eq_if]
      by_cases here : old.1 = place
      · rw [if_pos here, if_pos rfl]
      · obtain ⟨other, inside, same⟩ := listed
        rcases List.mem_cons.mp inside with rfl | later
        · exact (here same).elim
        · rw [if_neg here, if_neg (Ne.symm here),
            induction ⟨other, later, same⟩]

private theorem lookup_concat {entries : List (Location × FileEntry)}
    (absent : ∀ old ∈ entries, old.1 ≠ place) (other : Location) :
    (entries ++ [(place, entry)]).lookup other =
      if other = place then some entry else entries.lookup other := by
  induction entries with
  | nil => exact lookup_cons_eq_if (place, entry) [] other
  | cons old rest induction =>
      obtain ⟨here, later⟩ := List.forall_mem_cons.mp absent
      rw [List.cons_append, lookup_cons_eq_if, lookup_cons_eq_if,
        induction later]
      by_cases this : other = old.1
      · rw [if_pos this, if_pos this, if_neg (this ▸ here)]
      · rw [if_neg this, if_neg this]

/-- What stands at a place after an entry is put somewhere. -/
theorem entry?_put (nonempty : place ≠ []) (other : Location) :
    entry? (fs.put place entry) other = if other = place then
      some entry else fs.entry? other := by
  cases other with
  | nil => rw [if_neg (Ne.symm nonempty)]; rfl
  | cons name rest =>
      rw [put]
      split
      · rename_i listed
        change List.lookup (name :: rest) (List.map _ _) = _
        by_cases same : name :: rest = place
        · rw [if_pos same, same]
          exact lookup_replace_self (by simpa using listed)
        · rw [if_neg same]
          exact lookup_replace_of_ne same fs.entries
      · rename_i unlisted
        apply lookup_concat
        intro old inside same
        exact unlisted (List.any_eq_true.mpr ⟨old, inside, beq_iff_eq.mpr same⟩)

theorem fst_of_mem_put {old : Location × FileEntry}
    (inside : old ∈ (fs.put place entry).entries) :
    old.1 = place ∨ ∃ former ∈ fs.entries, former.1 = old.1 := by
  rw [put] at inside
  split at inside
  · obtain ⟨former, listed, rfl⟩ := List.mem_map.mp inside
    by_cases same : former.1 = place
    · simp [same]
    · rw [if_neg same]
      exact .inr ⟨former, listed, rfl⟩
  · rcases List.mem_append.mp inside with listed | last
    · exact .inr ⟨old, listed, rfl⟩
    · rw [List.mem_singleton.mp last]
      exact .inl rfl

theorem working_put : (fs.put place entry).working = fs.working := by
  rw [put]
  split <;> rfl

/-- A place in a directory where a file may be put. -/
structure Free (fs : FileSystem) (place : Location) : Prop where
  nonempty : place ≠ []
  named : ∀ name ∈ place, IsName name ∧ '/' ∉ name.toList
  above : fs.entry? place.dropLast = some .directory
  isOpen : fs.entry? place ≠ some .directory

theorem IsTree.put (tree : fs.IsTree) (free : fs.Free place)
    (entry : FileEntry) : (fs.put place entry).IsTree := by
  have directory : ∀ {other}, fs.entry? other = some .directory →
      entry? (fs.put place entry) other = some .directory := by
    intro other stands
    rw [entry?_put free.nonempty, if_neg, stands]
    rintro rfl
    exact free.isOpen stands
  constructor
  · intro old inside
    rcases fst_of_mem_put inside with here | ⟨former, listed, same⟩
    · rw [here]
      exact free.named
    · rw [← same]
      exact tree.named former listed
  · intro old inside
    rcases fst_of_mem_put inside with here | ⟨former, listed, same⟩
    · rw [here]
      exact directory free.above
    · rw [← same]
      exact directory (tree.nested former listed)
  · rw [working_put]
    exact directory tree.working

end Put

/-- Everything that stands in the one file system stands in the other, a
directory as a directory. -/
structure Within (before after : FileSystem) : Prop where
  working : after.working = before.working
  directory : ∀ place, before.entry? place = some .directory →
    after.entry? place = some .directory
  stands : ∀ place, before.Exists place → after.Exists place

namespace Within

theorem refl (fs : FileSystem) : Within fs fs :=
  ⟨rfl, fun _ => id, fun _ => id⟩

theorem trans {middle : FileSystem} (first : Within before middle)
    (second : Within middle after) : Within before after where
  working := second.working.trans first.working
  directory place stands :=
    second.directory place (first.directory place stands)
  stands place stands := second.stands place (first.stands place stands)

theorem put (free : fs.Free place) : Within fs (fs.put place entry) where
  working := working_put
  directory other stands := by
    rw [entry?_put free.nonempty, if_neg, stands]
    rintro rfl
    exact free.isOpen stands
  stands other stands := by
    rw [Exists, entry?_put free.nonempty]
    split
    · rfl
    · exact stands

variable (within : Within before after)

include within

theorem step {piece : String} (stepped : before.step place piece = .ok next) :
    after.step place piece = .ok next := by
  obtain ⟨directory, ⟨blank, rfl⟩ | ⟨rfl, rfl⟩ | ⟨name, stands, rfl⟩⟩ :=
    step_cases stepped
  · exact step_blank (within.directory next directory) blank
  · rw [FileSystem.step, within.directory place directory]
    rfl
  · exact step_name (within.directory place directory) name
      (within.stands _ stands)

theorem walk {pieces : List String}
    (walked : before.walk place pieces = .ok next) :
    after.walk place pieces = .ok next := by
  induction pieces generalizing place with
  | nil => exact walked
  | cons piece rest induction =>
      obtain ⟨middle, stepped, onward⟩ := bind_eq_ok_iff.mp walked
      rw [walk_cons, within.step stepped]
      exact induction onward

theorem origin (path : String) : after.origin path = before.origin path := by
  rw [FileSystem.origin, FileSystem.origin, within.working]

/-- A path keeps leading where it leads. -/
theorem locate (located : before.locate path = .ok place) :
    after.locate path = .ok place := by
  have nonempty := locate_ne_empty located
  rw [locate_eq_walk nonempty] at located ⊢
  rw [within.origin]
  exact within.walk located

end Within

section Directories

/-- The file system has more directories, and the same files. -/
structure Prepared (before after : FileSystem) : Prop where
  tree : after.IsTree
  within : Within before after
  contents : after.contents = before.contents

theorem Prepared.refl (tree : fs.IsTree) : Prepared fs fs :=
  ⟨tree, .refl fs, rfl⟩

theorem Prepared.trans {middle : FileSystem} (first : Prepared before middle)
    (second : Prepared middle after) : Prepared before after :=
  ⟨second.tree, first.within.trans second.within,
    second.contents.trans first.contents⟩

private theorem contents_put_file (nonempty : place ≠ []) (bytes : ByteArray) :
    (fs.put place (.file bytes)).contents =
      Function.update fs.contents place (some bytes) := by
  funext other
  rw [contents, entry?_put nonempty, Function.update_apply]
  by_cases same : other = place
  · rw [if_pos same, if_pos same]
  · rw [if_neg same, if_neg same, contents]

private theorem contents_put_directory (nonempty : place ≠ [])
    (absent : fs.entry? place = none) :
    (fs.put place .directory).contents = fs.contents := by
  funext other
  rw [contents, contents, entry?_put nonempty]
  by_cases same : other = place
  · rw [if_pos same, same, absent]
  · rw [if_neg same]

/-- The pieces of a path behind the root, or behind the working directory. -/
theorem start_eq (fs : FileSystem) (path : String) :
    ∃ pieces, fs.start path = (fs.origin path, pieces) ∧
      (Text.split '/' path = pieces ∨
        fs.origin path = [] ∧ Text.split '/' path = "" :: pieces) := by
  rw [start, FileSystem.origin]
  by_cases absolute : Path.isAbsolute path = true
  · obtain ⟨rest, split⟩ := split_of_isAbsolute absolute
    rw [if_pos absolute, if_pos absolute, split]
    exact ⟨rest, rfl, .inr ⟨rfl, rfl⟩⟩
  · rw [if_neg absolute, if_neg absolute]
    exact ⟨_, rfl, .inl rfl⟩

private theorem target?_eq_some {parent : Except FileError Location}
    {name : String}
    (target : fs.target? path = some (parent, name)) :
    IsName name ∧ '/' ∉ name.toList ∧ ∃ pieces,
      parent = fs.walk (fs.origin path) pieces := by
  obtain ⟨pieces, start, split⟩ := start_eq fs path
  rw [target?, start] at target
  simp only at target
  split at target
  · cases target
  · rename_i last above trimmed
    split at target
    · cases target
    · rename_i other
      cases target
      obtain ⟨notHere, notUp⟩ := not_or.mp other
      have nonempty : name ≠ "" := by
        simpa [trimmed] using List.head?_dropWhile_not (· == "") pieces.reverse
      have inside : name ∈ Text.split '/' path := by
        have listed : name ∈ pieces := by
          rw [← List.mem_reverse]
          exact (List.dropWhile_sublist _).mem (trimmed ▸ List.mem_cons_self)
        rcases split with split | ⟨_, split⟩ <;> simp [split, listed]
      exact ⟨⟨nonempty, notHere, notUp⟩, Text.not_mem_of_mem_split inside, _,
        rfl⟩

private theorem target?_of_name {pieces : List String} {name : String}
    (split : Text.split '/' path = pieces ++ [name]) (isName : IsName name) :
    fs.target? path = some (fs.walk (fs.origin path) pieces, name) := by
  have last : ∀ others : List String,
      (others ++ [name]).reverse.dropWhile (· == "") =
          name :: others.reverse := by
    intro others
    simp [isName.nonempty]
  have here : ¬ (name = "." ∨ name = "..") :=
    not_or.mpr ⟨isName.notHere, isName.notUp⟩
  obtain ⟨behind, start, whole | ⟨root, whole⟩⟩ := start_eq fs path
  · rw [target?, start, ← whole, split]
    simp only [last, if_neg here, List.reverse_reverse]
  · rw [split] at whole
    cases pieces with
    | nil => exact (isName.nonempty (List.cons.inj whole).1).elim
    | cons first others =>
        rw [List.cons_append] at whole
        obtain ⟨rfl, rfl⟩ := List.cons.inj whole
        rw [target?, start]
        simp only [last, if_neg here, List.reverse_reverse]
        rw [root, walk_cons, step_blank rfl (.inl rfl), ok_bind]

/-- A step that finds nothing was made in a directory. -/
theorem directory_of_step_notFound {name : String} (found : fs.Exists place)
    (isName : IsName name) (missing : fs.step place name = .error .notFound) :
    fs.entry? place = some .directory ∧ fs.entry? (place ++ [name]) = none := by
  obtain ⟨entry, stands⟩ := Option.isSome_iff_exists.mp found
  rw [step, stands] at missing
  cases entry with
  | file bytes => cases missing
  | directory =>
      refine ⟨stands, ?_⟩
      simp only [isName.nonempty, isName.notHere, isName.notUp, or_self,
        if_false] at missing
      split at missing
      · cases missing
      · rename_i absent
        simpa using absent

/-- The place of a name in a directory is free unless a directory stands
there. -/
theorem IsTree.free (tree : fs.IsTree) {name : String} (isName : IsName name)
    (whole : '/' ∉ name.toList) (directory : fs.entry? place = some .directory)
    (isOpen : fs.entry? (place ++ [name]) ≠ some .directory) :
    fs.Free (place ++ [name]) where
  nonempty := by simp
  named := by
    intro other inside
    rcases List.mem_append.mp inside with above | last
    · exact tree.names (exists_of_directory directory) other above
    · rw [List.mem_singleton.mp last]
      exact ⟨isName, whole⟩
  above := by rwa [List.dropLast_concat]
  isOpen := isOpen

theorem makeDirectory_prepared (tree : fs.IsTree)
    (made : fs.makeDirectory path = .ok after) : Prepared fs after := by
  rw [makeDirectory] at made
  split at made
  · obtain ⟨_, _, refused⟩ := bind_eq_ok_iff.mp made
    cases refused
  · rename_i parent name target
    obtain ⟨isName, whole, pieces, rfl⟩ := target?_eq_some target
    obtain ⟨directory, walked, onward⟩ := bind_eq_ok_iff.mp made
    split at onward
    · cases onward
    · rename_i missing
      cases onward
      have found :=
        walk_exists tree (exists_of_directory (tree.origin path)) walked
      obtain ⟨isDirectory, absent⟩ :=
        directory_of_step_notFound found isName missing
      have free := tree.free isName whole isDirectory (by simp [absent])
      exact ⟨tree.put free .directory, .put free,
        contents_put_directory free.nonempty absent⟩
    · cases onward

private theorem makeAbove_prepared (tree : fs.IsTree) {depth : Nat}
    (made : fs.makeAbove depth path = .ok after) : Prepared fs after := by
  induction depth generalizing path after with
  | zero => cases made
  | succ depth induction =>
      rw [makeAbove] at made
      split at made
      · cases made
        exact .refl tree
      · split at made
        · rename_i directly
          cases made
          exact makeDirectory_prepared tree directly
        · split at made
          · cases made
          · obtain ⟨middle, above, onward⟩ := bind_eq_ok_iff.mp made
            have prepared := induction above
            split at onward
            · rename_i again
              cases onward
              exact prepared.trans (makeDirectory_prepared prepared.tree again)
            · split at onward
              · cases onward
                exact prepared
              · cases onward
        · split at made
          · cases made
            exact .refl tree
          · cases made

theorem makeDirectories_prepared (tree : fs.IsTree)
    (made : fs.makeDirectories path = .ok after) : Prepared fs after :=
  makeAbove_prepared tree made

end Directories

/-- What is written is a file at the place of its path, and nothing else
changes. -/
structure Written (before : FileSystem) (path : String) (bytes : ByteArray)
    (place : Location) (after : FileSystem) : Prop where
  tree : after.IsTree
  within : Within before after
  located : after.locate path = .ok place
  contents : after.contents = Function.update before.contents place (some bytes)

theorem Written.of_prepared {middle : FileSystem} {bytes : ByteArray}
    (written : Written middle path bytes place after)
    (prepared : Prepared before middle) :
    Written before path bytes place after where
  tree := written.tree
  within := prepared.within.trans written.within
  located := written.located
  contents := prepared.contents ▸ written.contents

/-- A file may be put where one stands. -/
theorem IsTree.free_of_file (tree : fs.IsTree) {old : ByteArray}
    (found : fs.Exists place) (stands : fs.entry? place = some (.file old)) :
    fs.Free place where
  nonempty := by
    rintro rfl
    cases stands
  named := tree.names found
  above := tree.above found
  isOpen := by simp [stands]

/-- A path that ends in a name leads a step on from where its other pieces
lead. -/
theorem locate_of_name {pieces : List String} {name : String}
    (split : Text.split '/' path = pieces ++ [name]) (isName : IsName name) :
    fs.locate path = fs.walk (fs.origin path) pieces >>= (fs.step · name) := by
  have nonempty : path ≠ "" := by
    rintro rfl
    have last := congrArg List.getLast? split
    rw [Text.split_empty, List.getLast?_concat] at last
    exact isName.nonempty (Option.some.inj last).symm
  rw [locate_eq_walk nonempty, split, walk_append]
  congr 1
  funext directory
  rw [walk_cons]
  cases fs.step directory name <;> rfl

theorem write_written (tree : fs.IsTree) {pieces : List String} {name : String}
    (split : Text.split '/' path = pieces ++ [name]) (isName : IsName name)
    {bytes : ByteArray} (written : fs.write path bytes = .ok after) :
    ∃ place, Written fs path bytes place after := by
  have put : ∀ {place},
      fs.Free place → (fs.put place (.file bytes)).locate path = .ok place →
        Written fs path bytes place (fs.put place (.file bytes)) := by
    intro place free located
    exact ⟨tree.put free _, .put free, located,
      contents_put_file free.nonempty bytes⟩
  rw [write] at written
  split at written
  · rename_i place located
    split at written
    · rename_i old stands
      cases written
      have free := tree.free_of_file (locate_exists tree located) stands
      exact ⟨place, put free ((Within.put free).locate located)⟩
    · cases written
  · rename_i missing
    rw [target?_of_name split isName] at written
    obtain ⟨directory, walked, onward⟩ := bind_eq_ok_iff.mp written
    cases onward
    have found :=
      walk_exists tree (exists_of_directory (tree.origin path)) walked
    rw [locate_of_name split isName, walked, ok_bind] at missing
    obtain ⟨isDirectory, absent⟩ :=
      directory_of_step_notFound found isName missing
    have listed : name ∈ Text.split '/' path := by simp [split]
    have free :=
      tree.free isName (Text.not_mem_of_mem_split listed) isDirectory
        (by simp [absent])
    have within : Within fs (fs.put (directory ++ [name]) (.file bytes)) :=
      .put free
    refine ⟨_, put free ?_⟩
    rw [locate_of_name split isName, within.origin, within.walk walked, ok_bind]
    apply step_name (within.directory _ isDirectory) isName
    rw [Exists, entry?_put free.nonempty, if_pos rfl]
    rfl
  · cases written

end DataBridge.FileSystem
