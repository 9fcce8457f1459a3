import DataBridge.FileSystem
import DataBridge.Proofs.Failure
import DataBridge.Proofs.Path
import Mathlib.Data.List.Basic
import Mathlib.Data.List.Induction

/-!
# Places in a file system

Where paths lead in a tree of directories and files.  A place that exists has
one absolute path, which leads back to it, and a path beside a file leads to the
same place however the path of the file is written.
-/

namespace DataBridge

/-- The entries form a tree: what is listed stands in a directory, under names
that a path can hold. -/
structure FileSystem.IsTree (fs : FileSystem) : Prop where
  named : ∀ entry ∈ fs.entries,
    ∀ name ∈ entry.1, Path.IsName name ∧ '/' ∉ name.toList
  nested : ∀ entry ∈ fs.entries, fs.entry? entry.1.dropLast = some .directory
  working : fs.entry? fs.working = some .directory

namespace FileSystem

open DataBridge.Path (IsBlank IsName)

variable {fs : FileSystem} {place next : Location} {piece : String}
  {pieces : List String}

/-- Something stands at a place. -/
def Exists (fs : FileSystem) (place : Location) : Prop :=
  (fs.entry? place).isSome = true

theorem mem_of_exists (found : fs.Exists place) :
    place ∈ [] :: fs.entries.map Prod.fst := by
  cases place with
  | nil => exact List.mem_cons_self
  | cons name rest =>
      obtain ⟨entry, found⟩ := Option.isSome_iff_exists.mp found
      obtain ⟨before, after, listed, _⟩ := List.lookup_eq_some_iff.mp found
      simp [listed]

theorem exists_of_directory (directory : fs.entry? place = some .directory) :
    fs.Exists place := by
  rw [Exists, directory]
  rfl

namespace IsTree

variable (tree : fs.IsTree)

include tree

theorem names (found : fs.Exists place) :
    ∀ name ∈ place, IsName name ∧ '/' ∉ name.toList := by
  rcases List.mem_cons.mp (mem_of_exists found) with rfl | listed
  · exact nofun
  · obtain ⟨entry, inside, rfl⟩ := List.mem_map.mp listed
    exact tree.named entry inside

theorem above (found : fs.Exists place) :
    fs.entry? place.dropLast = some .directory := by
  rcases List.mem_cons.mp (mem_of_exists found) with rfl | listed
  · rfl
  · obtain ⟨entry, inside, rfl⟩ := List.mem_map.mp listed
    exact tree.nested entry inside

theorem above_append {rest : List String} (found : fs.Exists (place ++ rest))
    (nonempty : rest ≠ []) : fs.entry? place = some .directory := by
  induction rest using List.reverseRecOn with
  | nil => exact (nonempty rfl).elim
  | append_singleton rest name induction =>
      have directory := tree.above found
      rw [← List.append_assoc, List.dropLast_concat] at directory
      by_cases empty : rest = []
      · rwa [empty, List.append_nil] at directory
      · exact induction (exists_of_directory directory) empty

end IsTree

theorem step_blank (directory : fs.entry? place = some .directory)
    (blank : IsBlank piece) : fs.step place piece = .ok place := by
  rw [step, directory]
  exact if_pos blank

theorem step_name (directory : fs.entry? place = some .directory)
    (name : IsName piece) (found : fs.Exists (place ++ [piece])) :
    fs.step place piece = .ok (place ++ [piece]) := by
  rw [step, directory]
  simp only [name.nonempty, name.notHere, name.notUp, or_self, if_false]
  exact if_pos found

/-- What a step from a directory can be. -/
theorem step_cases (stepped : fs.step place piece = .ok next) :
    fs.entry? place = some .directory ∧
      (IsBlank piece ∧ next = place ∨ piece = ".." ∧ next = place.dropLast ∨
        IsName piece ∧ fs.Exists next ∧ next = place ++ [piece]) := by
  rw [step] at stepped
  split at stepped
  · rename_i directory
    refine ⟨directory, ?_⟩
    by_cases blank : piece = "" ∨ piece = "."
    · rw [if_pos blank] at stepped
      cases stepped
      exact .inl ⟨blank, rfl⟩
    · rw [if_neg blank] at stepped
      by_cases up : piece = ".."
      · rw [if_pos up] at stepped
        cases stepped
        exact .inr (.inl ⟨up, rfl⟩)
      · rw [if_neg up] at stepped
        by_cases found : (fs.entry? (place ++ [piece])).isSome = true
        · rw [if_pos found] at stepped
          cases stepped
          obtain ⟨nonempty, notHere⟩ := not_or.mp blank
          have name : IsName piece := ⟨nonempty, notHere, up⟩
          exact .inr (.inr ⟨name, found, rfl⟩)
        · rw [if_neg found] at stepped
          cases stepped
  · cases stepped
  · cases stepped

theorem eq_of_step_blank (stepped : fs.step place piece = .ok next)
    (blank : IsBlank piece) :
    fs.entry? place = some .directory ∧ next = place := by
  have directory := (step_cases stepped).1
  rw [step_blank directory blank] at stepped
  cases stepped
  exact ⟨directory, rfl⟩

theorem walk_cons :
    fs.walk place (piece :: pieces) =
      fs.step place piece >>= (fs.walk · pieces) :=
  rfl

theorem walk_append (place : Location) (first second : List String) :
    fs.walk place (first ++ second) =
      fs.walk place first >>= (fs.walk · second) := by
  induction first generalizing place with
  | nil => rfl
  | cons piece rest induction =>
      rw [List.cons_append, walk_cons, walk_cons]
      cases fs.step place piece with
      | error failure => rfl
      | ok middle => exact induction middle

private theorem eq_of_walk_blanks {blanks : List String}
    (walked : fs.walk place blanks = .ok next)
    (all : ∀ blank ∈ blanks, IsBlank blank) : next = place := by
  induction blanks with
  | nil =>
      cases walked
      rfl
  | cons blank rest induction =>
      obtain ⟨middle, stepped, onward⟩ := bind_eq_ok_iff.mp walked
      obtain ⟨_, rfl⟩ := eq_of_step_blank stepped (all blank List.mem_cons_self)
      exact induction onward fun other inside =>
        all other (List.mem_cons_of_mem _ inside)

/-- The last step of a walk. -/
theorem walk_concat (walked : fs.walk place (pieces ++ [piece]) = .ok next) :
    ∃ middle, fs.walk place pieces = .ok middle ∧ fs.step middle piece =
      .ok next := by
  rw [walk_append] at walked
  obtain ⟨middle, before, last⟩ := bind_eq_ok_iff.mp walked
  obtain ⟨reached, stepped, stays⟩ := bind_eq_ok_iff.mp last
  cases stays
  exact ⟨middle, before, stepped⟩

private theorem walk_names (tree : fs.IsTree)
    (found : fs.Exists (place ++ pieces)) :
    fs.walk place pieces = .ok (place ++ pieces) := by
  induction pieces generalizing place with
  | nil => rw [List.append_nil]; rfl
  | cons piece rest induction =>
      have inside : piece ∈ place ++ piece :: rest :=
        List.mem_append_right _ List.mem_cons_self
      have directory := tree.above_append found (List.cons_ne_nil piece rest)
      rw [List.append_cons] at found ⊢
      have first : fs.Exists (place ++ [piece]) := by
        by_cases last : rest = []
        · rwa [last, List.append_nil] at found
        · exact exists_of_directory (tree.above_append found last)
      rw [walk_cons,
        step_name directory (tree.names first piece (by simp)).1 first]
      exact induction found

theorem walk_exists (tree : fs.IsTree) (found : fs.Exists place)
    (walked : fs.walk place pieces = .ok next) : fs.Exists next := by
  induction pieces generalizing place with
  | nil =>
      cases walked
      exact found
  | cons piece rest induction =>
      obtain ⟨middle, stepped, onward⟩ := bind_eq_ok_iff.mp walked
      apply induction _ onward
      obtain ⟨_, ⟨_, rfl⟩ | ⟨_, rfl⟩ | ⟨_, there, _⟩⟩ := step_cases stepped
      · exact found
      · exact exists_of_directory (tree.above found)
      · exact there

/-- A walk from a directory that ends at a file ends with the name of the
file. -/
theorem walk_file (tree : fs.IsTree)
    (directory : fs.entry? place = some .directory)
    (walked : fs.walk place pieces = .ok next)
    (file : fs.entry? next ≠ some .directory) :
    ∃ before name, pieces = before ++ [name] ∧ IsName name ∧
      fs.walk place before = .ok next.dropLast ∧ fs.entry? next.dropLast =
        some .directory := by
  induction pieces using List.reverseRecOn with
  | nil =>
      cases walked
      exact (file directory).elim
  | append_singleton before name _ =>
      obtain ⟨middle, begun, stepped⟩ := walk_concat walked
      obtain ⟨above, ⟨_, rfl⟩ | ⟨_, rfl⟩ | ⟨isName, _, rfl⟩⟩ :=
        step_cases stepped
      · exact (file above).elim
      · exact (file (tree.above (exists_of_directory above))).elim
      · rw [List.dropLast_concat]
        exact ⟨before, name, rfl, isName, begun, above⟩

/-- Where the pieces of a path start. -/
def origin (fs : FileSystem) (path : String) : Location :=
  if Path.isAbsolute path then [] else fs.working

theorem IsTree.origin (tree : fs.IsTree) (path : String) :
    fs.entry? (fs.origin path) = some .directory := by
  unfold FileSystem.origin
  split
  · rfl
  · exact tree.working

theorem split_of_isAbsolute {path : String}
    (absolute : Path.isAbsolute path = true) :
    ∃ rest, Text.split '/' path = "" :: rest := by
  have slash : path.toList.head? = some '/' := by
    simpa [Path.isAbsolute] using absolute
  obtain ⟨rest, chars⟩ := List.head?_eq_some_iff.mp slash
  rw [Text.split_eq, chars, List.splitOn_cons_eq_if_modifyHead,
    if_pos (by simp)]
  exact ⟨_, rfl⟩

theorem locate_eq_walk {path : String} (nonempty : path ≠ "") :
    fs.locate path = fs.walk (fs.origin path) (Text.split '/' path) := by
  rw [locate, if_neg nonempty, start, FileSystem.origin]
  by_cases absolute : Path.isAbsolute path = true
  · obtain ⟨rest, split⟩ := split_of_isAbsolute absolute
    rw [if_pos absolute, if_pos absolute, split, walk_cons,
      step_blank rfl (.inl rfl)]
    rfl
  · rw [if_neg absolute, if_neg absolute]

theorem locate_ne_empty {path : String} (located : fs.locate path = .ok place) :
    path ≠ "" := by
  rintro rfl
  cases located

theorem locate_exists (tree : fs.IsTree) {path : String}
    (located : fs.locate path = .ok place) : fs.Exists place := by
  rw [locate_eq_walk (locate_ne_empty located)] at located
  exact walk_exists tree (exists_of_directory (tree.origin path)) located

theorem isAbsolute_absolute (place : Location) :
    Path.isAbsolute (absolute place) = true := by
  simp [absolute, Path.isAbsolute]

/-- The pieces of an absolute path.  That of the root has a blank one at its
end. -/
theorem split_absolute (tree : fs.IsTree) (found : fs.Exists place) :
    Text.split '/' (absolute place) = "" :: place ∨
      place = [] ∧ Text.split '/' (absolute place) = ["", ""] := by
  have whole := Text.split_append "" ("/".intercalate place)
  rw [Text.split_empty, String.empty_append] at whole
  cases place with
  | nil => exact .inr ⟨rfl, whole⟩
  | cons name rest =>
      rw [Text.split_intercalate (List.cons_ne_nil name rest)
        fun other inside => (tree.names found other inside).2] at whole
      exact .inl whole

theorem locate_absolute (tree : fs.IsTree) (found : fs.Exists place) :
    fs.locate (absolute place) = .ok place := by
  rw [locate_eq_walk (by simp [absolute]), FileSystem.origin,
    if_pos (isAbsolute_absolute place)]
  rcases split_absolute tree found with split | ⟨rfl, split⟩
  · rw [split, walk_cons, step_blank rfl (.inl rfl)]
    exact walk_names tree found
  · rw [split]
    rfl

theorem parts_absolute (tree : fs.IsTree) (found : fs.Exists place) :
    Path.parts (absolute place) = .root :: place.map .name := by
  have names : place.filterMap (Path.partOf false) = place.map .name := by
    apply List.filterMap_eq_map_iff_forall_eq_some.mpr
    intro name inside
    exact Path.partOf_of_isName (tree.names found name inside).1
  rw [Path.parts, isAbsolute_absolute]
  rcases split_absolute tree found with split | ⟨rfl, split⟩
  · simp [split, names]
  · rw [split]
    rfl

theorem absolute_injective (tree : fs.IsTree) {first second : Location}
    (here : fs.Exists first) (there : fs.Exists second)
    (same : absolute first = absolute second) : first = second := by
  have leads := locate_absolute tree here
  rw [same, locate_absolute tree there] at leads
  cases leads
  rfl

/-- The place that a path leads to from a directory. -/
def locateFrom (fs : FileSystem) (directory : Location) (path : String) :
    Except FileError Location :=
  fs.walk (if Path.isAbsolute path then [] else directory) (Text.split '/' path)

/-- A path below the parent of a file leads where it leads from the directory of
the file. -/
theorem locate_beside (tree : fs.IsTree) {path imported : String}
    (located : fs.locate path = .ok place)
    (file : fs.entry? place ≠ some .directory) (nonempty : imported ≠ "") :
    ∃ parent, Path.parent? path = some parent ∧
      fs.locate (Path.join parent imported) =
        fs.locateFrom place.dropLast imported := by
  rw [locate_eq_walk (locate_ne_empty located)] at located
  obtain ⟨before, name, split, isName, walked, directory⟩ :=
    walk_file tree (tree.origin path) located file
  by_cases absolute : Path.isAbsolute imported = true
  · have here : Path.isAbsolute "." = false := by simp [Path.isAbsolute]
    obtain ⟨parent, _, _, found, _⟩ :=
      Path.exists_parent split isName here (by simp)
    refine ⟨parent, found, ?_⟩
    rw [Path.join, if_pos absolute, locate_eq_walk nonempty, locateFrom,
      FileSystem.origin, if_pos absolute, if_pos absolute]
  · have relative : Path.isAbsolute imported = false := by simpa using absolute
    obtain ⟨parent, start, blanks, found, rfl, blank, some, same, pieces⟩ :=
      Path.exists_parent split isName relative nonempty
    refine ⟨parent, found, ?_⟩
    -- The pieces before the blanks lead to the directory already.
    have led : fs.walk (fs.origin path) start = .ok place.dropLast := by
      rw [walk_append] at walked
      obtain ⟨middle, begun, onward⟩ := bind_eq_ok_iff.mp walked
      rw [eq_of_walk_blanks onward blank, begun]
    rw [locate_eq_walk some, pieces, walk_append, locateFrom, if_neg absolute,
      FileSystem.origin, same]
    change fs.walk (fs.origin path) start >>= _ = _
    rw [led]
    rfl

/-- A path that ends in a blank piece leads to a directory. -/
theorem directory_of_blank_end {path blank : String}
    (located : fs.locate path = .ok place)
    (split : Text.split '/' path = pieces ++ [blank])
    (isBlank : IsBlank blank) : fs.entry? place = some .directory := by
  rw [locate_eq_walk (locate_ne_empty located), split] at located
  obtain ⟨middle, _, stepped⟩ := walk_concat located
  obtain ⟨directory, rfl⟩ := eq_of_step_blank stepped isBlank
  exact directory

/-- Nothing but directories stands at a directory followed by the empty path. -/
theorem directory_of_join_empty {base : String}
    (located : fs.locate (Path.join base "") = .ok place) :
    fs.entry? place = some .directory := by
  obtain ⟨before, ends⟩ : ∃ before,
      Path.join base "" = before ++ "/" ++ "" := by
    rw [Path.join, if_neg (by simp [Path.isAbsolute])] at located ⊢
    by_cases empty : base = ""
    · rw [if_pos empty] at located
      exact (locate_ne_empty located rfl).elim
    · rw [if_neg empty]
      by_cases slash : (base.toList.getLast? == some '/') = true
      · rw [if_pos slash]
        obtain ⟨before, chars⟩ :=
          List.getLast?_eq_some_iff.mp (beq_iff_eq.mp slash)
        refine ⟨String.ofList before, ?_⟩
        apply String.toList_injective
        simp [chars]
      · rw [if_neg slash]
        exact ⟨base, rfl⟩
  have split := Text.split_append before ""
  rw [Text.split_empty, ← ends] at split
  exact directory_of_blank_end located split (.inl rfl)

end FileSystem

end DataBridge
