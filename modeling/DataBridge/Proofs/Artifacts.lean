import DataBridge.Component
import DataBridge.Proofs.FileSystem.Writing
import DataBridge.Proofs.Path.Order

/-!
# Generated files and their places

The files of a component end in different names, so they lead to different
places wherever they are written.  Writing them stops at the first failure, and
until then each of them changes its own place only.
-/

namespace DataBridge

open DataBridge.Path (IsName)

namespace Path

/-- What stands behind the last slash of a path. -/
def lastPiece (path : String) : String :=
  (Text.split '/' path).getLast (Text.split_ne_nil '/' path)

theorem split_lastPiece (path : String) :
    ∃ pieces, Text.split '/' path = pieces ++ [lastPiece path] :=
  ⟨_, (List.dropLast_append_getLast (Text.split_ne_nil '/' path)).symm⟩

theorem lastPiece_append (before after : String) :
    lastPiece (before ++ "/" ++ after) = lastPiece after := by
  simp only [lastPiece, Text.split_append]
  exact List.getLast_append_of_right_ne_nil _ _ (Text.split_ne_nil '/' after)

theorem lastPiece_join (base path : String) :
    lastPiece (join base path) = lastPiece path := by
  rw [join]
  split
  · rfl
  · split
    · rfl
    · split
      · rename_i slash
        obtain ⟨before, chars⟩ :=
          List.getLast?_eq_some_iff.mp (beq_iff_eq.mp slash)
        have whole : base ++ path = String.ofList before ++ "/" ++ path := by
          apply String.toList_injective
          simp [chars]
        rw [whole, lastPiece_append]
      · exact lastPiece_append base path

/-- A path that ends in a text without slashes has it at the end of its last
name. -/
theorem suffix_lastPiece {ending : String} (whole : '/' ∉ ending.toList)
    (front : String) :
    ending.toList <:+ (lastPiece (front ++ ending)).toList := by
  rcases Text.exists_last_piece front with plain | ⟨before, name, rfl, plain⟩
  · have absent : '/' ∉ (front ++ ending).toList := by simp [plain, whole]
    simp only [lastPiece, Text.split_of_not_mem absent, List.getLast_singleton]
    simp
  · have absent : '/' ∉ (name ++ ending).toList := by simp [plain, whole]
    rw [String.append_assoc, lastPiece_append]
    simp only [lastPiece, Text.split_of_not_mem absent, List.getLast_singleton]
    simp

theorem parts_getLast? {path : String} (isName : IsName (lastPiece path)) :
    (parts path).getLast? = some (.name (lastPiece path)) := by
  obtain ⟨pieces, split⟩ := split_lastPiece path
  rw [parts, split]
  cases pieces with
  | nil =>
      have relative : isAbsolute path = false := by
        by_contra absolute
        obtain ⟨rest, whole⟩ :=
          FileSystem.split_of_isAbsolute (by simpa using absolute)
        rw [split] at whole
        exact isName.nonempty (List.cons.inj whole).1
      simp [relative, partOf_of_isName isName]
  | cons first others => simp [partOf_of_isName isName]

private theorem compare_ne_eq {first second : String}
    (isName : IsName (lastPiece first)) (otherName : IsName (lastPiece second))
    (different : lastPiece first ≠ lastPiece second) :
    compare first second ≠ .eq := by
  intro level
  have same := congrArg List.getLast? (parts_eq_of_compare level)
  rw [parts_getLast? isName, parts_getLast? otherName] at same
  exact different (PathPart.name.inj (Option.some.inj same))

end Path

namespace FileSystem

/-- A path that ends in a name leads to a place of that name. -/
theorem getLast?_of_locate {fs : FileSystem} {path : String} {place : Location}
    (isName : IsName (Path.lastPiece path))
    (located : fs.locate path = .ok place) :
    place.getLast? = some (Path.lastPiece path) := by
  obtain ⟨pieces, split⟩ := Path.split_lastPiece path
  rw [locate_eq_walk (locate_ne_empty located), split] at located
  obtain ⟨middle, _, stepped⟩ := walk_concat located
  obtain ⟨_, ⟨empty | here, _⟩ | ⟨up, _⟩ | ⟨_, _, rfl⟩⟩ := step_cases stepped
  · exact (isName.nonempty empty).elim
  · exact (isName.notHere here).elim
  · exact (isName.notUp up).elim
  · exact List.getLast?_concat

end FileSystem

theorem FileSystem.readBytes_of_contents {fs : FileSystem} {path : String}
    {place : Location} {bytes : ByteArray}
    (located : fs.locate path = .ok place)
    (stored : fs.contents place = some bytes) :
    fs.readBytes path = .ok bytes := by
  rw [contents] at stored
  split at stored
  · rename_i found
    cases stored
    rw [readBytes, located, ok_bind, found]
    rfl
  · cases stored

namespace Artifacts

/-- The paths end in names, each in another one. -/
structure Named (files : List (String × String)) : Prop where
  names : ∀ file ∈ files, IsName (Path.lastPiece file.1)
  distinct : (files.map fun file => Path.lastPiece file.1).Nodup

theorem Named.perm {files others : List (String × String)} (named : Named files)
    (permutation : files.Perm others) : Named others where
  names file inside := named.names file (permutation.mem_iff.mpr inside)
  distinct := (permutation.map _).nodup_iff.mp named.distinct

theorem Named.sublist {chosen files : List (String × String)}
    (named : Named files) (sublist : chosen.Sublist files) : Named chosen where
  names file inside := named.names file (sublist.subset inside)
  distinct := named.distinct.sublist (sublist.map _)

private theorem insertFile_perm {path text : String}
    {files : List (String × String)}
    (named : Named ((path, text) :: files)) :
    (insertFile path text files).Perm ((path, text) :: files) := by
  induction files with
  | nil => exact .refl _
  | cons first rest induction =>
      have inside : Named ((path, text) :: rest) := by
        exact named.sublist (.cons_cons _ (List.sublist_cons_self first rest))
      have different := Path.compare_ne_eq (named.names (path, text) (by simp))
        (named.names first (by simp)) (by
          intro same
          have apart := named.distinct
          simp [same] at apart)
      obtain ⟨other, old⟩ := first
      rw [insertFile]
      split
      · exact .refl _
      · rename_i level
        exact (different level).elim
      · exact ((induction inside).cons (other, old)).trans
          (.swap (path, text) (other, old) rest)

/-- Nothing is lost when files with different names are added. -/
theorem foldl_insert_perm {made : Artifacts} {files : List (String × String)}
    (named : Named (files ++ made.files)) :
    (files.foldl (fun made file => made.insert file.1 file.2) made).files.Perm
      (files ++ made.files) := by
  induction files generalizing made with
  | nil => exact .refl _
  | cons file rest induction =>
      have moved :
          (file :: rest ++ made.files).Perm (rest ++ file :: made.files) :=
        List.perm_middle.symm
      have next : Named (file :: made.files) :=
        (named.perm moved).sublist (List.sublist_append_right rest _)
      have inserted :
          (made.insert file.1 file.2).files.Perm (file :: made.files) :=
        insertFile_perm next
      have kept := (named.perm moved).perm (inserted.symm.append_left rest)
      exact (induction kept).trans
        ((inserted.append_left rest).trans moved.symm)

end Artifacts

section Names

variable {settings : Package.Settings}

/-- The last name of the path ends like this. -/
def Path.Ends (path ending : String) : Prop :=
  ending.toList <:+ (lastPiece path).toList

theorem Path.Ends.join {path ending : String} (ends : Ends path ending)
    (base : String) : Ends (join base path) ending := by
  rwa [Ends, lastPiece_join]

theorem Path.ends_append {ending : String} (whole : '/' ∉ ending.toList)
    (front : String) : Ends (front ++ ending) ending :=
  suffix_lastPiece whole front

theorem Path.ends_of_eq {path ending : String} (front : String)
    (whole : '/' ∉ ending.toList) (equal : path = front ++ ending) :
    Ends path ending :=
  equal ▸ ends_append whole front

/-- How the files of a component end: header, module, and the files of its
package. -/
def Component.endings : List String :=
  [".h", ".c", ".exospkg", "Linux.pkg", "package.json", "package-lock.json",
    "binding.gyp", "build.sh", ".js", "CMakeLists.txt"]

theorem Artifacts.ends_of_mem {files : List (String × String)}
    {endings : List String}
    (ends : List.Forall₂ (fun file ending =>
      Path.Ends file.1 ending) files endings)
    {file : String × String} (inside : file ∈ files) :
    ∃ ending ∈ endings, Path.Ends file.1 ending := by
  induction ends with
  | nil => cases inside
  | cons here later induction =>
      rcases List.mem_cons.mp inside with rfl | later
      · exact ⟨_, List.mem_cons_self, here⟩
      · obtain ⟨ending, listed, there⟩ := induction later
        exact ⟨ending, List.mem_cons_of_mem _ listed, there⟩

theorem Path.Ends.isName {path ending : String} (ends : Ends path ending)
    (long : 2 ≤ ending.toList.length) (notUp : ending ≠ "..") :
    IsName (lastPiece path) := by
  have bound := Nat.le_trans long ends.length_le
  refine ⟨?_, ?_, ?_⟩ <;> intro same <;> rw [same] at bound
  · exact absurd bound (by decide)
  · exact absurd bound (by decide)
  · apply notUp
    rw [Ends, same] at ends
    exact String.toList_injective (ends.eq_of_length_le long)

/-- Files whose paths end in texts of which none ends in another one have
different names. -/
theorem Artifacts.named_of_endings {files : List (String × String)}
    {endings : List String}
    (ends : List.Forall₂ (fun file ending =>
      Path.Ends file.1 ending) files endings)
    (names : ∀ ending ∈ endings, 2 ≤ ending.toList.length ∧ ending ≠ "..")
    (apart : endings.Pairwise fun first second =>
      ¬ first.toList <:+ second.toList ∧ ¬ second.toList <:+ first.toList) :
    Named files := by
  induction ends with
  | nil => exact ⟨nofun, .nil⟩
  | @cons file ending files endings here later induction =>
      obtain ⟨⟨long, notUp⟩, others⟩ := List.forall_mem_cons.mp names
      obtain ⟨unlike, rest⟩ := List.pairwise_cons.mp apart
      have named := induction others rest
      refine ⟨List.forall_mem_cons.mpr ⟨here.isName long notUp, named.names⟩,
        ?_⟩
      rw [List.map_cons, List.nodup_cons]
      refine ⟨?_, named.distinct⟩
      intro inside
      obtain ⟨other, listed, same⟩ := List.mem_map.mp inside
      obtain ⟨otherEnding, listedEnding, there⟩ := ends_of_mem later listed
      rw [Path.Ends, same] at there
      obtain ⟨notFirst, notSecond⟩ := unlike otherEnding listedEnding
      rcases List.suffix_or_suffix_of_suffix here there with first | second
      · exact notFirst first
      · exact notSecond second

/-- The files of a component with their paths, in the order in which they are
added. -/
def Component.listed (schema : Schema) (options : Options)
    (datamodel : Datamodel) (header code : String) : List (String × String) :=
  let linux := Path.join datamodel.name "Linux"
  (Path.join linux (Header.fileName datamodel.name), header) ::
    (Path.join linux (Addon.fileName datamodel.name), code) ::
      (Package.files (Component.settings schema options datamodel)).map
        fun file => (Path.join datamodel.name file.1, file.2)

theorem Component.artifacts_eq {schema : Schema} {options : Options}
    {datamodel : Datamodel} {resolver : Resolver} {made : Artifacts}
    (succeeds : artifacts schema options datamodel resolver = .ok made) :
    ∃ header code, made = (listed schema options datamodel header code).foldl
      (fun made file => made.insert file.1 file.2) {} := by
  obtain ⟨code, emitted, rest⟩ := bind_eq_ok_iff.mp succeeds
  cases rest
  refine ⟨Header.text datamodel resolver schema.sourceFile, code, ?_⟩
  simp only [listed, List.foldl_cons, List.foldl_map]

theorem Component.listed_ends (schema : Schema) (options : Options)
    (datamodel : Datamodel) (header code : String) :
    ∃ endings, endings <+: Component.endings ∧
      List.Forall₂ (fun file ending => Path.Ends file.1 ending)
        (listed schema options datamodel header code) endings := by
  have header : Path.Ends (Header.fileName datamodel.name) ".h" :=
    Path.ends_append (by decide) _
  have code : Path.Ends (Addon.fileName datamodel.name) ".c" :=
    Path.ends_append (by decide) _
  have component : Path.Ends (datamodel.name ++ ".exospkg") ".exospkg" :=
    Path.ends_append (by decide) _
  have list : Path.Ends "Linux/Linux.pkg" "Linux.pkg" :=
    Path.ends_of_eq "Linux/" (by decide) (by simp)
  have description : Path.Ends "Linux/package.json" "package.json" :=
    Path.ends_of_eq "Linux/" (by decide) (by simp)
  have lock : Path.Ends "Linux/package-lock.json" "package-lock.json" :=
    Path.ends_of_eq "Linux/" (by decide) (by simp)
  have binding : Path.Ends "Linux/binding.gyp" "binding.gyp" :=
    Path.ends_of_eq "Linux/" (by decide) (by simp)
  have build : Path.Ends "Linux/build.sh" "build.sh" :=
    Path.ends_of_eq "Linux/" (by decide) (by simp)
  have install : Path.Ends "Linux/CMakeLists.txt" "CMakeLists.txt" :=
    Path.ends_of_eq "Linux/" (by decide) (by simp)
  have script :
      Path.Ends ("Linux/" ++ (Text.lower datamodel.name ++ ".js")) ".js" := by
    rw [← String.append_assoc]
    exact Path.ends_append (by decide) _
  cases packaging : (settings schema options datamodel).packaging with
  | none =>
      refine ⟨endings.take 9, List.take_prefix 9 endings, ?_⟩
      simp only [listed, Package.files, packaging, endings, List.append_nil,
        List.map_cons, List.map_nil, List.take_succ_cons, List.take_zero,
        List.forall₂_cons]
      exact ⟨header.join _, code.join _, component.join _, list.join _,
        description.join _, lock.join _, binding.join _, build.join _,
        script.join _, .nil⟩
  | deb =>
      refine ⟨endings, List.prefix_rfl, ?_⟩
      simp only [listed, Package.files, packaging, endings, List.cons_append,
        List.nil_append, List.map_cons, List.map_nil, List.forall₂_cons]
      exact ⟨header.join _, code.join _, component.join _, list.join _,
        description.join _, lock.join _, binding.join _, build.join _,
        script.join _, install.join _, .nil⟩

/-- The files of a component have different names. -/
theorem Component.artifacts_named {schema : Schema} {options : Options}
    {datamodel : Datamodel} {resolver : Resolver} {made : Artifacts}
    (succeeds : artifacts schema options datamodel resolver = .ok made) :
    Artifacts.Named made.files := by
  obtain ⟨header, code, rfl⟩ := artifacts_eq succeeds
  obtain ⟨endings, listed, ends⟩ :=
    listed_ends schema options datamodel header code
  have apart : Component.endings.Pairwise fun first second =>
      ¬ first.toList <:+ second.toList ∧ ¬ second.toList <:+ first.toList := by
    decide
  have long : ∀ ending ∈ Component.endings,
      2 ≤ ending.toList.length ∧ ending ≠ ".." := by
    decide
  have named := Artifacts.named_of_endings ends
    (fun ending inside => long ending (listed.subset inside))
    (apart.sublist listed.sublist)
  have whole :
      Artifacts.Named (Component.listed schema options datamodel header code ++
        ({} : Artifacts).files) := by
    simpa using named
  exact whole.perm (Artifacts.foldl_insert_perm whole).symm

theorem Component.generate_named {schema : Schema} {options : Options}
    {made : Artifacts} (succeeds : generate schema options = .ok made) :
    Artifacts.Named made.files := by
  unfold generate at succeeds
  split at succeeds
  · cases succeeds
  · exact artifacts_named (mapError_eq_ok_iff.mp succeeds)

end Names

namespace Artifacts

open FileSystem (Prepared Within Written)

variable {fs before after : FileSystem} {output path text : String}

/-- One file is written at its place, or no file is changed. -/
def Attempted (fs : FileSystem) (path text : String) :
    Except WriteFailure Unit × FileSystem → Prop
  | (.ok (), after) => ∃ place, Written fs path text.toUTF8 place after
  | (.error failed, after) =>
      (failed.path = path ∨ Path.parent? path = some failed.path) ∧
        Prepared fs after

private theorem writeFile_attempted (tree : fs.IsTree)
    (isName : IsName (Path.lastPiece path)) (text : String) :
    Attempted fs path text (writeFile path text fs) := by
  obtain ⟨pieces, split⟩ := Path.split_lastPiece path
  have finish : ∀ {prepared : FileSystem}
      {outcome : Except WriteFailure Unit × FileSystem},
      Prepared fs prepared →
      (∀ failure, prepared.write path text.toUTF8 = .error failure →
        outcome = (.error ⟨path, failure⟩, prepared)) →
      (∀ written, prepared.write path text.toUTF8 = .ok written →
        outcome = (.ok (), written)) →
      Attempted fs path text outcome := by
    intro prepared outcome ready fails succeeds
    cases done : prepared.write path text.toUTF8 with
    | error failure =>
        rw [fails failure done]
        exact ⟨.inl rfl, ready⟩
    | ok written =>
        obtain ⟨place, isWritten⟩ :=
          FileSystem.write_written ready.tree split isName done
        rw [succeeds written done]
        exact ⟨place, isWritten.of_prepared ready⟩
  rw [writeFile]
  cases above : Path.parent? path with
  | none =>
      apply finish (.refl tree)
      all_goals
        intro _ done
        simp only [done]
  | some parent =>
      cases made : fs.makeDirectories parent with
      | error failure =>
          simp only [made, mapError_error]
          exact ⟨.inr above, .refl tree⟩
      | ok prepared =>
          simp only [made, mapError_ok]
          apply finish (FileSystem.makeDirectories_prepared tree made)
          all_goals
            intro _ done
            simp only [done]

/-- Files have been written below a directory: each can be read there, and no
other file is changed. -/
structure Progress (output : String) (before : FileSystem)
    (written : List (String × String)) (after : FileSystem) : Prop where
  tree : after.IsTree
  within : Within before after
  stored : ∀ file ∈ written,
    after.readBytes (Path.join output file.1) = .ok file.2.toUTF8
  kept : ∀ place,
    (∀ file ∈ written, after.locate (Path.join output file.1) ≠ .ok place) →
    after.contents place = before.contents place

theorem Progress.of_prepared (prepared : Prepared before after) :
    Progress output before [] after where
  tree := prepared.tree
  within := prepared.within
  stored := nofun
  kept place _ := congrFun prepared.contents place

/-- What is written first stays, because what is written later has other
names. -/
theorem Progress.cons {middle : FileSystem} {place : Location}
    {rest : List (String × String)} (named : Named ((path, text) :: rest))
    (first : Written before (Path.join output path) text.toUTF8 place middle)
    (later : Progress output middle rest after) :
    Progress output before ((path, text) :: rest) after := by
  have located := later.within.locate first.located
  have untouched : after.contents place = middle.contents place := by
    apply later.kept
    intro file inside there
    have name := FileSystem.getLast?_of_locate
      (Path.lastPiece_join output path ▸ named.names (path,
        text) List.mem_cons_self) located
    have otherName :=
      FileSystem.getLast?_of_locate (Path.lastPiece_join output file.1 ▸
      named.names file (List.mem_cons_of_mem _ inside)) there
    rw [name, Path.lastPiece_join, Path.lastPiece_join] at otherName
    have listed : Path.lastPiece file.1 ∈ rest.map fun file =>
        Path.lastPiece file.1 :=
      List.mem_map_of_mem inside
    rw [← Option.some.inj otherName] at listed
    exact (List.nodup_cons.mp named.distinct).1 listed
  refine ⟨later.tree, first.within.trans later.within, ?_, ?_⟩
  · refine List.forall_mem_cons.mpr ⟨?_, later.stored⟩
    apply FileSystem.readBytes_of_contents located
    rw [untouched, first.contents, Function.update_self]
  · intro other elsewhere
    obtain ⟨here, others⟩ := List.forall_mem_cons.mp elsewhere
    have different : other ≠ place := by
      rintro rfl
      exact here located
    rw [later.kept other others, first.contents,
      Function.update_of_ne different]

/-- Writing files in their order has failed at one of them.  Those in front of
it are written. -/
def Stopped (output : String) (before : FileSystem)
    (files : List (String × String)) (failed : WriteFailure)
    (after : FileSystem) : Prop :=
  ∃ written path text rest, files = written ++ (path, text) :: rest ∧
    (failed.path = Path.join output path ∨
      Path.parent? (Path.join output path) = some failed.path) ∧
    Progress output before written after

/-- All files are written, or writing stops at one of them. -/
def AllAttempted (fs : FileSystem) (output : String)
    (files : List (String × String)) :
    Except WriteFailure Unit × FileSystem → Prop
  | (.ok (), after) => Progress output fs files after
  | (.error failed, after) => Stopped output fs files failed after

theorem writeFiles_attempted (tree : fs.IsTree) {files : List (String × String)}
    (named : Named files) (output : String) :
    AllAttempted fs output files (writeFiles output files fs) := by
  induction files generalizing fs with
  | nil => exact .of_prepared (.refl tree)
  | cons file rest induction =>
      obtain ⟨path, text⟩ := file
      have isName : IsName (Path.lastPiece (Path.join output path)) :=
        Path.lastPiece_join output path ▸
          named.names (path, text) List.mem_cons_self
      have first := writeFile_attempted tree isName text
      change AllAttempted fs output
          _ (match writeFile (Path.join output path) text fs with
        | (.ok (), written) => writeFiles output rest written
        | (.error failed, left) => (.error failed, left))
      rcases done : writeFile (Path.join output path) text fs with
        ⟨failed | _, middle⟩
      all_goals rw [done] at first
      · obtain ⟨blamed, prepared⟩ := first
        exact ⟨[], path, text, rest, rfl, blamed, .of_prepared prepared⟩
      · obtain ⟨place, isWritten⟩ := first
        have later :=
          induction isWritten.tree
            (named.sublist (List.sublist_cons_self _ rest))
        change AllAttempted fs output _ (writeFiles output rest middle)
        rcases result : writeFiles output rest middle with ⟨failed | _, after⟩
        all_goals rw [result] at later
        · obtain ⟨written, next, nextText, others, rfl, blamed, progress⟩ :=
            later
          have before :=
            named.sublist
              (.cons_cons (path, text) (List.sublist_append_left written _))
          exact ⟨(path, text) :: written, next, nextText, others, rfl, blamed,
            progress.cons before isWritten⟩
        · exact Progress.cons named isWritten later

end Artifacts

end DataBridge
