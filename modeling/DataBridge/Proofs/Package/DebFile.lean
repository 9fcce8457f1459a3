import DataBridge.Package.Project
import DataBridge.Proofs.Casing
import DataBridge.Proofs.Header.Reading

/-!
# The name of the installable package

The build puts the name of its package together from three parts of the version,
while the component's descriptions name the package after the version as it is
written.  So the package that is built is the one that is shipped exactly if the
version has three parts.
-/

namespace DataBridge

namespace Text

/-- What stands between a beginning and an ending of a text. -/
def between? (opening closing text : String) : Option String := do
  let rest ← text.toList.dropPrefix? opening.toList
  let inner ← rest.dropSuffix? closing.toList
  return String.ofList inner

theorem between?_eq_some_iff {opening closing text inner : String} :
    between? opening closing text = some inner ↔
      text = opening ++ inner ++ closing := by
  simp only [between?, Option.bind_eq_bind, Option.bind_eq_some_iff,
    Option.pure_def, Option.some.injEq, List.dropPrefix?_eq_some_iff,
    List.dropSuffix?_eq_some_iff, beq_iff_eq]
  constructor
  · rintro ⟨_, ⟨_, start, rfl⟩, _, ⟨_, rfl, rfl⟩, rfl⟩
    apply String.toList_injective
    simp [start]
  · rintro rfl
    exact ⟨inner.toList ++ closing.toList, ⟨_, by simp, rfl⟩, _, ⟨_, rfl, rfl⟩,
      by simp⟩

theorem between?_eq_none_iff {opening closing text : String} :
    between? opening closing text = none ↔
      ∀ inner, text ≠ opening ++ inner ++ closing := by
  rw [Option.eq_none_iff_forall_ne_some]
  simp only [ne_eq, between?_eq_some_iff]

theorem between?_of_not_prefix {opening closing text : String}
    (other : ¬ opening.toList <+: text.toList) :
    between? opening closing text = none := by
  rw [between?_eq_none_iff]
  rintro inner rfl
  exact other (by simp)

private theorem between?_between (opening closing inner : String) :
    between? opening closing (opening ++ inner ++ closing) = some inner :=
  between?_eq_some_iff.mpr rfl

end Text

namespace Source

/-- What the lines of a source hold between a beginning and an ending. -/
def between (opening closing : String) (source : Source) : List String :=
  source.filterMap fun line => Text.between? opening closing line.content

variable {opening closing : String}

theorem between_nil : between opening closing [] = [] :=
  rfl

theorem between_cons (line : Line) (source : Source) :
    between opening closing (line :: source) =
      (Text.between? opening closing line.content).toList ++
        between opening closing source := by
  rw [between, List.filterMap_cons]
  cases Text.between? opening closing line.content <;> rfl

theorem between_append (first second : Source) :
    between opening closing (first ++ second) =
      between opening closing first ++ between opening closing second :=
  List.filterMap_append

theorem between_of_not_prefix {source : Source}
    (other : ∀ line ∈ source, ¬ opening.toList <+: line.content.toList) :
    between opening closing source = [] := by
  rw [between, List.filterMap_eq_nil_iff]
  exact fun line inside => Text.between?_of_not_prefix (other line inside)

private theorem between_map (opening closing : String) (texts : List String) :
    between opening closing (texts.map fun text =>
      .plain 0 (opening ++ text ++ closing)) =
      texts := by
  simp only [between, List.filterMap_map, Function.comp_def, Line.content_plain,
    show indentation 0 = "" from rfl, String.empty_append,
    Text.between?_between, List.filterMap_some]

end Source

namespace Package

/-- The values that the build sets a variable to. -/
def valuesOf (variableName : String) (build : Source) : List String :=
  build.between ("set(" ++ variableName ++ " ") ")"

/-- The characters with values in place of references to variables.  The first
argument counts the characters that belong to a reference that is replaced. -/
def expandFrom (values : List (String × String)) : Nat → List Char → List Char
  | _, [] => []
  | skipped + 1, _ :: rest => expandFrom values skipped rest
  | 0, c :: rest =>
      match values.find? fun entry =>
          (buildVariable entry.1).toList.isPrefixOf (c :: rest) with
      | some (name, value) =>
          value.toList ++
            expandFrom values ((buildVariable name).length - 1) rest
      | none => c :: expandFrom values 0 rest

/-- The text with values in place of references to variables. -/
def expand (values : List (String × String)) (text : String) : String :=
  String.ofList (expandFrom values 0 text.toList)

/-- The variables for the parts of the version. -/
def versionVariables : List String :=
  ["CPACK_PACKAGE_VERSION_MAJOR", "CPACK_PACKAGE_VERSION_MINOR",
    "CPACK_PACKAGE_VERSION_PATCH"]

/-- The files that the build makes: packages of the name that it sets, with the
values of the variables for the version in it. -/
def builtPackages (build : Source) : List String :=
  let values := versionVariables.flatMap fun name =>
    (valuesOf name build).map fun value => (name, value)
  (valuesOf "CPACK_PACKAGE_FILE_NAME" build).map fun name =>
    expand values name ++ ".deb"

/-- The packages in the list of a component's files. -/
def listedPackages (list : Source) : List String :=
  (list.between "    <Object Type=\"File\">" "</Object>").filter fun file =>
    ".deb".toList.isSuffixOf file.toList

/-- The files that a component transfers under a name. -/
def transferredFiles (name : String) (component : Source) : List String :=
  component.between ("    <File Name=\"" ++ name ++ "\" FileName=\"Linux\\")
    "\" Type=\"Project\"/>"

section Values

variable {variableName : String}

private theorem valueOf_setVariable {name : String}
    (word : ' ' ∉ variableName.toList)
    (otherWord : ' ' ∉ name.toList) (value : String) :
    Text.between? ("set(" ++ variableName ++ " ") ")"
      (setVariable name value).content =
      if name = variableName then some value else none := by
  rw [setVariable, Line.content_plain, show indentation 0 = "" from rfl,
    String.empty_append]
  by_cases same : name = variableName
  · rw [if_pos same, Text.between?_eq_some_iff, same]
  · rw [if_neg same, Text.between?_eq_none_iff]
    intro inner equal
    have chars : name.toList ++ ' ' :: (value ++ ")").toList =
        variableName.toList ++ ' ' :: (inner ++ ")").toList := by
      simpa [String.append_assoc] using congrArg String.toList equal
    -- the blank behind the name ends it in both readings
    have cut := congrArg (cutAt? ' ') chars
    rw [cutAt?_append otherWord, cutAt?_append word] at cut
    exact same (String.toList_injective (Prod.mk.inj (Option.some.inj cut)).1)

/-- A line that does not begin like a setting gives no value. -/
theorem valueOf_plain {depth : Nat} {text : String}
    (other : ¬ "set(".toList <+: (indentation depth ++ text).toList) :
    Text.between? ("set(" ++ variableName ++ " ") ")"
      (Line.plain depth text).content = none := by
  rw [Line.content_plain]
  apply Text.between?_of_not_prefix
  intro setting
  apply other
  exact List.IsPrefix.trans (by simp) setting

private theorem valueOf_blank :
    Text.between? ("set(" ++ variableName ++ " ") ")" Line.blank.content =
      none := by
  rw [Line.content_blank, Text.between?_eq_none_iff]
  intro inner same
  simpa using congrArg String.toList same

/-- The list of files ends on another line, whatever the component is called. -/
theorem valueOf_fileList (upper : String) :
    Text.between? ("set(" ++ variableName ++ " ") ")"
      (Line.plain 0 ("set(" ++ upper ++ "_MODULE_FILES")).content = none := by
  rw [Line.content_plain, Text.between?_eq_none_iff]
  intro inner same
  have last := congrArg (fun text : String => text.toList.reverse.head?) same
  simp at last

/-- The variables that the build sets, with their values. -/
def assignments (settings : Settings) : List (String × String) :=
  let version := VersionParts.ofVersion settings.metadata.version
  [("CPACK_GENERATOR", "\"DEB\""),
    ("CPACK_PACKAGE_NAME", "exos-comp-" ++ settings.lower),
    ("CPACK_PACKAGE_DESCRIPTION_SUMMARY",
      "\"" ++ settings.lower ++ " summary\""),
    ("CPACK_PACKAGE_DESCRIPTION",
      "\"" ++ settings.metadata.description.getD "Some description" ++ "\""),
    ("CPACK_PACKAGE_VENDOR", "\"Your Organization\""),
    ("CPACK_PACKAGE_VERSION_MAJOR", version.major),
    ("CPACK_PACKAGE_VERSION_MINOR", version.minor),
    ("CPACK_PACKAGE_VERSION_PATCH", version.patch),
    ("CPACK_PACKAGE_FILE_NAME",
      "exos-comp-" ++ settings.lower ++ "-" ++
        buildVariable "CPACK_PACKAGE_VERSION_MAJOR" ++ "." ++
        buildVariable "CPACK_PACKAGE_VERSION_MINOR" ++ "." ++
        buildVariable "CPACK_PACKAGE_VERSION_PATCH"),
    ("CPACK_DEBIAN_PACKAGE_MAINTAINER", "\"your name\""),
    ("CPACK_DEBIAN_PACKAGE_SHLIBDEPS", "ON")]

theorem valuesOf_installLines (word : ' ' ∉ variableName.toList)
    (settings : Settings) : valuesOf variableName (installLines settings) =
      (assignments settings).flatMap fun entry =>
        (if entry.1 = variableName then some entry.2 else none).toList := by
  simp (disch := first | exact word | simp [indentation]) only [valuesOf,
    installLines, Source.between_cons, Source.between_nil, valueOf_plain,
    valueOf_blank, valueOf_fileList, valueOf_setVariable, assignments,
    List.flatMap_cons, List.flatMap_nil, Option.toList_none, List.nil_append]

end Values

section Expand

variable {values : List (String × String)} {name value : String}

private theorem expandFrom_skip (skipped rest : List Char) :
    expandFrom values skipped.length (skipped ++ rest) =
      expandFrom values 0 rest := by
  induction skipped with
  | nil => rfl
  | cons c skipped induction => exact induction

private theorem expandFrom_reference {rest : List Char}
    (found : values.find? (fun entry =>
      (buildVariable entry.1).toList.isPrefixOf
        ((buildVariable name).toList ++ rest)) =
        some (name, value)) :
    expandFrom values 0 ((buildVariable name).toList ++ rest) =
      value.toList ++ expandFrom values 0 rest := by
  obtain ⟨inner, chars⟩ : ∃ inner, (buildVariable name).toList = '$' :: inner :=
    ⟨('{' :: name.toList) ++ ['}'], by simp [buildVariable]⟩
  have length : (buildVariable name).length - 1 = inner.length := by
    rw [← String.length_toList, chars]
    rfl
  rw [chars, List.cons_append] at found ⊢
  rw [expandFrom, found]
  simp only [length, expandFrom_skip]

theorem expandFrom_cons {c : Char} {rest : List Char}
    (plain : ∀ entry ∈ values, ¬ (buildVariable entry.1).toList <+: c :: rest) :
    expandFrom values 0 (c :: rest) = c :: expandFrom values 0 rest := by
  have none : values.find? (fun entry =>
      (buildVariable entry.1).toList.isPrefixOf (c :: rest)) = none := by
    rw [List.find?_eq_none]
    intro entry inside reference
    exact plain entry inside (List.isPrefixOf_iff_prefix.mp reference)
  rw [expandFrom, none]

theorem expandFrom_cons_of_ne {c : Char} (other : c ≠ '$') (rest : List Char) :
    expandFrom values 0 (c :: rest) = c :: expandFrom values 0 rest := by
  apply expandFrom_cons
  intro entry _ reference
  have first : '$' = c := by
    simpa [buildVariable] using reference.head (by simp [buildVariable])
  exact other first.symm

/-- No reference begins in front of a hyphen where its capitals are missing. -/
theorem expandFrom_append
    (capital : ∀ entry ∈ values, entry.1.toList.head? = some 'C')
    {before : List Char} (absent : 'C' ∉ before) (rest : List Char) :
    expandFrom values 0 (before ++ '-' :: rest) =
      before ++ '-' :: expandFrom values 0 rest := by
  induction before with
  | nil => exact expandFrom_cons_of_ne (by decide) rest
  | cons c before induction =>
      obtain ⟨_, later⟩ := List.ne_and_not_mem_of_not_mem_cons absent
      rw [List.cons_append, expandFrom_cons, induction later, List.cons_append]
      intro entry inside reference
      obtain ⟨tail, chars⟩ := List.head?_eq_some_iff.mp (capital entry inside)
      simp only [buildVariable, String.toList_append, chars,
        String.reduceToList, List.cons_append, List.nil_append,
        List.cons_prefix_cons] at reference
      obtain ⟨_, behind⟩ := reference
      -- the capital behind the brace stands in the text, or the hyphen is there
      match before, later with
      | [], _ => simp at behind
      | [_], _ => simp at behind
      | _ :: second :: _, later =>
          simp only [List.cons_append, List.cons_prefix_cons] at behind
          obtain ⟨_, rfl, _⟩ := behind
          exact later (by simp)

end Expand

namespace VersionParts

/-- The version with three parts that the parts spell. -/
def spelled (parts : VersionParts) : String :=
  parts.major ++ "." ++ parts.minor ++ "." ++ parts.patch

private theorem split_spelled (version : String) :
    Text.split '.' (ofVersion version).spelled =
      [(ofVersion version).major, (ofVersion version).minor,
        (ofVersion version).patch] := by
  have whole : ∀ (index : Nat) (missing : String), '.' ∉ missing.toList →
      '.' ∉ ((Text.split '.' version)[index]?.getD missing).toList := by
    intro index missing absent
    cases found : (Text.split '.' version)[index]? with
    | none => exact absent
    | some part => exact Text.not_mem_of_mem_split (List.mem_of_getElem? found)
  have major : '.' ∉ (ofVersion version).major.toList := whole 0 "1" (by decide)
  have minor : '.' ∉ (ofVersion version).minor.toList := whole 1 "0" (by decide)
  have patch : '.' ∉ (ofVersion version).patch.toList := whole 2 "0" (by decide)
  have cut : ∀ before after : String,
      Text.split '.' (before ++ "." ++ after) =
          Text.split '.' before ++ Text.split '.' after :=
    fun before after => Text.split_cut (by simp)
  rw [spelled, cut, cut, Text.split_of_not_mem major,
    Text.split_of_not_mem minor, Text.split_of_not_mem patch]
  rfl

private theorem spelled_eq_iff (version : String) :
    (ofVersion version).spelled = version ↔
      (Text.split '.' version).length = 3 := by
  constructor
  · intro same
    rw [← same, split_spelled]
    rfl
  · intro three
    obtain ⟨major, minor, patch, parts⟩ := List.length_eq_three.mp three
    have whole : spelled (ofVersion version) = major ++ "." ++ minor ++ "." ++
        patch := by
      simp [spelled, ofVersion, parts]
    have chars : version.toList.splitOn '.' = [major.toList, minor.toList,
        patch.toList] := by
      rw [Text.split_eq] at parts
      simpa [List.map_map, Function.comp_def]
        using congrArg (List.map String.toList) parts
    rw [whole]
    apply String.toList_injective
    have joined : ['.'].intercalate (version.toList.splitOn '.') =
        version.toList :=
      List.intercalate_splitOn '.'
    rw [← joined, chars]
    simp [List.intercalate]

end VersionParts

/-- The variables for the parts of the version with their values. -/
def VersionParts.values (parts : VersionParts) : List (String × String) :=
  versionVariables.zip [parts.major, parts.minor, parts.patch]

private theorem expand_fileName {name : String} (absent : 'C' ∉ name.toList)
    (parts : VersionParts) : expand parts.values
      (name ++ "-" ++ buildVariable "CPACK_PACKAGE_VERSION_MAJOR" ++ "." ++
        buildVariable "CPACK_PACKAGE_VERSION_MINOR" ++ "." ++
        buildVariable "CPACK_PACKAGE_VERSION_PATCH") =
      name ++ "-" ++ parts.spelled := by
  have reference : ∀ entry ∈ parts.values, ∀ rest,
      parts.values.find? (fun other =>
        (buildVariable other.1).toList.isPrefixOf
          ((buildVariable entry.1).toList ++ rest)) =
          some entry := by
    simp [VersionParts.values, versionVariables, buildVariable, List.find?,
      List.isPrefixOf]
  have replaced : ∀ entry ∈ parts.values, ∀ rest,
      expandFrom parts.values 0 ((buildVariable entry.1).toList ++ rest) =
        entry.2.toList ++ expandFrom parts.values 0 rest :=
    fun entry inside rest => expandFrom_reference (reference entry inside rest)
  have capital : ∀ entry ∈ parts.values, entry.1.toList.head? = some 'C' := by
    simp [VersionParts.values, versionVariables]
  have listed : parts.values =
      [("CPACK_PACKAGE_VERSION_MAJOR", parts.major),
        ("CPACK_PACKAGE_VERSION_MINOR", parts.minor),
        ("CPACK_PACKAGE_VERSION_PATCH", parts.patch)] :=
    rfl
  apply String.toList_injective
  calc (expand parts.values _).toList
      = expandFrom parts.values 0 (name.toList ++ '-' ::
          ((buildVariable "CPACK_PACKAGE_VERSION_MAJOR").toList ++ '.' ::
            ((buildVariable "CPACK_PACKAGE_VERSION_MINOR").toList ++ '.' ::
              ((buildVariable "CPACK_PACKAGE_VERSION_PATCH").toList ++
                  [])))) := by
        simp [expand]
    _ = name.toList ++ '-' ::
      (parts.major.toList ++ '.' :: (parts.minor.toList ++ '.' ::
          (parts.patch.toList ++ []))) := by
        rw [expandFrom_append capital absent,
          replaced ("CPACK_PACKAGE_VERSION_MAJOR", parts.major)
            (by simp [listed]),
          expandFrom_cons_of_ne (by decide),
          replaced ("CPACK_PACKAGE_VERSION_MINOR", parts.minor)
            (by simp [listed]),
          expandFrom_cons_of_ne (by decide),
          replaced ("CPACK_PACKAGE_VERSION_PATCH",
            parts.patch) (by simp [listed]), expandFrom]
    _ = (name ++ "-" ++ parts.spelled).toList := by
        simp [VersionParts.spelled]

section Names

variable (settings : Settings)

/-- The build names its package after the first three parts of the version. -/
theorem builtPackages_installLines :
    builtPackages (installLines settings) =
      ["exos-comp-" ++ settings.lower ++ "-" ++
        (VersionParts.ofVersion settings.metadata.version).spelled ++
        ".deb"] := by
  have absent : 'C' ∉ ("exos-comp-" ++ settings.lower).toList := by
    rw [String.toList_append, List.mem_append, not_or]
    exact ⟨by decide, Text.capital_not_mem_lower (by decide) settings.name⟩
  have values : (versionVariables.flatMap fun name =>
      (valuesOf name (installLines settings)).map fun value => (name, value)) =
        (VersionParts.ofVersion settings.metadata.version).values := by
    simp (disch := decide) [versionVariables, valuesOf_installLines,
      assignments, VersionParts.values]
  have fileName :=
    @valuesOf_installLines "CPACK_PACKAGE_FILE_NAME" (by decide) settings
  simp only [assignments] at fileName
  rw [builtPackages]
  simp only [values]
  rw [fileName]
  simp
  exact expand_fileName absent _

/-- The list of files names the package after the version as it is written. -/
theorem listedPackages_listLines (installed : settings.packaging = .deb) :
    listedPackages (listLines settings) = [settings.debFile] := by
  have files :
      (listLines settings).between "    <Object Type=\"File\">" "</Object>" =
        listedFiles settings := by
    rw [listLines, Source.between_append, Source.between_append,
      Source.between_map, Source.between_of_not_prefix,
      Source.between_of_not_prefix, List.nil_append, List.append_nil]
    all_goals simp [Line.content_plain, indentation]
  rw [listedPackages, files]
  simp [listedFiles, installed, Settings.scriptFile, Settings.nodeModule,
    Settings.headerFile, Settings.moduleFile, Settings.debFile, Header.fileName,
    Addon.fileName, List.isSuffixOf, List.isPrefixOf]

/-- The component transfers the package that is named after the version as it is
written. -/
theorem transferredFiles_componentLines
    (installed : settings.packaging = .deb) :
    transferredFiles ("exos-comp-" ++ settings.lower)
      (componentLines settings) = [settings.debFile] := by
  have file : transferredFiles ("exos-comp-" ++ settings.lower)
      [fileLine ("exos-comp-" ++ settings.lower) settings.debFile] =
          [settings.debFile] := by
    rw [transferredFiles, Source.between_cons, Source.between_nil,
      List.append_nil, Text.between?_eq_some_iff.mpr, Option.toList_some]
    simp [fileLine, Line.content_plain, indentation, String.ext_iff]
  rw [transferredFiles] at file ⊢
  simp only [componentLines, installed, Source.between_append, file]
  rw [Source.between_of_not_prefix, Source.between_of_not_prefix,
    Source.between_of_not_prefix, Source.between_of_not_prefix]
  all_goals simp [fileLine, prerunLine, Line.content_plain, indentation]

/-- The component lists and transfers one installable package, and the build
makes that package exactly if the version has three parts. -/
theorem built_is_shipped_iff (installed : settings.packaging = .deb) :
    listedPackages (listLines settings) = [settings.debFile] ∧
    transferredFiles ("exos-comp-" ++ settings.lower)
      (componentLines settings) = [settings.debFile] ∧
    (builtPackages (installLines settings) = [settings.debFile] ↔
      (Text.split '.' settings.metadata.version).length = 3) := by
  refine ⟨listedPackages_listLines settings installed,
    transferredFiles_componentLines settings installed, ?_⟩
  have named : ∀ version : String,
      ("exos-comp-" ++ settings.lower ++ "-" ++ version ++ ".deb" =
        "exos-comp-" ++ settings.lower ++ "-" ++ settings.metadata.version ++
          ".deb" ↔
          version = settings.metadata.version) := by
    intro version
    rw [String.append_left_inj, String.append_right_inj]
  rw [builtPackages_installLines, List.singleton_inj, Settings.debFile, named]
  exact VersionParts.spelled_eq_iff settings.metadata.version

end Names

section Winch

/-- A winch of some version that comes as an installable package. -/
def winch (version : String) : Settings where
  datamodel := { name := "Winch", root := { name := "Winch", fields := [] } }
  metadata := { name := "Winch", version }
  packaging := .deb
  destination := "/home/user/winch"
  sourceFile := "winch.dm.yaml"

theorem lower_winch (version : String) : (winch version).lower = "winch" :=
  show Text.lower "Winch" = "winch" by decide +kernel

/-- A version of three parts. -/
theorem winch_shipped :
    builtPackages (installLines (winch "1.2.3-rc1")) =
      ["exos-comp-winch-1.2.3-rc1.deb"] ∧
    listedPackages (listLines (winch "1.2.3-rc1")) =
      ["exos-comp-winch-1.2.3-rc1.deb"] := by
  have shipped := built_is_shipped_iff (winch "1.2.3-rc1") rfl
  have file : (winch "1.2.3-rc1").debFile =
      "exos-comp-winch-1.2.3-rc1.deb" := by
    rw [Settings.debFile, lower_winch]
    rfl
  rw [file] at shipped
  exact ⟨shipped.2.2.mpr (by decide), shipped.1⟩

/-- The build fills in a missing part of the version, and leaves out a
fourth. -/
theorem winch_not_shipped :
    builtPackages (installLines (winch "1.0")) = ["exos-comp-winch-1.0.0.deb"] ∧
    listedPackages (listLines (winch "1.0")) = ["exos-comp-winch-1.0.deb"] ∧
    builtPackages (installLines (winch "1.0.0.7")) =
      ["exos-comp-winch-1.0.0.deb"] ∧
    listedPackages (listLines (winch "1.0.0.7")) =
      ["exos-comp-winch-1.0.0.7.deb"] := by
  have built : ∀ version, builtPackages (installLines (winch version)) =
      ["exos-comp-winch-" ++ (VersionParts.ofVersion version).spelled ++
          ".deb"] := by
    intro version
    rw [builtPackages_installLines, lower_winch]
    rfl
  have listed : ∀ version, listedPackages (listLines (winch version)) =
      ["exos-comp-winch-" ++ version ++ ".deb"] := by
    intro version
    rw [listedPackages_listLines (winch version) rfl, Settings.debFile,
      lower_winch]
    rfl
  rw [built, listed, built, listed]
  decide

end Winch

end Package
end DataBridge
