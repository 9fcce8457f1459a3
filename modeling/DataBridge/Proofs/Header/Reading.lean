import DataBridge.Header
import DataBridge.Proofs.Header.Lines
import DataBridge.Proofs.Program.Temporary
import Std.Data.String.ToNat

/-!
# Reading a header

A header is read back as text: between directives and empty lines it holds type
definitions, and a struct holds one member on each line.  What is read are the
declarations that were written.
-/

namespace DataBridge

/-- What stands in front of the first occurrence of `mark`, and behind it. -/
def cutAt? {α : Type} [DecidableEq α] (mark : α) :
    List α → Option (List α × List α)
  | [] => none
  | x :: rest =>
      if x = mark then some ([], rest)
      else (cutAt? mark rest).map fun (before, after) => (x :: before, after)

theorem cutAt?_append {α : Type} [DecidableEq α] {mark : α} {before : List α}
    (absent : mark ∉ before) (after : List α) :
    cutAt? mark (before ++ mark :: after) = some (before, after) := by
  induction before with
  | nil => simp [cutAt?]
  | cons x rest induction =>
      obtain ⟨other, later⟩ := List.ne_and_not_mem_of_not_mem_cons absent
      rw [List.cons_append, cutAt?, if_neg (Ne.symm other), induction later]
      rfl

private theorem length_of_cutAt? {α : Type} [DecidableEq α] {mark : α}
    {xs before after : List α} (cut : cutAt? mark xs = some (before, after)) :
    after.length < xs.length := by
  induction xs generalizing before with
  | nil => cases cut
  | cons x rest induction =>
      rw [cutAt?] at cut
      split at cut
      · cases cut
        exact Nat.lt_succ_self _
      · obtain ⟨⟨front, back⟩, found, same⟩ := Option.map_eq_some_iff.mp cut
        cases same
        exact Nat.lt_succ_of_lt (induction found)

namespace Text

def cut? (separator : Char) (text : String) : Option (String × String) :=
  (cutAt? separator text.toList).map fun (before, after) =>
    (String.ofList before, String.ofList after)

theorem cut?_eq {separator : Char} {text before after : String}
    (cut : text.toList = before.toList ++ separator :: after.toList)
    (absent : separator ∉ before.toList) :
    cut? separator text = some (before, after) := by
  rw [cut?, cut, cutAt?_append absent]
  simp only [Option.map_some, String.ofList_toList]

/-- The characters that end a name in a declaration. -/
def delimiters : List Char :=
  [' ', '\n', '[', ';']

/-- The text can stand as a name in a declaration. -/
def IsName (text : String) : Prop :=
  ∀ c ∈ text.toList, c ∉ delimiters

instance (text : String) : Decidable (IsName text) :=
  List.decidableBAll (fun c => c ∉ delimiters) text.toList

variable {text : String}

theorem IsName.not_mem (isName : IsName text) {delimiter : Char}
    (ends : delimiter ∈ delimiters := by decide) : delimiter ∉ text.toList :=
  fun inside => isName delimiter inside ends

theorem IsName.oneLine (isName : IsName text) : OneLine text :=
  isName.not_mem

end Text

open Text (OneLine IsName)

namespace Header

/-- A member as it is read: its type, its name and its dimensions. -/
structure Declarator where
  type : String
  name : String
  dimensions : List Nat
deriving DecidableEq, Repr

inductive Typedef where
  | enum (name : String)
  | struct (name : String) (members : List Declarator)
deriving DecidableEq, Repr

def Typedef.name : Typedef → String
  | .enum name => name
  | .struct name _ => name

/-- Reads a size and the bracket behind it. -/
def readSize? (text : String) : Option Nat :=
  match Text.cut? ']' text with
  | some (digits, "") => digits.toNat?
  | _ => none

/-- Reads a declaration with four blanks in front of it. -/
def readDeclarator? (text : String) : Option Declarator :=
  match Text.split '[' text with
  | [] => none
  | front :: sizes =>
      match Text.split ' ' front with
      | ["", "", "", "", type, name] =>
          (sizes.mapM readSize?).map fun dimensions =>
            { type, name, dimensions }
      | _ => none

/-- Whether there is nothing more on a line, or a comment. -/
def isComment (text : String) : Bool :=
  text == "" || " //".toList.isPrefixOf text.toList

def readMember? (line : String) : Option Declarator :=
  match Text.cut? ';' line with
  | some (declaration, rest) => if isComment rest then
      readDeclarator? declaration else none
  | none => none

def closing (name : String) : String :=
  r"} " ++ name ++ ";"

/-- Reads the lines of a definition, and returns those behind it. -/
def readBody? (kind name : String) (lines : List String) :
    Option (Typedef × List String) :=
  match lines with
  | [] => none
  | first :: rest =>
      if first = r"{" then
        (cutAt? (closing name) rest).bind fun (body, after) =>
          match kind with
          | "enum" => some (.enum name, after)
          | "struct" => (body.mapM readMember?).map fun members =>
              (.struct name members, after)
          | _ => none
      else none

/-- Whether a line stands between definitions: it is empty or a directive. -/
def standsBetween (line : String) : Bool :=
  line == "" || line.toList.head? == some '#'

private theorem length_of_readBody? {kind name : String}
    {lines rest : List String}
    {type : Typedef} (read : readBody? kind name lines = some (type, rest)) :
    rest.length < lines.length := by
  cases lines with
  | nil => cases read
  | cons first others =>
      rw [readBody?] at read
      split at read
      · obtain ⟨⟨body, after⟩, cut, read⟩ := Option.bind_eq_some_iff.mp read
        have shorter := length_of_cutAt? cut
        have same : after = rest := by
          dsimp only at read
          split at read
          · cases read
            rfl
          · obtain ⟨members, _, same⟩ := Option.map_eq_some_iff.mp read
            cases same
            rfl
          · cases read
        rw [← same]
        exact Nat.lt_succ_of_lt shorter
      · cases read

/-- Reads the definitions of some lines. -/
def readLines? : List String → Option (List Typedef)
  | [] => some []
  | line :: rest =>
      if standsBetween line then readLines? rest
      else
        match Text.split ' ' line with
        | ["typedef", kind, name] =>
            match _read : readBody? kind name rest with
            | some (type, after) => (readLines? after).map (type :: ·)
            | none => none
        | _ => none
termination_by lines => lines.length
decreasing_by
  · exact Nat.lt_succ_self _
  · exact Nat.lt_succ_of_lt (length_of_readBody? _read)

/-- Reads the definitions of a header behind its banner. -/
def read? (text : String) : Option (List Typedef) :=
  readLines? (Text.split '\n' text)

def Member.declarator (member : Member) : Declarator where
  type := member.type
  name := member.name
  dimensions := member.dimensions

/-- What follows a member on its line. -/
def Member.remark (member : Member) : String :=
  match member.comment with
  | some comment => " //" ++ comment
  | none => ""

theorem Member.line_eq (member : Member) :
    member.line = .plain 1 (member.declaration ++ ";" ++ member.remark) :=
  rfl

def Declaration.typedef : Declaration → Typedef
  | .enum name _ => .enum name
  | .struct name members => .struct name (members.map Member.declarator)

structure Member.Readable (member : Member) : Prop where
  typed : IsName member.type
  named : IsName member.name
  comment : ∀ comment ∈ member.comment, OneLine comment

/-- The names of a declaration can be read. -/
inductive Declaration.Readable : Declaration → Prop where
  | enum {name : String} {variants : List (String × Int)} (named : IsName name)
      (each : ∀ variant ∈ variants, OneLine variant.1) :
        Readable (.enum name variants)
  | struct {name : String} {members : List Member} (named : IsName name)
      (each : ∀ member ∈ members, member.Readable) :
        Readable (.struct name members)

section Member

variable {member : Member}

private theorem readSize?_dimension (size : Nat) :
    readSize? (toString size ++ "]") = some size := by
  have cut : Text.cut? ']' (toString size ++ "]") =
      some (toString size, "") := by
    apply Text.cut?_eq (by simp)
    intro bracket
    exact absurd (isDigit_of_mem_digits bracket) (by decide)
  rw [readSize?, cut]
  simp

private theorem split_dimensions {front : String} (absent : '[' ∉ front.toList)
    (sizes : List Nat) :
    Text.split '[' (front ++ String.join (sizes.map dimension)) =
      front :: sizes.map fun size => toString size ++ "]" := by
  induction sizes generalizing front with
  | nil => simpa using Text.split_of_not_mem absent
  | cons size rest induction =>
      have cut : (front ++ String.join ((size :: rest).map dimension)).toList =
          front.toList ++ '[' ::
            (toString size ++ "]" ++
              String.join (rest.map dimension)).toList := by
        simp [dimension]
      have closed : '[' ∉ (toString size ++ "]").toList := by
        rw [String.toList_append, List.mem_append, not_or]
        exact ⟨fun bracket =>
          absurd (isDigit_of_mem_digits bracket) (by decide), by decide⟩
      rw [Text.split_cut cut, Text.split_of_not_mem absent, induction closed]
      rfl

theorem split_words {front back : String} (absent : ' ' ∉ front.toList) :
    Text.split ' ' (front ++ " " ++ back) = front :: Text.split ' ' back := by
  have cut : Text.split ' ' (front ++ " " ++ back) =
      Text.split ' ' front ++ Text.split ' ' back :=
    Text.split_cut (by simp)
  rw [cut, Text.split_of_not_mem absent, List.singleton_append]

private theorem split_declaration {type name : String} (typed : IsName type)
    (named : IsName name) :
    Text.split ' ' ("    " ++ type ++ " " ++ name) =
      ["", "", "", "", type, name] := by
  have blanks : "    " ++ type ++ " " ++ name =
      "" ++ " " ++
          ("" ++ " " ++
              ("" ++ " " ++ ("" ++ " " ++ (type ++ " " ++ name)))) := by
    apply String.toList_injective
    simp
  rw [blanks, split_words (by simp), split_words (by simp),
    split_words (by simp), split_words (by simp), split_words typed.not_mem,
    Text.split_of_not_mem named.not_mem]

-- Neither the type nor the name holds a bracket or a blank, so every bracket
-- opens a size and the last blank stands in front of the name.
private theorem readDeclarator?_declaration (readable : member.Readable) :
    readDeclarator? ("    " ++ member.declaration) =
      some member.declarator := by
  have front : '[' ∉ ("    " ++ member.type ++ " " ++ member.name).toList := by
    simp only [String.toList_append, List.mem_append, not_or]
    exact ⟨⟨⟨by decide, readable.typed.not_mem⟩, by decide⟩,
      readable.named.not_mem⟩
  have sizes :
      (member.dimensions.map fun size => toString size ++ "]").mapM readSize? =
      some (member.dimensions.map id) :=
    mapM_map_eq_some fun size _ => readSize?_dimension size
  have split := split_dimensions front member.dimensions
  rw [readDeclarator?, Member.declaration, ← String.append_assoc,
    ← String.append_assoc, ← String.append_assoc, split]
  dsimp only
  rw [split_declaration readable.typed readable.named, sizes, List.map_id]
  rfl

/-- A declaration goes on to the semicolon behind it. -/
theorem not_mem_declaration (readable : member.Readable) {delimiter : Char}
    (ends : delimiter = '\n' ∨ delimiter = ';') :
    delimiter ∉ member.declaration.toList := by
  have delimits : delimiter ∈ Text.delimiters := by
    rcases ends with rfl | rfl <;> decide
  have other : delimiter.isDigit = false ∧ delimiter ∉ [' ', '[', ']'] := by
    rcases ends with rfl | rfl <;> decide
  have sizes :
      delimiter ∉ (String.join (member.dimensions.map dimension)).toList := by
    simp only [String.toList_join, List.mem_flatMap, List.mem_map]
    rintro ⟨_, ⟨size, _, rfl⟩, inside⟩
    simp only [dimension, String.toList_append, List.mem_append] at inside
    rcases inside with (bracket | digit) | bracket
    · simp_all
    · exact absurd (isDigit_of_mem_digits digit) (by simp [other.1])
    · simp_all
  simp only [Member.declaration, String.toList_append, List.mem_append, not_or]
  refine ⟨⟨⟨readable.typed.not_mem delimits, ?_⟩,
    readable.named.not_mem delimits⟩, sizes⟩
  simp_all

private theorem readMember?_line (readable : member.Readable) :
    readMember? member.line.content = some member.declarator := by
  have absent : ';' ∉ ("    " ++ member.declaration).toList := by
    rw [String.toList_append, List.mem_append, not_or]
    exact ⟨by decide, not_mem_declaration readable (.inr rfl)⟩
  have cut : Text.cut? ';'
      ("    " ++ (member.declaration ++ ";" ++ member.remark)) =
        some ("    " ++ member.declaration, member.remark) :=
    Text.cut?_eq (by simp) absent
  have comment : isComment member.remark = true := by
    unfold Member.remark
    cases member.comment <;> simp [isComment]
  rw [member.line_eq, Line.content_plain, show indentation 1 = "    " from rfl,
    readMember?, cut]
  dsimp only
  rw [if_pos comment, readDeclarator?_declaration readable]

private theorem exists_line (readable : member.Readable) :
    ∃ text, member.line = .plain 1 text ∧ OneLine text := by
  have front : OneLine member.declaration :=
    not_mem_declaration readable (.inl rfl)
  have behind : OneLine member.remark := by
    unfold Member.remark
    cases text : member.comment with
    | none => decide
    | some content =>
        exact Text.oneLine_append.mpr ⟨by decide, readable.comment content text⟩
  refine ⟨_, member.line_eq, ?_⟩
  simpa using ⟨⟨front, by decide⟩, behind⟩

end Member

theorem readLines?_between {line : String} (between : standsBetween line = true)
    (rest : List String) : readLines? (line :: rest) = readLines? rest := by
  rw [readLines?, if_pos between]

namespace Declaration

variable {declaration : Declaration}

def kind : Declaration → String
  | .enum .. => "enum"
  | .struct .. => "struct"

def opening : Declaration → String
  | .enum name _ => "typedef enum " ++ name
  | .struct name _ => "typedef struct " ++ name

def body : Declaration → Source
  | .enum _ variants => variantLines variants
  | .struct _ members => members.map Member.line

theorem lines_eq (declaration : Declaration) :
    declaration.lines = [.plain 0 declaration.opening, .plain 0 r"{"] ++
      declaration.body ++
      [.plain 0 (closing declaration.name), .blank] := by
  cases declaration <;> rfl

theorem Readable.named (readable : declaration.Readable) :
    IsName declaration.name := by
  cases readable with
  | enum named => exact named
  | struct named => exact named

theorem opening_eq (declaration : Declaration) : declaration.opening =
    "typedef" ++ " " ++ (declaration.kind ++ " " ++ declaration.name) := by
  apply String.toList_injective
  cases declaration with
  | enum name variants =>
      change ("typedef enum " ++ name).toList =
        ("typedef" ++ " " ++ ("enum" ++ " " ++ name)).toList
      simp
  | struct name members =>
      change ("typedef struct " ++ name).toList =
        ("typedef" ++ " " ++ ("struct" ++ " " ++ name)).toList
      simp

private theorem split_opening (readable : declaration.Readable) :
    Text.split ' ' declaration.opening = ["typedef", declaration.kind,
      declaration.name] := by
  have kind : ' ' ∉ declaration.kind.toList := by
    cases declaration <;> simp [Declaration.kind]
  rw [opening_eq, split_words (by decide), split_words kind,
    Text.split_of_not_mem readable.named.not_mem]

theorem oneLine_int (value : Int) : OneLine (toString value) := by
  intro inside
  cases value with
  | ofNat n => exact absurd (isDigit_of_mem_digits inside) (by decide)
  | negSucc n =>
      rw [toString_negSucc, List.mem_cons] at inside
      rcases inside with sign | digit
      · exact absurd sign (by decide)
      · exact absurd (isDigit_of_mem_digits digit) (by decide)

private theorem exists_variant_line {variants : List (String × Int)}
    (names : ∀ variant ∈ variants, OneLine variant.1) :
    ∀ line ∈ variantLines variants,
      ∃ text, line = .plain 1 text ∧ OneLine text := by
  fun_induction variantLines variants with
  | case1 => exact nofun
  | case2 name value =>
      intro line known
      rw [List.mem_singleton.mp known]
      refine ⟨_, rfl, ?_⟩
      simpa using ⟨⟨names _ List.mem_cons_self, by decide⟩, oneLine_int value⟩
  | case3 name value rest more induction =>
      obtain ⟨first, later⟩ := List.forall_mem_cons.mp names
      intro line known
      rcases List.mem_cons.mp known with rfl | deeper
      · refine ⟨_, rfl, ?_⟩
        simpa using ⟨⟨⟨first, by decide⟩, oneLine_int value⟩, by decide⟩
      · exact induction later line deeper

/-- Each line between the braces is indented. -/
theorem exists_body_line (readable : declaration.Readable) :
    ∀ line ∈ declaration.body, ∃ text, line = .plain 1 text ∧ OneLine text := by
  cases readable with
  | enum named each => exact exists_variant_line each
  | struct named each =>
      intro line known
      obtain ⟨member, inside, rfl⟩ := List.mem_map.mp known
      exact exists_line (each member inside)

private theorem closing_not_mem_body (readable : declaration.Readable) :
    closing declaration.name ∉ declaration.body.map Line.content := by
  intro inside
  obtain ⟨line, known, same⟩ := List.mem_map.mp inside
  obtain ⟨text, rfl, _⟩ := exists_body_line readable line known
  have first := congrArg (fun text => text.toList.head?) same
  rw [Line.content_plain, show indentation 1 = "    " from rfl] at first
  simp [closing] at first

private theorem readBody?_eq (readable : declaration.Readable)
    (rest : List String) :
    readBody? declaration.kind declaration.name
        (r"{" :: (declaration.body.map Line.content ++
          closing declaration.name :: rest)) =
      some (declaration.typedef, rest) := by
  rw [readBody?, if_pos rfl, cutAt?_append (closing_not_mem_body readable),
    Option.bind_some]
  cases readable with
  | enum named each => rfl
  | @struct name members named each =>
      have read : (members.map fun member => member.line.content).mapM
          readMember? =
            some (members.map Member.declarator) :=
        mapM_map_eq_some fun member inside =>
          readMember?_line (each member inside)
      simp only [body, kind, Declaration.name, List.map_map,
        Function.comp_def, read]
      rfl

/-- A declaration is read as what it says. -/
theorem readLines?_lines (readable : declaration.Readable)
    (rest : List String) :
    readLines? (declaration.lines.map Line.content ++ rest) =
      (readLines? rest).map (declaration.typedef :: ·) := by
  have opens : standsBetween declaration.opening = false := by
    rw [opening_eq]
    simp [standsBetween]
  have read := readBody?_eq readable ("" :: rest)
  have whole : declaration.lines.map Line.content ++ rest =
      declaration.opening :: r"{" ::
        (declaration.body.map Line.content ++
          closing declaration.name :: "" :: rest) := by
    rw [lines_eq]
    simp [show indentation 0 = "" from rfl]
  rw [whole, readLines?, opens, split_opening readable]
  simp only [Bool.false_eq_true, if_false]
  rw [read]
  dsimp only
  rw [readLines?_between (by decide)]

private theorem whole_of_mem_lines (readable : declaration.Readable) :
    ∀ line ∈ declaration.lines, line.Whole := by
  have opening : OneLine declaration.opening := by
    have kind : OneLine declaration.kind := by
      cases declaration <;> simp [OneLine, Declaration.kind]
    rw [opening_eq]
    simp only [Text.oneLine_append]
    exact ⟨⟨by decide, by decide⟩, ⟨kind, by decide⟩, readable.named.oneLine⟩
  have closing : OneLine (closing declaration.name) := by
    simpa [Header.closing] using ⟨⟨by decide, readable.named.oneLine⟩,
      by decide⟩
  intro line known
  rw [lines_eq] at known
  simp only [List.cons_append, List.nil_append, List.mem_cons, List.mem_append,
    List.not_mem_nil, or_false] at known
  rcases known with rfl | rfl | inside | rfl | rfl
  · exact .plain opening
  · exact .plain (by decide)
  · obtain ⟨text, rfl, within⟩ := exists_body_line readable line inside
    exact .plain within
  · exact .plain closing
  · exact .blank

private theorem readLines?_flatMap {declarations : List Declaration}
    (readable : ∀ declaration ∈ declarations, declaration.Readable)
    (rest : List String) :
    readLines? ((declarations.flatMap lines).map Line.content ++ rest) =
      (readLines? rest).map (declarations.map typedef ++ ·) := by
  induction declarations with
  | nil => simp
  | cons first others induction =>
      obtain ⟨here, later⟩ := List.forall_mem_cons.mp readable
      rw [List.flatMap_cons, List.map_append, List.append_assoc,
        readLines?_lines here, induction later, Option.map_map]
      rfl

end Declaration

structure Between (line : Line) : Prop where
  whole : line.Whole
  stands : standsBetween line.content = true

theorem Between.blank : Between .blank :=
  ⟨.blank, by decide⟩

theorem Between.directive {text : String} (whole : OneLine text)
    (hash : text.toList.head? = some '#') : Between (.plain 0 text) := by
  refine ⟨.plain whole, ?_⟩
  simp [show indentation 0 = "" from rfl, standsBetween, hash]

theorem readLines?_skip {source : Source}
    (between : ∀ line ∈ source, Between line) (rest : List String) :
    readLines? (source.map Line.content ++ rest) = readLines? rest := by
  induction source with
  | nil => rfl
  | cons line others induction =>
      obtain ⟨here, later⟩ := List.forall_mem_cons.mp between
      rw [List.map_cons, List.cons_append, readLines?_between here.stands,
        induction later]

/-- The first line of a header with its line break. -/
def banner (sourceFile : String) : String :=
  "/* Generated by dm-gen from " ++ sourceFile ++ ". Do not edit. */" ++ "\n"

def before (name : String) : Source :=
  [.blank,
    .plain 0 ("#ifndef " ++ guardName name),
    .plain 0 ("#define " ++ guardName name),
    .blank,
    .plain 0 "#include <stdint.h>",
    .plain 0 "#include <stdbool.h>",
    .blank]

def behind (name : String) : Source :=
  [.plain 0 "#ifndef EXOS_INCLUDE_ONLY_DATATYPE",
    .plain 0 ("#define exos_datamodel_connect_" ++ Text.lower name ++
      "(datamodel, event_callback) exos_datamodel_connect(datamodel, \"" ++
        name ++
      "\", event_callback)"),
    .plain 0 "#endif",
    .blank,
    .plain 0 ("#endif // " ++ guardName name)]

theorem text_eq (model : Datamodel) (resolver : Resolver)
    (sourceFile : String) :
    text model resolver sourceFile = banner sourceFile ++ Source.render
      (before model.name ++ (declarations resolver).flatMap Declaration.lines ++
        behind model.name) := by
  have lines : lines model resolver sourceFile =
      .plain 0 ("/* Generated by dm-gen from " ++ sourceFile ++
        ". Do not edit. */") ::
        (before model.name ++
          (declarations resolver).flatMap Declaration.lines ++
          behind model.name) := by
    simp only [Header.lines, before, behind, List.cons_append, List.nil_append]
  have first : Line.render (.plain 0
      ("/* Generated by dm-gen from " ++ sourceFile ++ ". Do not edit. */")) =
          banner sourceFile := by
    rw [Line.render_plain, show indentation 0 = "" from rfl,
      String.empty_append]
    rfl
  rw [text, lines, Source.render, List.map_cons, String.join_cons,
    ← Source.render, first]

theorem oneLine_guardName {name : String} (whole : OneLine name) :
    OneLine (guardName name) := by
  simp only [guardName, Text.oneLine_append]
  exact ⟨⟨by decide, whole.upper⟩, by decide⟩

private theorem between_of_mem_before {name : String} (whole : OneLine name) :
    ∀ line ∈ before name, Between line := by
  have guard := oneLine_guardName whole
  simp only [before, List.forall_mem_cons, List.not_mem_nil, false_implies,
    implies_true, and_true]
  exact ⟨.blank,
    .directive (Text.oneLine_append.mpr ⟨by decide, guard⟩) (by simp),
    .directive (Text.oneLine_append.mpr ⟨by decide, guard⟩) (by simp), .blank,
    .directive (by decide) (by decide), .directive (by decide) (by decide),
    .blank⟩

private theorem between_of_mem_behind {name : String} (whole : OneLine name) :
    ∀ line ∈ behind name, Between line := by
  have guard := oneLine_guardName whole
  simp only [behind, List.forall_mem_cons, List.not_mem_nil, false_implies,
    implies_true, and_true]
  have connect :
      OneLine ("#define exos_datamodel_connect_" ++ Text.lower name ++
        "(datamodel, event_callback) exos_datamodel_connect(datamodel, \"" ++
          name ++
        "\", event_callback)") := by
    simp only [Text.oneLine_append]
    exact ⟨⟨⟨⟨by decide, whole.lower⟩, by decide⟩, whole⟩, by decide⟩
  exact ⟨.directive (by decide) (by decide), .directive connect (by simp),
    .directive (by decide) (by decide), .blank,
    .directive (Text.oneLine_append.mpr ⟨by decide, guard⟩) (by simp)⟩

/-- Behind its banner a header is read as what its declarations say. -/
theorem exists_read? {model : Datamodel} {resolver : Resolver}
    (whole : OneLine model.name)
    (readable : ∀ declaration ∈ declarations resolver, declaration.Readable)
    (sourceFile : String) :
    ∃ body, text model resolver sourceFile = banner sourceFile ++ body ∧
      read? body = some ((declarations resolver).map Declaration.typedef) := by
  refine ⟨_, text_eq model resolver sourceFile, ?_⟩
  have front := between_of_mem_before whole
  have back := between_of_mem_behind whole
  rw [read?, Source.split_render, List.map_append, List.map_append,
    List.append_assoc, List.append_assoc, readLines?_skip front,
    Declaration.readLines?_flatMap readable, readLines?_skip back,
    readLines?_between (by decide), readLines?]
  · simp
  · intro line known
    rcases List.mem_append.mp known with known | known
    · rcases List.mem_append.mp known with known | known
      · exact (front line known).whole
      · obtain ⟨declaration, inside, known⟩ := List.mem_flatMap.mp known
        exact Declaration.whole_of_mem_lines (readable declaration inside)
          line known
    · exact (back line known).whole

end Header

end DataBridge
