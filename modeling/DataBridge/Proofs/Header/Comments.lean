import DataBridge.Proofs.Header.Reading
import DataBridge.Proofs.Resolver.Comments

/-!
# Comments of members

A member's comment is written behind its declaration, behind two slashes.  These
hold for one line, and a comment may have more.  So comments leave the
declarations alone exactly as long as the lines behind their first one hold
nothing but blanks and comments themselves.
-/

namespace DataBridge

namespace Text

section Bare

/-- What stands in front of the first two slashes. -/
def code : List Char → List Char
  | [] => []
  | '/' :: '/' :: _ => []
  | c :: rest => c :: code rest

/-- The characters without the blanks at their end. -/
def trimmed (chars : List Char) : List Char :=
  (chars.reverse.dropWhile Char.isWhitespace).reverse

/-- A line without its comment and the blanks at its end. -/
def bareLine (line : String) : String :=
  String.ofList (trimmed (code line.toList))

/-- The lines of a text without comments, blanks at their ends, and lines that
are empty then. -/
def bareLines (text : String) : List String :=
  ((split '\n' text).map bareLine).filter (· ≠ "")

/-- What stands behind the first line of a text. -/
def behindFirstLine (text : String) : String :=
  String.ofList ((text.toList.dropWhile (· ≠ '\n')).drop 1)

/-- Behind two slashes the text is nothing but comments: the lines behind its
first one hold nothing else. -/
def StaysComment (text : String) : Prop :=
  bareLines (behindFirstLine text) = []

instance (text : String) : Decidable (StaysComment text) :=
  inferInstanceAs (Decidable (_ = _))

theorem bareLines_empty : bareLines "" = [] := by
  decide

theorem bareLines_cut {text before after : String}
    (cut : text.toList = before.toList ++ '\n' :: after.toList) :
    bareLines text = bareLines before ++ bareLines after := by
  rw [bareLines, split_cut cut, List.map_append, List.filter_append,
    ← bareLines, ← bareLines]

theorem bareLines_append (before after : String) :
    bareLines (before ++ "\n" ++ after) = bareLines before ++ bareLines after :=
  bareLines_cut (by simp)

theorem bareLines_of_oneLine {line : String} (whole : OneLine line) :
    bareLines line = [bareLine line].filter (· ≠ "") := by
  rw [bareLines, split_of_not_mem whole, List.map_singleton]

/-- A semicolon ends every pair of slashes in front of it. -/
theorem code_semicolon (front : List Char) :
    (∀ rest, code (front ++ ';' :: rest) = code front) ∨
      ∀ rest, code (front ++ ';' :: rest) = front ++ ';' :: code rest := by
  fun_induction code front with
  | case1 => exact .inr fun rest => by simp [code]
  | case2 others => exact .inl fun rest => by simp [code]
  | case3 c others other induction =>
      have step : ∀ rest, code (c :: others ++ ';' :: rest) =
          c :: code (others ++ ';' :: rest) := by
        intro rest
        rw [List.cons_append, code]
        intro more slash first
        cases others with
        | nil => cases first
        | cons second others =>
            obtain ⟨rfl, _⟩ := List.cons.inj first
            exact other others slash rfl
      rcases induction with hidden | plain
      · exact .inl fun rest => by rw [step, hidden]
      · exact .inr fun rest => by rw [step, plain, List.cons_append]

theorem trimmed_semicolon (front : List Char) {blanks : List Char}
    (blank : ∀ c ∈ blanks, c.isWhitespace = true) :
    trimmed (front ++ ';' :: blanks) = front ++ [';'] := by
  have reversed : (front ++ ';' :: blanks).reverse =
      blanks.reverse ++ ';' :: front.reverse := by
    simp
  have visible : ¬ Char.isWhitespace ';' = true := by decide
  rw [trimmed, reversed, List.dropWhile_append_of_pos (by simpa using blank),
    List.dropWhile_cons_of_neg visible]
  simp

/-- A comment behind a semicolon leaves the line as it is without it. -/
theorem bareLine_comment (front comment : String) :
    bareLine (front ++ ";" ++ " //" ++ comment) = bareLine (front ++ ";") := by
  have commented : (front ++ ";" ++ " //" ++ comment).toList =
      front.toList ++ ';' :: ' ' :: '/' :: '/' :: comment.toList := by
    simp
  have bare : (front ++ ";").toList = front.toList ++ ';' :: [] := by
    simp
  rw [bareLine, bareLine, commented, bare]
  congr 1
  rcases code_semicolon front.toList with hidden | plain
  · rw [hidden, hidden]
  · have blanks : code (' ' :: '/' :: '/' :: comment.toList) = [' '] := by
      simp [code]
    rw [plain, plain, blanks, code, trimmed_semicolon front.toList (by decide),
      trimmed_semicolon front.toList (by decide)]

private theorem behindFirstLine_cut {text : String} {first more : List Char}
    (split : text.toList = first ++ '\n' :: more) (whole : '\n' ∉ first) :
    behindFirstLine text = String.ofList more := by
  have passed : ∀ c ∈ first, decide (c ≠ '\n') = true := by
    intro c inside
    exact decide_eq_true fun same => whole (same ▸ inside)
  rw [behindFirstLine, split, List.dropWhile_append_of_pos passed,
    List.dropWhile_cons_of_neg (by simp), List.drop_one, List.tail_cons]

private theorem behindFirstLine_of_oneLine {text : String}
    (whole : OneLine text) :
    behindFirstLine text = "" := by
  have passed : ∀ c ∈ text.toList, decide (c ≠ '\n') = true := by
    intro c inside
    exact decide_eq_true fun same => whole (same ▸ inside)
  rw [behindFirstLine, ← List.append_nil text.toList,
    List.dropWhile_append_of_pos passed]
  rfl

/-- Of a comment behind a semicolon nothing stays but what its further lines
hold. -/
theorem bareLines_comment (front comment : String) :
    bareLines (front ++ ";" ++ " //" ++ comment) =
      bareLines (front ++ ";") ++ bareLines (behindFirstLine comment) := by
  have single : ∀ front first : String, OneLine front → OneLine first →
      bareLines (front ++ ";" ++ " //" ++ first) =
          bareLines (front ++ ";") := by
    intro front first wholeFront wholeFirst
    have semicolon : OneLine ";" := by decide
    have slashes : OneLine " //" := by decide
    rw [bareLines_of_oneLine
      (by simp [wholeFront, wholeFirst, semicolon, slashes]),
      bareLine_comment, bareLines_of_oneLine (by simp [wholeFront, semicolon])]
  have broken : ∀ front : String, OneLine front →
      bareLines (front ++ ";" ++ " //" ++ comment) =
        bareLines (front ++ ";") ++ bareLines (behindFirstLine comment) := by
    intro front whole
    by_cases breaks : '\n' ∈ comment.toList
    · obtain ⟨first, more, split, absent⟩ := List.eq_append_cons_of_mem breaks
      have cut : bareLines (front ++ ";" ++ " //" ++ comment) =
          bareLines (front ++ ";" ++ " //" ++ String.ofList first) ++
            bareLines (String.ofList more) :=
        bareLines_cut (by simp [split])
      rw [cut, single front _ whole (by simpa [OneLine] using absent),
        behindFirstLine_cut split absent]
    · rw [single front comment whole breaks, behindFirstLine_of_oneLine breaks,
        bareLines_empty, List.append_nil]
  rcases exists_last_part '\n' front with whole | ⟨before, last, split, absent⟩
  · exact broken front whole
  · have commented : bareLines (front ++ ";" ++ " //" ++ comment) =
        bareLines before ++ bareLines (last ++ ";" ++ " //" ++ comment) :=
      bareLines_cut (by simp [split])
    have bare : bareLines (front ++ ";") =
        bareLines before ++ bareLines (last ++ ";") :=
      bareLines_cut (by simp [split])
    rw [commented, bare, broken last absent, List.append_assoc]

end Bare

end Text

theorem Line.ends_plain (depth : Nat) (text : String) :
    (plain depth text).render = (plain depth text).content ++ "\n" :=
  rfl

theorem Line.ends_blank : blank.render = blank.content ++ "\n" :=
  rfl

namespace Source

/-- The bare lines of a source whose lines end in line breaks. -/
def bareLines (source : Source) : List String :=
  source.flatMap fun line => Text.bareLines line.content

theorem bareLines_append (front back : Source) :
    bareLines (front ++ back) = bareLines front ++ bareLines back :=
  List.flatMap_append

private theorem bareLines_render {source : Source}
    (ends : ∀ line ∈ source, line.render = line.content ++ "\n") :
    Text.bareLines source.render = source.bareLines := by
  induction source with
  | nil => exact Text.bareLines_empty
  | cons line rest induction =>
      obtain ⟨first, later⟩ := List.forall_mem_cons.mp ends
      have cut : (render (line :: rest)).toList =
          line.content.toList ++ '\n' :: (render rest).toList := by
        rw [render, List.map_cons, String.join_cons, ← render, first]
        simp
      rw [Text.bareLines_cut cut, induction later, bareLines, bareLines,
        List.flatMap_cons]

end Source

section Shorter

variable {α β : Type} {longer shorter : α → List β} {holds : α → Prop}

/-- Leaving out parts changes a list exactly if it changes a piece of it. -/
theorem flatMap_shorter (sublist : ∀ x, (shorter x).Sublist (longer x))
    (same : ∀ x, longer x = shorter x ↔ holds x) (xs : List α) :
    (xs.flatMap shorter).Sublist (xs.flatMap longer) ∧
      (xs.flatMap longer = xs.flatMap shorter ↔ ∀ x ∈ xs, holds x) := by
  induction xs with
  | nil => simp
  | cons x rest induction =>
      obtain ⟨below, equal⟩ := induction
      refine ⟨(sublist x).append below, ?_⟩
      rw [List.flatMap_cons, List.flatMap_cons, List.forall_mem_cons, ← same,
        ← equal]
      constructor
      · intro whole
        have lengths := congrArg List.length whole
        rw [List.length_append, List.length_append] at lengths
        have first := (sublist x).length_le
        have others := below.length_le
        exact ⟨((sublist x).eq_of_length (by omega)).symm,
          (below.eq_of_length (by omega)).symm⟩
      · rintro ⟨first, others⟩
        rw [first, others]

end Shorter

namespace Header

def Member.uncommented (member : Member) : Member :=
  { member with comment := none }

/-- The declaration without the comments of its members. -/
def Declaration.uncommented : Declaration → Declaration
  | .enum name variants => .enum name variants
  | .struct name members => .struct name (members.map Member.uncommented)

/-- The comments that are written with a declaration. -/
def Declaration.comments : Declaration → List String
  | .enum _ _ => []
  | .struct _ members => members.filterMap Member.comment

def Member.bareLines (member : Member) : List String :=
  Text.bareLines member.line.content

theorem Member.bareLines_eq (member : Member) :
    member.bareLines = member.uncommented.bareLines ++
      (member.comment.elim [] fun comment =>
        Text.bareLines (Text.behindFirstLine comment)) := by
  obtain ⟨type, name, dimensions, comment⟩ := member
  cases comment with
  | none => exact (List.append_nil _).symm
  | some comment =>
      have bare := Text.bareLines_comment
        (indentation 1 ++ declaration ⟨type, name, dimensions, none⟩) comment
      have plain : Line.content (line ⟨type, name, dimensions, none⟩) =
          indentation 1 ++ declaration ⟨type, name, dimensions, none⟩ ++
              ";" := by
        rw [line, Line.content_plain]
        simp only [String.append_assoc, String.append_empty]
      have commented :
          Line.content (line ⟨type, name, dimensions, some comment⟩) =
          indentation 1 ++ declaration ⟨type, name, dimensions, none⟩ ++
            ";" ++ " //" ++ comment := by
        rw [line, Line.content_plain, declaration, declaration]
        simp only [String.append_assoc]
      rw [bareLines, commented, bare, bareLines, uncommented, plain,
        Option.elim_some]

theorem Member.bareLines_sublist (member : Member) :
    member.uncommented.bareLines.Sublist member.bareLines := by
  rw [member.bareLines_eq]
  exact List.sublist_append_left _ _

theorem Member.bareLines_eq_iff (member : Member) :
    member.bareLines = member.uncommented.bareLines ↔
      ∀ comment ∈ member.comment, Text.StaysComment comment := by
  rw [member.bareLines_eq, List.append_right_eq_self]
  cases member.comment with
  | none => exact iff_of_true rfl nofun
  | some comment => simp [Text.StaysComment]

def Declaration.bareLines (declaration : Declaration) : List String :=
  Source.bareLines declaration.lines

/-- The bare lines of a struct: those of its members between fixed ones. -/
theorem Declaration.bareLines_struct (name : String) :
    ∃ front back, ∀ members : List Member,
      bareLines (.struct name members) =
        front ++ members.flatMap Member.bareLines ++ back := by
  refine ⟨Source.bareLines [.plain 0 ("typedef struct " ++ name),
    .plain 0 r"{"],
    Source.bareLines [.plain 0 (r"} " ++ name ++ ";"), .blank], ?_⟩
  intro members
  have between : Source.bareLines (members.map Member.line) =
      members.flatMap Member.bareLines :=
    List.flatMap_map ..
  rw [bareLines, lines, Source.bareLines_append, Source.bareLines_append,
    between]

/-- Comments add lines to a declaration unless all of them stay comments. -/
theorem Declaration.bareLines_uncommented (declaration : Declaration) :
    declaration.uncommented.bareLines.Sublist declaration.bareLines ∧
      (declaration.bareLines = declaration.uncommented.bareLines ↔
        ∀ comment ∈ declaration.comments, Text.StaysComment comment) := by
  cases declaration with
  | enum name variants => exact ⟨List.Sublist.refl _, iff_of_true rfl nofun⟩
  | struct name members =>
      obtain ⟨front, back, split⟩ := bareLines_struct name
      obtain ⟨sublist, same⟩ :=
        flatMap_shorter Member.bareLines_sublist Member.bareLines_eq_iff members
      rw [uncommented, split, split, List.flatMap_map]
      refine ⟨((List.Sublist.refl front).append sublist).append
        (List.Sublist.refl back), ?_⟩
      rw [List.append_cancel_right_eq, List.append_cancel_left_eq, same,
        comments]
      simp only [List.mem_filterMap, Option.mem_def, forall_exists_index,
        and_imp]
      exact ⟨fun all comment member inside => all member inside comment,
        fun all member inside comment => all comment member inside⟩

private theorem variantLines_plain (variants : List (String × Int)) :
    ∀ line ∈ variantLines variants, ∃ text, line = .plain 1 text := by
  fun_induction variantLines variants with
  | case1 => exact List.forall_mem_nil _
  | case2 name value =>
      intro line inside
      exact ⟨_, List.mem_singleton.mp inside⟩
  | case3 name value rest more induction =>
      intro line inside
      rcases List.mem_cons.mp inside with rfl | later
      · exact ⟨_, rfl⟩
      · exact induction line later

theorem Declaration.ends_of_mem_lines (declaration : Declaration) :
    ∀ line ∈ declaration.lines, line.render = line.content ++ "\n" := by
  cases declaration with
  | enum name variants =>
      simp only [lines, List.cons_append, List.nil_append, List.forall_mem_cons,
        List.forall_mem_append]
      refine ⟨Line.ends_plain .., Line.ends_plain .., ?_, Line.ends_plain ..,
        Line.ends_blank, nofun⟩
      intro line inside
      obtain ⟨text, rfl⟩ := variantLines_plain variants line inside
      exact Line.ends_plain 1 text
  | struct name members =>
      simp only [lines, List.cons_append, List.nil_append, List.forall_mem_cons,
        List.forall_mem_append, List.forall_mem_map]
      exact ⟨Line.ends_plain .., Line.ends_plain .., fun _ _ =>
        Line.ends_plain ..,
        Line.ends_plain .., Line.ends_blank, nofun⟩

private theorem ends_of_mem_before (name : String) :
    ∀ line ∈ before name, line.render = line.content ++ "\n" := by
  simp only [before, List.forall_mem_cons]
  exact ⟨Line.ends_blank, Line.ends_plain .., Line.ends_plain ..,
    Line.ends_blank, Line.ends_plain .., Line.ends_plain .., Line.ends_blank,
    List.forall_mem_nil _⟩

private theorem ends_of_mem_behind (name : String) :
    ∀ line ∈ behind name, line.render = line.content ++ "\n" := by
  simp only [behind, List.forall_mem_cons]
  exact ⟨Line.ends_plain .., Line.ends_plain .., Line.ends_plain ..,
    Line.ends_blank, Line.ends_plain .., List.forall_mem_nil _⟩

private theorem bareLines_banner (sourceFile rest : String) :
    Text.bareLines (banner sourceFile ++ rest) =
      Text.bareLines
        ("/* Generated by dm-gen from " ++ sourceFile ++ ". Do not edit. */") ++
        Text.bareLines rest :=
  Text.bareLines_append
    ("/* Generated by dm-gen from " ++ sourceFile ++ ". Do not edit. */") rest

/-- The bare lines of a header: those of its declarations between fixed ones. -/
theorem bareLines_text (name sourceFile : String) :
    ∃ front back, ∀ (model : Datamodel) (resolver : Resolver),
      model.name = name →
      Text.bareLines (text model resolver sourceFile) =
        front ++ (declarations resolver).flatMap Declaration.bareLines ++
          back := by
  refine ⟨Text.bareLines ("/* Generated by dm-gen from " ++ sourceFile ++
    ". Do not edit. */") ++
      Source.bareLines (before name), Source.bareLines (behind name), ?_⟩
  intro model resolver named
  have ends : ∀ line ∈ before name ++
      (declarations resolver).flatMap Declaration.lines ++
        behind name, line.render = line.content ++ "\n" := by
    simp only [List.forall_mem_append, List.forall_mem_flatMap]
    exact ⟨⟨ends_of_mem_before name, fun declaration _ =>
      declaration.ends_of_mem_lines⟩,
      ends_of_mem_behind name⟩
  have between :
      Source.bareLines ((declarations resolver).flatMap Declaration.lines) =
        (declarations resolver).flatMap Declaration.bareLines :=
    List.flatMap_assoc
  rw [text_eq, named, bareLines_banner, Source.bareLines_render ends,
    Source.bareLines_append, Source.bareLines_append, between]
  simp only [List.append_assoc]

theorem Member.ofField_outlined (field : Field) :
    Member.ofField field.outlined = (Member.ofField field).uncommented := by
  obtain ⟨name, type, size, flags, comment, enumName⟩ := field
  cases type <;> cases enumName <;> rfl

theorem Declaration.ofRecord_outlined (record : Record) :
    Declaration.ofRecord record.outlined =
      (Declaration.ofRecord record).uncommented := by
  have members : Member.ofField ∘ Field.outlined =
      Member.uncommented ∘ Member.ofField :=
    funext Member.ofField_outlined
  rw [ofRecord, ofRecord, uncommented, Record.outlined, List.map_map,
    List.map_map, members]

private theorem declarations_outlined (resolver : Resolver) :
    declarations resolver.outlined =
      (declarations resolver).map Declaration.uncommented := by
  have records : Declaration.ofRecord ∘ Record.outlined =
      Declaration.uncommented ∘ Declaration.ofRecord :=
    funext Declaration.ofRecord_outlined
  rw [declarations, declarations, resolver.recordsInOrder_outlined,
    List.map_append, List.map_map, List.map_map, List.map_map, records]
  rfl

/-- The comments that are written into a header. -/
def comments (resolver : Resolver) : List String :=
  (declarations resolver).flatMap Declaration.comments

/-- Comments add lines to a header unless all of them stay comments. -/
theorem bareLines_declarations (resolver : Resolver) :
    (declarations resolver).flatMap Declaration.bareLines =
        (declarations resolver.outlined).flatMap Declaration.bareLines ↔
      ∀ comment ∈ comments resolver, Text.StaysComment comment := by
  have same :=
    (flatMap_shorter (fun declaration => declaration.bareLines_uncommented.1)
    (fun declaration => declaration.bareLines_uncommented.2)
      (declarations resolver)).2
  rw [declarations_outlined, List.flatMap_map, same, comments]
  simp only [List.mem_flatMap, forall_exists_index, and_imp]
  exact ⟨fun all comment declaration inside => all declaration inside comment,
    fun all declaration inside comment => all comment declaration inside⟩

/-- Two headers that show the same but for comments, those of the second of
which all stay comments. -/
theorem bareLines_text_eq_iff {model also : Datamodel}
    {resolver second : Resolver} (named : also.name = model.name)
    (states : resolver.outlined = second.outlined)
    (stay : ∀ comment ∈ comments second, Text.StaysComment comment)
    (sourceFile : String) :
    Text.bareLines (text model resolver sourceFile) =
        Text.bareLines (text also second sourceFile) ↔
      ∀ comment ∈ comments resolver, Text.StaysComment comment := by
  obtain ⟨front, back, split⟩ := bareLines_text model.name sourceFile
  rw [split model resolver rfl, split also second named,
    List.append_cancel_right_eq, List.append_cancel_left_eq,
    (bareLines_declarations second).mpr stay, ← states, bareLines_declarations]

end Header

open Header (comments)

/-- Of two catalogs that differ in comments only, either both give a header or
none does.  Next to a header whose comments all stay comments, the other one
says the same without comments exactly if its own comments do so as well. -/
theorem header_alike_iff {one other : Catalog}
    (same : one.uncommented = other.uncommented) (root sourceFile : String)
    {model : Datamodel} {resolver : Resolver}
    (met : Resolver.resolveDatamodel one root {} = (.ok model, resolver)) :
    ∃ also second,
      Resolver.resolveDatamodel other root {} = (.ok also, second) ∧
      ((∀ comment ∈ comments second, Text.StaysComment comment) →
        (Text.bareLines (Header.text model resolver sourceFile) =
            Text.bareLines (Header.text also second sourceFile) ↔
          ∀ comment ∈ comments resolver, Text.StaysComment comment)) := by
  have fresh : Resolver.outlined {} = Resolver.outlined {} := rfl
  obtain ⟨results, states⟩ := Resolver.resolveDatamodel_alike same root fresh
  generalize Resolver.resolveDatamodel other root {} = answer at results states
  obtain ⟨outcome, second⟩ := answer
  rw [met] at results states
  cases outcome with
  | error failure => cases results
  | ok also =>
      have named : also.name = model.name := (Except.ok.inj results).symm
      refine ⟨also, second, rfl, fun stay => ?_⟩
      exact Header.bareLines_text_eq_iff named states stay sourceFile

/-- A beacon, with a comment on its lamp. -/
def beaconCatalog (comment : Option String) : Catalog :=
  ⟨[("Beacon", { name := "Beacon", kind := .struct { fields := [
      { name := "lit", typeName := "BOOL", comment }] } })]⟩

/-- The beacon resolved with a comment on its lamp. -/
def beaconAnswer (comment : Option String) :
    Except ResolveError Datamodel × Resolver :=
  Resolver.resolveDatamodel (beaconCatalog comment) "Beacon" {}

theorem exists_of_answer {answer : Except ResolveError Datamodel × Resolver}
    {name : String} {written : List String}
    (named : (answer.1.map Datamodel.name).toOption = some name)
    (carries : comments answer.2 = written) :
    ∃ model resolver, answer = (.ok model, resolver) ∧ model.name = name ∧
      comments resolver = written := by
  obtain ⟨outcome, resolver⟩ := answer
  cases outcome with
  | error failure => cases named
  | ok model => exact ⟨model, resolver, rfl, Option.some.inj named, carries⟩

theorem beacon_plain :
    ∃ model resolver, beaconAnswer none = (.ok model, resolver) ∧
    model.name = "Beacon" ∧ comments resolver = [] :=
  exists_of_answer (by decide +kernel) (by decide +kernel)

theorem beacon_header_alike :
    (beaconCatalog (some "PUB\n// from dusk on")).uncommented =
      (beaconCatalog none).uncommented ∧
      ∃ model resolver also second,
        beaconAnswer (some "PUB\n// from dusk on") = (.ok model, resolver) ∧
        beaconAnswer none = (.ok also, second) ∧
        (∀ comment ∈ comments second, Text.StaysComment comment) ∧
        (∀ comment ∈ comments resolver, Text.StaysComment comment) ∧
        Text.bareLines (Header.text model resolver "beacon.yaml") =
          Text.bareLines (Header.text also second "beacon.yaml") := by
  have same : (beaconCatalog (some "PUB\n// from dusk on")).uncommented =
      (beaconCatalog none).uncommented := rfl
  have commented : ∃ model resolver,
      beaconAnswer (some "PUB\n// from dusk on") = (.ok model, resolver) ∧
        model.name = "Beacon" ∧ comments resolver = ["PUB\n// from dusk on"] :=
    exists_of_answer (by decide +kernel) (by decide +kernel)
  obtain ⟨model, resolver, met, _, written⟩ := commented
  obtain ⟨also, second, alsoMet, _, unwritten⟩ := beacon_plain
  obtain ⟨found, after, foundMet, alike⟩ :=
    header_alike_iff same "Beacon" "beacon.yaml" met
  obtain ⟨results, states⟩ := Prod.mk.inj (foundMet.symm.trans alsoMet)
  rw [Except.ok.inj results, states] at alike
  have stay : ∀ comment ∈ comments second, Text.StaysComment comment := by
    rw [unwritten]
    exact nofun
  have stayAlso : ∀ comment ∈ comments resolver, Text.StaysComment comment := by
    rw [written]
    decide
  exact ⟨same, model, resolver, also, second, met, alsoMet, stay, stayAlso,
    (alike stay).mpr stayAlso⟩

/-- The second line of this comment is a member of the struct. -/
theorem beacon_header_ghost :
    (beaconCatalog (some "PUB\nint32_t ghost;")).uncommented =
      (beaconCatalog none).uncommented ∧
      ∃ model resolver also second,
        beaconAnswer (some "PUB\nint32_t ghost;") = (.ok model, resolver) ∧
        beaconAnswer none = (.ok also, second) ∧
        Text.bareLines (Header.text model resolver "beacon.yaml") ≠
          Text.bareLines (Header.text also second "beacon.yaml") := by
  have same : (beaconCatalog (some "PUB\nint32_t ghost;")).uncommented =
      (beaconCatalog none).uncommented := rfl
  have commented : ∃ model resolver,
      beaconAnswer (some "PUB\nint32_t ghost;") = (.ok model, resolver) ∧
        model.name = "Beacon" ∧ comments resolver = ["PUB\nint32_t ghost;"] :=
    exists_of_answer (by decide +kernel) (by decide +kernel)
  obtain ⟨model, resolver, met, named, written⟩ := commented
  obtain ⟨also, second, alsoMet, alsoNamed, unwritten⟩ := beacon_plain
  refine ⟨same, model, resolver, also, second, met, alsoMet, fun equal => ?_⟩
  have fresh : Resolver.outlined {} = Resolver.outlined {} := rfl
  have states := (Resolver.resolveDatamodel_alike same "Beacon" fresh).2
  rw [← beaconAnswer, ← beaconAnswer, met, alsoMet] at states
  have stay : ∀ comment ∈ comments second, Text.StaysComment comment := by
    rw [unwritten]
    exact nofun
  have leaks :=
    (Header.bareLines_text_eq_iff (alsoNamed.trans named.symm) states stay
    "beacon.yaml").mp equal
  rw [written] at leaks
  exact absurd leaks (by decide)

end DataBridge
