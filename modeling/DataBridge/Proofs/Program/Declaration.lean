import DataBridge.Proofs.Program.Usage
import Mathlib.Data.List.Count
import Mathlib.Data.List.Nodup

/-!
# Declarations of a program's variables

The declaration block is read back as text: between semicolons stands a type
and behind it the names that it declares.  The block declares the variables of
the program, each once and at its native type, and these are the temporaries
that the text of the program uses.
-/

namespace DataBridge

/-- The names that one declaration declares, with the type in front of them. -/
def declaration (text : String) : List (String × String) :=
  match Text.words text with
  | [] => []
  | type :: names => names.map fun name => (type, name)

/-- The names that a text declares, with their types. -/
def declared (text : String) : List (String × String) :=
  (Text.split ';' text).flatMap declaration

private theorem declared_append (first second : String) :
    declared (first ++ (";" ++ second)) =
      declared first ++ declared second := by
  have parts : Text.split ';' (first ++ (";" ++ second)) =
      Text.split ';' first ++ Text.split ';' second := Text.split_cut (by simp)
  rw [declared, parts, List.flatMap_append, ← declared, ← declared]

private theorem declaration_newline (part : List Char) :
    declaration (String.ofList ('\n' :: part)) =
      declaration (String.ofList part) := by
  have words :=
    @Text.words_append_of_closes "\n" (String.ofList part) (by decide)
  have none : Text.words "\n" = [] := by decide
  rw [none, List.nil_append] at words
  have text : String.ofList ('\n' :: part) = "\n" ++ String.ofList part := by
    apply String.toList_injective
    simp
  rw [declaration, text, words, declaration]

private theorem declared_newline (text : String) :
    declared ("\n" ++ text) = declared text := by
  rw [declared, declared, Text.split_eq, Text.split_eq, String.toList_append,
    show "\n".toList = ['\n'] from rfl, List.singleton_append,
    List.splitOn_cons_eq_if_modifyHead, if_neg (by decide)]
  cases text.toList.splitOn ';' with
  | nil => rfl
  | cons part parts =>
      rw [List.modifyHead_cons, List.map_cons, List.map_cons, List.flatMap_cons,
        List.flatMap_cons, declaration_newline]

/-- Each line is one declaration of variables of one type. -/
inductive Source.Declares : Source → List Temp → Prop where
  | nil : Declares [] []
  | cons {line : Line} {source : Source} {content type : String}
      {temps others : List Temp}
      (shape : line.render = content ++ (";" ++ "\n"))
      (whole : ';' ∉ content.toList)
      (words : Text.words content = type :: temps.map Temp.identifier)
      (other : temporaryType? type = none)
      (typed : ∀ temp ∈ temps, temp.nativeType = type)
      (rest : Declares source others) : Declares (line :: source)
      (temps ++ others)

namespace Source.Declares

variable {source : Source} {temps : List Temp}

private theorem declared_eq (declares : source.Declares temps) :
    declared source.render = temps.map fun temp =>
      (temp.nativeType, temp.identifier) := by
  induction declares with
  | nil => decide
  | @cons line source content type temps others shape whole words other typed
        rest induction =>
      have first : declared content = temps.map fun temp =>
          (temp.nativeType, temp.identifier) := by
        rw [declared, Text.split_of_not_mem whole, List.flatMap_singleton,
          declaration, words]
        simp only [List.map_map]
        apply List.map_congr_left
        intro temp known
        rw [Function.comp_apply, typed temp known]
      -- the line break behind the semicolon is read with the next declaration
      rw [Source.render, List.map_cons, String.join_cons, ← Source.render,
        shape, String.append_assoc, String.append_assoc, declared_append,
        declared_newline, induction, first, List.map_append]

theorem temporaries_eq (declares : source.Declares temps) :
    temporaries source.render = temps.map Temp.identifier := by
  induction declares with
  | nil => decide
  | @cons line source content type temps others shape whole words other typed
        rest induction =>
      have first : temporaries content = temps.map Temp.identifier := by
        rw [temporaries, words, List.filter_cons_of_neg (by simp [other]),
          List.filter_eq_self]
        simp [Temp.temporaryType?_identifier]
      rw [Source.render, List.map_cons, String.join_cons,
        ← Source.render, shape]
      simp only [String.append_assoc]
      rw [temporaries_between _ _ (by decide) (by decide) (by decide),
        temporaries_start _ (by decide) (by decide), induction, first,
        List.map_append]

variable {temp : Temp}

private theorem count_eq_one (declares : source.Declares temps)
    (distinct : temps.Nodup)
    (known : temp ∈ temps) :
    (Text.words source.render).count temp.identifier = 1 := by
  have temporary : (temporaryType? temp.identifier).isSome = true := by
    rw [Temp.temporaryType?_identifier]
    rfl
  have words : (temporaries source.render).count temp.identifier =
      (Text.words source.render).count temp.identifier :=
        List.count_filter temporary
  rw [← words, declares.temporaries_eq,
    List.count_map_of_injective _ _ Temp.identifier_injective]
  exact List.count_eq_one_of_mem distinct known

private theorem filter_declared (declares : source.Declares temps)
    (distinct : temps.Nodup) (known : temp ∈ temps) :
    (declared source.render).filter (fun entry => entry.2 = temp.identifier) =
      [(temp.nativeType, temp.identifier)] := by
  have alone : temps.filter (fun other => other.identifier = temp.identifier) =
      [temp] := by
    simp only [Temp.identifier_injective.eq_iff]
    rw [List.filter_eq, List.count_eq_one_of_mem distinct known,
      List.replicate_one]
  rw [declares.declared_eq, List.filter_map]
  exact congrArg (List.map _) alone

end Source.Declares

namespace Render

theorem commas_text (pieces : List Piece) :
    String.join ((commas pieces).map Piece.render) =
      ", ".intercalate (pieces.map Piece.render) := by
  induction pieces using commas.induct with
  | case1 => simp [commas]
  | case2 last => simp [commas]
  | case3 first rest nonempty induction =>
      have some : rest.map Piece.render ≠ [] := by simpa using nonempty
      rw [commas, List.map_cons, List.map_cons, List.map_cons, String.join_cons,
        String.join_cons, induction, String.intercalate_cons_of_ne_nil some,
        String.append_assoc]
      · rfl
      · exact nonempty

def namesText (temps : List Temp) : String :=
  ", ".intercalate (temps.map Temp.identifier)

private theorem words_namesText (temps : List Temp) :
    Text.words (namesText temps) = temps.map Temp.identifier := by
  induction temps with
  | nil => simp [namesText]; decide
  | cons temp rest induction =>
      cases rest with
      | nil => simp [namesText, Temp.words_identifier]
      | cons next others =>
          have none : Text.words ", " = [] := by decide
          rw [namesText, List.map_cons, List.map_cons,
            String.intercalate_cons_cons, ← List.map_cons, ← namesText,
            Text.words_append_of_closes, Text.words_append_of_opens,
            none, Temp.words_identifier, induction]
          · rfl
          · decide
          · rw [String.toList_append]
            exact Text.closes_append _ (by decide)

private theorem semicolon_not_mem_namesText (temps : List Temp) :
    ';' ∉ (namesText temps).toList := by
  have name : ∀ temp : Temp, ';' ∉ temp.identifier.toList := by
    intro temp known
    have inside := Temp.inWord_of_mem_identifier known
    cases inside
  induction temps with
  | nil => simp [namesText]
  | cons temp rest induction =>
      cases rest with
      | nil => simpa [namesText] using name temp
      | cons next others =>
          rw [namesText, List.map_cons, List.map_cons,
            String.intercalate_cons_cons, ← List.map_cons, ← namesText,
            String.toList_append, String.toList_append]
          simp [name temp, induction]

private theorem semicolon_not_mem_indentation (depth : Nat) :
    ';' ∉ (indentation depth).toList := by
  induction depth with
  | zero => simp [indentation]
  | succ depth induction =>
      rw [indentation, List.replicate_succ, String.join_cons,
        String.toList_append, List.mem_append, not_or]
      exact ⟨by decide, induction⟩

variable {depth : Nat} {source : Source} {temps others : List Temp}

/-- A line that declares variables of the type of one of them. -/
theorem line_declares {pieces : List Piece} (sample : Temp)
    (shape : String.join (pieces.map Piece.render) =
      sample.nativeType ++ (" " ++ (namesText temps ++ ";")))
    (typed : ∀ temp ∈ temps, temp.nativeType = sample.nativeType)
    (rest : source.Declares others) :
    Source.Declares (.indented depth pieces :: source) (temps ++ others) := by
  have type : Text.words sample.nativeType = [sample.nativeType] ∧
      ';' ∉ sample.nativeType.toList ∧ temporaryType? sample.nativeType =
          none := by
    cases sample <;> simp [Temp.nativeType] <;> decide
  obtain ⟨words, whole, other⟩ := type
  apply @Source.Declares.cons _ _
    (indentation depth ++ (sample.nativeType ++ (" " ++ namesText temps)))
      _ _ _ _ _ _ other typed
    rest
  · rw [Line.render, shape]
    simp only [String.append_assoc]
  · simp [semicolon_not_mem_indentation, whole, semicolon_not_mem_namesText]
  · have none : Text.words " " = [] := by decide
    rw [words_indentation, Text.words_append_of_opens,
      Text.words_append_of_closes, none, words, words_namesText]
    · rfl
    · decide
    · rw [String.toList_append]
      exact Text.opens_append _ (by decide)

theorem declarations_declares (depth : Nat) (temps : List Temp) :
    Source.Declares (declarations depth temps)
      (temps.filter Temp.isSlot ++ temps.filter fun temp => !temp.isSlot) := by
  have single : ∀ others : List Temp, Source.Declares
      (others.map fun temp => Line.indented depth
        [.text (temp.nativeType ++ " "), declares temp.identifier,
            .text ";"]) others := by
    intro others
    induction others with
    | nil => exact .nil
    | cons temp rest induction =>
        apply @line_declares depth _ [temp] rest _ temp _ _ induction
        · simp [namesText, declares, Piece.render, String.append_assoc]
        · simp
  rw [declarations]
  by_cases empty : (temps.filter Temp.isSlot).isEmpty = true
  · rw [if_pos empty, List.isEmpty_iff.mp empty, List.nil_append,
      List.nil_append]
    exact single _
  · rw [if_neg empty]
    apply line_declares .property _ _ (single _)
    · rw [List.map_cons, List.map_append, String.join_cons, String.join_append,
        commas_text, List.map_map]
      apply String.toList_injective
      simp [namesText, Piece.render, declares, Temp.nativeType,
        Function.comp_def]
    · intro temp known
      have slot := List.of_mem_filter known
      cases temp <;> simp [Temp.isSlot, Temp.nativeType] at slot ⊢

end Render

theorem Emission.declarations_declares (emission : Emission) (depth : Nat) :
    ∃ temps, (emission.declarations depth).Declares temps ∧
      temps.Perm emission.temps := by
  refine ⟨_, Render.declarations_declares depth emission.temps, ?_⟩
  exact List.filter_append_perm Temp.isSlot emission.temps

/-- The temporaries in the text of a program are those in its declarations, and
each of them is declared there exactly once, at the native type at which every
line of the program uses it. -/
theorem declarations_match_usage (emission : Emission) (policy : OnFailure)
    (depth outer : Nat)
    (foreign : ∀ text ∈ emission.borrowed, ∀ word ∈ Text.words text,
      temporaryType? word = none) :
    let body := emission.lines policy depth
    let block := (emission.declarations outer).render
    (∀ name, name ∈ temporaries body.render ↔ name ∈ temporaries block) ∧
      ∀ name type, temporaryType? name = some type →
        name ∈ Text.words body.render →
        (Text.words block).count name = 1 ∧
          (declared block).filter (fun entry => entry.2 = name) =
            [(type, name)] ∧
          ∀ line ∈ body, name ∈ Text.words line.render →
              UsedAt line.render name type := by
  intro body block
  have quiet : Quiet emission.borrowed := by
    intro text known
    rw [temporaries, List.filter_eq_nil_iff]
    intro word inside
    simp [foreign text known word inside]
  have names : body.Names (Stmt.tempsList emission.body) :=
    Render.stmts_names policy depth emission.body quiet
  obtain ⟨temps, declares, permutation⟩ := emission.declarations_declares outer
  have same : ∀ temp, temp ∈ temps ↔ temp ∈ Stmt.tempsList emission.body := by
    intro temp
    rw [permutation.mem_iff, Emission.temps, Temp.mem_ordered_iff]
  have distinct : temps.Nodup :=
    permutation.nodup_iff.mpr (Temp.ordered_nodup _)
  have written : ∀ name, name ∈ temporaries body.render ↔
      ∃ temp ∈ temps, temp.identifier = name := by
    intro name
    simp only [names.mem_temporaries_iff, same]
  constructor
  · intro name
    rw [written, declares.temporaries_eq, List.mem_map]
  · intro name type spelled inside
    have temporary : (temporaryType? name).isSome = true := by
      rw [spelled]
      rfl
    obtain ⟨temp, known, rfl⟩ :=
      (written name).mp (mem_temporaries_iff.mpr ⟨inside, temporary⟩)
    rw [Temp.temporaryType?_identifier, Option.some.injEq] at spelled
    subst spelled
    refine ⟨declares.count_eq_one distinct known,
      declares.filter_declared distinct known, ?_⟩
    intro line within used
    exact names.used line within temp
      (mem_temporaries_iff.mpr ⟨used, temporary⟩)

/-- A program that reads a level, a ratio and two tags from a call's argument
and hands the argument on. -/
def silo : Emission where
  direction := .incoming
  body :=
    [.getNamed (.external "args[0]") "Level" .property,
      .leafIn (.integer .usint) .property
        ((Place.mk "exos_data" []).field "Level"),
      .getNamed (.external "args[0]") "objects" (.slot 0),
      .forEach 'i' 2
        [.getElement (.slot 0) 'i' .arrayItem,
          .leafIn (.string 80) .arrayItem
            (((Place.mk "exos_data" []).field "objects").index 'i')],
      .getNamed (.external "args[0]") "Ratio" .property,
      .leafIn (.float .real) .property
        ((Place.mk "exos_data" []).field "Ratio"),
      .assign (.external "result") (.external "args[0]")]
  maxSlot := some 0

theorem silo_declarations :
    (∀ text ∈ silo.borrowed,
      ∀ word ∈ Text.words text, temporaryType? word = none) ∧
      silo.temps = [.slot 0, .property, .arrayItem, .lengthScratch, .intScratch,
        .floatScratch] ∧
      "_r" ∈ Text.words (silo.lines .throwAndReturn 2).render ∧
      (declared (silo.declarations 1).render).filter (fun entry =>
        entry.2 = "_r") =
        [("size_t", "_r")] := by
  have foreign : ∀ text ∈ silo.borrowed,
      ∀ word ∈ Text.words text, temporaryType? word = none := by
    decide
  have temps : silo.temps =
      [.slot 0, .property, .arrayItem, .lengthScratch, .intScratch,
          .floatScratch] := by
    decide
  obtain ⟨same, once⟩ :=
    declarations_match_usage silo .throwAndReturn 2 1 foreign
  obtain ⟨declaredTemps, declares, permutation⟩ := silo.declarations_declares 1
  have inBlock : "_r" ∈ temporaries (silo.declarations 1).render := by
    rw [declares.temporaries_eq, List.mem_map]
    refine ⟨.lengthScratch, permutation.mem_iff.mpr ?_, rfl⟩
    simp [temps]
  have inBody := (mem_temporaries_iff.mp ((same "_r").mpr inBlock)).1
  exact ⟨foreign, temps, inBody, (once "_r" "size_t" (by decide) inBody).2.1⟩

end DataBridge
