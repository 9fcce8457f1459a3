import DataBridge.Proofs.Addon.Calls

/-!
# Lines outside of functions

The preamble declares the objects of a module, and the hook hands its last
function over.  None of these lines begins a function.
-/

namespace DataBridge

open Text (inWord IsWord Quotable)

namespace Addon

variable {scope : Scope} {model : Datamodel} {name : String}

/-- The line that begins a function. -/
def heading (result name parameters : String) : String :=
  "static " ++ result ++ " " ++ name ++ "(" ++ parameters ++ ")"

/-- A line that declares an object at the margin. -/
def Declares (line name : String) : Prop :=
  ∃ type : String, (∀ c ∈ type.toList, inWord c = true ∨ c = ' ') ∧
    (line = type ++ " " ++ name ++ ";" ∨ line = type ++ " " ++ name ++ " = {};")

/-- A readable line that cannot begin a function, by its first character or its
last. -/
structure Aside (scope : Scope) (line : Line) : Prop
    extends Readable scope line where
  apart : line.content.toList.head? ≠ some 's' ∨
    line.content.toList.getLast? = some ';'

theorem Allowed.aside {line : Line} (allowed : Allowed scope line) :
    Aside scope line :=
  ⟨allowed.toReadable, .inl allowed.inner⟩

section Preamble

variable (free : scope.locals = none)
include free

private theorem allowed_issueLines : AllAllowed scope issueLines := by
  simp only [issueLines, AllAllowed.cons_iff, AllAllowed.nil, AllAllowed.blank,
    true_and, and_true]
  refine ⟨.note free rfl rfl (by decide), .note free rfl rfl (by decide),
    .margin (.split (.loose free rfl (.loose free rfl (.nil rfl))))
      (.split (.lit (by decide))),
    .note free rfl rfl (by decide),
    .margin (.split (.loose free rfl (.loose free rfl (.nil rfl))))
      (.split (.lit (by decide))),
    .note free rfl rfl (by decide), .note free rfl rfl (by decide),
    .note free rfl rfl (by decide)⟩

private theorem reads_include {text : String} (quotable : Quotable text) :
    Reads scope {} ["#include \"" ++ text ++ "\""] :=
  .split (.split (.loose free rfl
    (.quoted quotable.1 quotable.2 (.loose free rfl (.nil rfl)))))

private theorem allowed_includeLines (spelled : scope.model.Spelled)
    (apiVersion : Nat) :
    AllAllowed scope (includeLines scope.model apiVersion) := by
  have header : Quotable (Header.fileName scope.model.name) :=
    ((Quotable.lit (by decide)).append spelled.name.lower.quotable).append
      (.lit (by decide))
  have version := isWord_number apiVersion
  simp only [includeLines, AllAllowed.cons_iff, AllAllowed.nil,
    AllAllowed.blank, true_and, and_true]
  refine ⟨.margin (.split (.loose free rfl ?_)) (.split (.lit (by decide))),
    .note free rfl rfl (by decide), .note free rfl rfl (by decide),
    .note free rfl rfl (by decide), .note free rfl rfl (by decide),
    .margin (reads_include free header) (.split (.split (.lit (by decide)))),
    .note free rfl rfl (by decide), .note free rfl rfl (by decide),
    .note free rfl rfl (by decide), .margin ?_ (.split (.lit (by decide))),
    .margin ?_ (.split (.lit (by decide))),
    .margin ?_ (.split (.lit (by decide))), .note free rfl rfl (by decide),
    .note free rfl rfl (by decide), .note free rfl rfl (by decide),
    .note free rfl rfl (by decide)⟩
  · exact .last version (by decide)
  · exact .split (.loose free rfl (.loose free rfl (.nil rfl)))
  · exact .split (.loose free rfl (.loose free rfl (.nil rfl)))
  · exact .split (.loose free rfl (.loose free rfl (.nil rfl)))

private theorem allowed_objectLine (known : scope.Knows name) :
    Allowed scope (objectLine "obj_handles" name) := by
  refine .margin (.loose free rfl (.loose free rfl ?_)) (.lit (by decide))
  exact .known known (.lit rfl (by decide)) (.loose free rfl (.nil rfl))

private theorem aside_logger :
    Aside scope (.indented 0 ["static exos_log_handle_t ", declares "logger",
      ";"]) := by
  refine ⟨.indented ?_, .inr ?_⟩
  · exact .loose free rfl (.loose free rfl (.loose free rfl (.nil rfl)))
  · rw [content_indented]
    simp [Piece.render, declares]

private theorem aside_native (spelled : scope.model.Spelled) :
    Aside scope (objectLine scope.model.name "exos_data") := by
  refine ⟨.indented ?_, .inr ?_⟩
  · refine .plain spelled.name (by decide) (.inr free) (.lit rfl (by decide)) ?_
    exact .loose free rfl (.loose free rfl (.loose free rfl (.nil rfl)))
  · rw [objectLine, content_indented]
    simp [Piece.render, declares]

private theorem aside_objectLines (spelled : scope.model.Spelled) :
    ∀ line ∈ objectLines scope.model, Aside scope line := by
  have blank : Aside scope .blank := Allowed.blank.aside
  have member : ∀ {chars : List Char},
      LineReader.harmless false {} chars = true →
        (LineReader.after {} chars).settled = true →
        Aside scope (.plain 1 (String.ofList chars)) :=
    fun harmless settled => (Allowed.loose free harmless settled).aside
  have object := fun name known =>
    (@allowed_objectLine scope name free known).aside
  simp only [objectLines, List.forall_mem_append, List.forall_mem_cons,
    List.forall_mem_map, blank, true_and]
  refine ⟨⟨⟨⟨⟨aside_logger free, ?_, ?_, member rfl rfl, member rfl rfl,
    member rfl rfl, member rfl rfl, member rfl rfl, member rfl rfl,
    member rfl rfl, ?_,
    object _ (knows_objectName spelled),
    List.forall_mem_nil _⟩, ?_⟩, ?_, aside_native free spelled,
    ?_, List.forall_mem_nil _⟩, ?_⟩, List.forall_mem_nil _⟩
  · exact (Allowed.note free rfl rfl (by decide)).aside
  · exact (Allowed.note free rfl rfl (by decide)).aside
  · apply Allowed.aside
    exact .margin
      (.loose free rfl (.loose free rfl (.loose free rfl (.nil rfl))))
      (.lit (by decide))
  · exact fun dataset known => object _ (knows_handleName spelled known)
  · apply Allowed.aside
    exact .margin
      (.loose free rfl (.loose free rfl (.loose free rfl (.nil rfl))))
      (.lit (by decide))
  · refine Allowed.aside (.margin (.loose free rfl ?_) (.lit (by decide)))
    exact .known (knows_datamodelName spelled) (.lit rfl (by decide))
      (.loose free rfl (.nil rfl))
  · intro dataset known
    refine Allowed.aside (.margin (.loose free rfl ?_) (.lit (by decide)))
    exact .known (knows_datasetName spelled known) (.lit rfl (by decide))
      (.loose free rfl (.nil rfl))

theorem aside_preamble (spelled : scope.model.Spelled) (options : Options) :
    ∀ line ∈ preamble scope.model options, Aside scope line := by
  have issues : ∀ line ∈ (if options.knownIssues then issueLines else []),
      Aside scope line := by
    split
    · exact fun line inside => (allowed_issueLines free line inside).aside
    · exact nofun
  simp only [preamble, List.forall_mem_append]
  refine ⟨⟨issues, ?_⟩, aside_objectLines free spelled⟩
  exact fun line inside =>
    (allowed_includeLines free spelled _ line inside).aside

omit free in
private theorem split_hook : "NAPI_MODULE(NODE_GYP_MODULE_NAME, " =
    "NAPI_MODULE" ++ "(NODE_GYP_MODULE_NAME, " := by
  decide

omit free in
theorem allowed_hook (spelled : scope.model.Spelled)
    (known : scope.functions (initName scope.model)) :
    AllAllowed scope (hook scope.model) := by
  have listed : ("NAPI_MODULE", 1) ∈ callees scope.model := by simp [callees]
  have isWord : IsWord (initName scope.model) :=
    (show IsWord "init_" by decide).append spelled.objectName.2
  simp only [hook, AllAllowed.cons_iff, AllAllowed.nil, and_true]
  refine ⟨.margin (.lit rfl (.nil rfl)) (.lit (by decide)),
    .margin ?_ (.lit (by decide))⟩
  rw [List.map_cons, Piece.render, split_hook]
  refine .split (.call listed (by decide) isWord known (by decide)
    (.lit rfl (.inr rfl)) ?_)
  refine .lit rfl
    (.plain isWord (by decide) (.inl (by decide)) (.lit rfl (by decide)) ?_)
  exact .lit rfl (.nil rfl)

end Preamble

section Declared

theorem declares_line {type before : String}
    (words : ∀ c ∈ type.toList, inWord c = true ∨ c = ' ')
    (spelled : before = type ++ " ") :
    Declares (Line.indented 0 [.text before, declares name, .text ";"]).content
      name := by
  refine ⟨type, words, .inl ?_⟩
  apply String.toList_injective
  rw [content_indented, spelled]
  simp [indentation, Piece.render, declares]

theorem declares_objectLine {type : String} (isWord : IsWord type) :
    Declares (objectLine type name).content name := by
  refine ⟨type, fun c known => .inl (isWord.2 c known), .inr ?_⟩
  apply String.toList_injective
  rw [objectLine, content_indented]
  simp [indentation, Piece.render, declares]

/-- The preamble declares every object of the datamodel. -/
theorem declared_identifier (spelled : model.Spelled) (options : Options) :
    ∀ name ∈ identifiers model, ∃ line ∈ preamble model options,
      Declares line.content name := by
  have within : ∀ {name : String},
      (∃ line ∈ objectLines model, Declares line.content name) →
        ∃ line ∈ preamble model options, Declares line.content name := by
    rintro name ⟨line, inside, declares⟩
    exact ⟨line, List.mem_append_right _ inside, declares⟩
  have handles : IsWord "obj_handles" := by decide
  simp only [identifiers, List.forall_mem_append, List.forall_mem_cons,
    List.forall_mem_flatMap]
  refine ⟨⟨within ?_, within ?_, within ?_, within ?_, within ?_, nofun⟩, ?_⟩
  · exact ⟨_, by simp [objectLines], declares_objectLine handles⟩
  · refine ⟨.indented 0 ["exos_datamodel_handle_t ",
      declares (datamodelName model), ";"], ?_,
      @declares_line _ "exos_datamodel_handle_t" _ (by decide) (by decide)⟩
    simp [objectLines]
  · refine ⟨objectLine model.name "exos_data", ?_,
      declares_objectLine spelled.name⟩
    simp [objectLines]
  · refine ⟨.indented 0 ["static exos_log_handle_t ", declares "logger", ";"],
      ?_, @declares_line _ "static exos_log_handle_t" _ (by decide) (by decide)⟩
    simp [objectLines]
  · refine ⟨.indented 0 ["uv_idle_t ", declares "cyclic_h", ";"], ?_,
      @declares_line _ "uv_idle_t" _ (by decide) (by decide)⟩
    simp [objectLines]
  · intro dataset known
    refine ⟨within ?_, within ?_, nofun⟩
    · refine ⟨objectLine "obj_handles" (handleName dataset), ?_,
        declares_objectLine handles⟩
      exact List.mem_append_left
        _ (List.mem_append_left _ (List.mem_append_left _
        (List.mem_append_right _ (List.mem_map.mpr ⟨dataset, known, rfl⟩))))
    · refine ⟨.indented 0 ["exos_dataset_handle_t ",
        declares (datasetName dataset), ";"], ?_,
        @declares_line _ "exos_dataset_handle_t" _ (by decide) (by decide)⟩
      exact List.mem_append_left _ (List.mem_append_right _
        (List.mem_map.mpr ⟨dataset, known, rfl⟩))

end Declared

end Addon

end DataBridge
