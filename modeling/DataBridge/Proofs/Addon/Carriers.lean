import DataBridge.Proofs.Addon.Spelling
import DataBridge.Proofs.Program.Borrowed

/-!
# Functions that carry values

The functions that exchange a dataset are allowed in every scope that does not
restrict local values.
-/

namespace DataBridge

open Text (inWord IsWord Quotable)

theorem Layout.dataset_spelled {places : Place → Prop}
    (holds : Layout.Holds places) {place : Place} (within : places place)
    {letters : List Char} (inside : ∀ c ∈ letters, inWord c = true)
    {dataset : Field} (spelled : dataset.type.Spelled) {handle : Handle}
    {direction : Direction} {next : Nat} :
    ∀ statement ∈ Layout.dataset place handle direction next letters dataset,
      statement.Spelled (Layout.OfProgram handle) places := by
  cases direction with
  | outgoing =>
      have origin : Layout.OriginWithin places (.native place) := within
      exact Layout.outDataset_spelled holds origin inside spelled
  | incoming => exact Layout.inDataset_spelled holds within inside spelled

theorem Naming.inWord_of_mem_free {naming : Naming} :
    ∀ c ∈ naming.free, inWord c = true := by
  have letters : ∀ c ∈ Naming.alphabet, inWord c = true := by decide
  intro c known
  exact letters c (List.mem_of_mem_drop known)

open Datamodel (mem_fields_of_connected)

namespace Addon

variable {scope : Scope} {dataset : Field} {policy : OnFailure}
  {program : Emission}

private theorem holds_places (scope : Scope) : Layout.Holds scope.Places where
  field place name within isWord := by
    refine ⟨within.root, List.forall_mem_append.mpr ⟨within.segments, ?_⟩⟩
    exact List.forall_mem_singleton.mpr isWord
  index place iterator within inside := by
    refine ⟨within.root, List.forall_mem_append.mpr ⟨within.segments, ?_⟩⟩
    exact List.forall_mem_singleton.mpr inside

/-- The lines of a program are allowed where its variables are known and the
handle that it was given is reached. -/
theorem allowed_program {statements : List Stmt} {given : Handle}
    {places : Place → Prop}
    (spelled : ∀ statement ∈ statements,
      statement.Spelled (Layout.OfProgram given) places)
    (known : ∀ temp ∈ Stmt.tempsList statements,
      temp.nativeType = "napi_value" →
      scope.Knows temp.identifier)
    (reaches : scope.Reaches given.text)
    (reachesPlaces : ∀ place,
      places place → scope.Places place ∧ scope.locals = none)
    (shared : ∀ value : DefaultValue, scope.Knows value.variableName) :
    AllAllowed scope (Render.stmts policy 1 statements) := by
  apply allowed_stmts
  intro statement inside
  refine allowed_stmt ?_ reachesPlaces shared (spelled statement inside) 1
    (temps_subset inside)
  rintro handle (rfl | ⟨temp, found⟩) within
  · exact reaches
  · have listed : temp ∈ handle.temps := by simp [Handle.temps, found]
    obtain ⟨text, type⟩ := text_of_mem_temps listed
    rw [text]
    exact .name (known temp (within temp found) type)

section Free

variable (free : scope.locals = none)
include free

theorem knows_free {name : String} (isWord : IsWord name)
    (other : ¬ IsObjectName name) : scope.Knows name := by
  apply Scope.Knows.of_local isWord other
  intro names restricted
  rw [free] at restricted
  cases restricted

private theorem knows_shared (value : DefaultValue) :
    scope.Knows value.variableName := by
  cases value
  · exact knows_free free (by decide) (not_isObjectName_lit (by decide))
  · exact knows_free free (by decide) (not_isObjectName_lit (by decide))
  · exact knows_free free (by decide) (not_isObjectName_lit (by decide))

end Free

theorem reads_commas {names : List String} {last : String} {texts : List String}
    (words : ∀ name ∈ names, IsWord name) (nonempty : names ≠ [])
    (opens : Opens ['(', '.'] (last :: texts))
    (later : Reads scope LineReader.gap (last :: texts)) :
    Reads scope ⟨false, some ' ', []⟩
      ((Render.commas (names.map declares)).map Piece.render ++ last ::
        texts) := by
  induction names with
  | nil => exact (nonempty rfl).elim
  | cons name rest induction =>
      obtain ⟨isWord, others⟩ := List.forall_mem_cons.mp words
      cases rest with
      | nil => exact .plain isWord (by decide) (.inl (by decide)) opens later
      | cons next rest =>
          refine .plain isWord (by decide) (.inl (by decide))
            (.lit rfl (by decide)) ?_
          exact .lit rfl (induction others (by simp))

/-- The texts go on with a character of a word. -/
def Continues (texts : List String) : Prop :=
  ∃ c rest, texts.flatMap String.toList = c :: rest ∧ inWord c = true

theorem continues_of_isWord {name : String} (isWord : IsWord name)
    (texts : List String) : Continues (name :: texts) := by
  obtain ⟨nonempty, inside⟩ := isWord
  obtain ⟨c, rest, chars⟩ :=
    List.exists_cons_of_ne_nil (String.toList_eq_nil_iff.not.mpr nonempty)
  refine ⟨c, rest ++ texts.flatMap String.toList, ?_, ?_⟩
  · rw [List.flatMap_cons, chars]
    rfl
  · exact inside c (by rw [chars]; exact List.mem_cons_self)

theorem continues_commas {names : List String}
    (words : ∀ name ∈ names, IsWord name) (nonempty : names ≠ [])
    (texts : List String) :
    Continues ((Render.commas (names.map declares)).map Piece.render ++
      texts) := by
  cases names with
  | nil => exact (nonempty rfl).elim
  | cons name rest =>
      have first := (List.forall_mem_cons.mp words).1
      cases rest with
      | nil => exact continues_of_isWord first texts
      | cons next rest => exact continues_of_isWord first _

/-- A type in front of a name that is declared. -/
theorem Reads.type {type : String} {texts : List String} (isWord : IsWord type)
    (continues : Continues texts)
    (later : Reads scope ⟨false, some ' ', []⟩ texts) :
    Reads scope {} ((type ++ " ") :: texts) := by
  obtain ⟨c, rest, same, inside⟩ := continues
  have blank : Reads scope LineReader.gap (" " :: texts) := .lit rfl later
  have chars : (" " :: texts).flatMap String.toList = ' ' :: c :: rest := by
    rw [List.flatMap_cons, same]
    rfl
  refine .split ?_
  rw [Reads, chars] at blank
  rw [Reads, List.flatMap_cons, chars]
  refine Passes.word isWord (by decide) ?_ blank
  constructor
  · intro callee _ _ function found
    rw [argument?_eq_none (by simp)] at found
    cases found
  · rintro ⟨_, taken | reached⟩
    · cases taken
    · cases reached
  · rintro names _ (⟨taken, _⟩ | ⟨_, equality⟩)
    · cases taken
    · simp only [List.cons_prefix_cons] at equality
      rw [← equality.2.1] at inside
      cases inside

theorem split_type : "napi_value " = "napi_value" ++ " " := by
  decide

theorem allowed_declareValues {names : List String}
    (words : ∀ name ∈ names, IsWord name) :
    AllAllowed scope (declareValues names) := by
  unfold declareValues
  split
  · exact .nil
  · rename_i nonempty
    rw [List.isEmpty_iff] at nonempty
    refine List.forall_mem_singleton.mpr (.indented ?_)
    rw [List.map_cons, List.map_append, Piece.render, split_type]
    refine .type (by decide) (continues_commas words nonempty _) ?_
    exact reads_commas words nonempty (.lit rfl (by decide))
      (.lit rfl (.nil rfl))

theorem allowed_declarations (depth : Nat) [NeZero depth] (temps : List Temp) :
    AllAllowed scope (Render.declarations depth temps) := by
  have words : ∀ name ∈ (temps.filter Temp.isSlot).map Temp.identifier,
      IsWord name := by
    rw [List.forall_mem_map]
    exact fun temp _ => isWord_temp temp
  simp only [Render.declarations, AllAllowed.append_iff, AllAllowed.map_iff]
  constructor
  · split
    · exact .nil
    · rename_i nonempty
      rw [List.isEmpty_iff] at nonempty
      have some : (temps.filter Temp.isSlot).map Temp.identifier ≠ [] := by
        simpa using nonempty
      refine List.forall_mem_singleton.mpr (.indented ?_)
      rw [List.map_cons, List.map_append, Piece.render, split_type]
      have pieces :
          (temps.filter Temp.isSlot).map
            (fun temp => declares temp.identifier) =
          ((temps.filter Temp.isSlot).map Temp.identifier).map declares := by
        rw [List.map_map]
        rfl
      rw [pieces]
      refine .type (by decide) (continues_commas words some _) ?_
      exact reads_commas words some (.lit rfl (by decide)) (.lit rfl (.nil rfl))
  · intro temp _
    have isWord := isWord_temp temp
    have type : IsWord temp.nativeType := by
      cases temp with
      | slot index => exact show IsWord "napi_value" by decide
      | property | arrayItem | lengthScratch | intScratch | floatScratch =>
          decide
    refine .indented (.type type (continues_of_isWord isWord _) ?_)
    exact .plain isWord (by decide) (.inl (by decide)) (.lit rfl (by decide))
      (.lit rfl (.nil rfl))

/-- A function whose lines a scope allows. -/
structure Function.Fits (scope : Scope) (function : Function) : Prop where
  comment : AllAllowed scope function.comment
  result : IsWord function.result
  name : IsWord function.name
  hollow : Hollow function.parameters
  body : AllAllowed scope function.body

theorem Function.Fits.commented {functions : List Function}
    (fits : ∀ function ∈ functions, function.Fits scope) {comment : String}
    (allowed : Allowed scope (.plain 0 comment)) :
    ∀ function ∈ Addon.commented comment functions, function.Fits scope := by
  cases functions with
  | nil => exact nofun
  | cons first rest =>
      obtain ⟨here, later⟩ := List.forall_mem_cons.mp fits
      refine List.forall_mem_cons.mpr ⟨?_, later⟩
      exact { here with comment := List.forall_mem_singleton.mpr allowed }

section Exchange

variable (spelled : scope.model.Spelled) (free : scope.locals = none)
include spelled free

theorem allowed_exchange (connected : dataset ∈ scope.model.connected)
    {direction : Direction}
    (made : exchangeProgram dataset direction = .ok program) :
    AllAllowed scope (program.lines policy 1) := by
  have known := mem_fields_of_connected connected
  have place : scope.Places (nativePlace dataset) :=
    ⟨knows_native, List.forall_mem_singleton.mpr (spelled.names dataset known)⟩
  obtain ⟨maxSlot, equal⟩ :=
    Field.emission_eq dataset (nativePlace dataset) (valueHandle dataset)
      direction {}
  rw [exchangeProgram, Flattening.fresh, equal] at made
  split at made <;> cases made
  rw [Emission.lines]
  apply allowed_program (Layout.dataset_spelled (holds_places scope) place
    Naming.inWord_of_mem_free (spelled.types dataset known))
  · exact fun temp _ _ =>
      knows_free free (isWord_temp temp) (not_isObjectName_temp temp)
  · exact .member (knows_handleName spelled connected) (by decide) (by decide)
  · exact fun place within => ⟨within, free⟩
  · exact knows_shared free

theorem fits_valueCallback {function : Function}
    (published : dataset ∈ scope.model.published)
    (made : valueCallback scope.model dataset = .ok function) :
    function.Fits scope := by
  have connected := Datamodel.mem_connected_of_published published
  have object := knows_handleName spelled connected
  have place : scope.Reaches (handleName dataset ++ ".object_value") :=
    .member object (by decide) (by decide)
  have value : scope.Reaches (handleName dataset ++ ".value") :=
    .member object (by decide) (by decide)
  have netTime : scope.Knows "netTime" :=
    knows_free free (by decide) (not_isObjectName_lit (by decide))
  have latency : scope.Knows "latency" :=
    knows_free free (by decide) (not_isObjectName_lit (by decide))
  obtain ⟨program, moved, same⟩ := bind_eq_ok_iff.mp made
  cases same
  have result : IsWord "void" := by decide
  refine ⟨.nil, result, spelled.ending connected (by decide),
    .lit rfl rfl rfl, ?_⟩
  simp only [AllAllowed.append_iff, AllAllowed.cons_iff, AllAllowed.nil,
    AllAllowed.blank, allowed_callJavaScript, true_and, and_true, and_assoc]
  refine ⟨allowed_declarations 1 program.temps, .loose free rfl rfl,
    .loose free rfl rfl, ?_, allowed_exchange spelled free connected moved,
    .indented ?_, .loose free rfl rfl, .loose free rfl rfl, .indented ?_,
    .indented ?_, ?_, allowed_throwFatal (.lit (by decide))⟩
  · exact .reported (reads_referenceValue object) (.lit (by decide))
  · refine .lit rfl
      (.known (knows_datamodelName spelled) (.lit rfl (by decide)) ?_)
    exact .loose free rfl (.nil rfl)
  · exact reads_setProperty (.lit (by decide)) place (.name netTime)
  · exact reads_setProperty (.lit (by decide)) place (.name latency)
  · refine .reported
      (.lit rfl (.reached place (.lit rfl (by decide)) (.lit rfl ?_)))
      (.lit (by decide))
    exact .reached value (.lit rfl (by decide)) (.lit rfl (.lit rfl (.nil rfl)))

theorem fits_publishMethod {function : Function}
    (subscribed : dataset ∈ scope.model.subscribed)
    (made : publishMethod dataset = .ok function) : function.Fits scope := by
  have connected := Datamodel.mem_connected_of_subscribed subscribed
  have object := knows_handleName spelled connected
  have place : scope.Reaches (handleName dataset ++ ".object_value") :=
    .member object (by decide) (by decide)
  have value : scope.Reaches (handleName dataset ++ ".value") :=
    .member object (by decide) (by decide)
  have result : IsWord "napi_value" := by decide
  obtain ⟨program, moved, same⟩ := bind_eq_ok_iff.mp made
  cases same
  refine ⟨.nil, result, spelled.ending connected (by decide),
    .lit rfl rfl rfl, ?_⟩
  simp only [AllAllowed.append_iff, AllAllowed.cons_iff, AllAllowed.nil,
    AllAllowed.blank, true_and, and_true, and_assoc]
  refine ⟨allowed_declarations 1 program.temps, ?_, ?_,
    allowed_exchange spelled free connected moved, .indented ?_,
    .indented reads_returnNull⟩
  · exact .refused (reads_referenceValue object) (.lit (by decide))
  · refine .refused
      (.lit rfl (.reached place (.lit rfl (by decide)) (.lit rfl ?_)))
      (.lit (by decide))
    exact .reached value (.lit rfl (by decide)) (.lit rfl (.lit rfl (.nil rfl)))
  · refine .lit rfl
      (.known (knows_datasetName spelled connected) (.lit rfl (by decide)) ?_)
    exact .lit rfl (.nil rfl)

end Exchange

end Addon

end DataBridge
