import DataBridge.Proofs.Addon.Mention
import DataBridge.Addon.Module
import Mathlib.Algebra.GroupWithZero.Nat

/-!
# Lines that a scope allows

Whether a line is allowed depends on its texts alone, read one after the other
from the beginning of the line.
-/

namespace DataBridge

open Text (inWord IsWord OneLine)

namespace Text

/-- A text that may stand in a string literal. -/
def Quotable (text : String) : Prop :=
  '"' ∉ text.toList ∧ '\n' ∉ text.toList

theorem Quotable.lit {chars : List Char} (plain : '"' ∉ chars ∧ '\n' ∉ chars) :
    Quotable (String.ofList chars) := by
  rwa [Quotable, String.toList_ofList]

theorem Quotable.append {first second : String} (quotable : Quotable first)
    (also : Quotable second) : Quotable (first ++ second) := by
  rw [Quotable, String.toList_append, List.mem_append, List.mem_append,
    not_or, not_or]
  exact ⟨⟨quotable.1, also.1⟩, quotable.2, also.2⟩

theorem IsWord.quotable {text : String} (isWord : IsWord text) :
    Quotable text := by
  constructor
  · intro inside
    exact absurd (isWord.2 _ inside) (by decide)
  · intro inside
    exact absurd (isWord.2 _ inside) (by decide)

theorem IsWord.append {first second : String} (isWord : IsWord first)
    (inside : ∀ c ∈ second.toList, inWord c = true) :
    IsWord (first ++ second) := by
  refine ⟨?_, ?_⟩
  · intro empty
    exact isWord.1 (String.append_eq_empty_iff.mp empty).1
  · rw [String.toList_append, List.forall_mem_append]
    exact ⟨isWord.2, inside⟩

end Text

open Text (Quotable)

namespace Addon

structure Readable (scope : Scope) (line : Line) : Prop where
  ends : line.render = line.content ++ "\n"
  passes : Passes scope {} line.content.toList

/-- A line of allowed words that cannot begin a function. -/
structure Allowed (scope : Scope) (line : Line) :
    Prop extends Readable scope line where
  inner : line.content.toList.head? ≠ some 's'

def AllAllowed (scope : Scope) (source : Source) : Prop :=
  ∀ line ∈ source, Allowed scope line

variable {scope : Scope} {depth : Nat} {chars : List Char} {texts : List String}

theorem indentation_cons (depth : Nat) (chars : List Char) :
    (indentation (depth + 1)).toList ++ chars =
      ' ' :: ' ' :: ' ' :: ' ' :: ((indentation depth).toList ++ chars) := by
  rw [indentation, List.replicate_succ, String.join_cons, ← indentation,
    String.toList_append, List.append_assoc]
  rfl

private theorem passes_indentation {chars : List Char}
    (passes : Passes scope {} chars)
    (depth : Nat) : Passes scope {} ((indentation depth).toList ++ chars) := by
  induction depth with
  | zero => exact passes
  | succ depth induction =>
      rw [indentation_cons]
      refine ⟨induction.allows, ?_⟩
      simpa using induction.oneLine

theorem content_indented (depth : Nat) (pieces : List Piece) :
    (Line.indented depth pieces).content.toList =
      (indentation depth).toList ++
        (pieces.map Piece.render).flatMap String.toList := by
  rw [Line.content, String.toList_append, String.toList_join]

theorem Readable.indented {pieces : List Piece}
    (reads : Reads scope {} (pieces.map Piece.render)) :
    Readable scope (.indented depth pieces) := by
  refine ⟨rfl, ?_⟩
  rw [content_indented]
  exact passes_indentation reads depth

/-- The texts begin with another character than that of `static`. -/
def Apart (texts : List String) : Prop :=
  ∃ c rest, texts.flatMap String.toList = c :: rest ∧ c ≠ 's'

namespace Apart

theorem lit {c : Char} (other : c ≠ 's') :
    Apart (String.ofList (c :: chars) :: texts) :=
  ⟨c, chars ++ texts.flatMap String.toList, by simp, other⟩

theorem split {first second : String}
    (apart : Apart (first :: second :: texts)) :
    Apart ((first ++ second) :: texts) := by
  obtain ⟨c, rest, same, other⟩ := apart
  exact ⟨c, rest, by simpa using same, other⟩

end Apart

namespace Allowed

theorem indented [NeZero depth] {pieces : List Piece}
    (reads : Reads scope {} (pieces.map Piece.render)) :
    Allowed scope (.indented depth pieces) := by
  refine ⟨.indented reads, ?_⟩
  rw [content_indented]
  cases depth with
  | zero => exact (NeZero.ne 0 rfl).elim
  | succ depth =>
      rw [indentation_cons, List.head?_cons]
      decide

theorem text [NeZero depth] {text : String} (reads : Reads scope {} [text]) :
    Allowed scope (.plain depth text) :=
  indented reads

theorem lit [NeZero depth] (harmless : LineReader.harmless true {} chars = true)
    (settled : (LineReader.after {} chars).settled = true) :
    Allowed scope (.plain depth (String.ofList chars)) :=
  text (.lit harmless (.nil settled))

theorem loose [NeZero depth] (free : scope.locals = none)
    (harmless : LineReader.harmless false {} chars = true)
    (settled : (LineReader.after {} chars).settled = true) :
    Allowed scope (.plain depth (String.ofList chars)) :=
  text (.loose free harmless (.nil settled))

theorem margin {pieces : List Piece}
    (reads : Reads scope {} (pieces.map Piece.render))
    (apart : Apart (pieces.map Piece.render)) :
    Allowed scope (.indented 0 pieces) := by
  obtain ⟨c, rest, same, other⟩ := apart
  refine ⟨.indented reads, ?_⟩
  rw [content_indented, same]
  simpa [indentation] using other

theorem note {c : Char} (free : scope.locals = none)
    (harmless : LineReader.harmless false {} (c :: chars) = true)
    (settled : (LineReader.after {} (c :: chars)).settled = true)
    (other : c ≠ 's') : Allowed scope (.plain 0 (String.ofList (c :: chars))) :=
  margin (.loose free harmless (.nil settled)) (.lit other)

theorem brace (begins : chars.head? ≠ some 's')
    (harmless : LineReader.harmless true {} chars = true)
    (settled : (LineReader.after {} chars).settled = true) :
    Allowed scope (.plain depth (String.ofList chars)) := by
  cases depth with
  | zero =>
      refine ⟨.indented (.lit harmless (.nil settled)), ?_⟩
      rw [Line.content_plain]
      simpa [indentation] using begins
  | succ depth => exact lit harmless settled

theorem blank : Allowed scope .blank :=
  ⟨.indented (.nil rfl), by decide⟩

end Allowed

namespace AllAllowed

variable {first second : Source}

@[simp]
theorem nil : AllAllowed scope [] :=
  nofun

@[simp]
theorem cons_iff {line : Line} {source : Source} :
    AllAllowed scope (line :: source) ↔
      Allowed scope line ∧ AllAllowed scope source :=
  List.forall_mem_cons

@[simp]
theorem append_iff :
    AllAllowed scope (first ++ second) ↔
      AllAllowed scope first ∧ AllAllowed scope second :=
  List.forall_mem_append

@[simp]
theorem flatMap_iff {α : Type} {xs : List α} {part : α → Source} :
    AllAllowed scope (xs.flatMap part) ↔ ∀ x ∈ xs, AllAllowed scope (part x) :=
  List.forall_mem_flatMap

@[simp]
theorem map_iff {α : Type} {xs : List α} {line : α → Line} :
    AllAllowed scope (xs.map line) ↔ ∀ x ∈ xs, Allowed scope (line x) :=
  List.forall_mem_map

@[simp]
theorem blank : Allowed scope .blank :=
  .blank

@[simp]
theorem block_iff {body : Source} :
    AllAllowed scope (Source.block depth body) ↔ AllAllowed scope body := by
  have opening : Allowed scope (.plain depth r"{") := .brace (by decide) rfl rfl
  have closing : Allowed scope (.plain depth r"}") := .brace (by decide) rfl rfl
  simp [Source.block, opening, closing]

end AllAllowed

/-- An expression that a scope allows everywhere: a known name or a member of
it. -/
inductive Scope.Reaches (scope : Scope) : String → Prop where
  | name {name : String} (knows : scope.Knows name) : Scope.Reaches scope name
  | member {name : String} {chars : List Char} (knows : scope.Knows name)
      (nonempty : chars ≠ []) (inside : ∀ c ∈ chars, inWord c = true) :
      Scope.Reaches scope (name ++ String.ofList ('.' :: chars))

variable {before : Option Char}

theorem Reads.reached {expression : String} (reaches : scope.Reaches expression)
    (opens : Opens ['('] texts) (later : Reads scope LineReader.gap texts) :
    Reads scope ⟨false, before, []⟩ (expression :: texts) := by
  cases reaches with
  | name knows => exact .known knows opens later
  | @member name chars knows nonempty inside =>
      have isWord : IsWord (String.ofList chars) :=
        ⟨by simpa using nonempty, by simpa using inside⟩
      have dotted : String.ofList ('.' :: chars) =
          "." ++ String.ofList chars := by
        apply String.toList_injective
        simp
      refine .split (.known knows (.lit rfl (by decide)) ?_)
      rw [dotted]
      exact .split (.lit rfl (.member isWord opens later))

section Statements

variable {object value name message : String}

theorem reads_throwStatement (quotable : Quotable message) :
    Reads scope {} ((throwStatement message).map Piece.render) :=
  .split (.split (.lit rfl
    (.quoted quotable.1 quotable.2 (.lit rfl (.nil rfl)))))

theorem reads_returnNull : Reads scope {} (returnNull.map Piece.render) :=
  .lit rfl (.nil rfl)

theorem reads_setProperty (quotable : Quotable name)
    (known : scope.Reaches object) (alsoKnown : scope.Reaches value) :
    Reads scope {} ((setProperty object name value).map Piece.render) := by
  refine .lit rfl (.reached known (.split (.split (.lit rfl (by decide)))) ?_)
  refine .split (.split (.lit rfl
    (.quoted quotable.1 quotable.2 (.lit rfl ?_))))
  exact .reached alsoKnown (.lit rfl (by decide)) (.lit rfl (.nil rfl))

theorem reads_referenceValue (knows : scope.Knows object) :
    Reads scope ⟨false, some '(', []⟩
      ((referenceValue object).map Piece.render ++ [")"]) := by
  have reference : scope.Reaches (object ++ ".ref") :=
    .member knows (by decide) (by decide)
  have place : scope.Reaches (object ++ ".object_value") :=
    .member knows (by decide) (by decide)
  refine .lit rfl (.reached reference (.lit rfl (by decide)) (.lit rfl ?_))
  exact .reached place (.lit rfl (by decide)) (.lit rfl (.lit rfl (.nil rfl)))

theorem AllAllowed.guarded [NeZero depth] {condition : List Piece}
    {body : List (List Piece)}
    (reads : Reads scope ⟨false, some '(', []⟩
      (condition.map Piece.render ++ [")"]))
    (each : ∀ pieces ∈ body, Reads scope {} (pieces.map Piece.render)) :
    AllAllowed scope (Source.guarded depth condition body) := by
  have head : Reads scope {}
      ((Piece.text "if (" :: (condition ++ [Piece.text ")"])).map
          Piece.render) := by
    rw [List.map_cons, List.map_append]
    exact .lit rfl reads
  rw [Source.guarded, AllAllowed.cons_iff, AllAllowed.block_iff,
    AllAllowed.map_iff]
  exact ⟨.indented head, fun pieces inside => .indented (each pieces inside)⟩

theorem AllAllowed.reported [NeZero depth] {condition : List Piece}
    (reads : Reads scope ⟨false, some '(', []⟩
      (condition.map Piece.render ++ [")"]))
    (quotable : Quotable message) :
    AllAllowed scope
      (Source.guarded depth condition [throwStatement message]) :=
  .guarded reads (List.forall_mem_singleton.mpr (reads_throwStatement quotable))

theorem AllAllowed.refused [NeZero depth] {condition : List Piece}
    (reads : Reads scope ⟨false, some '(', []⟩
      (condition.map Piece.render ++ [")"]))
    (quotable : Quotable message) :
    AllAllowed scope (Source.guarded depth condition [throwStatement message,
      returnNull]) :=
  .guarded reads (List.forall_mem_cons.mpr
    ⟨reads_throwStatement quotable,
      List.forall_mem_singleton.mpr reads_returnNull⟩)

theorem allowed_callThreadsafe [NeZero depth] {listener data : String}
    (reaches : scope.Reaches listener)
    (reads : Reads scope ⟨false, some ' ', []⟩ [data,
      ", napi_tsfn_blocking);"]) :
    AllAllowed scope (callThreadsafe depth listener data) := by
  rw [callThreadsafe, AllAllowed.cons_iff, AllAllowed.block_iff]
  simp only [AllAllowed.cons_iff, AllAllowed.nil, and_true]
  refine ⟨.indented ?_, .indented ?_, .indented ?_, .indented ?_⟩
  · exact .lit rfl
      (.reached reaches (.lit rfl (by decide)) (.lit rfl (.nil rfl)))
  · exact .lit rfl
      (.reached reaches (.lit rfl (by decide)) (.lit rfl (.nil rfl)))
  · refine .lit rfl
      (.reached reaches (.split (.split (.lit rfl (by decide)))) ?_)
    exact .split (.split (.lit rfl reads))
  · exact .lit rfl
      (.reached reaches (.lit rfl (by decide)) (.lit rfl (.nil rfl)))

@[simp]
theorem allowed_callJavaScript : Allowed scope callJavaScript :=
  .lit rfl rfl

theorem allowed_throwFatal (quotable : Quotable message) :
    Allowed scope (throwFatal message) := by
  refine .indented
    (.lit rfl (.split (.split (.long ⟨true, some '"', []⟩ ?_ ?_ ?_))))
  · decide
  · decide
  · exact .quoted quotable.1 quotable.2 (.lit rfl (.nil rfl))

end Statements

section Functions

/-- Whether some characters can stand as a name. -/
def wordChars (chars : List Char) : Bool :=
  !chars.isEmpty && chars.all inWord

theorem isWord_ofList_iff :
    IsWord (String.ofList chars) ↔ wordChars chars = true := by
  simp [IsWord, wordChars]

/-- Parameters of a function, none of which looks like an argument. -/
inductive Hollow : String → Prop where
  | lit {chars : List Char}
      (harmless : LineReader.harmless false { before := some '(' }
        (chars ++ [')']) = true)
      (settled : (LineReader.after { before := some '(' }
        (chars ++ [')'])).settled = true)
      (hollow : [1, 2, 3].all (fun index =>
        !wordChars
          ((argumentFrom index (chars ++ [')'])).dropWhile (· = ' '))) = true) :
      Hollow (String.ofList chars)

theorem Hollow.append {first second : List Char}
    (hollow : Hollow (String.ofList (first ++ second))) :
    Hollow (String.ofList first ++ String.ofList second) := by
  rwa [← String.ofList_append]

private theorem index_of_mem_callees {model : Datamodel} :
    ∀ callee ∈ callees model, callee.2 ∈ [1, 2, 3] := by
  simp [callees]

theorem reads_head {function : Function} (free : scope.locals = none)
    (result : IsWord function.result) (name : IsWord function.name)
    (hollow : Hollow function.parameters) :
    Reads scope {} ["static ", function.result, " ", function.name, "(",
      function.parameters, ")"] := by
  refine .loose free rfl
    (.plain result (by decide) (.inl (by decide)) (.lit rfl (by decide)) ?_)
  refine .lit rfl ?_
  generalize function.parameters = parameters at hollow
  obtain @⟨chars, harmless, settled, hollow⟩ := hollow
  have behind : ["(", String.ofList chars, ")"].flatMap String.toList =
      '(' :: (chars ++ [')']) := by
    simp
  rw [Reads, List.flatMap_cons, behind]
  have later : Passes scope LineReader.gap ('(' :: (chars ++ [')'])) := by
    have rest := Passes.literal (.inr free) harmless (Passes.nil settled)
    rw [List.append_nil] at rest
    have opening : LineReader.harmless false LineReader.gap ['('] = true :=
      by decide
    exact Passes.literal (.inr free) opening rest
  refine Passes.word name (by decide) ?_ later
  constructor
  · intro callee known _ argument found
    have none :=
      List.all_eq_true.mp hollow callee.2 (index_of_mem_callees callee known)
    simp [Mention.argument?, isWord_ofList_iff] at found none
    grind
  · rintro ⟨_, taken | reached⟩
    · cases taken
    · cases reached
  · intro names restricted
    rw [free] at restricted
    cases restricted

end Functions

end Addon

end DataBridge
