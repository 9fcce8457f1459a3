import DataBridge.Proofs.Addon.Allowed
import DataBridge.Proofs.Flatten.Layout
import DataBridge.Proofs.Program.Temporary

/-!
# Lines of a program that a scope allows

A program names handles, native places, properties and iterators.  Its lines are
allowed when these are.
-/

namespace DataBridge

open Text (inWord IsWord Quotable)

/-- A statement whose handles and places are of some kinds, and whose other
names can stand as names. -/
inductive Stmt.Spelled (handles : Handle → Prop) (places : Place → Prop) :
    Stmt → Prop where
  | createObject {target : Handle} (known : handles target) :
      Stmt.Spelled handles places (.createObject target)
  | createArray {target : Handle} (known : handles target) :
      Stmt.Spelled handles places (.createArray target)
  | setNamed {object value : Handle} {name : String} (known : handles object)
      (isWord : IsWord name) (alsoKnown : handles value) :
      Stmt.Spelled handles places (.setNamed object name value)
  | setElement {array value : Handle} {index : Char} (known : handles array)
      (inside : inWord index = true) (alsoKnown : handles value) :
      Stmt.Spelled handles places (.setElement array index value)
  | getNamed {object target : Handle} {name : String} (known : handles object)
      (isWord : IsWord name) (alsoKnown : handles target) :
      Stmt.Spelled handles places (.getNamed object name target)
  | getElement {array target : Handle} {index : Char} (known : handles array)
      (inside : inWord index = true) (alsoKnown : handles target) :
      Stmt.Spelled handles places (.getElement array index target)
  | assign {target value : Handle} (known : handles target)
      (alsoKnown : handles value) :
      Stmt.Spelled handles places (.assign target value)
  | leafOut {leaf : Leaf} {source : Place} {target : Handle}
      (place : places source)
      (known : handles target) :
        Stmt.Spelled handles places (.leafOut leaf source target)
  | leafIn {leaf : Leaf} {source : Handle} {target : Place}
      (known : handles source)
      (place : places target) :
        Stmt.Spelled handles places (.leafIn leaf source target)
  | default {value : DefaultValue} {target : Handle} (known : handles target) :
      Stmt.Spelled handles places (.default value target)
  | forEach {iterator : Char} {count : Nat} {body : List Stmt}
      (inside : inWord iterator = true)
      (each : ∀ statement ∈ body, Stmt.Spelled handles places statement) :
      Stmt.Spelled handles places (.forEach iterator count body)

def Segment.Spelled : Segment → Prop
  | .field name => IsWord name
  | .index iterator => inWord iterator = true

/-- A type whose members can be named, at every depth. -/
inductive FieldType.Spelled : FieldType → Prop where
  | leaf (leaf : Leaf) : FieldType.Spelled (.leaf leaf)
  | record {record : Record} (names : ∀ member ∈ record.fields,
      IsWord member.name)
      (types : ∀ member ∈ record.fields, FieldType.Spelled member.type) :
      FieldType.Spelled (.record record)

namespace Addon

variable {scope : Scope} {before : Option Char} {texts : List String}

/-- A place below a known root. -/
structure Scope.Places (scope : Scope) (place : Place) : Prop where
  root : scope.Knows place.root
  segments : ∀ segment ∈ place.segments, segment.Spelled

theorem isWord_single {c : Char} (inside : inWord c = true) :
    IsWord c.toString := by
  refine ⟨?_, ?_⟩ <;> simp [inside]

theorem isWord_number (number : Nat) : IsWord (toString number) := by
  refine ⟨?_, fun c known => inWord_of_mem_digits known⟩
  intro empty
  exact digits_ne_nil number (by rw [empty]; rfl)

theorem Reads.of_gap {others : List Char} {c : Char}
    (opens : Opens others texts) (reads : Reads scope LineReader.gap texts) :
    Reads scope ⟨false, some c, []⟩ texts := by
  obtain ⟨first, rest, same, apart, _⟩ := opens
  obtain ⟨allows, oneLine⟩ := reads
  refine ⟨?_, oneLine⟩
  rw [same] at allows ⊢
  have step : ∀ c, LineReader.step ⟨false, some c, []⟩ first = ⟨first = '"',
      some first, []⟩ :=
    fun c => LineReader.step_of_apart apart (.inl (by simp))
  rw [LineReader.gap, LineReader.mentions, LineReader.found_nil, step] at allows
  rw [LineReader.mentions, LineReader.found_nil, step]
  exact allows

section Places

private theorem place_text (place : Place) :
    place.text =
      place.root ++ String.join (place.segments.map Place.segmentText) := by
  have along : ∀ (segments : List Segment) (before : String),
      segments.foldl (fun before segment => before ++ Place.segmentText segment)
        before =
        before ++ String.join (segments.map Place.segmentText) := by
    intro segments
    induction segments with
    | nil => simp
    | cons segment rest induction =>
        intro before
        rw [List.foldl_cons, induction, List.map_cons, String.join_cons,
          String.append_assoc]
  exact along _ _

theorem opens_segments {segments : List Segment} (opens : Opens ['('] texts) :
    Opens ['('] (segments.map Place.segmentText ++ texts) := by
  cases segments with
  | nil => exact opens
  | cons segment rest =>
      cases segment with
      | field name => exact .split (.lit rfl (by decide))
      | index iterator => exact .split (.split (.lit rfl (by decide)))

private theorem reads_segments {segments : List Segment}
    (spelled : ∀ segment ∈ segments, segment.Spelled)
    (opens : Opens ['('] texts) (later : Reads scope LineReader.gap texts) :
    Reads scope LineReader.gap (segments.map Place.segmentText ++ texts) := by
  induction segments with
  | nil => exact later
  | cons segment rest induction =>
      obtain ⟨first, others⟩ := List.forall_mem_cons.mp spelled
      have behind := @opens_segments texts rest opens
      cases segment with
      | field name =>
          exact .split (.lit rfl (.member first behind (induction others)))
      | index iterator =>
          refine .split (.split (.lit rfl ?_))
          refine .plain (isWord_single first) (by decide) (.inl (by decide))
            (.lit rfl (by decide)) ?_
          exact .lit rfl (.of_gap behind (induction others))

theorem reads_place {place : Place} (known : scope.Places place)
    (opens : Opens ['('] texts) (later : Reads scope LineReader.gap texts) :
    Reads scope ⟨false, before, []⟩ (place.text :: texts) := by
  have joined : ∀ segments : List Segment,
      (String.join (segments.map Place.segmentText) :: texts).flatMap
        String.toList =
        (segments.map Place.segmentText ++ texts).flatMap String.toList := by
    intro segments
    rw [List.flatMap_cons, List.flatMap_append, String.toList_join]
  have opening :
      Opens ['('] (String.join (place.segments.map Place.segmentText) ::
          texts) := by
    obtain ⟨c, rest, same, apart⟩ := @opens_segments texts place.segments opens
    exact ⟨c, rest, (joined _).trans same, apart⟩
  rw [place_text]
  refine .split (.known known.root opening ?_)
  rw [Reads, joined]
  exact reads_segments known.segments opens later

theorem quotable_path {place : Place}
    (spelled : ∀ segment ∈ place.segments, segment.Spelled) :
    Quotable place.path := by
  have along : ∀ (segments : List Segment) (before : String), Quotable before →
      (∀ segment ∈ segments, segment.Spelled) →
          Quotable (Place.pathFrom before segments) := by
    intro segments
    induction segments with
    | nil => exact fun _ quotable _ => quotable
    | cons segment rest induction =>
        intro before quotable spelled
        obtain ⟨first, others⟩ := List.forall_mem_cons.mp spelled
        cases segment with
        | field name =>
            rw [Place.pathFrom]
            apply induction _ _ others
            split
            · exact first.quotable
            · exact (quotable.append (.lit (by decide))).append first.quotable
        | index iterator =>
            have bracketed : Quotable (Place.bracketed iterator) :=
              ((Quotable.lit (by decide)).append
                (isWord_single first).quotable).append
                (.lit (by decide))
            exact induction _ (quotable.append bracketed) others
  exact along _ _ (.lit (by decide)) spelled

end Places

section Statements

variable {policy : OnFailure} {depth : Nat} {source target : Place}
  {handle : Handle}

theorem allowed_onFailure (policy : OnFailure) (depth : Nat) [NeZero depth] :
    AllAllowed scope (policy.lines depth) := by
  cases policy with
  | throw => exact .nil
  | throwAndReturn => exact List.forall_mem_singleton.mpr (.lit rfl rfl)

theorem allowed_checked [NeZero depth] {call : List Piece}
    {code message : String}
    (reads : Reads scope ⟨false, some ' ', []⟩ (call.map Piece.render ++ [")"]))
    (quotable : Quotable code) (alsoQuotable : Quotable message) :
    AllAllowed scope (Render.checked policy depth call code message) := by
  have head : Reads scope {}
      ((Piece.text "if (napi_ok != " :: (call ++ [Piece.text ")"])).map
          Piece.render) := by
    rw [List.map_cons, List.map_append]
    exact .lit rfl reads
  have report : Reads scope {}
      ["napi_throw_error(env, \"" ++ code ++ "\", \"" ++ message ++
          "\");"] := by
    refine .split (.split (.split (.split (.lit rfl ?_))))
    refine .quoted quotable.1 quotable.2 (.lit rfl ?_)
    exact .quoted alsoQuotable.1 alsoQuotable.2 (.lit rfl (.nil rfl))
  rw [Render.checked, AllAllowed.cons_iff, AllAllowed.block_iff,
    AllAllowed.cons_iff]
  exact ⟨.indented head, .text report, allowed_onFailure policy (depth + 1)⟩

private theorem allowed_leafOut [NeZero depth] (leaf : Leaf)
    (place : scope.Places source) (reaches : scope.Reaches handle.text) :
    AllAllowed scope (Render.leafOut policy depth leaf source handle) := by
  have message : ∀ words, Quotable words →
      Quotable ("Can't convert " ++ source.path ++ " to " ++ words) := by
    intro words quotable
    have front : Quotable ("Can't convert " ++ source.path) :=
      .append (.lit (by decide)) (quotable_path place.segments)
    exact (front.append (.lit (by decide))).append quotable
  have target : Reads scope ⟨false, some '&', []⟩ [handle.text, ")", ")"] :=
    .reached reaches (.lit rfl (by decide)) (.lit rfl (.lit rfl (.nil rfl)))
  rw [Render.leafOut]
  cases leaf with
  | bool =>
      refine allowed_checked ?_ (.lit (by decide))
        (message _ (.lit (by decide)))
      exact .split (.split (.lit rfl
        (reads_place place (.lit rfl (by decide)) (.lit rfl target))))
  | integer type =>
      cases signed : type.signed
        <;> simp only [Render.leafOutCall, signed, if_true, if_false,
        Bool.false_eq_true]
      · refine allowed_checked ?_ (.lit (by decide))
          (message _ (.lit (by decide)))
        exact .split (.split (.lit rfl
          (reads_place place (.lit rfl (by decide)) (.lit rfl target))))
      · refine allowed_checked ?_ (.lit (by decide))
          (message _ (.lit (by decide)))
        exact .split (.split (.lit rfl
          (reads_place place (.lit rfl (by decide)) (.lit rfl target))))
  | float type =>
      refine allowed_checked ?_ (.lit (by decide))
        (message _ (.lit (by decide)))
      exact .split (.split (.lit rfl
        (reads_place place (.lit rfl (by decide)) (.lit rfl target))))
  | string length =>
      refine allowed_checked ?_ (.lit (by decide))
        (message _ (.lit (by decide)))
      refine .split (.split (.split (.split (.split (.split (.lit rfl ?_))))))
      refine reads_place place (.lit rfl (by decide)) (.lit rfl ?_)
      refine reads_place place (.lit rfl (by decide)) (.lit rfl ?_)
      exact .plain (isWord_number length) (by decide) (.inl (by decide))
        (.lit rfl (by decide)) (.lit rfl target)

theorem allowed_cast [NeZero depth] (place : scope.Places target)
    {kind : String} (isWord : IsWord kind) {chars : List Char}
    (harmless : LineReader.harmless true ⟨false, some ' ', []⟩ chars = true)
    (begins : ∃ rest, chars = ')' :: rest)
    (settled : (LineReader.after ⟨false, some ' ', []⟩ chars).settled = true) :
    Allowed scope
      (.plain depth
        (target.text ++ " = (" ++ kind ++ String.ofList chars)) := by
  obtain ⟨rest, rfl⟩ := begins
  refine .text (.split (.split (.split ?_)))
  refine reads_place place (.lit rfl (by decide)) (.lit rfl ?_)
  exact .plain isWord (by decide) (.inl (by decide)) (.lit rfl (by decide))
    (.lit harmless (.nil settled))

/-- A number is read into a scratch variable, and cast from there. -/
private theorem allowed_numberIn [NeZero depth] {call : List Piece}
    {message kind : String} (place : scope.Places target)
    (reads : Reads scope ⟨false, some ' ', []⟩ (call.map Piece.render ++ [")"]))
    (quotable : Quotable message) (isWord : IsWord kind) {chars : List Char}
    (harmless : LineReader.harmless true ⟨false, some ' ', []⟩ chars = true)
    (begins : ∃ rest, chars = ')' :: rest)
    (settled : (LineReader.after ⟨false, some ' ', []⟩ chars).settled = true) :
    AllAllowed scope
      (Render.checked policy depth call "EINVAL" message ++
        [.plain depth
          (target.text ++ " = (" ++ kind ++ String.ofList chars)]) := by
  refine AllAllowed.append_iff.mpr ⟨?_, List.forall_mem_singleton.mpr ?_⟩
  · exact allowed_checked reads (.lit (by decide)) quotable
  · exact allowed_cast place isWord harmless begins settled

private theorem allowed_leafIn [NeZero depth] (leaf : Leaf)
    (free : scope.locals = none)
    (reaches : scope.Reaches handle.text) (place : scope.Places target) :
    AllAllowed scope (Render.leafIn policy depth leaf handle target) := by
  have path := quotable_path place.segments
  have expected : ∀ words, Quotable words → Quotable (words ++ target.path) :=
    fun words quotable => quotable.append path
  cases leaf with
  | bool =>
      refine allowed_checked ?_ (.lit (by decide))
        (expected _ (.lit (by decide)))
      refine .lit rfl
        (.reached reaches (.split (.split (.lit rfl (by decide)))) ?_)
      exact .split (.split (.lit rfl (reads_place place (.lit rfl (by decide))
        (.lit rfl (.lit rfl (.nil rfl))))))
  | integer type =>
      have isWord : IsWord type.nativeType := by cases type <;> decide
      refine allowed_numberIn place ?_ (expected _ (.lit (by decide))) isWord
        rfl ⟨_, rfl⟩ rfl
      exact .lit rfl (.reached reaches (.lit rfl (by decide))
        (.loose free rfl (.loose free rfl (.nil rfl))))
  | float type =>
      have isWord : IsWord type.nativeType := by cases type <;> decide
      refine allowed_numberIn place ?_ (expected _ (.lit (by decide))) isWord
        rfl ⟨_, rfl⟩ rfl
      exact .lit rfl (.reached reaches (.lit rfl (by decide))
        (.loose free rfl (.loose free rfl (.nil rfl))))
  | string length =>
      have number := isWord_number length
      have compared :
          Allowed scope
              (.plain depth ("if (_r > " ++ toString length ++ ")")) := by
        refine .text (.split (.split (.lit rfl ?_)))
        exact .plain number (by decide) (.inl (by decide))
          (.lit rfl (by decide)) (.lit rfl (.nil rfl))
      have tooLong : Allowed scope (.plain (depth + 1)
          ("napi_throw_range_error(env, \"ERANGE\", \"String too long for " ++
            target.path ++
            " (max " ++ toString length ++ " bytes)\");")) := by
        refine .text (.split (.split (.split (.split ?_))))
        refine .long ⟨true, some '"', []⟩ (by decide +kernel)
          (by decide +kernel) ?_
        refine .quoted path.1 path.2 (.lit rfl ?_)
        exact .quoted number.quotable.1 number.quotable.2 (.lit rfl (.nil rfl))
      simp only [Render.leafIn, List.append_assoc, List.cons_append,
        AllAllowed.append_iff, AllAllowed.cons_iff, AllAllowed.block_iff]
      refine ⟨?_, compared, ⟨tooLong, allowed_onFailure policy (depth + 1)⟩, ?_⟩
      · refine allowed_checked ?_ (.lit (by decide))
          (expected _ (.lit (by decide)))
        exact .lit rfl (.reached reaches (.lit rfl (by decide))
          (.loose free rfl (.lit rfl (.nil rfl))))
      · refine allowed_checked ?_ (.lit (by decide))
          (expected _ (.lit (by decide)))
        refine .lit rfl (.reached reaches
          (.split (.split (.split (.split (.lit rfl (by decide)))))) ?_)
        refine .split (.split (.split (.split (.lit rfl ?_))))
        refine reads_place place (.lit rfl (by decide)) (.lit rfl ?_)
        exact reads_place place (.lit rfl (by decide))
          (.loose free rfl (.loose free rfl (.nil rfl)))

end Statements

section Programs

variable {handles : Handle → Prop} {places : Place → Prop} {policy : OnFailure}

private theorem temps_of_handle {statement : Stmt} {handle : Handle}
    {temp : Temp}
    (inside : handle ∈ statement.handles)
    (found : Temp.ofHandle? handle = some temp) : temp ∈ statement.temps := by
  cases statement with
  | forEach iterator count body => cases inside
  | _ => exact List.mem_append_left _ (List.mem_filterMap.mpr ⟨handle,
      inside, found⟩)

theorem allowed_stmts {depth : Nat} {statements : List Stmt}
    (each : ∀ statement ∈ statements,
      AllAllowed scope (Render.stmt policy depth statement)) :
    AllAllowed scope (Render.stmts policy depth statements) := by
  induction statements with
  | nil => exact .nil
  | cons first rest induction =>
      obtain ⟨here, later⟩ := List.forall_mem_cons.mp each
      rw [Render.stmts, AllAllowed.append_iff]
      exact ⟨here, induction later⟩

theorem temps_subset {statements : List Stmt} {statement : Stmt}
    (inside : statement ∈ statements) :
    ∀ temp ∈ statement.temps, temp ∈ Stmt.tempsList statements := by
  induction statements with
  | nil => cases inside
  | cons first rest induction =>
      intro temp known
      rw [Stmt.tempsList, List.mem_append]
      rcases List.mem_cons.mp inside with rfl | later
      · exact .inl known
      · exact .inr (induction later temp known)

private theorem reads_loopHead {iterator : Char}
    (inside : inWord iterator = true)
    (count : Nat) : Reads scope {} [Render.loopHead iterator count] := by
  have name := isWord_single inside
  refine .split (.split (.split (.split ?_)))
  refine .split (.split (.split (.split ?_)))
  refine .lit rfl
    (.plain name (by decide) (.inl (by decide)) (.lit rfl (by decide)) ?_)
  refine .lit rfl
    (.plain name (by decide) (.inl (by decide)) (.lit rfl (by decide)) ?_)
  refine .lit rfl (.plain (isWord_number count) (by decide) (.inl (by decide))
    (.lit rfl (by decide)) ?_)
  refine .lit rfl
    (.plain name (by decide) (.inl (by decide)) (.lit rfl (by decide)) ?_)
  exact .lit rfl (.nil rfl)

private theorem reads_last {handle : Handle} {before : Option Char}
    (reaches : scope.Reaches handle.text) :
    Reads scope ⟨false, before, []⟩ [handle.text, ");"] :=
  .reached reaches (.lit rfl (by decide)) (.lit rfl (.nil rfl))

/-- The lines of a statement are allowed when its handles are reached, those
that belong to the program by way of its temporaries. -/
theorem allowed_stmt {temps : List Temp}
    (reaches : ∀ handle, handles handle →
      (∀ temp, Temp.ofHandle? handle = some temp → temp ∈ temps) →
        scope.Reaches handle.text)
    (reachesPlaces : ∀ place,
      places place → scope.Places place ∧ scope.locals = none)
    (shared : ∀ value : DefaultValue, scope.Knows value.variableName)
    {statement : Stmt} (spelled : statement.Spelled handles places)
    (depth : Nat) [deep : NeZero depth]
    (within : ∀ temp ∈ statement.temps, temp ∈ temps) :
    AllAllowed scope (Render.stmt policy depth statement) := by
  have reached : ∀ {statement : Stmt},
      (∀ temp ∈ statement.temps, temp ∈ temps) → ∀ handle,
      handles handle → handle ∈ statement.handles →
      scope.Reaches handle.text := by
    intro statement within handle known inside
    exact reaches handle known fun temp found =>
      within temp (temps_of_handle inside found)
  induction spelled generalizing depth with
  | createObject known =>
      have target := reached within _ known (by simp [Stmt.handles])
      exact List.forall_mem_singleton.mpr
        (.indented (.lit rfl (reads_last target)))
  | createArray known =>
      have target := reached within _ known (by simp [Stmt.handles])
      exact List.forall_mem_singleton.mpr
        (.indented (.lit rfl (reads_last target)))
  | setNamed known isWord alsoKnown =>
      have object := reached within _ known (by simp [Stmt.handles])
      have value := reached within _ alsoKnown (by simp [Stmt.handles])
      exact List.forall_mem_singleton.mpr (.indented
        (reads_setProperty isWord.quotable object value))
  | setElement known inside alsoKnown =>
      have array := reached within _ known (by simp [Stmt.handles])
      have value := reached within _ alsoKnown (by simp [Stmt.handles])
      refine List.forall_mem_singleton.mpr (.indented ?_)
      refine .lit rfl
        (.reached array (.split (.split (.lit rfl (by decide)))) ?_)
      refine .split (.split (.lit rfl ?_))
      refine .plain (isWord_single inside) (by decide) (.inl (by decide))
        (.lit rfl (by decide)) ?_
      exact .lit rfl (reads_last value)
  | getNamed known isWord alsoKnown =>
      have object := reached within _ known (by simp [Stmt.handles])
      have target := reached within _ alsoKnown (by simp [Stmt.handles])
      have quotable := isWord.quotable
      refine List.forall_mem_singleton.mpr (.indented ?_)
      refine .lit rfl
        (.reached object (.split (.split (.lit rfl (by decide)))) ?_)
      exact .split (.split (.lit rfl
        (.quoted quotable.1 quotable.2 (.lit rfl (reads_last target)))))
  | getElement known inside alsoKnown =>
      have array := reached within _ known (by simp [Stmt.handles])
      have target := reached within _ alsoKnown (by simp [Stmt.handles])
      refine List.forall_mem_singleton.mpr (.indented ?_)
      refine .lit rfl
        (.reached array (.split (.split (.lit rfl (by decide)))) ?_)
      refine .split (.split (.lit rfl ?_))
      refine .plain (isWord_single inside) (by decide) (.inl (by decide))
        (.lit rfl (by decide)) ?_
      exact .lit rfl (reads_last target)
  | assign known alsoKnown =>
      have target := reached within _ known (by simp [Stmt.handles])
      have value := reached within _ alsoKnown (by simp [Stmt.handles])
      refine List.forall_mem_singleton.mpr (.indented ?_)
      refine .reached target (.lit rfl (by decide)) (.lit rfl ?_)
      exact .reached value (.lit rfl (by decide)) (.lit rfl (.nil rfl))
  | @leafOut leaf source target place known =>
      have target := reached within _ known (by simp [Stmt.handles])
      rw [Render.stmt]
      exact allowed_leafOut leaf (reachesPlaces source place).1 target
  | @leafIn leaf source target known place =>
      have handle := reached within _ known (by simp [Stmt.handles])
      obtain ⟨place, free⟩ := reachesPlaces target place
      rw [Render.stmt]
      exact allowed_leafIn leaf free handle place
  | @default value target known =>
      have target := reached within _ known (by simp [Stmt.handles])
      refine List.forall_mem_singleton.mpr (.indented ?_)
      refine .reached target (.lit rfl (by decide)) (.lit rfl ?_)
      exact .reached (.name (shared value)) (.lit rfl (by decide))
        (.lit rfl (.nil rfl))
  | @forEach iterator count body inside _ induction =>
      rw [Render.stmt, AllAllowed.cons_iff, AllAllowed.block_iff]
      refine ⟨.text (reads_loopHead inside count), allowed_stmts ?_⟩
      intro statement known
      apply induction statement known (depth + 1)
      intro temp needed
      exact within temp (temps_subset known temp needed)

end Programs

end Addon

namespace Layout

/-- Where native leaves may lie: members and elements lie there with their
place. -/
structure Holds (places : Place → Prop) : Prop where
  field : ∀ place name, places place → IsWord name → places (place.field name)
  index : ∀ place iterator, places place → inWord iterator = true →
    places (place.index iterator)

def OriginWithin (places : Place → Prop) : Origin → Prop
  | .native place => places place
  | .defaults => True

/-- A handle of the program, or the one that it was given. -/
def OfProgram (given : Handle) (handle : Handle) : Prop :=
  handle = given ∨ ∃ temp, Temp.ofHandle? handle = some temp

variable {places : Place → Prop} {origin : Origin} {given dest source : Handle}
  {next : Nat} {letters : List Char} {fields : List Field}

theorem ofProgram_slot (index : Nat) : OfProgram given (.slot index) :=
  .inr ⟨_, rfl⟩

theorem ofProgram_holder (type : FieldType) (next : Nat) :
    OfProgram given (type.holder next) := by
  cases type <;> exact .inr ⟨_, rfl⟩

private theorem ofProgram_fieldHolder (field : Field) (next : Nat) :
    OfProgram given (field.holder next) := by
  unfold Field.holder
  split <;> exact .inr ⟨_, rfl⟩

theorem inWord_headD (inside : ∀ c ∈ letters, inWord c = true) :
    inWord (letters.headD 'z') = true := by
  cases letters with
  | nil => rfl
  | cons first rest => exact inside first List.mem_cons_self

private theorem originWithin_field (holds : Holds places) {name : String}
    (isWord : IsWord name) (within : OriginWithin places origin) :
    OriginWithin places (origin.field name) := by
  cases origin with
  | native place => exact holds.field place name within isWord
  | defaults => trivial

private theorem originWithin_index (holds : Holds places) {iterator : Char}
    (inside : inWord iterator = true) (within : OriginWithin places origin) :
    OriginWithin places (origin.index iterator) := by
  cases origin with
  | native place => exact holds.index place iterator within inside
  | defaults => trivial

private theorem spelled_leaf (within : OriginWithin places origin)
    (known : OfProgram given dest) (leaf : Leaf) :
    (origin.leaf leaf dest).Spelled (OfProgram given) places := by
  cases origin with
  | native place => exact .leafOut within known
  | defaults => exact .default known

/-- The statements that move a member are spelled from any handle of the
program. -/
def OutSpelled (given : Handle) (places : Place → Prop) (field : Field) :
    Prop :=
  ∀ origin dest next letters, OriginWithin places origin →
    OfProgram given dest →
    (∀ c ∈ letters, inWord c = true) →
    ∀ statement ∈ outField origin dest next letters field,
      statement.Spelled (OfProgram given) places

private theorem outMembers_spelled (holds : Holds places)
    (within : OriginWithin places origin) (known : OfProgram given dest)
    (inside : ∀ c ∈ letters, inWord c = true)
    (names : ∀ member ∈ fields, IsWord member.name)
    (members : ∀ member ∈ fields, OutSpelled given places member) :
    ∀ statement ∈ outMembers origin dest next letters fields,
      statement.Spelled (OfProgram given) places := by
  induction fields with
  | nil => exact nofun
  | cons member rest induction =>
      obtain ⟨isWord, otherNames⟩ := List.forall_mem_cons.mp names
      obtain ⟨ofMember, ofOthers⟩ := List.forall_mem_cons.mp members
      have others := induction otherNames ofOthers
      rw [outMembers]
      split
      · exact others
      · have holder := @ofProgram_fieldHolder given member next
        rw [List.forall_mem_append, List.forall_mem_cons]
        exact ⟨ofMember _ _ _ _ (originWithin_field holds isWord within)
          holder inside,
          .setNamed known isWord holder, others⟩

theorem outType_spelled (holds : Holds places) {type : FieldType}
    (within : OriginWithin places origin) (known : OfProgram given dest)
    (inside : ∀ c ∈ letters, inWord c = true) (spelled : type.Spelled)
    (members : ∀ record, type = .record record → ∀ member ∈ record.fields,
      OutSpelled given places member) :
    ∀ statement ∈ outType origin dest next letters type,
      statement.Spelled (OfProgram given) places := by
  cases type with
  | leaf leaf =>
      exact List.forall_mem_singleton.mpr (spelled_leaf within known leaf)
  | record record =>
      cases spelled with
      | record names types =>
          rw [outType_record]
          exact List.forall_mem_cons.mpr ⟨.createObject known,
            outMembers_spelled holds within known inside names
              (members record rfl)⟩

theorem outField_spelled (holds : Holds places) (field : Field)
    (spelled : field.type.Spelled) : OutSpelled given places field := by
  induction field using Field.nested_induction with
  | step field induction =>
      obtain ⟨name, type, size, flags, comment, enumName⟩ := field
      have members : ∀ record, type = .record record → ∀ member ∈ record.fields,
          OutSpelled given places member := by
        rintro record rfl member inside
        cases spelled with
        | record names types =>
            exact induction record rfl member inside (types member inside)
      intro origin dest next letters within known inside
      cases size with
      | zero => exact outType_spelled holds within known inside spelled members
      | succ size =>
          have letter := inWord_headD inside
          have holder := @ofProgram_holder given type next
          have others : ∀ c ∈ letters.tail, inWord c = true :=
            fun c later => inside c (List.mem_of_mem_tail later)
          rw [outField, List.forall_mem_cons, List.forall_mem_singleton]
          refine ⟨.createArray known,
            .forEach letter (List.forall_mem_append.mpr ⟨?_, ?_⟩)⟩
          · exact outType_spelled holds (originWithin_index holds letter within)
              holder others
              spelled members
          · exact List.forall_mem_singleton.mpr
              (.setElement known letter holder)

theorem outDataset_spelled (holds : Holds places)
    (within : OriginWithin places origin)
    (inside : ∀ c ∈ letters, inWord c = true) {dataset : Field}
    (spelled : dataset.type.Spelled) :
    ∀ statement ∈ outDataset origin given next letters dataset,
      statement.Spelled (OfProgram given) places := by
  have field : OutSpelled given places dataset :=
    outField_spelled holds dataset spelled
  unfold outDataset
  split
  · rename_i record type size
    rw [List.forall_mem_append, List.forall_mem_singleton]
    rw [type] at spelled
    refine ⟨?_, .assign (.inl rfl) (ofProgram_slot next)⟩
    refine outType_spelled holds within (ofProgram_slot next) inside spelled ?_
    intro other same member known
    cases same
    cases spelled with
    | record names types =>
        exact outField_spelled holds member (types member known)
  · exact field origin given next letters within (.inl rfl) inside

/-- The statements that read a member are spelled for any handle of the
program. -/
def InSpelled (given : Handle) (places : Place → Prop) (field : Field) : Prop :=
  ∀ source dest next letters, OfProgram given source → places dest →
    (∀ c ∈ letters, inWord c = true) →
    ∀ statement ∈ inField source dest next letters field,
      statement.Spelled (OfProgram given) places

private theorem inMembers_spelled (holds : Holds places) {dest : Place}
    (known : OfProgram given source) (within : places dest)
    (inside : ∀ c ∈ letters, inWord c = true)
    (names : ∀ member ∈ fields, IsWord member.name)
    (members : ∀ member ∈ fields, InSpelled given places member) :
    ∀ statement ∈ inMembers source dest next letters fields,
      statement.Spelled (OfProgram given) places := by
  induction fields with
  | nil => exact nofun
  | cons member rest induction =>
      obtain ⟨isWord, otherNames⟩ := List.forall_mem_cons.mp names
      obtain ⟨ofMember, ofOthers⟩ := List.forall_mem_cons.mp members
      have others := induction otherNames ofOthers
      rw [inMembers]
      split
      · exact others
      · have slot := @ofProgram_slot given next
        rw [List.forall_mem_cons, List.forall_mem_append]
        exact ⟨.getNamed known isWord slot,
          ofMember _ _ _ _ slot (holds.field dest member.name within isWord)
            inside, others⟩

theorem inType_spelled (holds : Holds places) {type : FieldType} {dest : Place}
    (known : OfProgram given source) (within : places dest)
    (inside : ∀ c ∈ letters, inWord c = true) (spelled : type.Spelled)
    (members : ∀ record, type = .record record → ∀ member ∈ record.fields,
      InSpelled given places member) :
    ∀ statement ∈ inType source dest next letters type,
      statement.Spelled (OfProgram given) places := by
  cases type with
  | leaf leaf => exact List.forall_mem_singleton.mpr (.leafIn known within)
  | record record =>
      cases spelled with
      | record names types =>
          rw [inType_record]
          exact inMembers_spelled holds known within inside names
            (members record rfl)

theorem inField_spelled (holds : Holds places) (field : Field)
    (spelled : field.type.Spelled) : InSpelled given places field := by
  induction field using Field.nested_induction with
  | step field induction =>
      obtain ⟨name, type, size, flags, comment, enumName⟩ := field
      have members : ∀ record, type = .record record → ∀ member ∈ record.fields,
          InSpelled given places member := by
        rintro record rfl member inside
        cases spelled with
        | record names types =>
            exact induction record rfl member inside (types member inside)
      intro source dest next letters known within inside
      cases size with
      | zero => exact inType_spelled holds known within inside spelled members
      | succ size =>
          have letter := inWord_headD inside
          have holder := @ofProgram_holder given type next
          have others : ∀ c ∈ letters.tail, inWord c = true :=
            fun c later => inside c (List.mem_of_mem_tail later)
          rw [inField, List.forall_mem_singleton]
          refine .forEach letter
            (List.forall_mem_cons.mpr ⟨.getElement known letter holder, ?_⟩)
          exact inType_spelled holds holder (holds.index dest _ within letter)
            others spelled
            members

theorem inDataset_spelled (holds : Holds places) {dest : Place}
    (within : places dest) (inside : ∀ c ∈ letters, inWord c = true)
    {dataset : Field} (spelled : dataset.type.Spelled) :
    ∀ statement ∈ inDataset given dest next letters dataset,
      statement.Spelled (OfProgram given) places := by
  have field : InSpelled given places dataset :=
    inField_spelled holds dataset spelled
  unfold inDataset
  split
  · rename_i record type size
    rw [List.forall_mem_cons]
    rw [type] at spelled
    refine ⟨.assign (ofProgram_slot next) (.inl rfl), ?_⟩
    refine inType_spelled holds (ofProgram_slot next) within inside spelled ?_
    intro other same member known
    cases same
    cases spelled with
    | record names types =>
        exact inField_spelled holds member (types member known)
  · exact field given dest next letters (.inl rfl) within inside

end Layout

end DataBridge
