import DataBridge.Proofs.Program.Borrowed

/-!
# Temporaries in a program's text

The lines of a statement name the variables that the statement is recorded to
need, each at its native type, and no others.
-/

namespace DataBridge

/-- Lines name these variables, and each at its native type. -/
structure Source.Names (source : Source) (temps : List Temp) : Prop where
  closed : ∀ line ∈ source, Text.closes line.render.toList = true
  names : ∀ name, (∃ line ∈ source, name ∈ temporaries line.render) ↔
    ∃ temp ∈ temps, temp.identifier = name
  used : ∀ line ∈ source,
    ∀ temp : Temp, temp.identifier ∈ temporaries line.render →
    UsedAt line.render temp.identifier temp.nativeType

namespace Source.Names

variable {first second source : Source} {temps others : List Temp}
  {pieces : List Piece}

theorem nil : Source.Names [] [] := by
  constructor <;> simp

theorem append (left : first.Names temps) (right : second.Names others) :
    Source.Names (first ++ second) (temps ++ others) := by
  constructor
  · intro line known
    exact (List.mem_append.mp known).elim (left.closed line) (right.closed line)
  · intro name
    simp only [List.mem_append, or_and_right, exists_or, left.names,
      right.names]
  · intro line known
    exact (List.mem_append.mp known).elim (left.used line) (right.used line)

theorem congr (names : source.Names temps)
    (same : ∀ temp, temp ∈ temps ↔ temp ∈ others) : source.Names others where
  closed := names.closed
  names name := by simp only [names.names, same]
  used := names.used

/-- The temporaries of the whole text are those of its lines. -/
theorem mem_temporaries_iff (names : source.Names temps) {name : String} :
    name ∈ temporaries source.render ↔
      ∃ temp ∈ temps, temp.identifier = name := by
  rw [← names.names]
  have closed := names.closed
  clear names
  induction source with
  | nil => simp [Source.render, temporaries, Text.words, Text.runs]
  | cons line rest induction =>
      -- a line break ends each line, so no word runs across two of them
      have ends := closed line List.mem_cons_self
      have words : temporaries (Source.render (line :: rest)) =
          temporaries line.render ++ temporaries (Source.render rest) := by
        rw [Source.render, List.map_cons, String.join_cons, ← Source.render,
          temporaries, Text.words_append_of_closes _ ends, List.filter_append,
          ← temporaries, ← temporaries]
      have later := induction fun line known => closed line (.tail _ known)
      simp [words, later]

theorem line (depth : Nat) {text : String}
    (shape : String.join (pieces.map Piece.render) = text)
    (names : temporaries text = temps.map Temp.identifier)
    (used : ∀ temp ∈ temps,
      UsedAt (indentation depth ++ (text ++ "\n")) temp.identifier
        temp.nativeType) :
    Source.Names [.indented depth pieces] temps := by
  have rendered : (Line.indented depth pieces).render =
      indentation depth ++ (text ++ "\n") := by
    rw [Line.render, shape, String.append_assoc]
  have words : temporaries (Line.indented depth pieces).render =
      temps.map Temp.identifier := by
    rw [rendered, temporaries_indentation,
      temporaries_last _ (by decide) (by decide), names]
  constructor
  · intro line known
    rw [List.mem_singleton.mp known, Line.render, String.toList_append]
    exact Text.closes_append _ (by decide)
  · intro name
    simp [words]
  · intro line known temp named
    rw [List.mem_singleton.mp known, words] at named
    obtain ⟨other, inside, same⟩ := List.mem_map.mp named
    rw [List.mem_singleton.mp known, rendered, ← Temp.identifier_injective same]
    exact used other inside

theorem plain (depth : Nat) {text : String}
    (names : temporaries text = temps.map Temp.identifier)
    (used : ∀ temp ∈ temps,
      UsedAt (indentation depth ++ (text ++ "\n")) temp.identifier
        temp.nativeType) :
    Source.Names [.plain depth text] temps :=
  line depth (by simp [Piece.render]) names used

theorem quiet (depth : Nat) {text : String} (none : temporaries text = []) :
    Source.Names [.plain depth text] [] :=
  plain depth none (by simp)

theorem block (depth : Nat) (names : source.Names temps) :
    (Source.block depth source).Names temps := by
  have opening := @quiet depth r"{" (temporaries_fixed (by decide))
  have closing := @quiet depth r"}" (temporaries_fixed (by decide))
  have all := opening.append (names.append closing)
  rw [List.nil_append, List.append_nil] at all
  exact all

theorem call (depth : Nat) {start finish function : String}
    {arguments parameters : List String} (frame : (start, finish) ∈ callFrames)
    (known : (function, parameters) ∈ signatures)
    (fits : Arguments arguments parameters temps)
    (shape : String.join (pieces.map Piece.render) =
      start ++ (callText function arguments ++ finish)) :
    Source.Names [.indented depth pieces] temps := by
  apply line depth shape
  · have inner : ∀ chars, Text.opens chars = true → calm chars = true →
        ")" ++ finish = String.ofList chars →
        temporaries (callText function arguments ++ finish) =
            temps.map Temp.identifier := by
      intro chars begins none ends
      simp only [callText, String.append_assoc]
      rw [ends, temporaries_function known, fits.temporaries_eq begins none]
    simp only [callFrames, List.mem_cons, Prod.mk.injEq, List.not_mem_nil,
      or_false] at frame
    rcases frame with ⟨rfl, rfl⟩ | ⟨rfl, rfl⟩
    · rw [String.empty_append]
      exact inner [')', ';'] (by decide) (by decide) rfl
    · rw [temporaries_start _ (by decide) (by decide)]
      exact inner [')', ')'] (by decide) (by decide) rfl
  · intro temp inside
    obtain ⟨argument, parameter, position, passes⟩ := fits.position inside
    have text :
        indentation depth ++
          (start ++ (callText function arguments ++ finish) ++ "\n") =
        indentation depth ++
          (start ++ (callText function arguments ++ (finish ++ "\n"))) := by
      simp only [String.append_assoc]
    exact .passed frame known text fits.length_eq position passes

end Source.Names

theorem OnFailure.lines_names (policy : OnFailure) (depth : Nat) :
    Source.Names (policy.lines depth) [] := by
  cases policy with
  | throw => exact .nil
  | throwAndReturn => exact .quiet depth (temporaries_fixed (by decide))

namespace Render

variable {policy : OnFailure} {depth : Nat} {temps : List Temp}

section Calls

variable {function : String} {arguments parameters : List String}

/-- A call that is a statement of its own. -/
theorem plainCall_names {pieces : List Piece}
    (known : (function, parameters) ∈ signatures)
    (fits : Arguments arguments parameters temps)
    (shape : (String.join (pieces.map Piece.render)).toList =
      (callText function arguments ++ ";").toList) :
    Source.Names [.indented depth pieces] temps := by
  have text : String.join (pieces.map Piece.render) =
      "" ++ (callText function arguments ++ ";") := by
    rw [String.toList_injective shape, String.empty_append]
  exact .call depth (by simp [callFrames]) known fits text

/-- A call whose failure is reported. -/
theorem checked_names {call : List Piece} {code message : String}
    (known : (function, parameters) ∈ signatures)
    (fits : Arguments arguments parameters temps)
    (shape : (String.join (call.map Piece.render)).toList =
      (callText function arguments).toList)
    (noneCode : temporaries code = [])
    (noneMessage : temporaries message = []) :
    (checked policy depth call code message).Names temps := by
  have condition : Source.Names
      [.indented depth (.text "if (napi_ok != " :: (call ++ [.text ")"]))]
          temps := by
    have text :
        String.join ((.text "if (napi_ok != " :: (call ++ [.text ")"])).map
          Piece.render) =
          "if (napi_ok != " ++ (callText function arguments ++ ")") := by
      rw [← String.toList_injective shape]
      simp [Piece.render]
    exact .call depth (by simp [callFrames]) known fits text
  have report : Source.Names
      [.plain (depth + 1) ("napi_throw_error(env, \"" ++ code ++ "\", \"" ++
          message ++ "\");")]
      [] := by
    apply Source.Names.quiet
    simp only [String.append_assoc]
    rw [temporaries_start _ (by decide) (by decide),
      temporaries_between _ _ (by decide) (by decide) (by decide),
      temporaries_last _ (by decide) (by decide), noneCode, noneMessage,
      List.append_nil]
  have all :=
    condition.append
      ((report.append (policy.lines_names (depth + 1))).block depth)
  rw [List.append_nil, List.append_nil] at all
  exact all

end Calls

section LeafOut

variable {source : Place} {target : Handle}

private theorem leafOutCall_fits (leaf : Leaf)
    (quietSource : Quiet source.borrowed)
    (quietTarget : Quiet target.borrowed) :
    ∃ function arguments parameters, (function, parameters) ∈ signatures ∧
      Arguments arguments parameters target.temps ∧
      (String.join
        ((leafOutCall leaf source target).1.map Piece.render)).toList =
          (callText function arguments).toList := by
  have place := temporaries_place quietSource
  have address : Arguments ["&" ++ target.text] ["napi_value*"] target.temps :=
    .last (.address quietTarget)
  have casted : ∀ chars, Text.closes chars = true → calm chars = true →
      temporaries (String.ofList chars ++ source.text) = [] := by
    intro chars ends none
    rw [temporaries_start _ ends none, place]
  cases leaf with
  | bool =>
      refine ⟨"napi_get_boolean", _, _, by simp [signatures],
        address.quiet "bool" place, ?_⟩
      simp [leafOutCall, callText, handle, uses, Piece.render]
  | integer type =>
      rw [leafOutCall]
      cases type.signed with
      | true =>
          have none : temporaries ("(int32_t)" ++ source.text) = [] :=
            casted _ (by decide) (by decide)
          refine ⟨"napi_create_int32", _, _, by simp [signatures],
            address.quiet "int32_t" none, ?_⟩
          simp [callText, handle, uses, Piece.render]
      | false =>
          have none : temporaries ("(uint32_t)" ++ source.text) = [] :=
            casted _ (by decide) (by decide)
          refine ⟨"napi_create_uint32", _, _, by simp [signatures],
            address.quiet "uint32_t" none, ?_⟩
          simp [callText, handle, uses, Piece.render]
  | float type =>
      have none : temporaries ("(double)" ++ source.text) = [] :=
        casted _ (by decide) (by decide)
      refine ⟨"napi_create_double", _, _, by simp [signatures],
        address.quiet "double" none, ?_⟩
      simp [leafOutCall, callText, handle, uses, Piece.render]
  | string length =>
      have measure :
          temporaries ("strnlen(" ++
              (source.text ++ (", " ++ (toString length ++ ")")))) = [] := by
        rw [temporaries_start _ (by decide) (by decide),
          temporaries_between _ _ (by decide) (by decide) (by decide), place,
          List.nil_append, temporaries_last _ (by decide) (by decide),
          temporaries_digits]
      refine ⟨"napi_create_string_utf8", _, _, by simp [signatures],
        (address.quiet "size_t" measure).quiet "const char*" place, ?_⟩
      simp [leafOutCall, callText, handle, uses, Piece.render]

private theorem temporaries_words (leaf : Leaf) (source : Place)
    (target : Handle) :
    temporaries (leafOutCall leaf source target).2 = [] := by
  cases leaf with
  | integer type =>
      rw [leafOutCall]
      cases type.signed <;> exact temporaries_fixed (by decide)
  | bool | float type | string length => exact temporaries_fixed (by decide)

private theorem leafOut_names (leaf : Leaf)
    (quietSource : Quiet source.borrowed)
    (quietTarget : Quiet target.borrowed) :
    (leafOut policy depth leaf source target).Names target.temps := by
  obtain ⟨function, arguments, parameters, known, fits, shape⟩ :=
    leafOutCall_fits leaf quietSource quietTarget
  have message : temporaries
      ("Can't convert " ++ source.path ++ " to " ++
          (leafOutCall leaf source target).2) = [] := by
    rw [String.append_assoc, String.append_assoc,
      temporaries_start _ (by decide) (by decide),
      temporaries_between _ _ (by decide) (by decide) (by decide),
      temporaries_path quietSource, List.nil_append, temporaries_words]
  exact checked_names known fits shape (temporaries_fixed (by decide)) message

end LeafOut

section LeafIn

variable {source : Handle} {target : Place}

private theorem cast_names (depth : Nat) {kind text : String} (temp : Temp)
    (quietTarget : Quiet target.borrowed) (noneKind : temporaries kind = [])
    (number : temp.nativeType ∈ numberTypes)
    (shape : text.toList =
      (target.text ++
        (" = (" ++ (kind ++ (")" ++ (temp.identifier ++ ";"))))).toList) :
    Source.Names [.plain depth text] [temp] := by
  rw [String.toList_injective shape]
  apply Source.Names.plain
  · rw [temporaries_between _ _ (by decide) (by decide) (by decide),
      temporaries_place quietTarget, List.nil_append,
      temporaries_between _ _ (by decide) (by decide) (by decide), noneKind,
      List.nil_append, temporaries_last _ (by decide) (by decide),
      Temp.temporaries_identifier, List.map_singleton]
  · intro other known
    rw [List.mem_singleton.mp known]
    refine @UsedAt.cast _ _ _ depth target.text kind ?_ number
    simp only [String.append_assoc]
    rfl

private theorem compared_names (depth length : Nat) :
    Source.Names [.plain depth ("if (_r > " ++ toString length ++ ")")]
      [.lengthScratch] := by
  have shape : "if (_r > " ++ toString length ++ ")" =
      "if (" ++ (Temp.lengthScratch.identifier ++
          (" > " ++ (toString length ++ ")"))) := by
    apply String.toList_injective
    simp [Temp.identifier]
  rw [shape]
  apply Source.Names.plain
  · rw [temporaries_start _ (by decide) (by decide),
      temporaries_between _ _ (by decide) (by decide) (by decide),
      temporaries_last _ (by decide) (by decide), temporaries_digits,
      List.append_nil, Temp.temporaries_identifier, List.map_singleton]
  · intro other known
    rw [List.mem_singleton.mp known]
    refine @UsedAt.compared _ _ _ depth (toString length) ?_
      (by simp [numberTypes, Temp.nativeType])
    simp only [String.append_assoc]
    rfl

theorem read_names (function : String) {call : List Piece} {words : List Char}
    {arguments parameters : List String} (quietSource : Quiet source.borrowed)
    (quietTarget : Quiet target.borrowed)
    (known : (function, "napi_value" :: parameters) ∈ signatures)
    (others : Arguments arguments parameters temps)
    (shape : (String.join (call.map Piece.render)).toList =
      (callText function (source.text :: arguments)).toList)
    (ends : Text.closes words = true) (none : calm words = true) :
    (checked policy depth call "EINVAL"
      (String.ofList words ++ target.path)).Names (source.temps ++ temps) := by
  apply checked_names known (.cons (.value quietSource) others) shape
    (temporaries_fixed (by decide))
  rw [temporaries_start _ ends none, temporaries_path quietTarget]

/-- A number goes through a scratch variable, from which it is cast. -/
theorem number_names (function : String) (temp : Temp) {call : List Piece}
    {words : List Char} {kind text : String}
    (quietSource : Quiet source.borrowed) (quietTarget : Quiet target.borrowed)
    (noneKind : temporaries kind = [])
    (known : (function, ["napi_value", temp.nativeType ++ "*"]) ∈ signatures)
    (number : temp.nativeType ∈ numberTypes)
    (reads : (String.join (call.map Piece.render)).toList =
      (callText function [source.text, "&" ++ temp.identifier]).toList)
    (ends : Text.closes words = true) (none : calm words = true)
    (casts : text.toList =
      (target.text ++
        (" = (" ++ (kind ++ (")" ++ (temp.identifier ++ ";"))))).toList) :
    (checked policy depth call "EINVAL" (String.ofList words ++ target.path) ++
      [Line.plain depth text]).Names (source.temps ++ [temp]) := by
  have read :=
    @read_names policy depth _ _ _ function call _ _ _ quietSource
      quietTarget known
    (.last (.scratch temp)) reads ends none
  apply (read.append
    (cast_names depth temp quietTarget noneKind number casts)).congr
  simp

/-- A string is measured, compared with its bound and copied. -/
theorem string_names (length : Nat) (quietSource : Quiet source.borrowed)
    (quietTarget : Quiet target.borrowed) :
    (leafIn policy depth (.string length) source target).Names
      (source.temps ++ [.lengthScratch]) := by
  have place := temporaries_place quietTarget
  have scratch : Arguments ["&" ++ Temp.lengthScratch.identifier] ["size_t*"]
      [.lengthScratch] :=
    .last (.scratch .lengthScratch)
  have measure :
      (checked policy depth
        ["napi_get_value_string_utf8(env, ", handle source, ", NULL, 0, &_r)"]
        "EINVAL" ("Expected string for " ++ target.path)).Names
        (source.temps ++ [.lengthScratch]) := by
    have others := (scratch.quiet "size_t" (temporaries_digits 0)).quiet "char*"
      (temporaries_fixed (by decide) : temporaries "NULL" = [])
    apply read_names "napi_get_value_string_utf8" quietSource quietTarget
      (by simp [signatures])
      others _ (by decide) (by decide)
    simp [callText, handle, uses, Piece.render, Temp.identifier]
  have report : Source.Names [.plain (depth + 1)
      ("napi_throw_range_error(env, \"ERANGE\", \"String too long for " ++
        target.path ++
        " (max " ++ toString length ++ " bytes)\");")] [] := by
    apply Source.Names.quiet
    simp only [String.append_assoc]
    rw [temporaries_start _ (by decide) (by decide),
      temporaries_between _ _ (by decide) (by decide) (by decide),
      temporaries_path quietTarget, List.nil_append,
      temporaries_last _ (by decide) (by decide), temporaries_digits]
  have refuse := (report.append (policy.lines_names (depth + 1))).block depth
  have copy :
      (checked policy depth
        ["napi_get_value_string_utf8(env, ", handle source,
          ", " ++ target.text ++ ", sizeof(" ++ target.text ++ "), &_r)"]
        "EINVAL" ("Expected string for " ++ target.path)).Names
        (source.temps ++ [.lengthScratch]) := by
    have size : temporaries ("sizeof(" ++ (target.text ++ ")")) = [] := by
      rw [temporaries_start _ (by decide) (by decide),
        temporaries_last _ (by decide) (by decide), place]
    have others := (scratch.quiet "size_t" size).quiet "char*" place
    apply read_names "napi_get_value_string_utf8" quietSource quietTarget
      (by simp [signatures])
      others _ (by decide) (by decide)
    simp [callText, handle, uses, Piece.render, Temp.identifier]
  apply ((measure.append ((compared_names depth length).append refuse)).append
    copy).congr
  grind

private theorem leafIn_names (leaf : Leaf) (quietSource : Quiet source.borrowed)
    (quietTarget : Quiet target.borrowed) :
    (leafIn policy depth leaf source target).Names
      (source.temps ++ (Temp.scratch? leaf).toList) := by
  cases leaf with
  | bool =>
      have result : temporaries ("&" ++ target.text) = [] := by
        rw [temporaries_start _ (by decide) (by decide),
          temporaries_place quietTarget]
      apply read_names "napi_get_value_bool" quietSource quietTarget
        (by simp [signatures])
        (Arguments.nil.quiet "bool*" result) _ (by decide) (by decide)
      simp [callText, handle, uses, Piece.render]
  | integer type =>
      have kind : temporaries type.nativeType = [] := by
        cases type <;> exact temporaries_fixed (by decide)
      refine number_names "napi_get_value_int32" .intScratch quietSource
        quietTarget kind
        (by simp [signatures, Temp.nativeType])
          (by simp [numberTypes, Temp.nativeType]) ?_ ?_ ?_ ?_
      · simp [callText, handle, uses, Piece.render, Temp.identifier]
      · decide
      · decide
      · simp [Temp.identifier]
  | float type =>
      have kind : temporaries type.nativeType = [] := by
        cases type <;> exact temporaries_fixed (by decide)
      refine number_names "napi_get_value_double" .floatScratch quietSource
        quietTarget kind
        (by simp [signatures, Temp.nativeType])
          (by simp [numberTypes, Temp.nativeType]) ?_ ?_ ?_ ?_
      · simp [callText, handle, uses, Piece.render, Temp.identifier]
      · decide
      · decide
      · simp [Temp.identifier]
  | string length => exact string_names length quietSource quietTarget

end LeafIn

theorem assign_names (depth : Nat) {target value : Handle}
    (quietTarget : Quiet target.borrowed) (quietValue : Quiet value.borrowed) :
    Source.Names [.indented depth [handle target, " = ", handle value, ";"]]
      (target.temps ++ value.temps) := by
  have shape :
      String.join ([handle target, .text " = ", handle value,
        .text ";"].map Piece.render) =
        target.text ++ (" = " ++ (value.text ++ ";")) := by
    simp [handle, uses, Piece.render]
  apply Source.Names.line depth shape
  · rw [temporaries_between _ _ (by decide) (by decide) (by decide),
      temporaries_last _ (by decide) (by decide),
      temporaries_handle quietTarget, temporaries_handle quietValue,
      List.map_append]
  · intro temp known
    have side :=
      (List.mem_append.mp known).imp text_of_mem_temps text_of_mem_temps
    have text : temp.identifier = target.text ∨ temp.identifier = value.text :=
      side.imp (·.1.symm) (·.1.symm)
    have type : temp.nativeType = "napi_value" := side.elim (·.2) (·.2)
    refine @UsedAt.assigned _ _ _ depth target.text value.text ?_ text type
    simp only [String.append_assoc]
    rfl

private theorem loopHead_names (depth : Nat) (iterator : Char) (count : Nat) :
    Source.Names [.plain depth (loopHead iterator count)] [] := by
  apply Source.Names.quiet
  -- the iterator is any character, but each time it stands between delimiters
  unfold loopHead
  simp only [String.append_assoc]
  rw [temporaries_start _ (by decide) (by decide),
    temporaries_between _ _ (by decide) (by decide) (by decide),
    temporaries_between _ _ (by decide) (by decide) (by decide),
    temporaries_between _ _ (by decide) (by decide) (by decide),
    temporaries_last _ (by decide) (by decide), temporaries_single,
    temporaries_digits]
  rfl

theorem temporaries_quoted {name : String} (none : temporaries name = []) :
    temporaries ("\"" ++ (name ++ "\"")) = [] := by
  rw [temporaries_start _ (by decide) (by decide),
    temporaries_last _ (by decide) (by decide), none]

/-- The variables of a statement that reads no leaf and is no loop. -/
theorem names_of_handles {source : Source} {statement : Stmt}
    {handles : List Handle}
    (same : statement.temps = handles.filterMap Temp.ofHandle? ++ [])
    (names : source.Names (handles.flatMap Handle.temps)) :
    source.Names statement.temps := by
  rw [same, List.append_nil, List.filterMap_eq_flatMap_toList]
  exact names

/-- A call with two handles and an argument that names no variable between
them. -/
theorem pairCall_names {pieces : List Piece}
    {function middle kind parameter last : String} {first second : Handle}
    (known : (function, ["napi_value", kind, parameter]) ∈ signatures)
    (quietFirst : Quiet first.borrowed) (none : temporaries middle = [])
    (final : Argument last parameter second.temps)
    (shape : (String.join (pieces.map Piece.render)).toList =
      (callText function [first.text, middle, last] ++ ";").toList) :
    Source.Names [.indented depth pieces]
    ([first, second].flatMap Handle.temps) :=
  plainCall_names known
    (.cons (.value quietFirst) (.quiet kind none (.cons final .nil))) shape

mutual

/-- The lines of a statement name its variables, by cases on the statement. -/
theorem stmt_names (policy : OnFailure) (depth : Nat) (statement : Stmt)
    (quiet : Quiet statement.borrowed) :
    (stmt policy depth statement).Names statement.temps := by
  cases statement with
  | createObject target =>
      have quietTarget : Quiet target.borrowed := by
        simpa [Stmt.borrowed, Stmt.handles] using quiet
      apply names_of_handles rfl
      apply plainCall_names
        (by simp [signatures] : ("napi_create_object", ["napi_value*"]) ∈ _)
        (.cons (.address quietTarget) .nil)
      simp [callText, handle, uses, Piece.render]
  | createArray target =>
      have quietTarget : Quiet target.borrowed := by
        simpa [Stmt.borrowed, Stmt.handles] using quiet
      apply names_of_handles rfl
      apply plainCall_names
        (by simp [signatures] : ("napi_create_array", ["napi_value*"]) ∈ _)
        (.cons (.address quietTarget) .nil)
      simp [callText, handle, uses, Piece.render]
  | setNamed object name value =>
      simp only [Stmt.borrowed, quiet_cons, quiet_append] at quiet
      obtain ⟨noneName, quietObject, quietValue⟩ := quiet
      apply names_of_handles rfl
      apply @pairCall_names depth _ "napi_set_named_property"
        _ "const char*" _ _ _ _
        (by simp [signatures]) quietObject (temporaries_quoted noneName)
        (.value quietValue)
      simp [callText, handle, uses, Piece.render]
  | getNamed object name target =>
      simp only [Stmt.borrowed, quiet_cons, quiet_append] at quiet
      obtain ⟨noneName, quietObject, quietTarget⟩ := quiet
      apply names_of_handles rfl
      apply @pairCall_names depth _ "napi_get_named_property"
        _ "const char*" _ _ _ _
        (by simp [signatures]) quietObject (temporaries_quoted noneName)
        (.address quietTarget)
      simp [callText, handle, uses, Piece.render]
  | setElement array index value =>
      simp only [Stmt.borrowed, Stmt.handles, List.flatMap_cons, quiet_append]
        at quiet
      obtain ⟨quietArray, quietValue, -⟩ := quiet
      apply names_of_handles rfl
      apply @pairCall_names depth _ "napi_set_element" _ "uint32_t" _ _ _ _
        (by simp [signatures]) quietArray (temporaries_single index)
        (.value quietValue)
      simp [callText, handle, uses, Piece.render]
  | getElement array index target =>
      simp only [Stmt.borrowed, Stmt.handles, List.flatMap_cons, quiet_append]
        at quiet
      obtain ⟨quietArray, quietTarget, -⟩ := quiet
      apply names_of_handles rfl
      apply @pairCall_names depth _ "napi_get_element" _ "uint32_t" _ _ _ _
        (by simp [signatures]) quietArray (temporaries_single index)
        (.address quietTarget)
      simp [callText, handle, uses, Piece.render]
  | assign target value =>
      simp only [Stmt.borrowed, Stmt.handles, List.flatMap_cons, quiet_append]
        at quiet
      obtain ⟨quietTarget, quietValue, -⟩ := quiet
      apply @names_of_handles _ _ [target, value] rfl
      rw [List.flatMap_cons, List.flatMap_singleton]
      exact assign_names depth quietTarget quietValue
  | leafOut leaf source target =>
      simp only [Stmt.borrowed, quiet_append] at quiet
      apply @names_of_handles _ _ [target] rfl
      rw [List.flatMap_singleton]
      exact leafOut_names leaf quiet.1 quiet.2
  | leafIn leaf source target =>
      simp only [Stmt.borrowed, quiet_append] at quiet
      have same : (Stmt.leafIn leaf source target).temps =
          [source].flatMap Handle.temps ++ (Temp.scratch? leaf).toList := by
        rw [Stmt.temps, List.filterMap_eq_flatMap_toList]
        · rfl
        · simp
      rw [same, List.flatMap_singleton]
      exact leafIn_names leaf quiet.1 quiet.2
  | default value target =>
      have quietTarget : Quiet target.borrowed := by
        simpa [Stmt.borrowed, Stmt.handles] using quiet
      have quietValue :
          Quiet (Handle.external value.variableName).borrowed := by
        rw [Handle.borrowed, quiet_cons]
        cases value <;> exact ⟨temporaries_fixed (by decide), quiet_nil⟩
      -- a shared default value is an expression of the code around the program
      have names := assign_names depth quietTarget quietValue
      rw [show (Handle.external value.variableName).temps = [] from rfl,
        List.append_nil] at names
      apply @names_of_handles _ _ [target] rfl
      rw [List.flatMap_singleton]
      exact names
  | forEach iterator count body =>
      have names := (stmts_names policy (depth + 1) body quiet).block depth
      exact (loopHead_names depth iterator count).append names

theorem stmts_names (policy : OnFailure) (depth : Nat) (statements : List Stmt)
    (quiet : Quiet (Stmt.borrowedList statements)) :
    (stmts policy depth statements).Names (Stmt.tempsList statements) := by
  cases statements with
  | nil => exact .nil
  | cons first rest =>
      rw [Stmt.borrowedList, quiet_append] at quiet
      exact (stmt_names policy depth first quiet.1).append
        (stmts_names policy depth rest quiet.2)

end

end Render

end DataBridge
