import DataBridge.Proofs.Addon.Order

/-!
# First lines of functions

A function is told by its first line: its result, its name and its parameters.
The text of a module begins exactly the functions that the datamodel asks for.
-/

namespace DataBridge

open Text (inWord IsWord)

namespace Addon

variable {model : Datamodel} {scope : Scope} {function : Function}
  {functions : List Function}

/-- The line that begins the function that runs when the module is loaded. -/
def startHeading (model : Datamodel) : String :=
  heading "napi_value" (initName model) "napi_env env, napi_value exports"

section Headings

theorem heading_toList (result name parameters : String) :
    (heading result name parameters).toList = "static ".toList ++
      (result.toList ++ ' ' ::
        (name.toList ++ '(' :: (parameters.toList ++ [')']))) := by
  simp [heading]

theorem cut_unique {c : Char} (apart : inWord c = false) {first second : String}
    (isWord : IsWord first) (alsoWord : IsWord second) {rest other : List Char}
    (same : first.toList ++ c :: rest = second.toList ++ c :: other) :
    first = second ∧ rest = other := by
  have word : ∀ {text : String} (behind : List Char), IsWord text →
      (text.toList ++ c :: behind).takeWhile inWord = text.toList := by
    intro text behind isWord
    rw [List.takeWhile_append_of_pos isWord.2,
      List.takeWhile_cons_of_neg (by simp [apart]), List.append_nil]
  have words := congrArg (List.takeWhile inWord) same
  rw [word rest isWord, word other alsoWord] at words
  rw [words] at same
  exact ⟨String.toList_injective words,
    List.tail_eq_of_cons_eq (List.append_cancel_left same)⟩

private theorem heading_inj {result other name second parameters more : String}
    (isResult : IsWord result) (alsoResult : IsWord other)
    (isName : IsWord name) (alsoName : IsWord second) :
    heading result name parameters = heading other second more ↔
      result = other ∧ name = second ∧ parameters = more := by
  constructor
  · intro same
    have chars := congrArg String.toList same
    rw [heading_toList, heading_toList, List.append_cancel_left_eq] at chars
    obtain ⟨results, chars⟩ := cut_unique (by decide) isResult alsoResult chars
    obtain ⟨names, chars⟩ := cut_unique (by decide) isName alsoName chars
    exact ⟨results, names,
      String.toList_injective (List.append_cancel_right chars)⟩
  · rintro ⟨rfl, rfl, rfl⟩
    rfl

theorem Aside.ne_heading {line : Line} (aside : Aside scope line)
    (result name parameters : String) :
    line.content ≠ heading result name parameters := by
  intro same
  have chars := congrArg String.toList same
  rw [heading_toList] at chars
  rcases aside.apart with begins | ends
  · rw [chars] at begins
    exact begins rfl
  · rw [chars] at ends
    simp [List.getLast?_cons, List.getLast?_append] at ends

end Headings

section Text

private theorem isFunctionLine_iff {line : Line} :
    line ∈ function.lines ↔ line ∈ function.comment ∨
    line = .indented 0 ["static ", function.result, " ",
      definesFunction function.name, "(", function.parameters,
      ")"] ∨ line = .plain 0 r"{" ∨ line ∈ function.body ∨
      line = .plain 0 r"}" ∨ line = .blank := by
  simp [Function.lines, Source.block]

theorem content_head (function : Function) :
    (Line.indented 0 ["static ", function.result, " ",
      definesFunction function.name, "(", function.parameters, ")"]).content =
      heading function.result function.name function.parameters := by
  apply String.toList_injective
  rw [content_indented, heading_toList]
  simp [indentation, Piece.render, definesFunction]

theorem content_lines (function : Function) : function.lines.map Line.content =
    function.comment.map Line.content ++
      ([heading function.result function.name function.parameters, r"{"] ++
        (function.body.map Line.content ++ [r"}", ""])) := by
  rw [Function.lines, List.map_append, List.map_append, List.map_cons,
    content_head]
  simp [Source.block, indentation]

/-- The lines of a function but for its first. -/
theorem Function.Fits.line (fits : function.Fits scope)
    (free : scope.locals = none) {line : Line}
    (inside : line ∈ function.lines) :
    Readable scope line ∧ (Aside scope line ∨
      line.content =
        heading function.result function.name function.parameters) := by
  have brace : Allowed scope (.plain 0 r"{") ∧ Allowed scope (.plain 0 r"}") :=
    ⟨.brace (by decide) rfl rfl, .brace (by decide) rfl rfl⟩
  have aside : ∀ {line : Line}, Allowed scope line →
      Readable scope line ∧ (Aside scope line ∨
        line.content =
          heading function.result function.name function.parameters) :=
    fun allowed => ⟨allowed.toReadable, .inl allowed.aside⟩
  rcases isFunctionLine_iff.mp inside with known | rfl | rfl | known | rfl | rfl
  · exact aside (fits.comment line known)
  · refine ⟨.indented ?_, .inr (content_head function)⟩
    exact reads_head free fits.result fits.name fits.hollow
  · exact aside brace.1
  · exact aside (fits.body line known)
  · exact aside brace.2
  · exact aside .blank

end Text

section Signatures

variable {datasets : List Field}

/-- How the first line of a function reads. -/
def Function.signature (function : Function) : String × String × String :=
  (function.result, function.name, function.parameters)

private theorem signature_commented (comment : String)
    (functions : List Function) :
    (commented comment functions).map Function.signature =
      functions.map Function.signature := by
  cases functions <;> rfl

theorem signature_mapM {make : Field → Except EmitError Function}
    (signature : Field → String × String × String)
    (each : ∀ dataset function, make dataset = .ok function →
      function.signature = signature dataset)
    (made : datasets.mapM make = .ok functions) :
    functions.map Function.signature = datasets.map signature := by
  have : Inhabited Function := ⟨fatal⟩
  obtain ⟨result, makes, rfl⟩ := mapM_eq_ok_iff.mp made
  rw [List.map_map]
  exact List.map_congr_left fun dataset known =>
    each dataset _ (makes dataset known)

/-- The parameters of a function that hands a new value to JavaScript. -/
def changeParameters : String :=
  "napi_env env, napi_value js_cb, void *context, void *netTime_exos"

/-- The first line of a function that hands a new value to JavaScript. -/
def change (name : String) : String × String × String :=
  ("void", name, changeParameters)

/-- The first line of a function that calls into JavaScript. -/
def callback (name : String) : String × String × String :=
  ("void", name, callParameters)

/-- The first line of a function that JavaScript calls. -/
def method (name : String) : String × String × String :=
  ("napi_value", name, methodParameters)

/-- The names of the functions that tell JavaScript about connections. -/
def callbackNames (model : Datamodel) : List String :=
  [model.objectName ++ "_connonchange_js_cb",
    model.objectName ++ "_onprocessed_js_cb"] ++
    endings model.connected "_connonchange_js_cb"

/-- The names of the methods that register callbacks or publish values. -/
def methodNames (model : Datamodel) : List String :=
  [model.objectName ++ "_connonchange_init",
    model.objectName ++ "_onprocessed_init"] ++
    endings model.connected "_connonchange_init" ++
      endings model.published "_onchange_init" ++
    endings model.subscribed "_publish_method"

/-- The first lines of the functions but for the last. -/
def signaturesAbove (model : Datamodel) : List (String × String × String) :=
  [fatal, datasetEvent model, datamodelEvent model, registration].map
    Function.signature ++ (callbackNames model).map callback ++
    (endings model.published "_onchange_js_cb").map change ++
    (methodNames model ++ logLevels.map fun level => logMethodName level.1).map
      method ++
    [cleanup model, cyclic model, netTime model].map Function.signature

/-- The first line of the function that runs at the start. -/
def startSignature (model : Datamodel) : String × String × String :=
  ("napi_value", initName model, "napi_env env, napi_value exports")

private theorem signature_valueCallback {dataset : Field}
    (made : valueCallback model dataset = .ok function) :
    function.signature = change (dataset.name ++ "_onchange_js_cb") := by
  obtain ⟨program, _, same⟩ := bind_eq_ok_iff.mp made
  cases same
  rfl

private theorem signature_publishMethod {dataset : Field}
    (made : publishMethod dataset = .ok function) :
    function.signature = method (dataset.name ++ "_publish_method") := by
  obtain ⟨program, _, same⟩ := bind_eq_ok_iff.mp made
  cases same
  rfl

theorem signature_initFunction {init : Function}
    (made : initFunction model = .ok init) :
    init.signature = startSignature model := by
  obtain ⟨temps, rest, rfl, _⟩ := exists_start made
  rfl

/-- The function that runs at the start stands below all others. -/
theorem exists_functions (made : Addon.functions model = .ok functions) :
    ∃ others init, functions = others ++ [init] ∧ initFunction model =
      .ok init ∧
      others.map Function.signature = signaturesAbove model := by
  obtain ⟨values, valued, made⟩ := bind_eq_ok_iff.mp made
  obtain ⟨publishing, published, made⟩ := bind_eq_ok_iff.mp made
  obtain ⟨init, started, same⟩ := bind_eq_ok_iff.mp made
  cases same
  obtain ⟨callbacks, called, same⟩ := bind_eq_ok_iff.mp valued
  cases same
  obtain ⟨methods, listed, same⟩ := bind_eq_ok_iff.mp published
  cases same
  refine ⟨_, init, rfl, started, ?_⟩
  have values :=
    signature_mapM (fun dataset => change (dataset.name ++ "_onchange_js_cb"))
    (fun _ _ => signature_valueCallback) called
  have publish :=
    signature_mapM (fun dataset => method (dataset.name ++ "_publish_method"))
    (fun _ _ => signature_publishMethod) listed
  simp only [List.map_append, signature_commented, values, publish,
    signaturesAbove, callbackNames, methodNames, registrationMethods,
    logMethods, eventHandlers, connectionCallbacks, serviceFunctions, endings,
    List.map_map, List.map_cons, List.map_nil, List.append_assoc,
    List.cons_append, List.nil_append]
  rfl

/-- The first lines of all functions of a module. -/
def signatures (model : Datamodel) : List (String × String × String) :=
  signaturesAbove model ++ [startSignature model]

-- The parameters tell the kinds of functions apart, and all other functions
-- from them.
theorem mem_signatures (model : Datamodel) :
    (∀ name,
      (change name ∈ signatures model ↔
        name ∈ endings model.published "_onchange_js_cb") ∧
      (callback name ∈ signatures model ↔ name ∈ callbackNames model) ∧
      (method name ∈ signatures model ↔ name ∈ methodNames model ∨
        name ∈ (logLevels.map fun level => logMethodName level.1) ∨
        name = netTimeName)) ∧
    startSignature model ∉ signaturesAbove model := by
  refine ⟨fun name => ⟨?_, ?_, ?_⟩, ?_⟩
  all_goals simp [signatures, signaturesAbove, startSignature, change,
    callback, method, Function.signature, changeParameters, methodParameters,
    callParameters, fatal, datasetEvent, datamodelEvent, registration, cleanup,
    cyclic, netTime]

end Signatures

section Members

variable {name : String}

theorem ends_apart {ending other : String}
    (apart : ¬ ending.toList <:+ other.toList ∧
      ¬ other.toList <:+ ending.toList)
    (first second : String) : (first ++ ending = second ++ other) = False := by
  rw [eq_iff_iff, iff_false]
  intro same
  have chars := congrArg String.toList same
  rw [String.toList_append, String.toList_append] at chars
  have long : ending.toList <:+ second.toList ++ other.toList := ⟨_, chars⟩
  exact (List.suffix_or_suffix_of_suffix long (List.suffix_append _ _)).elim
    apart.1 apart.2

theorem not_service {ending : String}
    (apart : ∀ service ∈ netTimeName :: logLevels.map fun level =>
      logMethodName level.1,
      ¬ ending.toList <:+ service.toList) :
    ¬ (name ++ ending ∈ (logLevels.map fun level => logMethodName level.1) ∨
      name ++ ending = netTimeName) := by
  have ends : ending.toList <:+ (name ++ ending).toList := by
    rw [String.toList_append]
    exact List.suffix_append _ _
  rintro (inside | same)
  · exact apart _ (.tail _ inside) ends
  · exact apart _ List.mem_cons_self (same ▸ ends)

theorem onchange_mem_iff :
    change (name ++ "_onchange_js_cb") ∈ signatures model ↔
    ∃ dataset ∈ model.published, dataset.name = name := by
  rw [((mem_signatures model).1 _).1]
  simp [endings]

theorem connonchange_mem_iff :
    callback (name ++ "_connonchange_js_cb") ∈ signatures model ↔
      name = model.objectName ∨ ∃ dataset ∈ model.connected,
        dataset.name = name := by
  rw [((mem_signatures model).1 _).2.1]
  simp (disch := decide) [callbackNames, endings, ends_apart]

theorem onchange_init_mem_iff :
    method (name ++ "_onchange_init") ∈ signatures model ↔
      ∃ dataset ∈ model.published, dataset.name = name := by
  rw [((mem_signatures model).1 _).2.2, or_iff_left (not_service (by decide))]
  simp (disch := decide) [methodNames, endings, ends_apart]

theorem connonchange_init_mem_iff :
    method (name ++ "_connonchange_init") ∈ signatures model ↔
      name = model.objectName ∨ ∃ dataset ∈ model.connected,
        dataset.name = name := by
  rw [((mem_signatures model).1 _).2.2, or_iff_left (not_service (by decide))]
  simp (disch := decide) [methodNames, endings, ends_apart]

theorem publish_mem_iff :
    method (name ++ "_publish_method") ∈ signatures model ↔
      ∃ dataset ∈ model.subscribed, dataset.name = name := by
  rw [((mem_signatures model).1 _).2.2, or_iff_left (not_service (by decide))]
  simp (disch := decide) [methodNames, endings, ends_apart]

end Members

section Heads

variable {result parameters : String} {options : Options}

theorem preamble_aside (spelled : model.Spelled) (options : Options) :
    ∀ line ∈ preamble model options, Aside (.below model []) line :=
  @aside_preamble (.below model []) rfl spelled options

theorem hook_allowed (spelled : model.Spelled) {names : List String}
    (listed : initName model ∈ names) : AllAllowed (.below model names)
    (hook model) :=
  @allowed_hook (.below model names) spelled listed

theorem Ordered.fits {above : List String}
    (ordered : Ordered model above functions) :
    ∀ function ∈ functions, ∃ names, function.Fits (.below model names) := by
  induction ordered with
  | nil => exact nofun
  | cons fits _ induction =>
      exact List.forall_mem_cons.mpr ⟨⟨_, fits⟩, induction⟩

theorem heading_mem_functionLines_iff
    (fits : ∀ function ∈ functions, ∃ names, function.Fits (.below model names))
    (isResult : IsWord result) (isName : IsWord name) :
    heading result name parameters ∈
      (functionLines functions).map Line.content ↔
        (result, name, parameters) ∈ functions.map Function.signature := by
  rw [functionLines, List.map_flatMap, List.mem_flatMap, List.mem_map]
  refine exists_congr fun function => and_congr_right fun known => ?_
  obtain ⟨names, fits⟩ := fits function known
  have same : heading function.result function.name function.parameters =
      heading result name parameters ↔
          function.signature = (result, name, parameters) := by
    rw [heading_inj fits.result isResult fits.name isName, Function.signature,
      Prod.mk.injEq, Prod.mk.injEq]
  rw [← same]
  constructor
  · intro inside
    obtain ⟨line, inside, equal⟩ := List.mem_map.mp inside
    rcases (fits.line rfl inside).2 with aside | head
    · exact (aside.ne_heading _ _ _ equal).elim
    · exact head.symm.trans equal
  · intro equal
    rw [← equal, content_lines]
    simp

/-- A module begins a function exactly where one of these is laid out. -/
theorem heading_mem_lines_iff (spelled : model.Spelled)
    (made : Addon.functions model = .ok functions) (isResult : IsWord result)
    (isName : IsWord name) :
    heading result name parameters ∈
        (preamble model options ++ functionLines functions ++ hook model).map
          Line.content ↔
      (result, name, parameters) ∈ signatures model := by
  obtain ⟨others, init, rfl, started, above⟩ := exists_functions made
  have fits := (ordered_functions spelled made).fits
  have front := preamble_aside spelled options
  have back := hook_allowed spelled (List.mem_singleton_self _)
  rw [List.map_append, List.map_append, List.mem_append, List.mem_append,
    heading_mem_functionLines_iff fits isResult isName, List.map_append,
    List.map_singleton, above, signature_initFunction started, ← signatures]
  constructor
  · rintro ((inside | inside) | inside)
    · obtain ⟨line, inside, equal⟩ := List.mem_map.mp inside
      exact ((front line inside).ne_heading _ _ _ equal).elim
    · exact inside
    · obtain ⟨line, inside, equal⟩ := List.mem_map.mp inside
      exact ((back line inside).aside.ne_heading _ _ _ equal).elim
  · exact fun inside => .inl (.inr inside)

end Heads

end Addon

end DataBridge
