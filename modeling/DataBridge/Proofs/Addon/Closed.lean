import DataBridge.Proofs.Addon.Signature

/-!
# A closed module

The text of a module is read line by line.  A function is handed over only below
its definition, an object of a dataset is declared above all functions, and the
function that runs at the start declares the values that it writes to.
-/

namespace DataBridge

open Text (inWord IsWord)

/-- Each line fits to those above it, of which the first are given. -/
def LineByLine (fits : List String → String → Prop)
    (front lines : List String) : Prop :=
  ∀ above line below, lines = above ++ line :: below →
    fits (front ++ above) line

namespace LineByLine

variable {fits : List String → String → Prop} {front first second : List String}

theorem append (begins : LineByLine fits front first)
    (goesOn : LineByLine fits (front ++ first) second) :
    LineByLine fits front (first ++ second) := by
  intro above line below cut
  rcases List.append_eq_append_iff.mp cut with ⟨between, rfl, rest⟩ |
    ⟨between, whole, rest⟩
  · have later := goesOn between line below rest
    rwa [List.append_assoc] at later
  · cases between with
    | nil =>
        rw [List.append_nil] at whole
        have later := goesOn [] line below (by simpa using rest.symm)
        rwa [List.append_nil, whole] at later
    | cons head between =>
        cases rest
        exact begins above line between whole

theorem of_forall {lines : List String}
    (each : ∀ line ∈ lines, ∀ above, front <+: above → fits above line) :
    LineByLine fits front lines := by
  rintro above line below rfl
  exact each line (by simp) _ (List.prefix_append _ _)

end LineByLine

namespace Addon

variable {model : Datamodel} {scope : Scope} {function : Function}
  {functions : List Function} {name : String}

/-- Some lines hold the beginning of a function. -/
def Defines (lines : List String) (name : String) : Prop :=
  ∃ result parameters, [heading result name parameters, r"{"] <:+: lines

/-- The functions that a line hands over are defined above it. -/
def HandsOver (model : Datamodel) (above : List String) (line : String) :
    Prop :=
  ∀ mention ∈ mentions line, ∀ callee ∈ callees model, mention.word = callee.1 →
    ∀ name, mention.argument? callee.2 = some name → Defines above name

/-- The values that a line writes to are objects of the module, or declared
above it. -/
def WritesDeclared (model : Datamodel) (above : List String) (line : String) :
    Prop :=
  ∀ mention ∈ mentions line,
    mention.Assigned → mention.word ∈ identifiers model ∨
    ∃ declaration ∈ above, DeclaresValue declaration mention.word

/-- Some lines declare an object above the first function. -/
def DeclaredFirst (lines : List String) (name : String) : Prop :=
  ∃ before line after, lines = before ++ line :: after ∧ Declares line name ∧
    ∀ result function parameters, heading result function parameters ∉ before

section HandingOver

variable {front : List String}

theorem Defines.mono {lines more : List String} (defines : Defines lines name)
    (inside : lines <:+: more) : Defines more name := by
  obtain ⟨result, parameters, begins⟩ := defines
  exact ⟨result, parameters, begins.trans inside⟩

theorem handsOver_of_readable {source : Source} (same : scope.model = model)
    (readable : ∀ line ∈ source, Readable scope line)
    (defined : ∀ name, scope.functions name → Defines front name) :
    LineByLine (HandsOver model) front (source.map Line.content) := by
  apply LineByLine.of_forall
  rw [List.forall_mem_map]
  intro line inside above begins mention known callee listed called name handed
  subst same
  have allows := (readable line inside).passes.allows mention known
  exact (defined name (allows.functions callee listed called name handed)).mono
    begins.isInfix

theorem Ordered.handsOver {above : List String}
    (ordered : Ordered model above functions)
    (defined : ∀ name ∈ above, Defines front name) :
    LineByLine (HandsOver model) front
      ((functionLines functions).map Line.content) ∧
      ∀ name ∈ above ++ functions.map Function.name,
        Defines (front ++ (functionLines functions).map Line.content) name := by
  induction ordered generalizing front with
  | nil => simpa [functionLines, LineByLine] using defined
  | @cons above first rest fits later induction =>
      have reads : ∀ line ∈ first.lines, Readable (.below model above) line :=
        fun line inside => (fits.line rfl inside).1
      have lines : (functionLines (first :: rest)).map Line.content =
          first.lines.map Line.content ++
              (functionLines rest).map Line.content := by
        rw [functionLines, List.flatMap_cons, List.map_append]
        rfl
      have here : Defines (front ++ first.lines.map Line.content)
          first.name := by
        refine ⟨first.result, first.parameters,
          front ++ first.comment.map Line.content,
          first.body.map Line.content ++ [r"}", ""], ?_⟩
        rw [content_lines]
        simp
      have known : ∀ name ∈ above ++ [first.name],
          Defines (front ++ first.lines.map Line.content) name := by
        rw [List.forall_mem_append, List.forall_mem_singleton]
        exact ⟨fun name inside =>
          (defined name inside).mono (List.prefix_append _ _).isInfix, here⟩
      obtain ⟨others, defines⟩ := induction known
      rw [lines, ← List.append_assoc]
      refine ⟨(handsOver_of_readable rfl reads defined).append others, ?_⟩
      simpa using defines

end HandingOver

section Writing

variable {functions : String → Prop} {names : String → Prop}
  {front : List String}

theorem writesDeclared_of_allowed {source : Source}
    (allowed : AllAllowed ⟨model, functions, some names⟩ source)
    (declared : ∀ name, names name → ∃ declaration ∈ front,
      DeclaresValue declaration name) :
    LineByLine (WritesDeclared model) front (source.map Line.content) := by
  apply LineByLine.of_forall
  rw [List.forall_mem_map]
  intro line inside above begins mention known assigned
  have allows := (allowed line inside).passes.allows mention known
  rcases allows.locals names rfl assigned with localName | object
  · obtain ⟨declaration, known, declares⟩ := declared _ localName
    exact .inr ⟨declaration, begins.subset known, declares⟩
  · exact .inl object

/-- What stands below the beginning of the function that runs at the start. -/
theorem writesDeclared_start (spelled : model.Spelled) {init : Function}
    (made : initFunction model = .ok init) :
    LineByLine (WritesDeclared model) []
      (r"{" :: (init.body.map Line.content ++ [r"}", ""] ++
        (hook model).map Line.content)) := by
  obtain ⟨temps, rest, same, allowed⟩ := exists_start made
  have starts :
      Scope.Starts ⟨model, fun _ => True, some (LocalName model temps)⟩ temps :=
    ⟨spelled, fun _ _ => trivial, fun names same name known =>
      Option.some.inj same ▸ known⟩
  have brace : ∀ {text : String}, text = r"{" ∨ text = r"}" →
      Allowed ⟨model, fun _ => True, some fun _ => False⟩ (.plain 0 text) := by
    rintro text (rfl | rfl)
    · exact .brace (by decide) rfl rfl
    · exact .brace (by decide) rfl rfl
  have declares : AllAllowed ⟨model, fun _ => True, some fun _ => False⟩
      (.plain 0 r"{" :: initDeclarations model temps) :=
    AllAllowed.cons_iff.mpr ⟨brace (.inl rfl),
      allowed_initDeclarations spelled temps⟩
  have closes : AllAllowed ⟨model, fun _ => True, some fun _ => False⟩
      (.plain 0 r"}" :: .blank :: hook model) :=
    AllAllowed.cons_iff.mpr ⟨brace (.inr rfl), AllAllowed.cons_iff.mpr ⟨.blank,
      allowed_hook spelled trivial⟩⟩
  have opening := @writesDeclared_of_allowed model _ _ [] _ declares nofun
  have body := @writesDeclared_of_allowed model _ _
    ((.plain 0 r"{" :: initDeclarations model temps : Source).map Line.content)
      rest
    (allowed _ _ starts) (by
      intro name localName
      obtain ⟨line, inside, declares⟩ := localName.declared
      exact ⟨_, List.mem_map_of_mem (.tail _ inside), declares⟩)
  have closing := fun front =>
    @writesDeclared_of_allowed model _ _ front _ closes nofun
  have whole := (opening.append body).append (closing _)
  have lines : init.body = initDeclarations model temps ++ rest := by rw [same]
  rw [lines]
  simpa [indentation] using whole

end Writing

/-- Functions of one kind stand in a text exactly for the chosen datasets.
Beside them there may be one for the datamodel, which is called like its
object. -/
structure Serves (model : Datamodel) (lines : List String)
    (result ending parameters : String) (chosen : Field → Prop) : Prop where
  each : ∀ dataset ∈ model.root.fields, dataset.name ≠ model.objectName →
    (heading result (dataset.name ++ ending) parameters ∈ lines ↔
      chosen dataset)
  others : ∀ name,
    IsWord name → heading result (name ++ ending) parameters ∈ lines →
    name = model.objectName ∨ ∃ dataset ∈ model.root.fields, dataset.name = name

/-- The lines of a module define what they hand over, declare what they use, and
have the functions of exactly the datasets that are exchanged. -/
structure Closed (model : Datamodel) (lines : List String) : Prop where
  functions : LineByLine (HandsOver model) [] lines
  objects : ∀ line ∈ lines, ∀ mention ∈ mentions line, mention.Accessed →
    IsObjectName mention.word → DeclaredFirst lines mention.word
  start : ∃ before below, lines = before ++ startHeading model :: below ∧
    startHeading model ∉ before ∧ LineByLine (WritesDeclared model) [] below
  changes :
    Serves model lines "void" "_onchange_js_cb" changeParameters fun dataset =>
      dataset.flags.published = true ∧ dataset.isPrivate = false
  changeMethods :
    Serves model lines "napi_value" "_onchange_init" methodParameters
      fun dataset =>
        dataset.flags.published = true ∧ dataset.isPrivate = false
  publishMethods :
    Serves model lines "napi_value" "_publish_method" methodParameters
      fun dataset =>
        dataset.flags.subscribed = true ∧ dataset.isPrivate = false
  connections :
    Serves model lines "void" "_connonchange_js_cb" callParameters
      fun dataset =>
        (dataset.flags.published = true ∨ dataset.flags.subscribed = true) ∧
          dataset.isPrivate = false
  connectionMethods :
    Serves model lines "napi_value" "_connonchange_init" methodParameters
      fun dataset =>
        (dataset.flags.published = true ∨ dataset.flags.subscribed = true) ∧
          dataset.isPrivate = false

section Serving

variable {lines : List String} {result ending parameters : String}
  {chosen : Field → Prop} {datasets : List Field}

theorem serves_of (distinct : (model.root.fields.map Field.name).Nodup)
    (words : ∀ dataset ∈ model.root.fields, IsWord dataset.name)
    (begins : ∀ {name},
      IsWord name → (heading result (name ++ ending) parameters ∈ lines ↔
      (result, name ++ ending, parameters) ∈ signatures model))
    (chosen_iff : ∀ dataset, dataset ∈ datasets ↔
      dataset ∈ model.root.fields ∧ chosen dataset)
    (made : ∀ dataset ∈ datasets,
      (result, dataset.name ++ ending, parameters) ∈ signatures model)
    (found : ∀ name, (result, name ++ ending, parameters) ∈ signatures model →
      name = model.objectName ∨ ∃ dataset ∈ datasets, dataset.name = name) :
    Serves model lines result ending parameters chosen := by
  constructor
  · intro dataset known apart
    rw [begins (words dataset known)]
    constructor
    · intro inside
      rcases found _ inside with object | ⟨other, listed, same⟩
      · exact (apart object).elim
      · obtain ⟨alsoKnown, chosen⟩ := (chosen_iff other).mp listed
        rwa [← List.inj_on_of_nodup_map distinct alsoKnown known same]
    · exact fun chosen =>
        made dataset ((chosen_iff dataset).mpr ⟨known, chosen⟩)
  · intro name isWord inside
    rcases found name ((begins isWord).mp inside) with
      object | ⟨dataset, listed, same⟩
    · exact .inl object
    · exact .inr ⟨dataset, ((chosen_iff dataset).mp listed).1, same⟩

end Serving

section Lines

variable {options : Options} {source : Source} {line : String}

private theorem handsOver_blank (above : List String) :
    HandsOver model above "" :=
  nofun

private theorem writesDeclared_blank (above : List String) :
    WritesDeclared model above "" :=
  nofun

private theorem heading_ne_blank (result name parameters : String) :
    heading result name parameters ≠ "" := by
  intro same
  have chars := congrArg String.toList same
  rw [heading_toList] at chars
  cases chars

/-- Every line is allowed by a scope of the module. -/
theorem readable_lines (spelled : model.Spelled)
    (built : Addon.functions model = .ok functions) :
    ∀ line ∈ preamble model options ++ functionLines functions ++ hook model,
      ∃ scope : Scope, scope.model = model ∧ Readable scope line := by
  have front := preamble_aside spelled options
  have back := hook_allowed spelled (List.mem_singleton_self _)
  simp only [List.forall_mem_append, functionLines, List.forall_mem_flatMap]
  refine ⟨⟨?_, ?_⟩, ?_⟩
  · exact fun line inside => ⟨_, rfl, (front line inside).toReadable⟩
  · intro function known line inside
    obtain ⟨names, fits⟩ :=
      (ordered_functions spelled built).fits function known
    exact ⟨.below model names, rfl, (fits.line rfl inside).1⟩
  · exact fun line inside => ⟨_, rfl, (back line inside).toReadable⟩

private theorem handsOver_lines (spelled : model.Spelled)
    (built : Addon.functions model = .ok functions) :
    LineByLine (HandsOver model) []
      ((preamble model options ++ functionLines functions ++ hook model).map
        Line.content) := by
  have listed : initName model ∈ functions.map Function.name := by
    rw [(define_functions built).names]
    exact List.mem_append_right _ List.mem_cons_self
  have front := preamble_aside spelled options
  have back := hook_allowed spelled listed
  have opening :
      LineByLine (HandsOver model) []
        ((preamble model options).map Line.content) :=
    handsOver_of_readable rfl (fun line inside =>
      (front line inside).toReadable) nofun
  obtain ⟨body, defined⟩ := (ordered_functions spelled built).handsOver
    (nofun : ∀ name ∈ [],
      Defines ((preamble model options).map Line.content) name)
  rw [List.nil_append] at defined
  have closing := handsOver_of_readable rfl
    (fun line inside => (back line inside).toReadable) defined
  rw [List.map_append, List.map_append]
  exact (opening.append body).append closing

end Lines

section Closing

variable {options : Options} {source : Source}

private theorem declaredFirst_lines (spelled : model.Spelled) {name : String}
    (known : name ∈ identifiers model) (more : List String) :
    DeclaredFirst ((preamble model options).map Line.content ++ more) name := by
  obtain ⟨line, inside, declares⟩ :=
    declared_identifier spelled options name known
  obtain ⟨before, after, cut⟩ := List.mem_iff_append.mp inside
  refine ⟨before.map Line.content, line.content, after.map Line.content ++ more,
    ?_, declares, ?_⟩
  · rw [cut]
    simp
  · intro result function parameters found
    obtain ⟨other, early, same⟩ := List.mem_map.mp found
    have inside : other ∈ preamble model options := by
      rw [cut]
      exact List.mem_append_left _ early
    have aside := preamble_aside spelled options other inside
    exact aside.ne_heading _ _ _ same

private theorem start_lines (spelled : model.Spelled)
    (built : Addon.functions model = .ok functions) : ∃ before below,
      (preamble model options ++ functionLines functions ++ hook model).map
        Line.content =
        before ++ startHeading model :: below ∧
      startHeading model ∉ before ∧
        LineByLine (WritesDeclared model) [] below := by
  obtain ⟨others, init, rfl, started, above⟩ := exists_functions built
  have fits := (ordered_functions spelled built).fits
  obtain ⟨firsts, last⟩ := List.forall_mem_append.mp fits
  obtain ⟨names, last⟩ := last init List.mem_cons_self
  have declared := writesDeclared_start spelled started
  have signature := signature_initFunction started
  simp only [Function.signature, startSignature, Prod.mk.injEq] at signature
  obtain ⟨result, name, parameters⟩ := signature
  refine ⟨(preamble model options ++ functionLines others ++
    init.comment).map Line.content, _,
    ?_, ?_, declared⟩
  · simp [functionLines, content_lines, startHeading, result, name, parameters]
  · have isName : IsWord (initName model) := name ▸ last.name
    rw [List.map_append, List.map_append, List.mem_append, List.mem_append,
      startHeading, heading_mem_functionLines_iff firsts (by decide) isName,
      above]
    rintro ((inside | inside) | inside)
    · obtain ⟨line, inside, equal⟩ := List.mem_map.mp inside
      exact (preamble_aside spelled options line inside).ne_heading _ _ _ equal
    · exact (mem_signatures model).2 inside
    · obtain ⟨line, inside, equal⟩ := List.mem_map.mp inside
      exact (last.comment line inside).aside.ne_heading _ _ _ equal

/-- What a text begins is laid out among the first lines of functions. -/
theorem signature_of_heading (spelled : model.Spelled)
    (built : Addon.functions model = .ok functions)
    {result name parameters : String} (isResult : IsWord result)
    (isName : IsWord name) :
    heading result name parameters ∈
        (preamble model options ++ functionLines functions ++ hook model).map
          Line.content ++ [""] ↔
      (result, name, parameters) ∈ signatures model := by
  rw [List.mem_append, heading_mem_lines_iff spelled built isResult isName,
    List.mem_singleton, or_iff_left (heading_ne_blank _ _ _)]

private theorem closed_of_functions (spelled : model.Spelled)
    (distinct : (model.root.fields.map Field.name).Nodup)
    (built : Addon.functions model = .ok functions) :
    Closed model
      ((preamble model options ++ functionLines functions ++ hook model).map
        Line.content ++
        [""]) := by
  have begins := @signature_of_heading model functions options spelled built
  have whole : ∀ {name : String}, IsWord name → ∀ {ending : List Char},
      (∀ c ∈ ending, inWord c = true) →
          IsWord (name ++ String.ofList ending) := by
    intro name isWord ending inside
    exact isWord.append (by rwa [String.toList_ofList])
  have void : IsWord "void" := by decide
  have value : IsWord "napi_value" := by decide
  constructor
  case functions =>
    exact (handsOver_lines spelled built).append
      (.of_forall (List.forall_mem_singleton.mpr fun _ _ => handsOver_blank _))
  case objects =>
    rw [List.forall_mem_append, List.forall_mem_map, List.forall_mem_singleton]
    refine ⟨?_, nofun⟩
    intro line inside mention known accessed objectName
    obtain ⟨scope, rfl, readable⟩ := readable_lines spelled built line inside
    have listed :=
      (readable.passes.allows mention known).objects accessed objectName
    rw [List.append_assoc, List.map_append, List.append_assoc]
    exact declaredFirst_lines spelled listed _
  case start =>
    obtain ⟨before, below, cut, first, declared⟩ :=
      @start_lines model functions options spelled built
    refine ⟨before, below ++ [""], by rw [cut]; simp, first, declared.append ?_⟩
    exact .of_forall (List.forall_mem_singleton.mpr fun _ _ =>
      writesDeclared_blank _)
  case changes =>
    apply serves_of distinct spelled.names (fun isWord =>
      begins void (whole isWord (by decide)))
      (fun _ => Datamodel.mem_published_iff)
    · exact fun dataset known => onchange_mem_iff.mpr ⟨dataset, known, rfl⟩
    · exact fun name inside => .inr (onchange_mem_iff.mp inside)
  case changeMethods =>
    apply serves_of distinct spelled.names (fun isWord =>
      begins value (whole isWord (by decide)))
      (fun _ => Datamodel.mem_published_iff)
    · exact fun dataset known => onchange_init_mem_iff.mpr ⟨dataset, known, rfl⟩
    · exact fun name inside => .inr (onchange_init_mem_iff.mp inside)
  case publishMethods =>
    apply serves_of distinct spelled.names (fun isWord =>
      begins value (whole isWord (by decide)))
      (fun _ => Datamodel.mem_subscribed_iff)
    · exact fun dataset known => publish_mem_iff.mpr ⟨dataset, known, rfl⟩
    · exact fun name inside => .inr (publish_mem_iff.mp inside)
  case connections =>
    apply serves_of distinct spelled.names (fun isWord =>
      begins void (whole isWord (by decide)))
      (fun _ => Datamodel.mem_connected_iff)
    · exact fun dataset known =>
        connonchange_mem_iff.mpr (.inr ⟨dataset, known, rfl⟩)
    · exact fun name inside => connonchange_mem_iff.mp inside
  case connectionMethods =>
    apply serves_of distinct spelled.names (fun isWord =>
      begins value (whole isWord (by decide)))
      (fun _ => Datamodel.mem_connected_iff)
    · exact fun dataset known =>
        connonchange_init_mem_iff.mpr (.inr ⟨dataset, known, rfl⟩)
    · exact fun name inside => connonchange_init_mem_iff.mp inside

end Closing

end Addon

/-- The text of the module of a resolved datamodel is closed, where its names
can stand as names. -/
theorem module_closed {catalog : Catalog} {resolver : Resolver}
    (reachable : Resolver.Reachable catalog resolver) {root : String}
    {model : Datamodel}
    (resolved : (Resolver.resolveDatamodel catalog root resolver).1 = .ok model)
    (spelled : model.Spelled) {options : Addon.Options} {text : String}
    (made : Addon.text model options = .ok text) :
    Addon.Closed model (Text.split '\n' text) := by
  obtain ⟨record, _⟩ := Resolver.resolveDatamodel_eq_ok_iff.mp resolved
  have produced : Resolver.Produces catalog model.root :=
    ⟨resolver, root, reachable, record⟩
  obtain ⟨source, laid, same⟩ := bind_eq_ok_iff.mp made
  cases same
  obtain ⟨_, _, laid⟩ := bind_eq_ok_iff.mp laid
  obtain ⟨functions, built, same⟩ := bind_eq_ok_iff.mp laid
  cases same
  have whole :
      ∀ line ∈ Addon.preamble model options ++ Addon.functionLines functions ++
        Addon.hook model, line.Whole := by
    intro line inside
    obtain ⟨scope, _, readable⟩ :=
      Addon.readable_lines spelled built line inside
    exact ⟨readable.ends, readable.passes.oneLine⟩
  rw [Source.split_render whole]
  exact Addon.closed_of_functions spelled produced.wellNamed.distinct built

/-- Reading a call finds the function that it hands over, and the value that it
writes to. -/
example :
    (mentions
        "    napi_create_function(env, NULL, 0, cyclic, NULL, &turn);").map
      (fun mention => (mention.word, mention.argument? 3, mention.before)) =
      [("napi_create_function", some "cyclic", none), ("env", none, some '('),
        ("NULL", none, some ' '), ("0", none, some ' '),
        ("cyclic", none, some ' '), ("NULL", none, some ' '),
        ("turn", none, some '&')] := by
  decide

/-- A pump with a dataset for each way to take part in the exchange, and one
that is private. -/
def pumpCatalog : Catalog :=
  .ofList [
    { name := "Pump", kind := .struct { fields := [
      { name := "Flow", typeName := "Stream", publish := true },
      { name := "Target", typeName := "REAL",
        arraySize := 3, subscribe := true },
      { name := "Mode", typeName := "UINT",
        publish := true, subscribe := true },
      { name := "Wear", typeName := "LREAL", publish := true,
        isPrivate := true }] } },
    { name := "Stream", kind := .struct { fields := [
      { name := "Rate", typeName := "REAL" },
      { name := "Unit", typeName := "STRING", stringLength := some 8 }] } }]

def pump : Datamodel where
  name := "Pump"
  root := {
    name := "Pump"
    fields := [
      { name := "Flow", flags := { published := true }
        type := .record {
          name := "Stream"
          fields := [
            { name := "Rate", type := .leaf (.float .real) },
            { name := "Unit", type := .leaf (.string 8) }] } },
      { name := "Target", arraySize := 3, flags := { subscribed := true }
        type := .leaf (.float .real) },
      { name := "Mode", flags := { published := true, subscribed := true }
        type := .leaf (.integer .uint) },
      { name := "Wear", flags := { published := true, isPrivate := true }
        type := .leaf (.float .lreal) }] }

theorem pump_spelled : pump.Spelled where
  name := by decide
  names := by decide
  natives := by decide
  types := by
    simp only [pump, List.forall_mem_cons]
    refine ⟨.record (by decide) ?_, .leaf _, .leaf _, .leaf _, nofun⟩
    simp only [List.forall_mem_cons]
    exact ⟨.leaf _, .leaf _, nofun⟩

theorem pump_closed :
    Resolver.Reachable pumpCatalog {} ∧
      (Resolver.resolveDatamodel pumpCatalog "Pump" {}).1 = .ok pump ∧
        pump.Spelled ∧
      ∃ text, Addon.text pump {} = .ok text ∧
        Addon.Closed pump (Text.split '\n' text) := by
  have resolved :
      (Resolver.resolveDatamodel pumpCatalog "Pump" {}).1 = .ok pump :=
    rfl
  have built : ∃ functions, Addon.functions pump = .ok functions := ⟨_, rfl⟩
  obtain ⟨functions, built⟩ := built
  obtain ⟨source, _, text⟩ := Addon.exists_source {} (by decide) built
  exact ⟨.fresh, resolved, pump_spelled, _, text,
    module_closed .fresh resolved pump_spelled text⟩

end DataBridge
