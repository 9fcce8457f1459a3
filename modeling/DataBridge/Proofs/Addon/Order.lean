import DataBridge.Proofs.Addon.Handlers
import DataBridge.Proofs.Addon.Outside
import DataBridge.Proofs.Addon.Start

/-!
# Functions in their order

A function of a module hands over functions above it only.  In the text, the
functions above stand there as a whole.
-/

namespace DataBridge

open Text (inWord IsWord)

namespace Addon

variable {model : Datamodel} {above : List String} {function : Function}
  {functions others : List Function} {name : String}

/-- The scope below functions of certain names. -/
def Scope.below (model : Datamodel) (names : List String) : Scope :=
  ⟨model, (· ∈ names), none⟩

/-- Functions that hand over functions above them only. -/
inductive Ordered (model : Datamodel) : List String → List Function → Prop where
  | nil {above : List String} : Ordered model above []
  | cons {above : List String} {first : Function} {rest : List Function}
      (fits : first.Fits (.below model above))
      (later : Ordered model (above ++ [first.name]) rest) :
        Ordered model above (first :: rest)

namespace Ordered

theorem append (first : Ordered model above functions)
    (second : Ordered model (above ++ functions.map Function.name) others) :
    Ordered model above (functions ++ others) := by
  induction first with
  | nil => simpa using second
  | cons fits _ induction =>
      refine .cons fits (induction ?_)
      rwa [List.append_assoc]

/-- Functions that fit below certain names are in order below them. -/
theorem of_fits (fits : ∀ names : List String, above ⊆ names →
    ∀ function ∈ functions, function.Fits (.below model names)) :
    Ordered model above functions := by
  induction functions generalizing above with
  | nil => exact .nil
  | cons first rest induction =>
      refine .cons
        (fits above (List.Subset.refl above) first List.mem_cons_self)
        (induction ?_)
      intro names more function known
      have whole : above ⊆ names := fun name inside =>
        more (List.mem_append_left _ inside)
      exact fits names whole function (.tail _ known)

end Ordered

section Sections

variable {names : List String} (spelled : model.Spelled)
include spelled

private theorem fits_eventHandlers :
    ∀ function ∈ eventHandlers model, function.Fits (.below model names) := by
  simp only [eventHandlers, List.forall_mem_cons]
  exact ⟨@fits_datasetEvent (.below model names) rfl spelled,
    @fits_datamodelEvent (.below model names) rfl spelled, nofun⟩

private theorem fits_connectionCallbacks :
    ∀ function ∈ connectionCallbacks model,
      function.Fits (.below model names) := by
  simp only [connectionCallbacks, List.forall_mem_cons, List.forall_mem_map]
  refine ⟨@fits_connectionCallback (.below model names) rfl spelled,
    @fits_processedCallback (.below model names) rfl spelled, ?_⟩
  intro dataset connected
  exact @fits_datasetConnectionCallback (.below model names) _ rfl spelled
    connected

private theorem fits_valueCallbacks
    (made : valueCallbacks model = .ok functions) :
    ∀ function ∈ functions, function.Fits (.below model names) := by
  obtain ⟨callbacks, mapped, same⟩ := bind_eq_ok_iff.mp made
  cases same
  refine Function.Fits.commented ?_ (.note rfl rfl rfl (by decide))
  intro function known
  obtain ⟨dataset, published, made⟩ := exists_of_mem_mapM mapped known
  exact fits_valueCallback spelled rfl published made

private theorem fits_publishMethods
    (made : publishMethods model = .ok functions) :
    ∀ function ∈ functions, function.Fits (.below model names) := by
  obtain ⟨methods, mapped, same⟩ := bind_eq_ok_iff.mp made
  cases same
  refine Function.Fits.commented ?_ (.note rfl rfl rfl (by decide))
  intro function known
  obtain ⟨dataset, subscribed, made⟩ := exists_of_mem_mapM mapped known
  exact fits_publishMethod spelled rfl subscribed made

private theorem fits_logMethods :
    ∀ function ∈ logMethods model, function.Fits (.below model names) := by
  refine Function.Fits.commented ?_ (.note rfl rfl rfl (by decide))
  rw [List.forall_mem_map]
  exact @fits_logMethod (.below model names) rfl spelled

private theorem fits_serviceFunctions :
    ∀ function ∈ serviceFunctions model,
      function.Fits (.below model names) := by
  simp only [serviceFunctions, List.forall_mem_cons]
  exact ⟨@fits_cleanup (.below model names) rfl spelled,
    @fits_cyclic (.below model names) rfl spelled,
    @fits_netTime (.below model names) rfl spelled, nofun⟩

end Sections

/-- The functions of a module are in order. -/
theorem ordered_functions (spelled : model.Spelled)
    (made : Addon.functions model = .ok functions) :
    Ordered model [] functions := by
  have define := define_functions made
  obtain ⟨values, valued, made⟩ := bind_eq_ok_iff.mp made
  obtain ⟨publishing, published, made⟩ := bind_eq_ok_iff.mp made
  obtain ⟨init, started, same⟩ := bind_eq_ok_iff.mp made
  cases same
  have ordered : ∀ {functions : List Function},
      (∀ names : List String, ∀ function ∈ functions,
        function.Fits (.below model names)) →
      ∀ above, Ordered model above functions :=
    fun fits _ => .of_fits fun names _ => fits names
  have first := ordered fun names =>
    List.forall_mem_singleton.mpr (@fits_fatal (.below model names) rfl)
  have events := ordered fun names => @fits_eventHandlers model names spelled
  have registered := ordered fun names =>
    List.forall_mem_singleton.mpr (@fits_registration (.below model names) rfl)
  have connections := ordered fun names =>
    @fits_connectionCallbacks model names spelled
  have changes := ordered fun names =>
    @fits_valueCallbacks model values names spelled valued
  have publish := ordered fun names =>
    @fits_publishMethods model publishing names spelled published
  have logging := ordered fun names => @fits_logMethods model names spelled
  have services := ordered fun names =>
    @fits_serviceFunctions model names spelled
  have callbacks :=
    ((((first []).append (events _)).append (registered _)).append
      (connections _)).append (changes _)
  have methods :=
    callbacks.append
      (@Ordered.of_fits model _ (registrationMethods model) ?methods)
  have start :=
    (((methods.append (publish _)).append (logging _)).append
      (services _)).append (@Ordered.cons model _ init [] ?start .nil)
  · exact start
  case methods =>
    intro names more
    refine @fits_registrationMethods (.below model names) rfl spelled ?_
    intro name known
    apply more
    change name ∈
        [model.objectName ++ "_connonchange_js_cb",
          model.objectName ++ "_onprocessed_js_cb"] ++
        endings model.connected "_connonchange_js_cb" ++
        endings model.published "_onchange_js_cb" at known
    simp only [List.map_append, (define_valueCallbacks valued).names,
      List.mem_append]
    rcases List.mem_append.mp known with inside | published
    · refine .inr (.inl (.inr ?_))
      simpa [connectionCallbacks, endings, connectionCallback,
        processedCallback, datasetConnectionCallback] using inside
    · exact .inr (.inr published)
  case start =>
    refine fits_initFunction spelled started ?_
    intro name known
    rw [← define.names, List.map_append, List.map_singleton,
      List.dropLast_concat] at known
    exact known

end Addon

end DataBridge
