import DataBridge.Proofs.Addon.Carriers

/-!
# Functions around the values

The functions for events, connections, logging and the service of a module are
allowed in every scope that does not restrict local values: they name objects of
the datamodel and hand no function over.
-/

namespace DataBridge

open Text (inWord IsWord Quotable)

open Datamodel (mem_fields_of_connected)

namespace Addon

variable {scope : Scope} {dataset : Field} (free : scope.locals = none)
include free

theorem fits_fatal : fatal.Fits scope := by
  have result : IsWord "void" := by decide
  have name : IsWord fatalName := by decide
  refine ⟨?_, result, name, .lit rfl rfl rfl, ?_⟩
  · exact List.forall_mem_singleton.mpr (.note free rfl rfl (by decide))
  · simp only [fatal, AllAllowed.append_iff, AllAllowed.cons_iff,
      AllAllowed.nil, AllAllowed.blank, AllAllowed.block_iff, true_and,
      and_true, and_assoc]
    refine ⟨.loose free rfl rfl, .loose free rfl rfl, .loose free rfl rfl,
      .loose free rfl rfl, .loose free rfl rfl, .loose free rfl rfl,
      .loose free rfl rfl, .loose free rfl rfl, .loose free rfl rfl,
      .loose free rfl rfl, .loose free rfl rfl, .loose free rfl rfl⟩

theorem allowed_datasetBranches {block : Field → Source} {datasets : List Field}
    (words : ∀ dataset ∈ datasets, IsWord dataset.name)
    (blocks : ∀ dataset ∈ datasets, AllAllowed scope (block dataset)) :
    AllAllowed scope (datasetBranches block datasets) := by
  cases datasets with
  | nil => exact .nil
  | cons first rest =>
      obtain ⟨isWord, others⟩ := List.forall_mem_cons.mp words
      obtain ⟨allowed, later⟩ := List.forall_mem_cons.mp blocks
      simp only [datasetBranches, datasetBranches.branch, AllAllowed.append_iff,
        AllAllowed.cons_iff, AllAllowed.flatMap_iff, AllAllowed.block_iff]
      refine ⟨⟨.text ?_, allowed⟩, fun dataset known =>
        ⟨.text ?_, later dataset known⟩⟩
      · have quotable := isWord.quotable
        refine .split (.split (.split (.loose free rfl (.loose free rfl ?_))))
        exact .quoted quotable.1 quotable.2 (.loose free rfl (.nil rfl))
      · have quotable := (others dataset known).quotable
        refine .split (.split (.split (.loose free rfl (.loose free rfl ?_))))
        exact .quoted quotable.1 quotable.2 (.loose free rfl (.nil rfl))

theorem allowed_registrationStep {call step : List Char}
    (quotable : Quotable (String.ofList step))
    (harmless :
      LineReader.harmless false ⟨false, some ' ', []⟩ (call ++ [')']) = true)
    (settled :
      (LineReader.after ⟨false, some ' ', []⟩ (call ++ [')'])).settled = true) :
    AllAllowed scope
      (registrationStep (String.ofList call) (String.ofList step)) := by
  have condition :
      Reads scope ⟨false, some '(', []⟩
        ["napi_ok != " ++ String.ofList call, ")"] := by
    have joined : [String.ofList call, ")"].flatMap String.toList =
        [String.ofList (call ++ [')'])].flatMap String.toList := by simp
    refine .split (.loose free rfl ?_)
    rw [Reads, joined]
    exact Reads.loose free harmless (.nil settled)
  have copied : Reads scope {}
      ["strcpy(msg, \"init_napi_onchange() " ++ String.ofList step ++
          " failed - \");"] := by
    refine .split (.split (.loose free rfl ?_))
    exact .quoted quotable.1 quotable.2 (.loose free rfl (.nil rfl))
  have checked :
      AllAllowed scope (if String.ofList step = "napi_get_cb_info" then
          .blank :: Source.guarded 1 ["argc < 1"]
            [throwStatement "Too few arguments", returnNull]
        else []) := by
    split
    · exact AllAllowed.cons_iff.mpr ⟨.blank,
        .refused (.lit rfl (.lit rfl (.nil rfl))) (.lit (by decide))⟩
    · exact .nil
  rw [registrationStep, AllAllowed.append_iff, AllAllowed.append_iff]
  refine ⟨⟨.guarded condition ?_, checked⟩,
    List.forall_mem_singleton.mpr .blank⟩
  simp only [List.forall_mem_cons]
  exact ⟨.loose free rfl (.nil rfl), copied, .loose free rfl (.nil rfl),
    .loose free rfl (.nil rfl), reads_returnNull, List.forall_mem_nil _⟩

theorem fits_registration : registration.Fits scope := by
  have result : IsWord "napi_value" := by decide
  have name : IsWord registrationName := by decide
  refine ⟨?_, result, name, ?_, ?_⟩
  · exact List.forall_mem_singleton.mpr (.note free rfl rfl (by decide))
  · exact .append
      (.lit (by decide +kernel) (by decide +kernel) (by decide +kernel))
  · simp only [registration, registrationSteps, List.flatMap_cons,
      List.flatMap_nil, List.append_nil, AllAllowed.append_iff,
      AllAllowed.cons_iff, AllAllowed.nil, AllAllowed.blank,
      AllAllowed.block_iff, and_true, and_assoc]
    refine ⟨.loose free rfl rfl, .loose free rfl rfl, .loose free rfl rfl,
      .loose free rfl rfl,
      allowed_registrationStep free (.lit (by decide)) rfl rfl,
      allowed_registrationStep free (.lit (by decide)) rfl rfl,
      allowed_registrationStep free (.lit (by decide)) rfl rfl,
      .loose free rfl rfl, .guarded ?_ ?_, .loose free rfl rfl⟩
    · exact .split (.loose free rfl
        (.loose free rfl (.loose free rfl (.nil rfl))))
    · simp only [List.forall_mem_cons]
      exact ⟨.loose free rfl (.nil rfl), .loose free rfl (.nil rfl),
        .loose free rfl (.nil rfl), reads_returnNull, List.forall_mem_nil _⟩

section Named

variable (spelled : scope.model.Spelled)
include spelled

theorem fits_datasetEvent : (datasetEvent scope.model).Fits scope := by
  have result : IsWord "void" := by decide
  have name : IsWord "datasetEvent" := by decide
  have words : ∀ dataset ∈ scope.model.connected, IsWord dataset.name :=
    fun dataset known => spelled.names dataset (mem_fields_of_connected known)
  refine ⟨?_, result, name, .lit rfl rfl rfl, ?_⟩
  · exact List.forall_mem_singleton.mpr (.note free rfl rfl (by decide))
  · simp only [datasetEvent, AllAllowed.append_iff, AllAllowed.cons_iff,
      AllAllowed.nil, AllAllowed.blank, AllAllowed.block_iff, true_and,
      and_true, and_assoc]
    refine ⟨.loose free rfl rfl, .loose free rfl rfl, ?_, ?_,
      .loose free rfl rfl, .loose free rfl rfl, .loose free rfl rfl,
      .loose free rfl rfl, .loose free rfl rfl, ?_, ?_, .loose free rfl rfl,
      .loose free rfl rfl, ?_, ?_, .loose free rfl rfl, .loose free rfl rfl,
      .loose free rfl rfl⟩
    · exact .text (.split (.loose free rfl (.loose free rfl (.nil rfl))))
    · have connected := fun dataset =>
        @Datamodel.mem_connected_of_published scope.model dataset
      apply allowed_datasetBranches free fun dataset known =>
        words dataset (connected dataset known)
      intro dataset known
      have object := knows_handleName spelled (connected dataset known)
      apply allowed_callThreadsafe (.member object (by decide) (by decide))
      exact .loose free rfl (.loose free rfl (.nil rfl))
    · exact .text (.split (.loose free rfl (.loose free rfl (.nil rfl))))
    · have connected := fun dataset =>
        @Datamodel.mem_connected_of_subscribed scope.model dataset
      apply allowed_datasetBranches free fun dataset known =>
        words dataset (connected dataset known)
      intro dataset known
      have fields := mem_fields_of_connected (connected dataset known)
      have type := spelled.natives dataset fields
      have lower := (spelled.names dataset fields).lower
      refine List.forall_mem_singleton.mpr (.text ?_)
      refine .split (.split (.split (.split (.split (.split (.loose free rfl
        ?_))))))
      refine .plain type (by decide) (.inl (by decide)) (.lit rfl (by decide))
        (.lit rfl ?_)
      refine .plain lower (by decide) (.inl (by decide)) (.lit rfl (by decide))
        (.loose free rfl ?_)
      refine .plain type (by decide) (.inl (by decide))
        (.lit rfl (by decide)) ?_
      exact .loose free rfl (.nil rfl)
    · exact .text
        (.split (.split (.loose free rfl
          (.loose free rfl (.loose free rfl (.nil rfl))))))
    · apply allowed_datasetBranches free words
      intro dataset known
      have object := knows_handleName spelled known
      apply allowed_callThreadsafe (.member object (by decide) (by decide))
      exact .loose free rfl (.loose free rfl (.nil rfl))

theorem fits_datamodelEvent : (datamodelEvent scope.model).Fits scope := by
  have result : IsWord "void" := by decide
  have name : IsWord "datamodelEvent" := by decide
  have quotable := spelled.name.quotable
  refine ⟨.nil, result, name, .lit rfl rfl rfl, ?_⟩
  simp only [datamodelEvent, AllAllowed.append_iff, AllAllowed.cons_iff,
    AllAllowed.nil, AllAllowed.blank, AllAllowed.block_iff, true_and, and_true,
    and_assoc]
  refine ⟨.loose free rfl rfl, .loose free rfl rfl, .text ?_, ?_,
    .loose free rfl rfl, .loose free rfl rfl, .loose free rfl rfl,
    .loose free rfl rfl, .loose free rfl rfl, .text ?_, .loose free rfl rfl,
    .loose free rfl rfl, .text ?_, .loose free rfl rfl, .loose free rfl rfl,
    .loose free rfl rfl, .loose free rfl rfl, .loose free rfl rfl,
    .loose free rfl rfl⟩
  · refine .split (.split (.split (.split (.loose free rfl ?_))))
    refine .quoted quotable.1 quotable.2 (.loose free rfl ?_)
    exact .loose free rfl (.loose free rfl (.nil rfl))
  · have object := knows_objectName spelled
    apply allowed_callThreadsafe (.member object (by decide) (by decide))
    exact .loose free rfl (.loose free rfl (.nil rfl))
  · refine .split (.split (.loose free rfl ?_))
    exact .quoted quotable.1 quotable.2 (.loose free rfl (.nil rfl))
  · refine .split (.split (.split (.loose free rfl ?_)))
    exact .quoted quotable.1 quotable.2
      (.loose free rfl (.loose free rfl (.nil rfl)))

end Named

section Connections

variable {object name : String}

omit free in
theorem allowed_dereference (known : scope.Knows object)
    (quotable : Quotable name) :
    AllAllowed scope (dereference object name) := by
  have condition : Reads scope {}
      ((Piece.text "if (" :: (referenceValue object ++ [.text ")"])).map
          Piece.render) := by
    rw [List.map_cons, List.map_append]
    exact .lit rfl (reads_referenceValue known)
  simp only [dereference, AllAllowed.cons_iff, AllAllowed.nil, AllAllowed.blank,
    and_true]
  exact ⟨.indented condition,
    .indented (reads_throwStatement (.append (.lit (by decide)) quotable))⟩

theorem allowed_stateText (known : scope.Knows object) :
    AllAllowed scope (stateText object) := by
  have value : scope.Reaches (object ++ ".value") :=
    .member known (by decide) (by decide)
  have quotable := known.word.quotable
  simp only [stateText, AllAllowed.cons_iff, AllAllowed.nil, AllAllowed.blank,
    and_true]
  refine ⟨.indented ?_, .indented (reads_throwStatement ?_)⟩
  · exact .loose free rfl
      (.reached value (.lit rfl (by decide)) (.lit rfl (.nil rfl)))
  · exact ((Quotable.lit (by decide)).append quotable).append (.lit (by decide))

omit free in
theorem allowed_setStateText (known : scope.Knows object)
    (quotable : Quotable name) :
    AllAllowed scope (setStateText object name) := by
  have place : scope.Reaches (object ++ ".object_value") :=
    .member known (by decide) (by decide)
  have value : scope.Reaches (object ++ ".value") :=
    .member known (by decide) (by decide)
  simp only [setStateText, AllAllowed.cons_iff, AllAllowed.nil,
    AllAllowed.blank, and_true]
  refine ⟨.indented ?_,
    .indented (reads_throwStatement (.append (.lit (by decide)) quotable))⟩
  refine .lit rfl (.reached place (.lit rfl (by decide)) (.lit rfl ?_))
  exact .reached value (.lit rfl (by decide)) (.lit rfl (.nil rfl))

omit free in
theorem allowed_setFlag (known : scope.Knows object)
    {property value : List Char} (quotable : Quotable (String.ofList property))
    (isWord : wordChars value = true) :
    AllAllowed scope
      (setFlag object (String.ofList property) (String.ofList value)) := by
  have place : scope.Reaches (object ++ ".object_value") :=
    .member known (by decide) (by decide)
  have objectName := known.word.quotable
  simp only [setFlag, AllAllowed.cons_iff, AllAllowed.nil, and_true]
  refine ⟨.indented ?_, .indented (reads_throwStatement ?_)⟩
  · refine .lit rfl
      (.reached place (.split (.split (.split (.split (.lit rfl (by decide))))))
        ?_)
    refine .split (.split (.split (.split (.lit rfl ?_))))
    refine .quoted quotable.1 quotable.2 (.lit rfl ?_)
    exact .plain (isWord_ofList_iff.mpr isWord) (by decide) (.inl (by decide))
      (.lit rfl (by decide)) (.lit rfl (.nil rfl))
  · exact (((Quotable.lit (by decide)).append quotable).append
      (.lit (by decide))).append objectName

private theorem allowed_stateCase (known : scope.Knows object) :
    ∀ state ∈ connectionStates, AllAllowed scope (stateCase object state) := by
  have each : ∀ {state connected operational : List Char},
      wordChars state = true → wordChars connected = true →
        wordChars operational = true →
      AllAllowed scope (stateCase object
        (String.ofList state, String.ofList connected,
            String.ofList operational)) := by
    intro state connected operational isWord isConnected isOperational
    simp only [stateCase, AllAllowed.append_iff, AllAllowed.cons_iff,
      AllAllowed.nil, and_true]
    refine ⟨.text (.split (.split (.loose free rfl ?_))),
      ⟨allowed_setFlag known (.lit (by decide)) isConnected,
        allowed_setFlag known (.lit (by decide)) isOperational⟩, .lit rfl rfl⟩
    exact .plain (isWord_ofList_iff.mpr isWord) (by decide) (.inl (by decide))
      (.lit rfl (by decide)) (.lit rfl (.nil rfl))
  simp only [connectionStates, List.forall_mem_cons]
  exact ⟨each rfl rfl rfl, each rfl rfl rfl, each rfl rfl rfl, each rfl rfl rfl,
    List.forall_mem_nil _⟩

variable (spelled : scope.model.Spelled)
include spelled

theorem fits_connectionCallback :
    (connectionCallback scope.model).Fits scope := by
  have result : IsWord "void" := by decide
  have known := knows_objectName spelled
  have quotable := known.word.quotable
  refine ⟨?_, result, spelled.objectEnding (by decide), .lit rfl rfl rfl, ?_⟩
  · exact List.forall_mem_singleton.mpr (.note free rfl rfl (by decide))
  · simp only [connectionCallback, AllAllowed.append_iff, AllAllowed.cons_iff,
      AllAllowed.nil, AllAllowed.blank, AllAllowed.block_iff,
      AllAllowed.flatMap_iff, allowed_callJavaScript, true_and, and_true,
      and_assoc]
    refine ⟨.loose free rfl rfl, .loose free rfl rfl, .loose free rfl rfl,
      .loose free rfl rfl, .loose free rfl rfl, allowed_stateText free known,
      allowed_dereference known quotable, .indented ?_,
      allowed_stateCase free known, allowed_setStateText known quotable,
      allowed_throwFatal (.append (.lit (by decide)) quotable)⟩
    refine .lit rfl
      (.known (knows_datamodelName spelled) (.lit rfl (by decide)) ?_)
    exact .lit rfl (.nil rfl)

theorem fits_processedCallback :
    (processedCallback scope.model).Fits scope := by
  have result : IsWord "void" := by decide
  refine ⟨.nil, result, spelled.objectEnding (by decide), .lit rfl rfl rfl, ?_⟩
  simp only [processedCallback, AllAllowed.cons_iff, AllAllowed.nil,
    AllAllowed.blank, allowed_callJavaScript, true_and, and_true]
  exact ⟨.loose free rfl rfl, .loose free rfl rfl,
    allowed_throwFatal (.append (.lit (by decide)) spelled.name.quotable)⟩

theorem fits_datasetConnectionCallback
    (connected : dataset ∈ scope.model.connected) :
    (datasetConnectionCallback dataset).Fits scope := by
  have result : IsWord "void" := by decide
  have known := knows_handleName spelled connected
  have quotable :=
    (spelled.names dataset (mem_fields_of_connected connected)).quotable
  refine ⟨.nil, result, spelled.ending connected (by decide),
    .lit rfl rfl rfl, ?_⟩
  simp only [datasetConnectionCallback, AllAllowed.append_iff,
    AllAllowed.cons_iff, AllAllowed.nil, AllAllowed.blank,
    allowed_callJavaScript, true_and, and_true, and_assoc]
  exact ⟨.loose free rfl rfl, .loose free rfl rfl, .loose free rfl rfl,
    allowed_stateText free known, allowed_dereference known quotable,
    allowed_setStateText known quotable,
    allowed_throwFatal (.append (.lit (by decide)) quotable)⟩

end Connections

section Service

variable (spelled : scope.model.Spelled)
include spelled

theorem fits_logMethod :
    ∀ level ∈ logLevels, (logMethod scope.model level).Fits scope := by
  have result : IsWord "napi_value" := by decide
  have each : ∀ {level statement : List Char}, wordChars level = true →
      LineReader.harmless false {} statement = true →
      (LineReader.after {} statement).settled = true →
      (logMethod scope.model (String.ofList level,
          String.ofList statement)).Fits scope := by
    intro level statement isWord harmless settled
    have name : IsWord (logMethodName (String.ofList level)) :=
      (show IsWord "log_" by decide).append (isWord_ofList_iff.mpr isWord).2
    have method :
        Quotable (scope.model.objectName ++ ".log." ++ String.ofList level ++
            "()") :=
      ((spelled.objectName.quotable.append (.lit (by decide))).append
        (isWord_ofList_iff.mpr isWord).quotable).append (.lit (by decide))
    refine ⟨.nil, result, name, .lit rfl rfl rfl, ?_⟩
    simp only [logMethod, AllAllowed.append_iff, AllAllowed.cons_iff,
      AllAllowed.nil, AllAllowed.blank, true_and, and_true, and_assoc]
    refine ⟨.loose free rfl rfl, .loose free rfl rfl, .loose free rfl rfl,
      .loose free rfl rfl, .loose free rfl rfl, ?_, ?_,
      .loose free harmless settled, .indented reads_returnNull⟩
    · exact .refused (.lit rfl (.lit rfl (.nil rfl)))
        (.append (.lit (by decide)) method)
    · refine .refused (.loose free rfl (.lit rfl (.nil rfl)))
        (.append (.lit (by decide)) method)
  simp only [logLevels, List.forall_mem_cons]
  exact ⟨each rfl rfl rfl, each rfl rfl rfl, each rfl rfl rfl, each rfl rfl rfl,
    each rfl rfl rfl, each rfl rfl rfl, List.forall_mem_nil _⟩

theorem fits_cleanup : (cleanup scope.model).Fits scope := by
  have result : IsWord "void" := by decide
  have name : IsWord (cleanupName scope.model) :=
    (show IsWord "cleanup_" by decide).append spelled.objectName.2
  refine ⟨?_, result, name, .lit rfl rfl rfl, ?_⟩
  · exact List.forall_mem_singleton.mpr (.note free rfl rfl (by decide))
  · simp only [cleanup, AllAllowed.append_iff, AllAllowed.cons_iff,
      AllAllowed.nil, AllAllowed.blank, and_true, and_assoc]
    refine ⟨.loose free rfl rfl, .reported ?_ (.lit (by decide)),
      .reported ?_ (.lit (by decide))⟩
    · refine .lit rfl
        (.known (knows_datamodelName spelled) (.lit rfl (by decide)) ?_)
      exact .lit rfl (.lit rfl (.nil rfl))
    · exact .loose free rfl (.lit rfl (.nil rfl))

theorem fits_cyclic : (cyclic scope.model).Fits scope := by
  have result : IsWord "void" := by decide
  have name : IsWord cyclicName := by decide
  have listener : scope.Reaches (scope.model.objectName ++ ".onprocessed_cb") :=
    .member (knows_objectName spelled) (by decide) (by decide)
  refine ⟨.nil, result, name, .lit rfl rfl rfl, ?_⟩
  simp only [cyclic, AllAllowed.append_iff, AllAllowed.cons_iff, AllAllowed.nil,
    and_true, and_assoc]
  refine ⟨.loose free rfl rfl, .indented ?_, allowed_callThreadsafe listener ?_,
    .loose free rfl rfl⟩
  · refine .lit rfl
      (.known (knows_datamodelName spelled) (.lit rfl (by decide)) ?_)
    exact .lit rfl (.nil rfl)
  · exact .loose free rfl (.loose free rfl (.nil rfl))

theorem fits_netTime : (netTime scope.model).Fits scope := by
  have result : IsWord "napi_value" := by decide
  have name : IsWord netTimeName := by decide
  refine ⟨?_, result, name, .lit rfl rfl rfl, ?_⟩
  · exact List.forall_mem_singleton.mpr (.note free rfl rfl (by decide))
  · simp only [netTime, AllAllowed.append_iff, AllAllowed.cons_iff,
      AllAllowed.nil, AllAllowed.blank, AllAllowed.block_iff, true_and,
      and_true, and_assoc]
    refine ⟨.loose free rfl rfl, .indented ?_, .loose free rfl rfl,
      .indented reads_returnNull⟩
    refine .lit rfl
      (.known (knows_datamodelName spelled) (.lit rfl (by decide)) ?_)
    exact .loose free rfl (.nil rfl)

end Service

end Addon

end DataBridge
