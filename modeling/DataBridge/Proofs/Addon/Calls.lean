import DataBridge.Proofs.Addon.Carriers
import DataBridge.Proofs.Addon.FileScope
import Mathlib.Data.List.Nodup

/-!
# Functions that are handed over

A call that takes a function is allowed where the scope has the function.  The
function is found as an argument behind those in front of it.
-/

namespace DataBridge

open Text (inWord IsWord Quotable)

namespace Addon

variable {model : Datamodel} {scope : Scope} {before : Option Char}
  {function : String} {texts : List String}

/-- Whether an argument at a position begins behind some characters. -/
def leads : Nat → List Char → Bool
  | 0, chars => chars.all (· = ' ')
  | index + 1, chars =>
      match chars.dropWhile fun c => c ≠ ',' && c ≠ ')' with
      | ',' :: rest => leads index rest
      | _ => false

section Arguments

variable {index : Nat} {front argument rest : List Char}

theorem whole_of_inWord (inside : ∀ c ∈ argument, inWord c = true) :
    ∀ c ∈ argument, (c ≠ ',' && c ≠ ')') = true := by
  intro c known
  rw [Bool.and_eq_true, decide_eq_true_eq, decide_eq_true_eq]
  constructor
  · rintro rfl
    exact absurd (inside _ known) (by decide)
  · rintro rfl
    exact absurd (inside _ known) (by decide)

theorem leads_cut (whole : ∀ c ∈ argument, (c ≠ ',' && c ≠ ')') = true)
    (later : leads index rest = true) :
    leads (index + 1) (argument ++ ',' :: rest) = true := by
  rw [leads, List.dropWhile_append_of_pos whole]
  exact later

private theorem argumentFrom_of_leads (found : leads index front = true)
    (inside : ∀ c ∈ argument, inWord c = true) {c : Char}
    (ends : c = ',' ∨ c = ')') : ∃ blanks : List Char, (∀ c ∈ blanks, c = ' ') ∧
      argumentFrom index (front ++ (argument ++ c :: rest)) =
        blanks ++ argument := by
  induction index generalizing front with
  | zero =>
      have blanks : ∀ c ∈ front, c = ' ' := by simpa [leads] using found
      have whole : ∀ c ∈ front ++ argument, (c ≠ ',' && c ≠ ')') = true := by
        rw [List.forall_mem_append]
        refine ⟨?_, whole_of_inWord inside⟩
        intro c known
        rw [blanks c known]
        rfl
      refine ⟨front, blanks, ?_⟩
      rw [argumentFrom, ← List.append_assoc, List.takeWhile_append_of_pos whole,
        List.takeWhile_cons_of_neg, List.append_nil]
      rcases ends with rfl | rfl <;> decide
  | succ index induction =>
      rw [leads] at found
      split at found
      · rename_i later cut
        obtain ⟨blanks, blank, same⟩ := induction found
        refine ⟨blanks, blank, ?_⟩
        rw [argumentFrom, List.dropWhile_append, cut]
        exact same
      · cases found

private theorem dropWhile_word (inside : ∀ c ∈ argument, inWord c = true) :
    argument.dropWhile (· = ' ') = argument := by
  cases argument with
  | nil => rfl
  | cons c rest =>
      apply List.dropWhile_cons_of_neg
      rw [decide_eq_true_eq]
      rintro rfl
      exact absurd (inside ' ' List.mem_cons_self) (by decide)

private theorem argument?_of_leads {word : String}
    (found : leads index front = true)
    (isWord : IsWord function) {c : Char} (ends : c = ',' ∨ c = ')') :
    Mention.argument? ⟨before, word,
      '(' :: (front ++ (function.toList ++ c :: rest))⟩ index =
      some function := by
  obtain ⟨blanks, blank, same⟩ :=
    @argumentFrom_of_leads _ _ _ rest found isWord.2 _ ends
  have trimmed :
      String.ofList ((blanks ++ function.toList).dropWhile (· = ' ')) =
      function := by
    rw [List.dropWhile_append_of_pos (by simpa using blank),
      dropWhile_word isWord.2, String.ofList_toList]
  unfold Mention.argument?
  simp only [same, trimmed, if_pos isWord]

end Arguments

/-- Callees of one name take the function at one position. -/
theorem index_unique : ∀ first ∈ callees model, ∀ second ∈ callees model,
    first.1 = second.1 → first.2 = second.2 := by
  have beginnings :
      (callees model).map (fun callee => callee.1.toList.take 14) =
        ["napi_create_fu", "init_napi_onch", "napi_add_env_c", "exos_dataset_c",
          "exos_datamodel", "uv_idle_start",
          "NAPI_MODULE"].map String.toList := by
    have connect :
        ("exos_datamodel_connect_" ++ Text.lower model.name).toList.take 14 =
          "exos_datamodel".toList := by
      rw [String.toList_append, List.take_append_of_le_length (by decide)]
      decide
    simp only [callees, List.map_cons, List.map_nil, connect]
    decide
  have distinct :
      ((callees model).map fun callee => callee.1.toList.take 14).Nodup := by
    rw [beginnings]
    decide
  intro first known second alsoKnown same
  have equal := List.inj_on_of_nodup_map distinct known alsoKnown (by rw [same])
  rw [equal]

/-- The texts are the arguments of a call, with a function at a position. -/
def Hands (index : Nat) (function : String) (texts : List String) : Prop :=
  ∃ front c rest, texts.flatMap String.toList =
    '(' :: (front ++ (function.toList ++ c :: rest)) ∧
    leads index front = true ∧ (c = ',' ∨ c = ')')

theorem Hands.lit {index : Nat} {front rest : List Char} {c : Char}
    (found : leads index front = true) (ends : c = ',' ∨ c = ')') :
    Hands index function
      (String.ofList ('(' :: front) :: function :: String.ofList (c :: rest) ::
        texts) :=
  ⟨front, c, rest ++ texts.flatMap String.toList, by simp, found, ends⟩

/-- A call that takes a function of the scope. -/
theorem Reads.call {callee : String} {index : Nat}
    (listed : (callee, index) ∈ callees scope.model) (isCallee : IsWord callee)
    (isWord : IsWord function) (known : scope.functions function)
    (untaken : before ≠ some '&') (hands : Hands index function texts)
    (later : Reads scope LineReader.gap texts) :
    Reads scope ⟨false, before, []⟩ (callee :: texts) := by
  obtain ⟨front, c, rest, same, found, ends⟩ := hands
  rw [Reads, same] at later
  rw [Reads, List.flatMap_cons, same]
  refine Passes.word isCallee (by decide) ?_ later
  constructor
  · intro other alsoListed name argument handed
    rw [← index_unique _ listed other alsoListed name,
      argument?_of_leads found isWord ends]
      at handed
    cases handed
    exact known
  · rintro ⟨_, taken | reached⟩
    · exact (untaken taken).elim
    · cases reached
  · rintro names _ (⟨taken, _⟩ | ⟨_, equality⟩)
    · exact (untaken taken).elim
    · simp at equality

section Methods

variable {name label listener : String}

private theorem leads_label
    (whole : ∀ c ∈ label.toList, (c ≠ ',' && c ≠ ')') = true) :
    leads 3 ("env, info, \"".toList ++ (label.toList ++ "\", ".toList)) =
      true := by
  have quoted : ∀ c ∈ ' ' :: '"' :: (label.toList ++ ['"']),
      (c ≠ ',' && c ≠ ')') = true := by
    simp only [List.forall_mem_cons, List.forall_mem_append]
    exact ⟨by decide, by decide, whole, by decide, nofun⟩
  have cut :=
    leads_cut (show ∀ c ∈ "env".toList, (c ≠ ',' && c ≠ ')') = true by decide)
    (leads_cut (show ∀ c ∈ " info".toList,
      (c ≠ ',' && c ≠ ')') = true by decide)
      (leads_cut quoted (show leads 0 [' '] = true by decide)))
  simpa using cut

private theorem reads_registration (free : scope.locals = none)
    (quotable : Quotable label)
    (whole : ∀ c ∈ label.toList, (c ≠ ',' && c ≠ ')') = true)
    (isWord : IsWord function) (known : scope.functions function)
    (reaches : scope.Reaches listener) :
    Reads scope {} ["return ", registrationName,
      "(env, info, \"" ++ label ++ "\", ", function, ", &", listener,
      ");"] := by
  have listed : (registrationName, 3) ∈ callees scope.model :=
    .tail _ List.mem_cons_self
  have hands : Hands 3 function
      ["(env, info, \"" ++ label ++ "\", ", function, ", &", listener,
          ");"] := by
    refine ⟨_, ',', " &".toList ++ (listener.toList ++ ");".toList), ?_,
      leads_label whole, .inl rfl⟩
    simp
  refine .loose free rfl
    (.call listed (by decide) isWord known (by decide) hands ?_)
  refine .split (.split (.loose free rfl ?_))
  refine .quoted quotable.1 quotable.2 (.lit rfl ?_)
  refine .plain isWord (by decide) (.inl (by decide)) (.lit rfl (by decide))
    (.lit rfl ?_)
  exact .reached reaches (.lit rfl (by decide)) (.lit rfl (.nil rfl))

theorem fits_registrationMethod (free : scope.locals = none)
    (isName : IsWord name) {subject : String} (isSubject : IsWord subject)
    {about : List Char} (quotable : Quotable (String.ofList about))
    (whole : ∀ c ∈ about, (c ≠ ',' && c ≠ ')') = true)
    (isWord : IsWord function) (known : scope.functions function)
    (reaches : scope.Reaches listener) :
    (registrationMethod name (subject ++ String.ofList about) function
      listener).Fits scope := by
  have result : IsWord "napi_value" := by decide
  refine ⟨.nil, result, isName, .lit rfl rfl rfl,
    List.forall_mem_singleton.mpr (.indented ?_)⟩
  refine reads_registration free (isSubject.quotable.append quotable) ?_ isWord
    known reaches
  rw [String.toList_append, String.toList_ofList, List.forall_mem_append]
  exact ⟨whole_of_inWord isSubject.2, whole⟩

theorem fits_registrationMethods (free : scope.locals = none)
    (spelled : scope.model.Spelled)
    (above : ∀ name ∈ [scope.model.objectName ++ "_connonchange_js_cb",
        scope.model.objectName ++ "_onprocessed_js_cb"] ++
        endings scope.model.connected "_connonchange_js_cb" ++
        endings scope.model.published "_onchange_js_cb", scope.functions name) :
    ∀ function ∈ registrationMethods scope.model, function.Fits scope := by
  have object := knows_objectName spelled
  simp only [endings, List.forall_mem_append, List.forall_mem_cons,
    List.forall_mem_map] at above
  obtain ⟨⟨⟨connection, processed, _⟩, connections⟩, changes⟩ := above
  simp only [registrationMethods, List.forall_mem_append, List.forall_mem_cons,
    List.forall_mem_map]
  refine ⟨⟨⟨?_, ?_, nofun⟩, ?_⟩, ?_⟩
  · exact fits_registrationMethod free (spelled.objectEnding (by decide))
      spelled.name
      (.lit (by decide)) (by decide) (spelled.objectEnding (by decide))
        connection
      (.member object (by decide) (by decide))
  · exact fits_registrationMethod free (spelled.objectEnding (by decide))
      spelled.name
      (.lit (by decide)) (by decide) (spelled.objectEnding (by decide))
        processed
      (.member object (by decide) (by decide))
  · intro dataset known
    have isWord :=
      spelled.names dataset (Datamodel.mem_fields_of_connected known)
    exact fits_registrationMethod free (spelled.ending known (by decide)) isWord
      (.lit (by decide)) (by decide) (spelled.ending known (by decide))
      (connections dataset known)
      (.member (knows_handleName spelled known) (by decide) (by decide))
  · intro dataset published
    have known := Datamodel.mem_connected_of_published published
    have isWord :=
      spelled.names dataset (Datamodel.mem_fields_of_connected known)
    exact fits_registrationMethod free (spelled.ending known (by decide)) isWord
      (.lit (by decide)) (by decide) (spelled.ending known (by decide))
      (changes dataset published)
      (.member (knows_handleName spelled known) (by decide) (by decide))

end Methods

end Addon

end DataBridge
