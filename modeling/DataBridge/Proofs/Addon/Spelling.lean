import DataBridge.Proofs.Addon.Programs

/-!
# Names that lines may rely on

The names of a datamodel can stand as names.  So can the names that a module
makes of them with its endings, and a scope knows the objects of its datamodel
and the local values of a function.
-/

namespace DataBridge

open Text (inWord IsWord)

namespace Text

theorem ascii_of_inWord {c : Char} (inside : inWord c = true) :
    c.toNat < 128 := by
  have kinds : (((c.isUpper || c.isLower) || c.isDigit) || c == '_') = true :=
    inside
  simp only [Bool.or_eq_true, beq_iff_eq] at kinds
  rcases kinds with ((upper | lower) | digit) | rfl
  · have bounds : c.val ≥ 'A'.val ∧ c.val ≤ 'Z'.val := of_decide_eq_true upper
    exact Nat.lt_of_le_of_lt (UInt32.le_iff_toNat_le.mp bounds.2) (by decide)
  · have bounds := Bool.and_eq_true_iff.mp lower
    exact Nat.lt_of_le_of_lt
      (UInt32.le_iff_toNat_le.mp (of_decide_eq_true bounds.2)) (by decide)
  · have bounds := Bool.and_eq_true_iff.mp digit
    exact Nat.lt_of_le_of_lt
      (UInt32.le_iff_toNat_le.mp (of_decide_eq_true bounds.2)) (by decide)
  · decide

private theorem inWord_toLower_of_ascii :
    ∀ n < 128, inWord (Char.ofNat n) = true → inWord (Char.ofNat n).toLower =
      true := by
  decide

private theorem lowerFrom_of_inWord {chars : List Char}
    (inside : ∀ c ∈ chars, inWord c = true) (before : List Char) :
    lowerFrom before chars = chars.map Char.toLower := by
  induction chars generalizing before with
  | nil => rfl
  | cons c rest induction =>
      obtain ⟨first, later⟩ := List.forall_mem_cons.mp inside
      have small : c ≠ 'Σ' := by
        rintro rfl
        exact absurd first (by decide)
      rw [lowerFrom, if_neg small, lowerChar, if_pos (ascii_of_inWord first),
        induction later]
      rfl

theorem IsWord.lower {text : String} (isWord : IsWord text) :
    IsWord (lower text) := by
  obtain ⟨nonempty, inside⟩ := isWord
  have lowered : (Text.lower text).toList = text.toList.map Char.toLower := by
    rw [Text.lower, String.toList_ofList, lowerFrom_of_inWord inside]
  constructor
  · intro empty
    rw [empty, String.toList_empty] at lowered
    exact nonempty
      (String.toList_eq_nil_iff.mp (List.map_eq_nil_iff.mp lowered.symm))
  · rw [lowered, List.forall_mem_map]
    intro c known
    have small :=
      inWord_toLower_of_ascii c.toNat (ascii_of_inWord (inside c known))
    rw [Char.ofNat_toNat] at small
    exact small (inside c known)

end Text

/-- A datamodel whose names can stand as names. -/
structure Datamodel.Spelled (model : Datamodel) : Prop where
  name : IsWord model.name
  names : ∀ dataset ∈ model.root.fields, IsWord dataset.name
  natives : ∀ dataset ∈ model.root.fields, IsWord dataset.nativeType
  types : ∀ dataset ∈ model.root.fields, dataset.type.Spelled

namespace Datamodel

variable {model : Datamodel} {dataset : Field}

private theorem mem_datasets_iff :
    dataset ∈ model.datasets ↔ dataset ∈ model.root.fields ∧ dataset.isPrivate =
      false := by
  simp [datasets, Record.exchanged]

theorem mem_connected_iff :
    dataset ∈ model.connected ↔ dataset ∈ model.root.fields ∧
    (dataset.flags.published = true ∨ dataset.flags.subscribed = true) ∧
      dataset.isPrivate = false := by
  rw [connected, List.mem_filter, mem_datasets_iff, Bool.or_eq_true]
  grind

theorem mem_published_iff : dataset ∈ model.published ↔
    dataset ∈ model.root.fields ∧ dataset.flags.published = true ∧
      dataset.isPrivate = false := by
  rw [published, List.mem_filter, mem_connected_iff]
  grind

theorem mem_subscribed_iff : dataset ∈ model.subscribed ↔
    dataset ∈ model.root.fields ∧ dataset.flags.subscribed = true ∧
      dataset.isPrivate = false := by
  rw [subscribed, List.mem_filter, mem_connected_iff]
  grind

theorem mem_connected_of_published (known : dataset ∈ model.published) :
    dataset ∈ model.connected :=
  List.mem_of_mem_filter known

theorem mem_connected_of_subscribed (known : dataset ∈ model.subscribed) :
    dataset ∈ model.connected :=
  List.mem_of_mem_filter known

theorem mem_fields_of_connected (known : dataset ∈ model.connected) :
    dataset ∈ model.root.fields :=
  (mem_connected_iff.mp known).1

end Datamodel

open Datamodel (mem_fields_of_connected)

namespace Datamodel.Spelled

variable {model : Datamodel} {dataset : Field}

theorem objectName (spelled : model.Spelled) : IsWord model.objectName := by
  have lowered := spelled.name.lower
  rw [Datamodel.objectName, Datamodel.objectNameOf]
  split
  · exact lowered.append (by decide)
  · exact lowered

theorem ending (spelled : model.Spelled) (connected : dataset ∈ model.connected)
    {chars : List Char} (inside : ∀ c ∈ chars, inWord c = true) :
    IsWord (dataset.name ++ String.ofList chars) :=
  (spelled.names dataset (mem_fields_of_connected connected)).append
    (by rwa [String.toList_ofList])

theorem objectEnding (spelled : model.Spelled) {chars : List Char}
    (inside : ∀ c ∈ chars, inWord c = true) :
    IsWord (model.objectName ++ String.ofList chars) :=
  spelled.objectName.append (by rwa [String.toList_ofList])

end Datamodel.Spelled

namespace Addon

variable {scope : Scope} {name : String} {dataset : Field}

section Objects

private theorem mem_identifiers_handleName
    (connected : dataset ∈ scope.model.connected) :
    handleName dataset ∈ identifiers scope.model :=
  List.mem_append_right _ (List.mem_flatMap.mpr ⟨dataset, connected,
    List.mem_cons_self⟩)

private theorem mem_identifiers_datasetName
    (connected : dataset ∈ scope.model.connected) :
    datasetName dataset ∈ identifiers scope.model :=
  List.mem_append_right _
    (List.mem_flatMap.mpr ⟨dataset, connected, .tail _ List.mem_cons_self⟩)

theorem Scope.Knows.of_object (isWord : IsWord name)
    (known : name ∈ identifiers scope.model) : scope.Knows name :=
  ⟨isWord, fun _ => known, fun _ _ => .inr known⟩

variable (spelled : scope.model.Spelled)
include spelled

theorem knows_objectName : scope.Knows scope.model.objectName :=
  .of_object spelled.objectName List.mem_cons_self

theorem knows_datamodelName : scope.Knows (datamodelName scope.model) :=
  .of_object (spelled.objectEnding (by decide)) (.tail _ List.mem_cons_self)

theorem knows_handleName (connected : dataset ∈ scope.model.connected) :
    scope.Knows (handleName dataset) :=
  .of_object (spelled.ending connected (by decide))
    (mem_identifiers_handleName connected)

theorem knows_datasetName (connected : dataset ∈ scope.model.connected) :
    scope.Knows (datasetName dataset) :=
  .of_object (spelled.ending connected (by decide))
    (mem_identifiers_datasetName connected)

omit spelled in
theorem knows_native : scope.Knows "exos_data" :=
  .of_object (by decide) (.tail _ (.tail _ List.mem_cons_self))

end Objects

section Locals

theorem not_isObjectName_append {chars : List Char}
    (apart : ∀ ending ∈ LineReader.objectEndings,
      ¬ ending <:+ chars ∧ ¬ chars <:+ ending)
    (front : String) : ¬ IsObjectName (front ++ String.ofList chars) := by
  intro objectName
  obtain ⟨ending, listed, ends⟩ := ending_of_isObjectName objectName
  obtain ⟨longer, shorter⟩ := apart ending listed
  rw [String.toList_append, String.toList_ofList] at ends
  exact (List.suffix_or_suffix_of_suffix ends (List.suffix_append _ _)).elim
    longer shorter

theorem not_isObjectName
    (apart : ∀ ending ∈ LineReader.objectEndings, ¬ ending <:+ name.toList) :
    ¬ IsObjectName name := by
  intro objectName
  obtain ⟨ending, listed, ends⟩ := ending_of_isObjectName objectName
  exact apart ending listed ends

theorem not_isObjectName_lit {chars : List Char}
    (apart : ∀ ending ∈ LineReader.objectEndings, ¬ ending <:+ chars) :
    ¬ IsObjectName (String.ofList chars) :=
  not_isObjectName (by rwa [String.toList_ofList])

theorem not_isObjectName_temp (temp : Temp) :
    ¬ IsObjectName temp.identifier := by
  cases temp with
  | slot index =>
      intro objectName
      have nonempty : (toString index).toList ≠ [] := digits_ne_nil index
      have digit := isDigit_of_mem_digits (List.getLast_mem nonempty)
      have letters : ∀ ending ∈ LineReader.objectEndings,
          ending.getLast?.any (fun c => !c.isDigit) = true := by decide
      obtain ⟨ending, listed, front, ends⟩ := ending_of_isObjectName objectName
      obtain ⟨c, final, letter⟩ :=
        (Option.any_eq_true _ _).mp (letters ending listed)
      have same := congrArg List.getLast? ends
      rw [Temp.identifier, String.toList_append,
        List.getLast?_append_of_ne_nil _ nonempty,
        List.getLast?_eq_some_getLast nonempty, List.getLast?_append,
        final] at same
      cases same
      rw [digit] at letter
      cases letter
  | property | arrayItem | lengthScratch | intScratch | floatScratch =>
      exact not_isObjectName_lit (by decide)

theorem isWord_temp (temp : Temp) : IsWord temp.identifier := by
  refine ⟨?_, fun _ => Temp.inWord_of_mem_identifier⟩
  cases temp <;> simp [Temp.identifier]

/-- A local value of a function. -/
theorem Scope.Knows.of_local (isWord : IsWord name)
    (other : ¬ IsObjectName name)
    (listed : ∀ names, scope.locals = some names → names name) :
    scope.Knows name :=
  ⟨isWord, fun objectName => (other objectName).elim, fun names restricted =>
    .inl (listed names restricted)⟩

end Locals

end Addon

end DataBridge
