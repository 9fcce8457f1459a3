import DataBridge.Addon.Names
import DataBridge.Proofs.Record
import Mathlib.Data.List.Forall2

/-!
# The visible part of a datamodel

What remains of a type when its private members are left out at every depth.
The exchanged members of the remainder are the remainders of the exchanged
members, in the same order and with the same names, flags and array sizes.
-/

namespace DataBridge

mutual

/-- The member with nothing private inside of it. -/
def Field.visible (field : Field) : Field :=
  match field with
  | { name, type, arraySize, flags, comment, enumName } =>
      { name, type := type.visible, arraySize, flags, comment, enumName }

/-- The type with nothing private inside of it. -/
def FieldType.visible : FieldType → FieldType
  | .leaf leaf => .leaf leaf
  | .record { name, comment, fields } =>
      .record { name, comment, fields := visibleMembers fields }

/-- The members that are not private, with nothing private inside of them. -/
def visibleMembers : List Field → List Field
  | [] => []
  | member :: rest =>
      if member.isPrivate then visibleMembers rest
      else member.visible :: visibleMembers rest

end

/-- The record without private members at any depth. -/
def Record.visible (record : Record) : Record :=
  { record with fields := visibleMembers record.fields }

/-- The datamodel without private members at any depth. -/
def Datamodel.visible (model : Datamodel) : Datamodel :=
  { model with root := model.root.visible }

namespace Field

variable {field : Field}

@[simp] theorem visible_name : field.visible.name = field.name := by
  cases field
  rfl

@[simp] theorem visible_type : field.visible.type = field.type.visible := by
  cases field
  rfl

@[simp] theorem visible_arraySize :
    field.visible.arraySize = field.arraySize := by
  cases field
  rfl

@[simp] theorem visible_flags : field.visible.flags = field.flags := by
  cases field
  rfl

@[simp] theorem visible_enumName : field.visible.enumName = field.enumName := by
  cases field
  rfl

@[simp] theorem visible_isPrivate :
    field.visible.isPrivate = field.isPrivate := by
  simp [isPrivate]

@[simp] theorem visible_isArray : field.visible.isArray = field.isArray := by
  simp [isArray]

end Field

@[simp] theorem FieldType.visible_record (record : Record) :
    (FieldType.record record).visible = .record record.visible := by
  cases record
  rfl

@[simp] theorem FieldType.visible_leaf (leaf : Leaf) :
    (FieldType.leaf leaf).visible = .leaf leaf :=
  rfl

@[simp] theorem Field.visible_nativeType {field : Field} :
    field.visible.nativeType = field.nativeType := by
  unfold nativeType
  rw [visible_enumName, visible_type]
  cases field.enumName with
  | some name => rfl
  | none =>
      cases field.type with
      | leaf leaf => rfl
      | record record => rw [FieldType.visible_record]; rfl

theorem visibleMembers_eq (fields : List Field) :
    visibleMembers fields =
      (fields.filter fun field => !field.isPrivate).map Field.visible := by
  induction fields with
  | nil => rfl
  | cons member rest induction =>
      by_cases hidden : member.isPrivate = true
      · simp [visibleMembers, hidden, induction]
      · simp [visibleMembers, hidden, induction]

theorem Record.visible_exchanged (record : Record) :
    record.visible.exchanged = record.exchanged.map Field.visible := by
  simp only [exchanged, visible, visibleMembers_eq, List.filter_map,
    List.filter_filter]
  simp

namespace Datamodel

variable (model : Datamodel)

@[simp] theorem visible_name : model.visible.name = model.name :=
  rfl

@[simp] theorem visible_objectName :
    model.visible.objectName = model.objectName :=
  rfl

private theorem visible_datasets :
    model.visible.datasets = model.datasets.map Field.visible :=
  model.root.visible_exchanged

@[simp] theorem visible_connected :
    model.visible.connected = model.connected.map Field.visible := by
  simp [connected, visible_datasets, List.filter_map, Function.comp_def]

@[simp] theorem visible_published :
    model.visible.published = model.published.map Field.visible := by
  simp [published, List.filter_map, Function.comp_def]

@[simp] theorem visible_subscribed :
    model.visible.subscribed = model.subscribed.map Field.visible := by
  simp [subscribed, List.filter_map, Function.comp_def]

end Datamodel

/-- Records that stand at the same place of two records, counted among the
exchanged members. -/
inductive Record.Counterpart (first second : Record) :
    Record → Record → Prop where
  | root : Counterpart first second first second
  | member {outer twin inner image : Record} {index : Nat} {one other : Field}
      (above : Counterpart first second outer twin)
      (here : outer.exchanged[index]? = some one)
      (there : twin.exchanged[index]? = some other)
      (holds : one.type = .record inner) (also : other.type = .record image) :
      Counterpart first second inner image

theorem Record.exchanged_counterparts {one other : Record}
    (same : one.visible = other.visible) :
    List.Forall₂ (fun member image => member.visible = image.visible)
      one.exchanged other.exchanged := by
  have members : one.exchanged.map Field.visible =
      other.exchanged.map Field.visible := by
    rw [← visible_exchanged, same, visible_exchanged]
  rwa [← List.forall₂_eq_eq_eq, List.forall₂_map_left_iff,
    List.forall₂_map_right_iff] at members

theorem Record.Counterpart.visible {first second one other : Record}
    (counterpart : first.Counterpart second one other)
    (same : first.visible = second.visible) : one.visible = other.visible := by
  induction counterpart with
  | root => exact same
  | @member outer twin inner image index one other _ here there holds also
        induction =>
      have members := exchanged_counterparts induction
      obtain ⟨bound, rfl⟩ := List.getElem?_eq_some_iff.mp here
      obtain ⟨within, rfl⟩ := List.getElem?_eq_some_iff.mp there
      have equal : outer.exchanged[index].visible.type =
          twin.exchanged[index].visible.type :=
        congrArg Field.type (members.get bound within)
      rw [Field.visible_type, Field.visible_type, holds, also] at equal
      simpa using equal

end DataBridge
