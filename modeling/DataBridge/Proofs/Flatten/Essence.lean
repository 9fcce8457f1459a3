import DataBridge.Proofs.Flatten.Layout
import DataBridge.Proofs.Record

/-!
# What a program sees of a type

The essence of a type are the names, leaf types and array sizes of its exchanged
members, at every depth.  Flattening sees nothing else: it makes the same
programs for two types of one essence, and takes the same names on the way.
-/

namespace DataBridge

mutual

/-- The member without what no program sees. -/
def Field.essence (field : Field) : Field :=
  match field with
  | { name, type, arraySize, .. } => { name, type := type.essence, arraySize }

/-- The type without what no program sees. -/
def FieldType.essence : FieldType → FieldType
  | .leaf leaf => .leaf leaf
  | .record { fields, .. } =>
      .record { name := "", fields := essentialMembers fields }

/-- The exchanged members without what no program sees. -/
def essentialMembers : List Field → List Field
  | [] => []
  | member :: rest =>
      if member.isPrivate then essentialMembers rest
      else member.essence :: essentialMembers rest

end

/-- The record without what no program sees. -/
def Record.essence (record : Record) : Record :=
  { name := "", fields := essentialMembers record.fields }

@[simp] theorem FieldType.essence_record (record : Record) :
    (FieldType.record record).essence = .record record.essence := by
  cases record
  rfl

namespace Field

variable {field : Field}

theorem essence_eq :
    field.essence =
      { name := field.name, type := field.type.essence,
        arraySize := field.arraySize } := by
  cases field
  rfl

@[simp] theorem essence_name : field.essence.name = field.name := by
  rw [essence_eq]

@[simp] theorem essence_type : field.essence.type = field.type.essence := by
  rw [essence_eq]

@[simp] theorem essence_arraySize :
    field.essence.arraySize = field.arraySize := by
  rw [essence_eq]

@[simp] theorem essence_isPrivate : field.essence.isPrivate = false := by
  rw [essence_eq]
  rfl

end Field

theorem essentialMembers_eq (fields : List Field) :
    essentialMembers fields =
      (fields.filter fun field => !field.isPrivate).map Field.essence := by
  induction fields with
  | nil => rfl
  | cons member rest induction =>
      by_cases hidden : member.isPrivate = true
      · simp [essentialMembers, hidden, induction]
      · simp [essentialMembers, hidden, induction]

namespace Flatten

open Layout (outRecord_eq inRecord_eq)

theorem outMembers_essence {fields : List Field}
    (members : ∀ member ∈ fields, ∀ origin dest,
      outField origin dest member.essence = outField origin dest member)
    (origin : Origin) (parent : Handle) :
    outMembers origin parent (essentialMembers fields) =
      outMembers origin parent fields := by
  induction fields with
  | nil => rfl
  | cons member rest induction =>
      have others := induction fun inner inside =>
        members inner (List.mem_cons_of_mem _ inside)
      have first := members member List.mem_cons_self
      by_cases hidden : member.isPrivate = true
      · rw [essentialMembers, if_pos hidden, others, outMembers, if_pos hidden]
      · have shown : ¬ member.essence.isPrivate = true := by simp
        rw [essentialMembers, if_neg hidden, outMembers, if_neg shown,
          outMembers, if_neg hidden, others]
        simp only [Field.essence_name, Field.essence_type,
          Field.essence_arraySize, first]
        cases member.type with
        | leaf leaf => rfl
        | record record => rw [FieldType.essence_record]

theorem outField_essence (field : Field) (origin : Origin) (dest : Handle) :
    outField origin dest field.essence = outField origin dest field := by
  induction field using Field.nested_induction generalizing origin dest with
  | step field induction =>
      obtain ⟨name, type, size, flags, comment, enumName⟩ := field
      cases type with
      | leaf leaf =>
          cases size with
          | zero => rfl
          | succ size => rfl
      | record record =>
          have members : ∀ origin parent,
              outRecord origin parent record.essence =
                  outRecord origin parent record := by
            intro origin parent
            rw [outRecord_eq, outRecord_eq]
            exact outMembers_essence (induction record rfl) origin parent
          rw [Field.essence, FieldType.essence_record]
          cases size with
          | zero => simp only [outField, members]
          | succ size => simp only [outField, members]

theorem outRecord_essence (origin : Origin) (parent : Handle)
    (record : Record) :
    outRecord origin parent record.essence =
      outRecord origin parent record := by
  rw [outRecord_eq, outRecord_eq]
  exact outMembers_essence (fun member _ => outField_essence member)
    origin parent

theorem outDataset_essence (origin : Origin) (dest : Handle) (dataset : Field) :
    outDataset origin dest dataset.essence =
      outDataset origin dest dataset := by
  have field := outField_essence dataset origin dest
  obtain ⟨name, type, size, flags, comment, enumName⟩ := dataset
  cases type with
  | leaf leaf => exact field
  | record record =>
      rw [Field.essence, FieldType.essence_record] at *
      cases size with
      | zero => simp only [outDataset, outRoot, outRecord_essence]
      | succ size => exact field

theorem inMembers_essence {fields : List Field}
    (members : ∀ member ∈ fields, ∀ source dest,
      inField source dest member.essence = inField source dest member)
    (source : Handle) (dest : Place) :
    inMembers source dest (essentialMembers fields) =
      inMembers source dest fields := by
  induction fields with
  | nil => rfl
  | cons member rest induction =>
      have others := induction fun inner inside =>
        members inner (List.mem_cons_of_mem _ inside)
      have first := members member List.mem_cons_self
      by_cases hidden : member.isPrivate = true
      · rw [essentialMembers, if_pos hidden, others, inMembers, if_pos hidden]
      · have shown : ¬ member.essence.isPrivate = true := by simp
        rw [essentialMembers, if_neg hidden, inMembers, if_neg shown, inMembers,
          if_neg hidden, others]
        simp only [Field.essence_name, first]

theorem inField_essence (field : Field) (source : Handle) (dest : Place) :
    inField source dest field.essence = inField source dest field := by
  induction field using Field.nested_induction generalizing source dest with
  | step field induction =>
      obtain ⟨name, type, size, flags, comment, enumName⟩ := field
      cases type with
      | leaf leaf =>
          cases size with
          | zero => rfl
          | succ size => rfl
      | record record =>
          have members : ∀ source dest,
              inRecord source dest record.essence =
                  inRecord source dest record := by
            intro source dest
            rw [inRecord_eq, inRecord_eq]
            exact inMembers_essence (induction record rfl) source dest
          rw [Field.essence, FieldType.essence_record]
          cases size with
          | zero => simp only [inField, members]
          | succ size => simp only [inField, members]

theorem inRecord_essence (source : Handle) (dest : Place) (record : Record) :
    inRecord source dest record.essence = inRecord source dest record := by
  rw [inRecord_eq, inRecord_eq]
  exact inMembers_essence (fun member _ => inField_essence member) source dest

private theorem inDataset_essence (source : Handle) (dest : Place)
    (dataset : Field) :
    inDataset source dest dataset.essence = inDataset source dest dataset := by
  have field := inField_essence dataset source dest
  obtain ⟨name, type, size, flags, comment, enumName⟩ := dataset
  cases type with
  | leaf leaf => exact field
  | record record =>
      rw [Field.essence, FieldType.essence_record] at *
      cases size with
      | zero => simp only [inDataset, inRoot, inRecord_essence]
      | succ size => exact field

end Flatten

theorem Record.essence_emission (record : Record) :
    record.essence.emission = record.emission := by
  funext place handle direction
  cases direction with
  | outgoing => simp only [emission, Flatten.outRoot, Flatten.outRecord_essence]
  | incoming => simp only [emission, Flatten.inRoot, Flatten.inRecord_essence]

theorem Record.emission_congr {one other : Record}
    (same : one.essence = other.essence) : one.emission = other.emission := by
  rw [← one.essence_emission, same, other.essence_emission]

theorem Field.essence_emission (dataset : Field) :
    dataset.essence.emission = dataset.emission := by
  funext place handle direction
  cases direction with
  | outgoing => simp only [emission, Flatten.outDataset_essence]
  | incoming => simp only [emission, Flatten.inDataset_essence]

theorem Field.essence_defaultsEmission (dataset : Field) :
    dataset.essence.defaultsEmission = dataset.defaultsEmission := by
  funext handle
  simp only [defaultsEmission, Flatten.outDataset_essence]

theorem Field.emission_congr {one other : Field}
    (same : one.essence = other.essence) : one.emission = other.emission := by
  rw [← one.essence_emission, same, other.essence_emission]

theorem Field.defaultsEmission_congr {one other : Field}
    (same : one.essence = other.essence) :
    one.defaultsEmission = other.defaultsEmission := by
  rw [← one.essence_defaultsEmission, same, other.essence_defaultsEmission]

end DataBridge
