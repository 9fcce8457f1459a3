import DataBridge.Proofs.Flatten.Essence
import DataBridge.Proofs.Privacy.Visible

/-!
# Private members and programs

Flattening never looks at a private member: a type and its visible part have one
essence, so they have the same programs.
-/

namespace DataBridge

theorem essentialMembers_visible {fields : List Field}
    (members : ∀ member ∈ fields, member.visible.essence = member.essence) :
    essentialMembers (visibleMembers fields) = essentialMembers fields := by
  rw [visibleMembers_eq, essentialMembers_eq, essentialMembers_eq,
    List.filter_map, List.filter_filter, List.map_map]
  simp only [Function.comp_def, Field.visible_isPrivate, Bool.and_self]
  exact List.map_congr_left fun member inside =>
    members member (List.mem_of_mem_filter inside)

theorem Field.visible_essence (field : Field) :
    field.visible.essence = field.essence := by
  induction field using Field.nested_induction with
  | step field induction =>
      rw [essence_eq, essence_eq, visible_name, visible_type, visible_arraySize]
      cases typed : field.type with
      | leaf leaf => rfl
      | record record =>
          rw [FieldType.visible_record, FieldType.essence_record,
            FieldType.essence_record, Record.essence, Record.visible,
            essentialMembers_visible (induction record typed), ← Record.essence]

theorem Record.visible_essence (record : Record) :
    record.visible.essence = record.essence := by
  rw [essence, visible, essentialMembers_visible fun member _ =>
    member.visible_essence, ← essence]

theorem Record.visible_emission (record : Record) :
    record.visible.emission = record.emission :=
  emission_congr record.visible_essence

theorem Field.visible_emission (dataset : Field) :
    dataset.visible.emission = dataset.emission :=
  emission_congr dataset.visible_essence

theorem Field.visible_defaultsEmission (dataset : Field) :
    dataset.visible.defaultsEmission = dataset.defaultsEmission :=
  defaultsEmission_congr dataset.visible_essence

end DataBridge
