import DataBridge.Proofs.Record
import Mathlib.Data.List.Nodup

/-!
# Leaf paths of a type

The exchanged leaves of a type, each with the way to it: into a member by its
name, into an array by the number of its elements.  `Field.leafPaths` lists
them depth first in declared order.  It lists each path once, and exactly the
paths that `Field.LeadsTo` describes.
-/

namespace DataBridge

/-- A step from a type towards a leaf. -/
inductive LeafStep where
  | member (name : String)
  | elements (size : Nat)
deriving DecidableEq, Repr

/-- A way from a type to a leaf. -/
structure LeafPath where
  steps : List LeafStep
  leaf : Leaf
deriving DecidableEq, Repr

/-- The path with one more step in front. -/
def LeafPath.under (step : LeafStep) (path : LeafPath) : LeafPath :=
  { path with steps := step :: path.steps }

mutual

/-- The paths to the exchanged leaves of a member. -/
def Field.leafPaths (field : Field) : List LeafPath :=
  match field with
  | { type, arraySize := 0, .. } => type.leafPaths
  | { type, arraySize := size + 1, .. } =>
      type.leafPaths.map (LeafPath.under (.elements (size + 1)))

/-- The paths to the exchanged leaves of a single value. -/
def FieldType.leafPaths : FieldType → List LeafPath
  | .leaf leaf => [⟨[], leaf⟩]
  | .record { fields, .. } => membersLeafPaths fields

/-- The paths to the exchanged leaves of some members. -/
def membersLeafPaths : List Field → List LeafPath
  | [] => []
  | member :: rest =>
      if member.isPrivate then membersLeafPaths rest
      else member.leafPaths.map (LeafPath.under (.member member.name)) ++
        membersLeafPaths rest

end

/-- A path that passes through exchanged members only, enters an array exactly
where the type has one, and ends at a leaf. -/
inductive Field.LeadsTo : Field → LeafPath → Prop where
  | leaf {field : Field} {leaf : Leaf} (single : field.arraySize = 0)
      (type : field.type = .leaf leaf) : Field.LeadsTo field ⟨[], leaf⟩
  | member {field member : Field} {record : Record} {path : LeafPath}
      (single : field.arraySize = 0) (type : field.type = .record record)
      (inside : member ∈ record.exchanged)
      (further : Field.LeadsTo member path) :
      Field.LeadsTo field (path.under (.member member.name))
  | elements {field : Field} {path : LeafPath} (array : field.isArray = true)
      (further : Field.LeadsTo field.element path) :
      Field.LeadsTo field (path.under (.elements field.arraySize))

section Shape

variable {field : Field}

theorem leafPaths_single (single : field.arraySize = 0) :
    field.leafPaths = field.type.leafPaths := by
  obtain ⟨name, type, size, flags, comment, enumName⟩ := field
  cases single
  rfl

theorem leafPaths_array {size : Nat} (array : field.arraySize = size + 1) :
    field.leafPaths =
      field.type.leafPaths.map (LeafPath.under (.elements (size + 1))) := by
  obtain ⟨name, type, size, flags, comment, enumName⟩ := field
  cases array
  rfl

private theorem leafPaths_element :
    field.element.leafPaths = field.type.leafPaths :=
  leafPaths_single rfl

theorem leafPaths_record (record : Record) :
    (FieldType.record record).leafPaths = membersLeafPaths record.fields := by
  cases record
  rfl

end Shape

theorem mem_membersLeafPaths_iff {fields : List Field} {path : LeafPath} :
    path ∈ membersLeafPaths fields ↔
      ∃ member ∈ fields, member.isPrivate = false ∧
        ∃ further ∈ member.leafPaths,
          further.under (.member member.name) = path := by
  induction fields with
  | nil => simp [membersLeafPaths]
  | cons member rest induction =>
      by_cases hidden : member.isPrivate = true
      · simp [membersLeafPaths, hidden, induction]
      · simp [membersLeafPaths, hidden, induction]

theorem Field.LeadsTo.mem_leafPaths {field : Field} {path : LeafPath}
    (leads : field.LeadsTo path) : path ∈ field.leafPaths := by
  induction leads with
  | leaf single type =>
      rw [leafPaths_single single, type]
      exact List.mem_singleton_self _
  | member single type inside _ known =>
      obtain ⟨listed, exchanged⟩ := List.mem_filter.mp inside
      rw [leafPaths_single single, type, leafPaths_record]
      apply mem_membersLeafPaths_iff.mpr
      exact ⟨_, listed, by simpa using exchanged, _, known, rfl⟩
  | @elements field path array _ known =>
      obtain ⟨size, equal⟩ :=
        Nat.exists_eq_add_one.mpr (of_decide_eq_true array)
      rw [leafPaths_array equal, ← equal]
      apply List.mem_map_of_mem
      rwa [leafPaths_element] at known

theorem Field.leadsTo_of_mem {field : Field} {path : LeafPath}
    (listed : path ∈ field.leafPaths) : field.LeadsTo path := by
  induction field using Field.nested_induction generalizing path with
  | step field induction =>
      -- One element of an array is a field of the same type that is no array.
      have plain : ∀ {whole : Field} {path : LeafPath},
          whole.type = field.type → whole.arraySize = 0 →
          path ∈ field.type.leafPaths → whole.LeadsTo path := by
        intro whole path same single listed
        cases type : field.type with
        | leaf leaf =>
            rw [type] at listed same
            rw [List.mem_singleton.mp listed]
            exact .leaf single same
        | record record =>
            rw [type] at same
            rw [type, leafPaths_record] at listed
            obtain ⟨member, inside, exchanged, further, known, rfl⟩ :=
              mem_membersLeafPaths_iff.mp listed
            apply Field.LeadsTo.member single same
            · exact List.mem_filter.mpr ⟨inside, by simp [exchanged]⟩
            · exact induction record type member inside known
      rcases size : field.arraySize with _ | count
      · rw [leafPaths_single size] at listed
        exact plain rfl size listed
      · rw [leafPaths_array size, ← size] at listed
        obtain ⟨further, known, rfl⟩ := List.mem_map.mp listed
        apply Field.LeadsTo.elements
        · simp [Field.isArray, size]
        · exact plain rfl rfl known

theorem Field.mem_leafPaths_iff {field : Field} {path : LeafPath} :
    path ∈ field.leafPaths ↔ field.LeadsTo path :=
  ⟨Field.leadsTo_of_mem, Field.LeadsTo.mem_leafPaths⟩

theorem steps_map_under (step : LeafStep) (paths : List LeafPath) :
    (paths.map (LeafPath.under step)).map LeafPath.steps =
      (paths.map LeafPath.steps).map (step :: ·) := by
  simp [LeafPath.under, Function.comp_def]

private theorem membersLeafPaths_nodup {fields : List Field}
    (distinct : (fields.map Field.name).Nodup)
    (members : ∀ member ∈ fields, (member.leafPaths.map LeafPath.steps).Nodup) :
    ((membersLeafPaths fields).map LeafPath.steps).Nodup := by
  induction fields with
  | nil => exact List.nodup_nil
  | cons member rest induction =>
      rw [List.map_cons, List.nodup_cons] at distinct
      have others := induction distinct.2 fun inner inside =>
        members inner (List.mem_cons_of_mem _ inside)
      rw [membersLeafPaths]
      split
      · exact others
      · rw [List.map_append, steps_map_under]
        apply List.Nodup.append
        · apply List.Nodup.map
          · exact fun _ _ => List.tail_eq_of_cons_eq
          · exact members member List.mem_cons_self
        · exact others
        -- The first step names the member, and no other member has its name.
        · intro steps first later
          obtain ⟨tail, _, rfl⟩ := List.mem_map.mp first
          obtain ⟨path, listed, equal⟩ := List.mem_map.mp later
          obtain ⟨other, inside, _, further, _, rfl⟩ :=
            mem_membersLeafPaths_iff.mp listed
          have named : other.name = member.name := by
            simpa using List.head_eq_of_cons_eq equal
          apply distinct.1
          rw [← named]
          exact List.mem_map_of_mem inside

/-- An array repeats the paths of its element below one more step. -/
theorem Field.leafPaths_nodup_of_type {field : Field}
    (single : (field.type.leafPaths.map LeafPath.steps).Nodup) :
    (field.leafPaths.map LeafPath.steps).Nodup := by
  rcases size : field.arraySize with _ | count
  · rw [leafPaths_single size]
    exact single
  · rw [leafPaths_array size, steps_map_under]
    apply List.Nodup.map
    · exact fun _ _ => List.tail_eq_of_cons_eq
    · exact single

theorem FieldType.WellNamed.leafPaths_nodup {type : FieldType}
    (wellNamed : type.WellNamed) :
    (type.leafPaths.map LeafPath.steps).Nodup := by
  induction wellNamed with
  | leaf leaf => exact List.nodup_singleton _
  | record distinct _ induction =>
      rw [leafPaths_record]
      apply membersLeafPaths_nodup distinct
      intro member inside
      exact Field.leafPaths_nodup_of_type (induction member inside)

end DataBridge
