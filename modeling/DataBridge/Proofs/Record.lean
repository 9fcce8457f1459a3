import DataBridge.Record

/-!
# Well-named records

Members are addressed by name, so every argument about a record needs its
members to have distinct names, and those of the records inside it too.
`FieldType.WellNamed` says this of a type, and its induction hands out the
members of a record one by one.
-/

namespace DataBridge

/-- Distinct names among the members of every record of a type, private
members included. -/
inductive FieldType.WellNamed : FieldType → Prop where
  | leaf (leaf : Leaf) : FieldType.WellNamed (.leaf leaf)
  | record {record : Record}
      (distinct : (record.fields.map Field.name).Nodup)
      (members : ∀ member ∈ record.fields, FieldType.WellNamed member.type) :
      FieldType.WellNamed (.record record)

/-- A record whose members have distinct names at every depth. -/
def Record.WellNamed (record : Record) : Prop :=
  (FieldType.record record).WellNamed

namespace Record.WellNamed

theorem distinct {record : Record} (wellNamed : record.WellNamed) :
    (record.fields.map Field.name).Nodup := by
  cases wellNamed with
  | record distinct _ => exact distinct

theorem member {record : Record} (wellNamed : record.WellNamed)
    {member : Field} (inside : member ∈ record.fields) :
    member.type.WellNamed := by
  cases wellNamed with
  | record _ members => exact members member inside

end Record.WellNamed

theorem mem_of_lookup {α : Type} {entries : List (String × α)} {name : String}
    {value : α} (found : entries.lookup name = some value) :
    (name, value) ∈ entries := by
  obtain ⟨before, after, rfl, _⟩ := List.lookup_eq_some_iff.mp found
  exact List.mem_append_right before List.mem_cons_self

theorem lookup_map_value {α β : Type} (entries : List (String × α))
    (change : α → β) (name : String) :
    (entries.map fun entry => (entry.1, change entry.2)).lookup name =
      (entries.lookup name).map change := by
  induction entries with
  | nil => rfl
  | cons entry rest induction =>
      rw [List.map_cons, List.lookup_cons, List.lookup_cons]
      cases name == entry.1 with
      | true => rfl
      | false => exact induction

/-- With distinct names, looking a member up by its name finds what goes with
it. -/
theorem lookup_map_name {α : Type} {fields : List Field} {member : Field}
    (distinct : (fields.map Field.name).Nodup) (inside : member ∈ fields)
    (part : Field → α) :
    (fields.map fun field => (field.name, part field)).lookup member.name =
      some (part member) := by
  induction fields with
  | nil => cases inside
  | cons first rest induction =>
      rw [List.map_cons, List.nodup_cons] at distinct
      rw [List.map_cons]
      rcases List.mem_cons.mp inside with rfl | later
      · exact List.lookup_cons_self
      · have known : member.name ∈ rest.map Field.name :=
          List.mem_map_of_mem later
        have different : (member.name == first.name) = false := by
          rw [beq_eq_false_iff_ne]
          intro equal
          rw [equal] at known
          exact distinct.1 known
        rw [List.lookup_cons, different]
        exact induction distinct.2 later

theorem member_eq_of_name {fields : List Field} {member other : Field}
    (distinct : (fields.map Field.name).Nodup) (inside : member ∈ fields)
    (otherInside : other ∈ fields) (same : member.name = other.name) :
    member = other := by
  have found := lookup_map_name distinct inside id
  rw [same, lookup_map_name distinct otherInside id] at found
  exact (Option.some.inj found).symm

/-- Induction over a field in which a record stands on its members. -/
theorem Field.nested_induction {P : Field → Prop}
    (step : ∀ field : Field,
      (∀ record, field.type = .record record → ∀ member ∈ record.fields,
        P member) →
        P field)
    (field : Field) : P field := by
  refine @Field.rec P
    (fun type =>
      ∀ record, type = .record record → ∀ member ∈ record.fields, P member)
    (fun record => ∀ member ∈ record.fields, P member)
    (fun fields => ∀ member ∈ fields, P member)
    ?field ?leaf ?record ?members ?nil ?cons field
  case field =>
    intro name type size flags comment enumName members
    exact step _ members
  case leaf =>
    intro leaf record impossible
    cases impossible
  case record =>
    intro record members other equal
    cases equal
    exact members
  case members =>
    intro _ _ _ members
    exact members
  case nil =>
    intro member inside
    cases inside
  case cons =>
    intro first rest ofFirst ofRest member inside
    rcases List.mem_cons.mp inside with equal | later
    · exact equal ▸ ofFirst
    · exact ofRest member later

/-- The root field of a datamodel: a member that holds the record. -/
def Record.asField (record : Record) : Field :=
  { name := record.name, type := .record record }

theorem Record.WellNamed.asField {record : Record}
    (wellNamed : record.WellNamed) : record.asField.type.WellNamed :=
  wellNamed

end DataBridge
