import DataBridge.Proofs.Marshal.Leaf
import DataBridge.Proofs.Marshal.Outgoing

/-!
# Native values of an exact shape

A native value of a declared shape has as many elements as its arrays say, the
declared members in their order, and nothing but zeros in private members.
Zeroed memory has such a shape and so does whatever a decoder answers, and an
encoder accepts every value of this kind.
-/

namespace DataBridge

/-- The native value is exactly what a type and an array size declare.  Its
private members are zero, and every other leaf has the property. -/
inductive Native.Exact (good : Leaf → Native → Prop) :
    FieldType → Nat → Native → Prop where
  | leaf {leaf : Leaf} {value : Native} (holds : good leaf value) :
      Native.Exact good (.leaf leaf) 0 value
  | record {record : Record} {part : Field → Native}
      (hidden : ∀ member ∈ record.fields, member.isPrivate = true →
        part member = Native.zeroed member)
      (exact : ∀ member ∈ record.fields, member.isPrivate = false →
        Native.Exact good member.type member.arraySize (part member)) :
      Native.Exact good (.record record) 0
        (.record (record.fields.map fun member => (member.name, part member)))
  | array {type : FieldType} {size : Nat} {items : List Native}
      (length : items.length = size + 1)
      (exact : ∀ item ∈ items, Native.Exact good type 0 item) :
      Native.Exact good type (size + 1) (.array items)

/-- The native value is exactly what a member declares. -/
def Field.Exact (good : Leaf → Native → Prop) (field : Field) (value : Native) :
    Prop :=
  Native.Exact good field.type field.arraySize value

/-- The native value is what a member declares, with integers and texts that
their leaves can hold and finite floats of their precision. -/
def Field.Canonical (field : Field) (value : Native) : Prop :=
  field.Exact Leaf.Canonical value

namespace Native.Exact

variable {type : FieldType} {size : Nat} {value : Native}

theorem elements {good : Leaf → Native → Prop}
    (exact : Exact good type (size + 1) value) :
    ∃ items, value = .array items ∧ items.length = size + 1 ∧
      ∀ item ∈ items, Exact good type 0 item := by
  cases exact with
  | array length exact => exact ⟨_, rfl, length, exact⟩

theorem members {good : Leaf → Native → Prop} {record : Record}
    (exact : Exact good (.record record) 0 value) :
    ∃ part : Field → Native,
      value = .record (record.fields.map fun member =>
        (member.name, part member)) ∧
      (∀ member ∈ record.fields, member.isPrivate = true →
        part member = zeroed member) ∧
      ∀ member ∈ record.fields, member.isPrivate = false →
        Exact good member.type member.arraySize (part member) := by
  cases exact with
  | record hidden exact => exact ⟨_, rfl, hidden, exact⟩

/-- Two properties of leaves that give a third one. -/
theorem combine {first second third : Leaf → Native → Prop}
    (both : ∀ leaf value, first leaf value → second leaf value →
      third leaf value)
    (left : Exact first type size value)
    (right : Exact second type size value) : Exact third type size value := by
  induction left with
  | leaf holds =>
      cases right with
      | leaf also => exact .leaf (both _ _ holds also)
  | @record record part _ _ induction =>
      generalize whole : Native.record
        (record.fields.map fun member => (member.name, part member)) =
          value at right
      cases right with
      | @record _ other hidden exact =>
          refine .record hidden ?_
          intro member inside exchanged
          have same : part member = other member := by
            have pairs := Native.record.inj whole
            exact congrArg Prod.snd (List.map_inj_left.mp pairs member inside)
          rw [← same]
          refine induction member inside exchanged ?_
          rw [same]
          exact exact member inside exchanged
  | array length _ induction =>
      cases right with
      | array _ exact =>
          exact .array length fun item inside =>
            induction item inside (exact item inside)

theorem mono {first second : Leaf → Native → Prop}
    (weaker : ∀ leaf value, first leaf value → second leaf value)
    (exact : Exact first type size value) : Exact second type size value :=
  exact.combine (fun leaf value holds _ => weaker leaf value holds) exact

theorem fits {good : Leaf → Native → Prop} (wellNamed : type.WellNamed)
    (accepts : ∀ leaf value, good leaf value → leaf.Accepts value)
    (exact : Exact good type size value) : Fits type size value := by
  induction exact with
  | leaf holds => exact .leaf (accepts _ _ holds)
  | @record record part _ _ induction =>
      have found : ∀ member ∈ record.fields, _ := fun member inside =>
        lookup_map_name (Record.WellNamed.distinct wellNamed) inside part
      constructor
      · intro member inside
        rw [found member (List.mem_filter.mp inside).1]
        rfl
      · intro member inside value lookup
        obtain ⟨declared, exchanged⟩ := List.mem_filter.mp inside
        rw [found member declared] at lookup
        cases lookup
        exact induction member declared (by simpa using exchanged)
          (Record.WellNamed.member wellNamed declared)
  | array length _ induction =>
      refine .array (Nat.le_of_eq length.symm) ?_
      intro index item _ found
      exact induction item (List.mem_of_getElem? found) wellNamed

end Native.Exact

theorem Leaf.Holds.accepts {float : FloatType → Double → Prop} {leaf : Leaf}
    {value : Native} (holds : leaf.Holds float value) : leaf.Accepts value := by
  cases leaf <;> cases value <;> trivial

theorem Field.Canonical.fits {field : Field} {value : Native}
    (wellNamed : field.type.WellNamed) (canonical : field.Canonical value) :
    field.Fits value :=
  Native.Exact.fits wellNamed (fun _ _ holds => holds.accepts) canonical

/-- Zeroed memory holds what its member declares. -/
theorem Field.zeroed_canonical (field : Field) :
    field.Canonical (Native.zeroed field) := by
  induction field using Field.nested_induction with
  | step field ofMembers =>
      have single : Native.Exact Leaf.Canonical field.type 0
          (Native.zeroedType field.type) := by
        cases type : field.type with
        | leaf leaf => exact .leaf leaf.zeroLeaf_canonical
        | record record =>
            rw [Native.zeroedType, Native.zeroedRecord_eq,
              Native.zeroedMembers_eq_map]
            exact .record (fun _ _ _ => rfl)
              fun member inside _ => ofMembers record type member inside
      unfold Field.Canonical Field.Exact
      cases size : field.arraySize with
      | zero =>
          rw [Native.zeroed_single size]
          exact single
      | succ length =>
          rw [Native.zeroed_array size]
          refine .array List.length_replicate ?_
          intro item inside
          rw [List.eq_of_mem_replicate inside]
          exact single

/-- Whatever a decoder answers is exactly what its member declares, with leaves
that their native types can store. -/
theorem Field.exact_of_decode (field : Field) :
    ∀ wire value, field.decode wire = .ok value →
      field.Exact Leaf.Stores value := by
  induction field using Field.nested_induction with
  | step field ofMembers =>
      have single : ∀ wire value, field.type.decode wire = .ok value →
          Native.Exact Leaf.Stores field.type 0 value := by
        intro wire value decoded
        cases type : field.type with
        | leaf leaf =>
            rw [type] at decoded
            exact .leaf (Leaf.stores_of_decode decoded)
        | record record =>
            rw [type, FieldType.decode_record] at decoded
            obtain ⟨properties, _, body⟩ := bind_eq_ok_iff.mp decoded
            obtain ⟨members, fields, done⟩ := bind_eq_ok_iff.mp body
            cases done
            obtain ⟨part, each, rfl⟩ := decodeMembers_eq_ok_iff.mp fields
            constructor
            · intro member inside hidden
              have decoded := each member inside
              rw [Field.decodeFrom, if_pos hidden] at decoded
              exact (Except.ok.inj decoded).symm
            · intro member inside exchanged
              have decoded := each member inside
              rw [Field.decodeFrom, exchanged] at decoded
              obtain ⟨property, _, decoded⟩ := bind_eq_ok_iff.mp decoded
              exact ofMembers record type member inside property _ decoded
      intro wire value decoded
      unfold Field.Exact
      cases size : field.arraySize with
      | zero =>
          rw [Field.decode_single size] at decoded
          exact single wire value decoded
      | succ length =>
          rw [Field.decode_array size] at decoded
          obtain ⟨items, _, body⟩ := bind_eq_ok_iff.mp decoded
          obtain ⟨values, elements, done⟩ := bind_eq_ok_iff.mp body
          cases done
          obtain ⟨element, each, rfl⟩ := mapM_eq_ok_iff.mp elements
          refine .array (by simp) ?_
          intro value inside
          obtain ⟨index, range, rfl⟩ := List.mem_map.mp inside
          obtain ⟨item, _, decoded⟩ := bind_eq_ok_iff.mp (each index range)
          exact single item _ decoded

namespace Native

private theorem setMember_map {fields : List Field} (name : String)
    (value : Native)
    (distinct : (fields.map Field.name).Nodup) (part : Field → Native) :
    setMember name value (fields.map fun member => (member.name, part member)) =
      fields.map fun member =>
        (member.name, if member.name = name then value else part member) := by
  induction fields with
  | nil => rfl
  | cons first rest induction =>
      rw [List.map_cons, List.nodup_cons] at distinct
      rw [List.map_cons, List.map_cons, setMember]
      split
      · rename_i equal
        congr 1
        apply List.map_congr_left
        intro member inside
        have different : member.name ≠ name := by
          intro same
          apply distinct.1
          rw [equal, ← same]
          exact List.mem_map_of_mem inside
        rw [if_neg different]
      · rw [induction distinct.2]

theorem setPart_zeroed {record : Record} (name : String) (value : Native)
    (distinct : (record.fields.map Field.name).Nodup) :
    setPart value (.member name) (zeroed record.asField) =
      .record (record.fields.map fun member =>
        (member.name, if member.name = name then
            value else zeroed member)) := by
  rw [zeroed_asField, setPart, setMember_map _ _ distinct]

/-- A zeroed record takes whatever one of its exchanged members declares. -/
theorem exact_setPart_zeroed {good : Leaf → Native → Prop} {record : Record}
    {dataset : Field} {value : Native}
    (distinct : (record.fields.map Field.name).Nodup)
    (zero : ∀ field : Field, field.Exact good (zeroed field))
    (inside : dataset ∈ record.fields) (exchanged : dataset.isPrivate = false)
    (exact : dataset.Exact good value) :
    record.asField.Exact good
      (setPart value (.member dataset.name) (zeroed record.asField)) := by
  rw [setPart_zeroed _ _ distinct]
  have same : ∀ member ∈ record.fields, member.name = dataset.name →
      member = dataset :=
    fun member declared => member_eq_of_name distinct declared inside
  constructor
  · intro member declared hidden
    split
    · rename_i equal
      rw [same member declared equal, exchanged] at hidden
      cases hidden
    · rfl
  · intro member declared _
    split
    · rename_i equal
      rw [same member declared equal]
      exact exact
    · exact zero member

end Native

end DataBridge
