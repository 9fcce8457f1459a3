import DataBridge.Proofs.Marshal.RoundTrip

/-!
# Blank values

The program for the initial value of a dataset builds its blank value: the
shape of the dataset with nothing but shared defaults in it.  The same value
comes out of zeroed memory, with floats for the whole zeros of the float
leaves, and going in it leaves zeroed memory as it is.
-/

namespace DataBridge

theorem WireInt.zero_inRange :
    -9223372036854775808 ≤ (0 : Int) ∧ (0 : Int) < 18446744073709551616 := by
  decide

/-- The JavaScript value of a leaf that was never written, when a float is
`float`. -/
def Leaf.blank (float : Wire) : Leaf → Wire
  | .bool => .bool false
  | .integer _ => .int ⟨0, WireInt.zero_inRange⟩
  | .float _ => float
  | .string _ => .string ""

mutual

/-- The JavaScript value of a member that was never written. -/
def Field.blank (float : Wire) (field : Field) : Wire :=
  match field with
  | { type, arraySize := 0, .. } => type.blank float
  | { type, arraySize := size + 1, .. } =>
      .array (List.replicate (size + 1) (type.blank float))

/-- The JavaScript value of a single value that was never written. -/
def FieldType.blank (float : Wire) : FieldType → Wire
  | .leaf leaf => leaf.blank float
  | .record { fields, .. } => .object (blankMembers float fields)

/-- The properties for the exchanged members of a record that was never
written. -/
def blankMembers (float : Wire) : List Field → List (String × Wire)
  | [] => []
  | member :: rest =>
      if member.isPrivate then blankMembers float rest
      else (member.name, member.blank float) :: blankMembers float rest

end

section Shape

variable {float : Wire} {field : Field} {size : Nat}

theorem blank_single (single : field.arraySize = 0) :
    field.blank float = field.type.blank float := by
  obtain ⟨name, type, size, flags, comment, enumName⟩ := field
  cases single
  rfl

theorem blank_array (array : field.arraySize = size + 1) :
    field.blank float =
      .array (List.replicate (size + 1) (field.type.blank float)) := by
  obtain ⟨name, type, size, flags, comment, enumName⟩ := field
  cases array
  rfl

private theorem blankMembers_eq_map (fields : List Field) :
    blankMembers float fields =
      (fields.filter fun member => !member.isPrivate).map fun member =>
        (member.name, member.blank float) := by
  induction fields with
  | nil => rfl
  | cons member rest induction =>
      rw [blankMembers, induction, List.filter_cons]
      cases member.isPrivate <;> rfl

theorem blank_record (record : Record) :
    (FieldType.record record).blank float =
      .object (record.exchanged.map fun member =>
        (member.name, member.blank float)) := by
  obtain ⟨name, comment, fields⟩ := record
  rw [FieldType.blank, blankMembers_eq_map]
  rfl

end Shape

/-- Zero as a whole JavaScript number. -/
def Wire.wholeZero : Wire := .int ⟨0, WireInt.zero_inRange⟩

/-- Zero as a double of JavaScript. -/
def Wire.floatZero : Wire := .double ⟨.zero, by decide⟩

theorem Wire.number?_wholeZero : wholeZero.number? = some .zero := by
  decide

namespace Leaf

/-- The shared default values have a whole zero for floats. -/
theorem defaultValue_eq_blank (leaf : Leaf) :
    Machine.defaultValue (.ofLeaf leaf) = leaf.blank .wholeZero := by
  cases leaf <;> rfl

theorem encode_zeroLeaf (leaf : Leaf) :
    leaf.encode (Native.zeroLeaf leaf) = leaf.blank .floatZero := by
  cases leaf with
  | bool => rfl
  | integer type => cases type <;> rfl
  | float type =>
      have rounded : type.round .zero = .zero := by
        cases type with
        | real => exact Double.toSingle_zero
        | lreal => rfl
      simp only [encode, toWire, Native.zeroLeaf, rounded]
      rfl
  | string length => rfl

theorem decode_blank (leaf : Leaf) {float : Wire}
    (zero : float.number? = some .zero) :
    leaf.decode (leaf.blank float) = .ok (Native.zeroLeaf leaf) := by
  have back := decode_encode leaf.zeroLeaf_canonical
  rw [encode_zeroLeaf] at back
  cases leaf with
  | bool => exact back
  | integer type => exact back
  | string length => exact back
  | float type =>
      rw [← back]
      have same : Wire.floatZero.number? = some .zero := rfl
      simp only [decode, ofWire, blank, zero, same]

end Leaf

theorem Field.decode_blank_of_type {field : Field} {float : Wire}
    (single : field.type.decode (field.type.blank float) =
      .ok (Native.zeroedType field.type)) :
    field.decode (field.blank float) = .ok (Native.zeroed field) := by
  cases size : field.arraySize with
  | zero => rw [blank_single size, Field.decode_single size,
      Native.zeroed_single size, single]
  | succ count =>
      have elements := @decode_items field.type
        (List.replicate (count + 1) (field.type.blank float))
        (List.replicate (count + 1) (Native.zeroedType field.type))
            (by simp) (by
          intro index item value found present
          rw [List.eq_of_mem_replicate (List.mem_of_getElem? found),
            List.eq_of_mem_replicate (List.mem_of_getElem? present)]
          exact single)
      rw [List.length_replicate] at elements
      rw [blank_array size, Field.decode_array size, Native.zeroed_array size,
        Wire.items, ok_bind, elements]
      rfl

/-- A blank value goes in as zeroed memory, whichever zero stands for floats. -/
theorem FieldType.decode_blank {type : FieldType} (wellNamed : type.WellNamed)
    {float : Wire} (zero : float.number? = some .zero) :
    type.decode (type.blank float) = .ok (Native.zeroedType type) := by
  induction wellNamed with
  | leaf leaf => exact leaf.decode_blank zero
  | record distinct _ induction =>
      rw [blank_record, Native.zeroedType, Native.zeroedRecord_eq,
        Native.zeroedMembers_eq_map]
      apply decode_object distinct (fun _ _ _ => rfl)
      exact fun member inside _ =>
        Field.decode_blank_of_type (induction member inside)

theorem Field.encode_zeroed_of_type {field : Field}
    (single : field.type.encode (Native.zeroedType field.type) =
      field.type.blank .floatZero) :
    field.encode (Native.zeroed field) = field.blank .floatZero := by
  cases size : field.arraySize with
  | zero => rw [blank_single size, Field.encode_single size,
      Native.zeroed_single size, single]
  | succ count =>
      rw [blank_array size, Field.encode_array size, Native.zeroed_array size]
      congr 1
      apply List.ext_getElem
      · simp
      · intro index below _
        have inside : index < count + 1 := by simpa using below
        have found :
            (List.replicate (count + 1)
              (Native.zeroedType field.type))[index]? =
            some (Native.zeroedType field.type) := by
          simp [inside]
        simp [Native.child_element found, single]

/-- Zeroed memory comes out as a blank value, with zero doubles for floats. -/
theorem FieldType.encode_zeroed {type : FieldType}
    (wellNamed : type.WellNamed) :
    type.encode (Native.zeroedType type) = type.blank .floatZero := by
  induction wellNamed with
  | leaf leaf => exact leaf.encode_zeroLeaf
  | @record record distinct _ induction =>
      rw [blank_record, Native.zeroedType, Native.zeroedRecord_eq,
        Native.zeroedMembers_eq_map, FieldType.encode_record,
        encodeMembers_eq_map]
      congr 1
      apply List.map_congr_left
      intro member inside
      have declared := (List.mem_filter.mp inside).1
      rw [Native.child_member (lookup_map_name distinct declared Native.zeroed),
        Field.encode_zeroed_of_type (induction member declared)]

namespace Outgoing

open Machine Native

variable {letters : List Char} {machine : Machine}

/-- The defaults give a blank value. -/
theorem gives_blank (field : Field) (distinct : letters.Nodup)
    (enough : field.depth ≤ letters.length) :
    Gives letters .defaults machine field.type field.arraySize
      (field.blank .wholeZero) := by
  induction field using Field.nested_induction generalizing letters machine with
  | step field induction =>
      have single : ∀ {letters machine},
          letters.Nodup → field.type.depth ≤ letters.length →
          Gives letters .defaults machine field.type 0
            (field.type.blank .wholeZero) := by
        intro letters machine distinct enough
        cases type : field.type with
        | leaf leaf =>
            apply Gives.leaf
            intro after dest _ _
            rw [Origin.leaf, step, leaf.defaultValue_eq_blank]
            rfl
        | record record =>
            rw [type, Layout.depth_record] at enough
            rw [blank_record]
            apply Gives.record
            intro member inside
            obtain ⟨declared, shown⟩ := List.mem_filter.mp inside
            have fewer :=
              Layout.depth_le_membersDepth declared (by simpa using shown)
            exact induction record type member declared distinct
              (Nat.le_trans fewer enough)
      rcases size : field.arraySize with _ | count
      · rw [Layout.depth_single size] at enough
        rw [blank_single size]
        exact single distinct enough
      · rw [Layout.depth_array size] at enough
        obtain ⟨letter, free, rfl⟩ :=
          List.exists_cons_of_length_pos (Nat.zero_lt_of_lt enough)
        obtain ⟨fresh, fewer⟩ := List.nodup_cons.mp distinct
        rw [blank_array size]
        refine .array fresh List.length_replicate ?_
        intro index item found
        rw [List.eq_of_mem_replicate (List.mem_of_getElem? found)]
        exact single fewer (Nat.le_of_succ_le_succ enough)

/-- The program for the initial value of a dataset exists when enough iterators
are left, and needs no native value to build the blank one. -/
theorem marshalOut_defaults {dataset : Field}
    (wellNamed : dataset.type.WellNamed) {expression : String} {naming : Naming}
    {emission : Emission}
    (flattened : (dataset.defaultsEmission (.external expression) naming).1 =
      .ok emission) :
    dataset.depth ≤ naming.free.length ∧
      ∀ native, emission.marshalOut native =
        .ok (dataset.blank .wholeZero) := by
  obtain ⟨maxSlot, equal⟩ :=
    (Layout.outDataset_computes .defaults (.external expression) dataset).finish
      .outgoing naming
  rw [Field.defaultsEmission, equal] at flattened
  split at flattened
  · rename_i enough
    cases flattened
    refine ⟨enough, ?_⟩
    intro native
    have outer : (Handle.external expression).Outer naming.nextSlot := trivial
    obtain ⟨after, ran, bound⟩ := writes_dataset wellNamed outer
      (@gives_blank _ { native } dataset naming.free_nodup enough)
    have root : Emission.wireRoot? ⟨.outgoing,
        Layout.outDataset .defaults (.external expression)
          naming.nextSlot naming.free dataset,
          maxSlot⟩ = some (.external expression) :=
      wireRoot_outDataset _ _ _ _ _
    simp only [Emission.marshalOut, root]
    rw [ran, ok_bind, bound]
  · cases flattened

end Outgoing

namespace Native

/-- A zero stored into zeroed memory leaves it as it is. -/
theorem setPart_zeroed_self {record : Record} {dataset : Field}
    (distinct : (record.fields.map Field.name).Nodup)
    (inside : dataset ∈ record.fields) :
    setPart (zeroed dataset) (.member dataset.name) (zeroed record.asField) =
      zeroed record.asField := by
  rw [setPart_zeroed _ _ distinct, zeroed_asField]
  congr 1
  apply List.map_congr_left
  intro member declared
  by_cases same : member.name = dataset.name
  · rw [if_pos same, member_eq_of_name distinct declared inside same]
  · rw [if_neg same]

end Native

/-- Where the initial value of a member of a resolver's record can be built, so
can its programs in both directions.  The initial value is its blank value with
whole zeros for floats, which every incoming program takes to zeroed memory.
Every outgoing program makes the blank value with zero doubles of it. -/
theorem defaults_are_zero {catalog : Catalog} {record : Record}
    (produced : Resolver.Produces catalog record) {dataset : Field}
    (inside : dataset ∈ record.fields) {expression : String} {naming : Naming}
    {defaults : Emission}
    (flattened : (dataset.defaultsEmission (.external expression) naming).1 =
      .ok defaults) :
    (∀ native, defaults.marshalOut native = .ok (dataset.blank .wholeZero)) ∧
    (∀ root other direction, ∃ emission,
      (dataset.emission (Place.field { root } dataset.name) (.external other)
        direction
        naming).1 = .ok emission) ∧
    ∀ root other context,
      (∀ incoming,
        (dataset.emission (Place.field { root } dataset.name) (.external other)
          .incoming
          context).1 = .ok incoming →
        incoming.marshalIn record.asField (dataset.blank .wholeZero) =
          .ok (Native.zeroed record.asField)) ∧
      ∀ outgoing,
        (dataset.emission (Place.field { root } dataset.name) (.external other)
          .outgoing
          context).1 = .ok outgoing →
        outgoing.marshalOut (Native.zeroed record.asField) =
          .ok (dataset.blank .floatZero) := by
  have wellNamed := produced.wellNamed
  have member := wellNamed.member inside
  obtain ⟨enough, built⟩ := Outgoing.marshalOut_defaults member flattened
  refine ⟨built, ?_, ?_⟩
  · intro root other direction
    obtain ⟨maxSlot, equal⟩ :=
      dataset.emission_eq (Place.field { root } dataset.name) (.external other)
        direction naming
    rw [equal, if_pos enough]
    exact ⟨_, rfl⟩
  · intro root other context
    constructor
    · intro incoming programmed
      have decoded :=
        Field.decode_blank_of_type
          (FieldType.decode_blank member Wire.number?_wholeZero)
      apply mapError_eq_ok_iff.mp
      rw [Incoming.marshalIn_member wellNamed inside programmed, decoded]
      exact congrArg Except.ok
        (Native.setPart_zeroed_self wellNamed.distinct inside)
    · intro outgoing programmed
      have found := lookup_map_name wellNamed.distinct inside Native.zeroed
      have fits := dataset.zeroed_canonical.fits member
      rw [Native.zeroed_asField,
        (Outgoing.marshalOut_member member programmed).2 _ _ found fits,
        Field.encode_zeroed_of_type (FieldType.encode_zeroed member)]

/-- The JavaScript value of the axes of a plant that was never written. -/
def blankAxes (float : Wire) : Wire :=
  let axis : Wire :=
    .object [("speed", float), ("ticks", .array [.wholeZero, .wholeZero])]
  .array [axis, axis]

theorem axes_defaults_are_zero :
    Resolver.Produces Resolver.plantCatalog Resolver.plant ∧
      ∃ axes ∈ Resolver.plant.fields, ∃ defaults incoming outgoing,
        (axes.defaultsEmission (.external "axes_value") {}).1 = .ok defaults ∧
        (axes.emission ⟨"plc", [.field axes.name]⟩ (.external "message")
          .incoming {}).1 =
          .ok incoming ∧
        (axes.emission ⟨"plc", [.field axes.name]⟩ (.external "message")
          .outgoing {}).1 =
          .ok outgoing ∧
        defaults.marshalOut plantNative = .ok (blankAxes .wholeZero) ∧
        incoming.marshalIn Resolver.plant.asField (blankAxes .wholeZero) =
          .ok (Native.zeroed Resolver.plant.asField) ∧
        outgoing.marshalOut (Native.zeroed Resolver.plant.asField) =
          .ok (blankAxes .floatZero) := by
  have inside : _ ∈ Resolver.plant.fields := .tail _ (.head _)
  obtain ⟨built, _, programs⟩ :=
    @defaults_are_zero _ _ Resolver.plant_produced _ inside "axes_value"
      {} _ rfl
  obtain ⟨enters, leaves⟩ := programs "plc" "message" {}
  exact ⟨Resolver.plant_produced, _, inside, _, _, _, rfl, rfl, rfl,
    built plantNative, enters _ rfl, leaves _ rfl⟩

end DataBridge
