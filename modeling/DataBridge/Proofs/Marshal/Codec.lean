import DataBridge.Marshal.Machine
import DataBridge.Proofs.Failure
import DataBridge.Proofs.Record

/-!
# The values that programs move

What an incoming program makes of a JavaScript value, and an outgoing one of a
native value, said by recursion on the type and without any program: `decode`
and `encode`.  A decoder's faults are those of a program without the places and
handles that a program names in them.
-/

namespace DataBridge

/-- A fault without the place or handle that it names. -/
inductive FaultKind where
  | stringTooLong (limit actual : Nat)
  | typeMismatch (expected : WireKind)
  | missingProperty (name : String)
  | indexOutOfRange (index length : Nat)
  | unboundHandle
  | unboundIterator
  | nativeShape (expected : NativeKind)
deriving DecidableEq, Repr

def Fault.kind : Fault → FaultKind
  | .stringTooLong _ limit actual => .stringTooLong limit actual
  | .typeMismatch expected _ => .typeMismatch expected
  | .missingProperty name => .missingProperty name
  | .indexOutOfRange index length => .indexOutOfRange index length
  | .unboundHandle _ => .unboundHandle
  | .unboundIterator _ => .unboundIterator
  | .nativeShape _ expected => .nativeShape expected

/-- A place for conversions whose place does not matter. -/
def Place.anywhere : Place := { root := "" }

namespace Wire

def items : Wire → Except FaultKind (List Wire)
  | .array items => .ok items
  | _ => .error (.typeMismatch .array)

def members : Wire → Except FaultKind (List (String × Wire))
  | .object members => .ok members
  | _ => .error (.typeMismatch .object)

/-- The element of an array at an index. -/
def item (items : List Wire) (index : Nat) : Except FaultKind Wire :=
  match items[index]? with
  | some item => .ok item
  | none => .error (.indexOutOfRange index items.length)

/-- The property of an object with a name. -/
def property (members : List (String × Wire)) (name : String) :
    Except FaultKind Wire :=
  match members.lookup name with
  | some value => .ok value
  | none => .error (.missingProperty name)

end Wire

/-- The native leaf of a JavaScript value. -/
def Leaf.decode (leaf : Leaf) (wire : Wire) : Except FaultKind Native :=
  (leaf.ofWire wire .anywhere).mapError Fault.kind

mutual

/-- The native value of a member from a JavaScript value.  An array takes as
many elements as it has and leaves further ones alone. -/
def Field.decode (field : Field) (wire : Wire) : Except FaultKind Native :=
  match field with
  | { type, arraySize := 0, .. } => type.decode wire
  | { type, arraySize := size + 1, .. } => do
      let items ← wire.items
      let values ← (List.range (size + 1)).mapM fun index => do
        type.decode (← Wire.item items index)
      return .array values

/-- A single native value from a JavaScript value.  Only a record with an
exchanged member asks for an object. -/
def FieldType.decode (type : FieldType) (wire : Wire) :
    Except FaultKind Native :=
  match type with
  | .leaf leaf => leaf.decode wire
  | .record { fields, .. } => do
      let properties ← (if fields.all Field.isPrivate then
        .ok [] else wire.members)
      return .record (← decodeMembers properties fields)

/-- The members of a record from the properties of an object, in declared
order.  A private member stays zero. -/
def decodeMembers (properties : List (String × Wire)) :
    List Field → Except FaultKind (List (String × Native))
  | [] => return []
  | member :: rest => do
      let value ←
        (if member.isPrivate then .ok (Native.zeroed member)
        else do member.decode (← Wire.property properties member.name))
      return (member.name, value) :: (← decodeMembers properties rest)

end

/-- The part of a native value at a step. -/
def Native.child (step : Step) (value : Native) : Native :=
  match part "" step value with
  | .ok inner => inner
  | .error _ => default

/-- The JavaScript value of a native leaf. -/
def Leaf.encode (leaf : Leaf) (value : Native) : Wire :=
  match leaf.toWire value .anywhere with
  | .ok wire => wire
  | .error _ => .null

mutual

/-- The JavaScript value of a member.  It means something for a native value
that has the shape of the member. -/
def Field.encode (field : Field) (value : Native) : Wire :=
  match field with
  | { type, arraySize := 0, .. } => type.encode value
  | { type, arraySize := size + 1, .. } =>
      .array ((List.range (size + 1)).map fun index =>
        type.encode (value.child (.element index)))

/-- The JavaScript value of a single native value. -/
def FieldType.encode (type : FieldType) (value : Native) : Wire :=
  match type with
  | .leaf leaf => leaf.encode value
  | .record { fields, .. } => .object (encodeMembers value fields)

/-- The properties for the exchanged members of a record, in declared order. -/
def encodeMembers (value : Native) : List Field → List (String × Wire)
  | [] => []
  | member :: rest =>
      if member.isPrivate then encodeMembers value rest
      else
        (member.name, member.encode (value.child (.member member.name))) ::
          encodeMembers value rest

end

/-- The value of a member from the properties of an object. -/
def Field.decodeFrom (member : Field) (properties : List (String × Wire)) :
    Except FaultKind Native :=
  if member.isPrivate then .ok (Native.zeroed member)
  else do member.decode (← Wire.property properties member.name)

theorem Leaf.decode_eq (leaf : Leaf) (wire : Wire) (place : Place) :
    leaf.decode wire = (leaf.ofWire wire place).mapError Fault.kind := by
  unfold Leaf.decode Leaf.ofWire
  cases leaf with
  | bool => cases wire.bool? <;> rfl
  | integer type => cases wire.number? <;> rfl
  | float type => cases wire.number? <;> rfl
  | string length =>
      cases wire.text? with
      | none => rfl
      | some text =>
          dsimp only
          split <;> rfl

/-- The value of a single element in memory that was never written. -/
def Native.zeroedType : FieldType → Native
  | .leaf leaf => zeroLeaf leaf
  | .record inner => zeroedRecord inner

namespace Native

theorem zeroed_single {field : Field} (single : field.arraySize = 0) :
    zeroed field = zeroedType field.type := by
  obtain ⟨name, type, size, flags, comment, enumName⟩ := field
  cases single
  cases type <;> rfl

theorem zeroed_array {field : Field} {size : Nat}
    (array : field.arraySize = size + 1) :
    zeroed field =
      .array (List.replicate (size + 1) (zeroedType field.type)) := by
  obtain ⟨name, type, size, flags, comment, enumName⟩ := field
  cases array
  cases type <;> rfl

theorem zeroedRecord_eq (record : Record) :
    zeroedRecord record = .record (zeroedMembers record.fields) := by
  cases record
  rfl

theorem zeroedMembers_eq_map (fields : List Field) :
    zeroedMembers fields = fields.map fun field =>
      (field.name, zeroed field) := by
  induction fields with
  | nil => rfl
  | cons field rest induction => simp [zeroedMembers, induction]

theorem zeroed_asField (record : Record) :
    zeroed record.asField = .record (record.fields.map fun field =>
      (field.name, zeroed field)) := by
  rw [← zeroedMembers_eq_map, zeroed_single rfl]
  exact zeroedRecord_eq record

end Native

section Single

variable {field : Field} {size : Nat}

theorem Field.decode_single (single : field.arraySize = 0) (wire : Wire) :
    field.decode wire = field.type.decode wire := by
  obtain ⟨name, type, size, flags, comment, enumName⟩ := field
  cases single
  rfl

theorem Field.decode_array (array : field.arraySize = size + 1) (wire : Wire) :
    field.decode wire = do
      let items ← wire.items
      let values ← (List.range (size + 1)).mapM fun index => do
        field.type.decode (← Wire.item items index)
      return .array values := by
  obtain ⟨name, type, size, flags, comment, enumName⟩ := field
  cases array
  rfl

theorem Field.encode_single (single : field.arraySize = 0) (value : Native) :
    field.encode value = field.type.encode value := by
  obtain ⟨name, type, size, flags, comment, enumName⟩ := field
  cases single
  rfl

theorem Field.encode_array (array : field.arraySize = size + 1)
    (value : Native) : field.encode value =
      .array ((List.range (size + 1)).map fun index =>
        field.type.encode (value.child (.element index))) := by
  obtain ⟨name, type, size, flags, comment, enumName⟩ := field
  cases array
  rfl

end Single

theorem FieldType.decode_record (record : Record) (wire : Wire) :
    (FieldType.record record).decode wire = do
      let properties ←
        (if record.fields.all Field.isPrivate then .ok [] else wire.members)
      return .record (← decodeMembers properties record.fields) := by
  cases record
  rfl

theorem FieldType.encode_record (record : Record) (value : Native) :
    (FieldType.record record).encode value =
      .object (encodeMembers value record.fields) := by
  cases record
  rfl

private theorem decodeMembers_eq_mapM (properties : List (String × Wire))
    (fields : List Field) :
    decodeMembers properties fields = fields.mapM fun member => do
      return (member.name, ← member.decodeFrom properties) := by
  induction fields with
  | nil => rfl
  | cons member rest induction =>
      rw [decodeMembers, List.mapM_cons, induction, Field.decodeFrom]
      simp only [bind_assoc, pure_bind]

/-- The members of a record decode when each of them does. -/
theorem decodeMembers_eq_ok_iff {properties : List (String × Wire)}
    {fields : List Field} {members : List (String × Native)} :
    decodeMembers properties fields = .ok members ↔
      ∃ part : Field → Native,
        (∀ member ∈ fields, member.decodeFrom properties = .ok (part member)) ∧
        fields.map (fun member => (member.name, part member)) = members := by
  rw [decodeMembers_eq_mapM, mapM_eq_ok_iff]
  constructor
  · rintro ⟨entry, each, rfl⟩
    have named : ∀ member ∈ fields, ∃ value,
        member.decodeFrom properties = .ok value ∧ (member.name, value) =
            entry member := by
      intro member inside
      obtain ⟨value, found, done⟩ := bind_eq_ok_iff.mp (each member inside)
      exact ⟨value, found, Except.ok.inj done⟩
    refine ⟨fun member => (entry member).2, ?_, List.map_congr_left ?_⟩
    · intro member inside
      obtain ⟨value, found, equal⟩ := named member inside
      simp only [found, ← equal]
    · intro member inside
      obtain ⟨value, _, equal⟩ := named member inside
      simp only [← equal]
  · rintro ⟨part, each, rfl⟩
    refine ⟨fun member => (member.name, part member), ?_, rfl⟩
    intro member inside
    rw [each member inside]
    rfl

/-- Elements decode when each of them does. -/
theorem decode_items {type : FieldType} {items : List Wire}
    {values : List Native} (length : items.length = values.length)
    (decodes : ∀ (index : Nat) item value, items[index]? = some item →
      values[index]? = some value → type.decode item = .ok value) :
    ((List.range items.length).mapM fun index => do
      type.decode (← Wire.item items index)) = .ok values := by
  rw [mapM_eq_ok_iff]
  refine ⟨fun index => values[index]?.getD default, ?_, ?_⟩
  · intro index range
    have below := List.mem_range.mp range
    have found := List.getElem?_eq_getElem below
    have present := List.getElem?_eq_getElem (length ▸ below)
    dsimp only
    rw [Wire.item, found, present]
    exact decodes index _ _ found present
  · apply List.ext_getElem
    · simp [length]
    · intro index _ below
      simp [below]

/-- An object with a property for each exchanged member decodes when each of
the properties does. -/
theorem decode_object {record : Record} {wire : Field → Wire}
    {part : Field → Native} (distinct : (record.fields.map Field.name).Nodup)
    (hidden : ∀ member ∈ record.fields, member.isPrivate = true →
      part member = Native.zeroed member)
    (decodes : ∀ member ∈ record.fields, member.isPrivate = false →
      member.decode (wire member) = .ok (part member)) :
    (FieldType.record record).decode
        (.object (record.exchanged.map fun member =>
          (member.name, wire member))) =
      .ok (.record (record.fields.map fun member =>
        (member.name, part member))) := by
  have properties : (if record.fields.all Field.isPrivate then .ok []
      else (Wire.object (record.exchanged.map fun member =>
        (member.name, wire member))).members) =
        Except.ok (record.exchanged.map fun member =>
            (member.name, wire member)) := by
    split
    · -- The decoder asks for no object here, and nothing stands in it.
      rename_i all
      have none : record.exchanged = [] := by
        simpa [Record.exchanged, List.filter_eq_nil_iff] using all
      rw [none]
      rfl
    · rfl
  have names : (record.exchanged.map Field.name).Nodup :=
    (List.filter_sublist.map Field.name).nodup distinct
  have decoded :
      decodeMembers (record.exchanged.map fun member =>
        (member.name, wire member)) record.fields =
      .ok (record.fields.map fun member => (member.name, part member)) := by
    refine decodeMembers_eq_ok_iff.mpr ⟨part, ?_, rfl⟩
    intro member inside
    unfold Field.decodeFrom
    split
    · rename_i isPrivate
      rw [hidden member inside isPrivate]
    · rename_i isPrivate
      have exchanged : member.isPrivate = false := by simpa using isPrivate
      have taken : member ∈ record.exchanged := by
        simp [Record.exchanged, inside, exchanged]
      rw [Wire.property, lookup_map_name names taken wire]
      exact decodes member inside exchanged
  rw [FieldType.decode_record, properties, ok_bind, decoded]
  rfl

theorem encodeMembers_eq_map (value : Native) (fields : List Field) :
    encodeMembers value fields =
      (fields.filter fun member => !member.isPrivate).map fun member =>
        (member.name, member.encode (value.child (.member member.name))) := by
  induction fields with
  | nil => rfl
  | cons member rest induction =>
      rw [encodeMembers, induction, List.filter_cons]
      cases member.isPrivate <;> rfl

end DataBridge
