import DataBridge.Proofs.Marshal.Canonical
import DataBridge.Proofs.Marshal.Incoming

/-!
# There and back

A canonical native value survives its encoding, so an outgoing and an incoming
program for the same record undo each other whatever names they use.  What an
incoming program accepts is canonical but for infinities, and so a second trip
changes nothing any more.
-/

namespace DataBridge

/-- The decoder of a type gives back what its encoder was given. -/
def FieldType.RoundTrips (type : FieldType) : Prop :=
  ∀ value, Native.Exact Leaf.Canonical type 0 value →
    type.decode (type.encode value) = .ok value

theorem roundTrips_field {field : Field} (roundTrips : field.type.RoundTrips)
    {value : Native} (canonical : field.Canonical value) :
    field.decode (field.encode value) = .ok value := by
  unfold Field.Canonical Field.Exact at canonical
  cases size : field.arraySize with
  | zero =>
      rw [size] at canonical
      rw [Field.encode_single size, Field.decode_single size]
      exact roundTrips value canonical
  | succ length =>
      rw [size] at canonical
      obtain ⟨items, rfl, count, exact⟩ := canonical.elements
      rw [Field.encode_array size, Field.decode_array size, Wire.items, ok_bind]
      have elements := @decode_items field.type
        ((List.range (length + 1)).map fun index =>
          field.type.encode ((Native.array items).child (.element index))) items
        (by simp [count]) (by
          intro index item value found present
          obtain ⟨below, rfl⟩ := List.getElem?_eq_some_iff.mp found
          rw [List.getElem_map, List.getElem_range,
            Native.child_element present]
          exact roundTrips value (exact value (List.mem_of_getElem? present)))
      rw [List.length_map, List.length_range] at elements
      rw [elements]
      rfl

private theorem roundTrips_record {record : Record}
    (distinct : (record.fields.map Field.name).Nodup)
    (roundTrips : ∀ member ∈ record.fields, member.type.RoundTrips) :
    (FieldType.record record).RoundTrips := by
  intro value canonical
  obtain ⟨part, rfl, hidden, exact⟩ := canonical.members
  rw [FieldType.encode_record, encodeMembers_eq_map]
  apply decode_object distinct hidden
  intro member inside exchanged
  rw [Native.child_member (lookup_map_name distinct inside part)]
  exact roundTrips_field (roundTrips member inside)
    (exact member inside exchanged)

private theorem roundTrips_type {type : FieldType}
    (wellNamed : type.WellNamed) :
    type.RoundTrips := by
  induction wellNamed with
  | leaf leaf =>
      intro value canonical
      cases canonical with
      | leaf canonical => exact Leaf.decode_encode canonical
  | record distinct _ induction => exact roundTrips_record distinct induction

theorem Field.Canonical.decode_encode {field : Field}
    (wellNamed : field.type.WellNamed) {value : Native}
    (canonical : field.Canonical value) :
    field.decode (field.encode value) = .ok value :=
  roundTrips_field (roundTrips_type wellNamed) canonical

theorem Field.Canonical.dataset {record : Record} (wellNamed : record.WellNamed)
    {native : Native} (canonical : record.asField.Canonical native)
    {dataset : Field} (inside : dataset ∈ record.fields) :
    ∃ members value, native = .record members ∧
      members.lookup dataset.name = some value ∧ dataset.Canonical value := by
  obtain ⟨part, rfl, hidden, exact⟩ := Native.Exact.members canonical
  refine ⟨_, part dataset, rfl, lookup_map_name wellNamed.distinct inside part,
    ?_⟩
  cases isPrivate : dataset.isPrivate with
  | true =>
      rw [hidden dataset inside isPrivate]
      exact dataset.zeroed_canonical
  | false => exact exact dataset inside isPrivate

/-- A value that its leaves store is canonical unless a single is infinite. -/
theorem Field.Exact.canonical {field : Field} {value : Native}
    (stores : field.Exact Leaf.Stores value)
    (notInfinite : field.Exact Leaf.NotInfinite value) :
    field.Canonical value :=
  Native.Exact.combine (fun _ _ => Leaf.Stores.canonical) stores notInfinite

section Programs

variable {record : Record} {outgoing incoming : Emission}
  {outRoot inRoot : String} {outExpression inExpression : String}
  {outNaming inNaming : Naming}

/-- The programs of a record undo each other. -/
theorem roundTrip_record (wellNamed : record.WellNamed)
    (leaves : (record.emission
      { root := outRoot } (.external outExpression) .outgoing
      outNaming).1 = .ok outgoing)
    (enters : (record.emission
      { root := inRoot } (.external inExpression) .incoming
      inNaming).1 = .ok incoming)
    {native : Native} (canonical : record.asField.Canonical native) :
    ∃ wire, outgoing.marshalOut native = .ok wire ∧
      incoming.marshalIn record.asField wire = .ok native := by
  have fits : record.asField.Fits native := canonical.fits wellNamed.asField
  refine ⟨_, (Outgoing.marshalOut_record wellNamed leaves).2 native fits, ?_⟩
  rw [← mapError_eq_ok_iff, Incoming.marshalIn_record wellNamed enters]
  exact canonical.decode_encode wellNamed.asField

/-- The programs of one member put its value into a zeroed record. -/
theorem roundTrip_member (wellNamed : record.WellNamed) {dataset : Field}
    (inside : dataset ∈ record.fields)
    (leaves : (dataset.emission (Place.field { root := outRoot } dataset.name)
      (.external outExpression) .outgoing outNaming).1 = .ok outgoing)
    (enters : (dataset.emission (Place.field { root := inRoot } dataset.name)
      (.external inExpression) .incoming inNaming).1 = .ok incoming)
    {members : List (String × Native)} {value : Native}
    (found : members.lookup dataset.name = some value)
    (canonical : dataset.Canonical value) :
    ∃ wire, outgoing.marshalOut (.record members) = .ok wire ∧
      incoming.marshalIn record.asField wire =
        .ok (Native.setPart value (.member dataset.name)
          (Native.zeroed record.asField)) := by
  have member := wellNamed.member inside
  have sent := (Outgoing.marshalOut_member member leaves).2 members value found
    (canonical.fits member)
  refine ⟨_, sent, ?_⟩
  rw [← mapError_eq_ok_iff, Incoming.marshalIn_member wellNamed inside enters,
    canonical.decode_encode member]
  rfl

private theorem settles_record (wellNamed : record.WellNamed)
    (enters : (record.emission
      { root := inRoot } (.external inExpression) .incoming
      inNaming).1 = .ok incoming)
    {wire : Wire} {native : Native}
    (accepted : incoming.marshalIn record.asField wire = .ok native) :
    record.asField.Exact Leaf.Stores native ∧
      (record.asField.Exact Leaf.NotInfinite native → ∀ outgoing,
        (record.emission { root := outRoot } (.external outExpression) .outgoing
          outNaming).1 = .ok outgoing →
        ∃ again, outgoing.marshalOut native = .ok again ∧
          incoming.marshalIn record.asField again = .ok native) := by
  rw [← mapError_eq_ok_iff, Incoming.marshalIn_record wellNamed enters]
    at accepted
  have stores := record.asField.exact_of_decode wire native accepted
  refine ⟨stores, ?_⟩
  intro notInfinite outgoing leaves
  exact roundTrip_record wellNamed leaves enters (stores.canonical notInfinite)

private theorem settles_member (wellNamed : record.WellNamed) {dataset : Field}
    (inside : dataset ∈ record.fields) (exchanged : dataset.isPrivate = false)
    (enters : (dataset.emission (Place.field { root := inRoot } dataset.name)
      (.external inExpression) .incoming inNaming).1 = .ok incoming)
    {wire : Wire} {native : Native}
    (accepted : incoming.marshalIn record.asField wire = .ok native) :
    record.asField.Exact Leaf.Stores native ∧
      (record.asField.Exact Leaf.NotInfinite native → ∀ outgoing,
        (dataset.emission (Place.field { root := outRoot } dataset.name)
          (.external outExpression) .outgoing outNaming).1 = .ok outgoing →
        ∃ again, outgoing.marshalOut native = .ok again ∧
          incoming.marshalIn record.asField again = .ok native) := by
  rw [← mapError_eq_ok_iff, Incoming.marshalIn_member wellNamed inside enters]
    at accepted
  cases decoded : dataset.decode wire with
  | error kind =>
      rw [decoded] at accepted
      cases accepted
  | ok value =>
      rw [decoded] at accepted
      cases accepted
      have zero : ∀ field : Field,
          field.Exact Leaf.Stores (Native.zeroed field) :=
        fun field => field.zeroed_canonical.mono fun _ _ =>
          Leaf.Canonical.stores
      have stores :=
        Native.exact_setPart_zeroed wellNamed.distinct zero inside exchanged
        (dataset.exact_of_decode wire value decoded)
      refine ⟨stores, ?_⟩
      intro notInfinite outgoing leaves
      obtain ⟨members, part, equal, found, canonical⟩ :=
        (stores.canonical notInfinite).dataset wellNamed inside
      have same : part = value := by
        rw [Native.setPart_zeroed _ _ wellNamed.distinct] at equal
        cases equal
        rw [lookup_map_name wellNamed.distinct inside] at found
        simpa using found.symm
      rw [same] at found canonical
      obtain ⟨again, sent, received⟩ :=
        roundTrip_member wellNamed inside leaves enters found canonical
      rw [← equal] at sent
      exact ⟨again, sent, received⟩

end Programs

/-- For every record of a resolver, an incoming program undoes an outgoing one
on canonical values, whatever names the two use.  The programs of one member
leave a record in which only this member is set. -/
theorem marshalIn_marshalOut {catalog : Catalog} {record : Record}
    (produced : Resolver.Produces catalog record)
    (outRoot outExpression inRoot inExpression : String)
    (outNaming inNaming : Naming) {native : Native}
    (canonical : record.asField.Canonical native) : (∀ outgoing incoming,
      (record.emission { root := outRoot } (.external outExpression) .outgoing
        outNaming).1 = .ok outgoing →
      (record.emission { root := inRoot } (.external inExpression) .incoming
        inNaming).1 = .ok incoming →
      (do incoming.marshalIn record.asField (← outgoing.marshalOut native)) =
        .ok native) ∧
    ∀ dataset ∈ record.fields, ∀ outgoing incoming,
      (dataset.emission (Place.field { root := outRoot } dataset.name)
        (.external outExpression) .outgoing outNaming).1 = .ok outgoing →
      (dataset.emission (Place.field { root := inRoot } dataset.name)
        (.external inExpression) .incoming inNaming).1 = .ok incoming →
      ∃ members value, native = .record members ∧
        members.lookup dataset.name = some value ∧
        (do incoming.marshalIn record.asField (← outgoing.marshalOut native)) =
          .ok (Native.setPart value (.member dataset.name)
            (Native.zeroed record.asField)) := by
  have wellNamed := produced.wellNamed
  constructor
  · intro outgoing incoming leaves enters
    obtain ⟨wire, sent, received⟩ :=
      roundTrip_record wellNamed leaves enters canonical
    rw [sent, ok_bind, received]
  · intro dataset inside outgoing incoming leaves enters
    obtain ⟨members, value, rfl, found, part⟩ :=
      canonical.dataset wellNamed inside
    obtain ⟨wire, sent, received⟩ :=
      roundTrip_member wellNamed inside leaves enters found part
    refine ⟨members, value, rfl, found, ?_⟩
    rw [sent, ok_bind, received]

/-- The members of an axis of the plant. -/
def axisPart (speed : Double) (first second : Int) (member : Field) : Native :=
  if member.name = "speed" then .float speed
  else if member.name = "ticks" then .array [.int first, .int second]
  else .int 0

theorem axisNative_canonical {speed : Double} {first second : Int}
    (single : speed.isFinite = true ∧ speed.toSingle = speed)
    (firstInRange : IntegerType.udint.InRange first)
    (secondInRange : IntegerType.udint.InRange second) :
    Resolver.axis.asField.Canonical (axisNative speed first second) := by
  refine @Native.Exact.record Leaf.Canonical Resolver.axis
    (axisPart speed first second) ?_ ?_
  · simp [Resolver.axis, Field.isPrivate, axisPart]
    rfl
  · simp [Resolver.axis, Field.isPrivate, axisPart]
    refine ⟨.leaf single, .array rfl ?_⟩
    intro item inside
    simp only [List.mem_cons, List.not_mem_nil, or_false] at inside
    rcases inside with rfl | rfl
    · exact .leaf firstInRange
    · exact .leaf secondInRange

def plantPart (member : Field) : Native :=
  if member.name = "label" then .string "pump"
  else if member.name = "axes" then
    .array [axisNative ⟨4607182418800017408⟩ 1 4000000000,
      axisNative ⟨4611686018427387904⟩ 2 3]
  else axisNative .zero 0 0

theorem plantNative_canonical :
    Resolver.plant.asField.Canonical plantNative := by
  refine @Native.Exact.record Leaf.Canonical Resolver.plant plantPart ?_ ?_
  · simp [Resolver.plant, Field.isPrivate, plantPart]
    rfl
  · simp [Resolver.plant, Field.isPrivate, plantPart]
    have short : "pump".utf8ByteSize ≤ 4 := by decide
    refine ⟨.leaf short, .array rfl ?_⟩
    intro item inside
    simp only [List.mem_cons, List.not_mem_nil, or_false] at inside
    rcases inside with rfl | rfl
    · exact axisNative_canonical (by decide) (by decide) (by decide)
    · exact axisNative_canonical (by decide) (by decide) (by decide)

theorem plant_roundTrip :
    Resolver.plant.asField.Canonical plantNative ∧ ∃ outgoing incoming,
      (Resolver.plant.emission { root := "plc" } (.external "message") .outgoing
        { openLoops := 2, slot := some 3 }).1 = .ok outgoing ∧
      (Resolver.plant.emission
        { root := "state" } (.external "input") .incoming {}).1 =
        .ok incoming ∧
      (do
        incoming.marshalIn Resolver.plant.asField
          (← outgoing.marshalOut plantNative)) =
        .ok plantNative := by
  refine ⟨plantNative_canonical, _, _, rfl, rfl, ?_⟩
  exact (marshalIn_marshalOut Resolver.plant_produced "plc" "message"
    "state" "input"
    { openLoops := 2, slot := some 3 } {} plantNative_canonical).1 _ _ rfl rfl

/-- For every record of a resolver, whatever an incoming program accepts leaves
a native value of the declared shape, with integers and texts that their leaves
can hold and zeros in private members.  Unless a single is infinite, sending the
value out and in again gives the same value. -/
theorem marshalOut_marshalIn {catalog : Catalog} {record : Record}
    (produced : Resolver.Produces catalog record)
    (outRoot outExpression inRoot inExpression : String)
    (outNaming inNaming : Naming) (wire : Wire) (native : Native) : (∀ incoming,
      (record.emission { root := inRoot } (.external inExpression) .incoming
        inNaming).1 = .ok incoming →
      incoming.marshalIn record.asField wire = .ok native →
      record.asField.Exact Leaf.Stores native ∧
        (record.asField.Exact Leaf.NotInfinite native → ∀ outgoing,
          (record.emission
            { root := outRoot } (.external outExpression) .outgoing
            outNaming).1 = .ok outgoing →
          ∃ again, outgoing.marshalOut native = .ok again ∧
            incoming.marshalIn record.asField again = .ok native)) ∧
    ∀ dataset ∈ record.exchanged, ∀ incoming,
      (dataset.emission (Place.field { root := inRoot } dataset.name)
        (.external inExpression) .incoming inNaming).1 = .ok incoming →
      incoming.marshalIn record.asField wire = .ok native →
      record.asField.Exact Leaf.Stores native ∧
        (record.asField.Exact Leaf.NotInfinite native → ∀ outgoing,
          (dataset.emission (Place.field { root := outRoot } dataset.name)
            (.external outExpression) .outgoing outNaming).1 = .ok outgoing →
          ∃ again, outgoing.marshalOut native = .ok again ∧
            incoming.marshalIn record.asField again = .ok native) := by
  have wellNamed := produced.wellNamed
  constructor
  · intro incoming enters accepted
    exact settles_record wellNamed enters accepted
  · intro dataset taken incoming enters accepted
    obtain ⟨inside, shown⟩ := List.mem_filter.mp taken
    have exchanged : dataset.isPrivate = false := by simpa using shown
    exact settles_member wellNamed inside exchanged enters accepted

theorem plant_settles :
    ∃ outgoing incoming,
      (Resolver.plant.emission
        { root := "plc" } (.external "message") .outgoing {}).1 =
        .ok outgoing ∧
      (Resolver.plant.emission
        { root := "state" } (.external "input") .incoming {}).1 =
        .ok incoming ∧
      incoming.marshalIn Resolver.plant.asField plantWire = .ok plantNative ∧
      Resolver.plant.asField.Exact Leaf.Stores plantNative ∧
      ∃ again, outgoing.marshalOut plantNative = .ok again ∧
        incoming.marshalIn Resolver.plant.asField again = .ok plantNative := by
  obtain ⟨incoming, enters⟩ : ∃ incoming,
      (Resolver.plant.emission
        { root := "state" } (.external "input") .incoming {}).1 =
        .ok incoming := ⟨_, rfl⟩
  have accepted : incoming.marshalIn Resolver.plant.asField plantWire =
      .ok plantNative := by
    rw [← mapError_eq_ok_iff,
      Incoming.marshalIn_record Resolver.plant_produced.wellNamed enters]
    rfl
  refine ⟨_, incoming, rfl, enters, accepted, ?_⟩
  obtain ⟨stores, settles⟩ :=
    (marshalOut_marshalIn Resolver.plant_produced "plc" "message"
    "state" "input" {} {} plantWire plantNative).1 incoming enters accepted
  have notInfinite :
      Resolver.plant.asField.Exact Leaf.NotInfinite plantNative :=
    plantNative_canonical.mono fun _ _ => Leaf.Canonical.notInfinite
  exact ⟨stores, settles notInfinite _ rfl⟩

end DataBridge
