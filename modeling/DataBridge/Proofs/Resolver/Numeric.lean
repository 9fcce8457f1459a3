import DataBridge.Marshal.Machine
import DataBridge.Proofs.Flatten.Essence
import DataBridge.Proofs.Resolver.Definition
import Mathlib.Data.List.Forall2

/-!
# Enumerations as plain integers

A catalog becomes numeric when every field of an enumeration gets the type
`DINT` in its place.  It then resolves to the same records, only that no member
keeps the name of an enumeration, and this no program looks at.
-/

namespace DataBridge

mutual

/-- The member without names of enumerations. -/
def Field.numeric (field : Field) : Field :=
  match field with
  | { name, type, arraySize, flags, comment, .. } =>
      { name, type := type.numeric, arraySize, flags, comment }

/-- The type without names of enumerations. -/
def FieldType.numeric : FieldType → FieldType
  | .leaf leaf => .leaf leaf
  | .record { name, comment, fields } =>
      .record { name, comment, fields := numericMembers fields }

/-- The members without names of enumerations. -/
def numericMembers : List Field → List Field
  | [] => []
  | member :: rest => member.numeric :: numericMembers rest

end

/-- The record without names of enumerations. -/
def Record.numeric (record : Record) : Record :=
  { record with fields := record.fields.map Field.numeric }

private theorem numericMembers_eq_map (fields : List Field) :
    numericMembers fields = fields.map Field.numeric := by
  induction fields with
  | nil => rfl
  | cons member rest induction => rw [numericMembers, induction, List.map_cons]

@[simp] theorem FieldType.numeric_record (record : Record) :
    (FieldType.record record).numeric = .record record.numeric := by
  cases record
  rw [FieldType.numeric, numericMembers_eq_map, Record.numeric]

theorem Field.numeric_eq (field : Field) :
    field.numeric =
      { field with type := field.type.numeric, enumName := none } := by
  cases field
  rfl

section Programs

theorem essentialMembers_numeric {fields : List Field}
    (members : ∀ member ∈ fields, member.numeric.essence = member.essence) :
    essentialMembers (fields.map Field.numeric) = essentialMembers fields := by
  have shown : ∀ field : Field, field.numeric.isPrivate = field.isPrivate := by
    intro field
    rw [Field.numeric_eq]
    rfl
  rw [essentialMembers_eq, essentialMembers_eq, List.filter_map, List.map_map]
  simp only [Function.comp_def, shown]
  exact List.map_congr_left fun member inside =>
    members member (List.mem_of_mem_filter inside)

theorem Field.numeric_essence (field : Field) :
    field.numeric.essence = field.essence := by
  induction field using Field.nested_induction with
  | step field induction =>
      rw [numeric_eq, essence_eq, essence_eq]
      cases typed : field.type with
      | leaf leaf => rfl
      | record record =>
          rw [FieldType.numeric_record, FieldType.essence_record,
            FieldType.essence_record, Record.essence, Record.numeric,
            essentialMembers_numeric (induction record typed), ← Record.essence]

theorem Record.numeric_essence (record : Record) :
    record.numeric.essence = record.essence := by
  rw [essence, numeric, essentialMembers_numeric fun member _ =>
    member.numeric_essence, ← essence]

end Programs

section Zeroed

private theorem zeroedMembers_numeric {fields : List Field}
    (members : ∀ member ∈ fields,
      Native.zeroed member.numeric = Native.zeroed member) :
    Native.zeroedMembers (fields.map Field.numeric) =
      Native.zeroedMembers fields := by
  induction fields with
  | nil => rfl
  | cons member rest induction =>
      have others := induction fun inner inside =>
        members inner (List.mem_cons_of_mem _ inside)
      have named : member.numeric.name = member.name := by rw [Field.numeric_eq]
      rw [List.map_cons, Native.zeroedMembers, Native.zeroedMembers,
        named, others, members member List.mem_cons_self]

theorem Field.numeric_zeroed (field : Field) :
    Native.zeroed field.numeric = Native.zeroed field := by
  induction field using Field.nested_induction with
  | step field induction =>
      obtain ⟨name, type, size, flags, comment, enumName⟩ := field
      cases type with
      | leaf leaf =>
          cases size with
          | zero => rfl
          | succ size => rfl
      | record record =>
          have whole : Native.zeroedRecord record.numeric =
              Native.zeroedRecord record := by
            cases record
            exact congrArg Native.record
              (zeroedMembers_numeric (induction _ rfl))
          rw [numeric_eq, FieldType.numeric_record]
          cases size with
          | zero => exact whole
          | succ size =>
              exact congrArg (Native.array ∘ List.replicate (size + 1)) whole

end Zeroed

/-- The declaration with `DINT` in place of an enumeration. -/
def FieldDecl.numeric (catalog : Catalog) (decl : FieldDecl) : FieldDecl :=
  if (catalog.enum? decl.typeName).isSome then
    { decl with typeName := Scalar.dint.name } else decl

/-- The definition with `DINT` in place of every enumeration that a field
has. -/
def TypeDef.numeric (catalog : Catalog) (definition : TypeDef) : TypeDef :=
  match definition with
  | { name, kind := .struct decl } =>
      { name
        kind := .struct
          { decl with fields := decl.fields.map (FieldDecl.numeric catalog) } }
  | { name, kind := .enum decl } => { name, kind := .enum decl }

/-- The catalog with `DINT` in place of every enumeration that a field has.  The
enumerations themselves stay defined. -/
def Catalog.numeric (catalog : Catalog) : Catalog :=
  ⟨catalog.entries.map fun entry => (entry.1, entry.2.numeric catalog)⟩

/-- The resolution without names of enumerations. -/
def Resolution.numeric : Resolution → Resolution
  | .scalar kind => .scalar kind
  | .enum underlying => .enum underlying
  | .record whole => .record whole.numeric

namespace Catalog

variable {catalog : Catalog} {owner name : String}

theorem find?_numeric :
    catalog.numeric.find? name =
      (catalog.find? name).map (TypeDef.numeric catalog) :=
  lookup_map_value catalog.entries (TypeDef.numeric catalog) name

theorem ByName.numeric (byName : catalog.ByName) : catalog.numeric.ByName := by
  intro entry inside
  obtain ⟨⟨key, declared, kind⟩, known, rfl⟩ := List.mem_map.mp inside
  have named : key = declared := byName _ known
  cases kind with
  | struct decl => exact named
  | enum decl => exact named

private theorem depthBound_numeric :
    Resolver.depthBound catalog.numeric = Resolver.depthBound catalog := by
  simp [Resolver.depthBound, numeric]

/-- A member of an enumeration is a member of type `DINT` but for its name. -/
theorem field_numeric_enum {decl : FieldDecl} {member : Field}
    (typeName : String)
    (resolved : Resolver.field owner decl (.enum .dint) = .ok member) :
    Resolver.field owner { decl with typeName } (.scalar .dint) =
      .ok member.numeric := by
  obtain ⟨type, typed, same⟩ := bind_eq_ok_iff.mp resolved
  cases same
  rw [Resolver.fieldType] at typed
  cases length : decl.stringLength with
  | some size =>
      rw [length] at typed
      cases typed
  | none =>
      rw [length] at typed
      cases typed
      simp only [Resolver.field, Resolver.fieldType]
      rfl

/-- A member of any other type keeps its type but for what is inside of it. -/
theorem field_numeric {decl : FieldDecl} {resolution : Resolution}
    {member : Field} (other : ∀ underlying, resolution ≠ .enum underlying)
    (resolved : Resolver.field owner decl resolution = .ok member) :
    Resolver.field owner decl resolution.numeric = .ok member.numeric := by
  cases resolution with
  | enum underlying => exact (other underlying rfl).elim
  | scalar scalar =>
      obtain ⟨typed, declared⟩ := Resolver.type_of_field resolved
      have same : member.numeric = member := by
        obtain ⟨name, type, size, flags, comment, enumName⟩ := member
        cases declared
        cases type with
        | leaf leaf => rfl
        | record record => cases typed record rfl
      rw [same]
      exact resolved
  | record record =>
      obtain ⟨type, typed, same⟩ := bind_eq_ok_iff.mp resolved
      cases same
      rw [Resolver.fieldType] at typed
      split at typed
      · cases typed
      · rename_i absent
        cases typed
        simp only [Resolver.field, Resolution.numeric, Resolver.fieldType,
          if_neg absent, Field.numeric_eq, FieldType.numeric_record]
        rfl

theorem name_numeric (decl : FieldDecl) :
    (decl.numeric catalog).name = decl.name := by
  unfold FieldDecl.numeric
  split <;> rfl

private theorem unfoldFields_numeric
    {unfold other : String → Except ResolveError Resolution}
    {seen : List String} {decls : List FieldDecl} {members : List Field}
    (agrees : ∀ decl ∈ decls,
      ∀ resolution, unfold decl.typeName = .ok resolution →
      ∀ member, Resolver.field owner decl resolution = .ok member →
        UnfoldsTo other owner (decl.numeric catalog) member.numeric)
    (unfolded : unfoldFields unfold owner seen decls = .ok members) :
    unfoldFields other owner seen (decls.map (FieldDecl.numeric catalog)) =
      .ok (members.map Field.numeric) := by
  obtain ⟨distinct, unseen, each⟩ := unfoldFields_eq_ok_iff.mp unfolded
  apply unfoldFields_eq_ok_iff.mpr
  refine ⟨?_, ?_, ?_⟩
  · have names : (decls.map (FieldDecl.numeric catalog)).map FieldDecl.name =
        decls.map FieldDecl.name := by
      rw [List.map_map]
      exact List.map_congr_left fun decl _ => name_numeric decl
    rwa [names]
  · intro numbered inside
    obtain ⟨decl, known, rfl⟩ := List.mem_map.mp inside
    rw [name_numeric]
    exact unseen decl known
  · rw [List.forall₂_map_left_iff, List.forall₂_map_right_iff]
    apply ((List.forall₂_and_left decls members).mpr ⟨agrees, each⟩).imp
    rintro decl member ⟨agrees, resolution, resolved, typed⟩
    exact agrees resolution resolved member typed

/-- An enumeration unfolds to nothing but an enumeration. -/
theorem unfoldWithin_of_enum? {depth : Nat} {stack : List String}
    {resolution : Resolution} {decl : EnumDecl}
    (enumeration : catalog.enum? name = some decl)
    (unfolded : catalog.unfoldWithin depth stack name = .ok resolution) :
    resolution = .enum .dint := by
  obtain ⟨scalar, declared, found⟩ := enum?_eq_some_iff.mp enumeration
  cases standsFor_of_unfoldWithin unfolded with
  | scalar named => cases scalar.symm.trans named
  | enum _ => rfl
  | record _ struct _ => cases found.symm.trans struct

/-- `DINT` unfolds at every depth at which anything does. -/
theorem unfoldWithin_dint {depth : Nat} {stack other : List String}
    {resolution : Resolution}
    (unfolded : catalog.unfoldWithin depth stack name = .ok resolution) :
    catalog.numeric.unfoldWithin depth other Scalar.dint.name =
      .ok (.scalar .dint) := by
  cases depth with
  | zero => cases unfolded
  | succ depth =>
      have named : Scalar.ofName? Scalar.dint.name = some .dint := by decide
      rw [unfoldWithin, named]

/-- What a declared field unfolds to, its numeric form does, when its type name
unfolds alike. -/
theorem unfoldsTo_numeric {depth : Nat} {stack : List String} {decl : FieldDecl}
    {resolution : Resolution} {member : Field}
    (resolved : catalog.unfoldWithin depth stack decl.typeName = .ok resolution)
    (numbered :
      catalog.numeric.unfoldWithin depth stack decl.typeName =
        .ok resolution.numeric)
    (typed : Resolver.field owner decl resolution = .ok member) :
    UnfoldsTo (catalog.numeric.unfoldWithin depth stack) owner
      (decl.numeric catalog)
      member.numeric := by
  cases enumeration : catalog.enum? decl.typeName with
  | none =>
      have same : decl.numeric catalog = decl := by
        rw [FieldDecl.numeric, enumeration]
        rfl
      rw [same]
      refine ⟨resolution.numeric, numbered, field_numeric ?_ typed⟩
      rintro underlying rfl
      cases standsFor_of_unfoldWithin resolved with
      | enum known =>
          rw [enumeration] at known
          cases known
  | some enum =>
      have changed : decl.numeric catalog =
          { decl with typeName := Scalar.dint.name } := by
        rw [FieldDecl.numeric, enumeration]
        rfl
      rw [changed]
      refine ⟨.scalar .dint, unfoldWithin_dint resolved,
        field_numeric_enum _ ?_⟩
      rw [← unfoldWithin_of_enum? enumeration resolved]
      exact typed

/-- What a name stands for in a catalog, it stands for in the numeric one, but
for the names of enumerations. -/
theorem unfoldWithin_numeric {depth : Nat} {stack : List String}
    {resolution : Resolution}
    (unfolded : catalog.unfoldWithin depth stack name = .ok resolution) :
    catalog.numeric.unfoldWithin depth stack name = .ok resolution.numeric := by
  induction depth generalizing stack name resolution with
  | zero => cases unfolded
  | succ depth induction =>
      apply unfoldWithin_eq_ok_iff.mpr
      rcases unfoldWithin_eq_ok_iff.mp unfolded with ⟨scalar, named, rfl⟩ |
        ⟨unnamed, new, defines⟩
      · exact .inl ⟨scalar, named, rfl⟩
      refine .inr ⟨unnamed, new, ?_⟩
      cases defines with
      | @enum declared decl found =>
          have numbered : catalog.numeric.find? name =
              some ⟨declared, .enum decl⟩ := by
            rw [find?_numeric, found]
            rfl
          exact .enum numbered
      | @struct declared decl fields found members =>
          have numbered : catalog.numeric.find? name = some ⟨declared, .struct
              { decl with
                fields := decl.fields.map (FieldDecl.numeric catalog) }⟩ := by
            rw [find?_numeric, found]
            rfl
          apply Defines.struct numbered
          apply unfoldFields_numeric _ members
          intro field _ inner resolved member typed
          exact unfoldsTo_numeric resolved (induction resolved) typed

end Catalog

/-- Members with the same programs in every naming context, for the same share
in the exchange, and with the same memory. -/
structure Field.SameExchange (one other : Field) : Prop where
  name : one.name = other.name
  flags : one.flags = other.flags
  emission : one.emission = other.emission
  defaultsEmission : one.defaultsEmission = other.defaultsEmission
  zeroed : Native.zeroed one = Native.zeroed other

/-- Records with the same programs and the same memory, as a whole and member by
member.  Any program takes the same JavaScript values into either; its text and
what it gives out depend on the program alone. -/
structure Record.SameExchange (one other : Record) : Prop where
  emission : one.emission = other.emission
  zeroed : Native.zeroed one.asField = Native.zeroed other.asField
  marshalIn : ∀ program wire,
    Emission.marshalIn program one.asField wire =
      Emission.marshalIn program other.asField wire
  members : List.Forall₂ Field.SameExchange one.fields other.fields

theorem Field.numeric_sameExchange (field : Field) :
    field.SameExchange field.numeric where
  name := by rw [numeric_eq]
  flags := by rw [numeric_eq]
  emission := emission_congr field.numeric_essence.symm
  defaultsEmission := defaultsEmission_congr field.numeric_essence.symm
  zeroed := field.numeric_zeroed.symm

theorem Record.numeric_sameExchange (record : Record) :
    record.SameExchange record.numeric := by
  have zeroed : Native.zeroed record.asField =
      Native.zeroed record.numeric.asField := by
    have same := record.asField.numeric_zeroed
    rw [Field.numeric_eq, asField, FieldType.numeric_record] at same
    exact same.symm
  constructor
  case emission => exact emission_congr record.numeric_essence.symm
  case zeroed => exact zeroed
  case marshalIn =>
    intro program wire
    unfold Emission.marshalIn
    rw [zeroed]
  case members =>
    rw [numeric, List.forall₂_map_right_iff, List.forall₂_same]
    exact fun field _ => field.numeric_sameExchange

open Resolver in
/-- With `DINT` in place of every enumeration that a field has, a name still
resolves, to the same but for the names of enumerations, and what is exchanged
is the same: every program of the record and of its members, and the memory. -/
theorem enumerations_exchanged_as_integers {catalog : Catalog}
    (byName : catalog.ByName) {resolver : Resolver}
    (reachable : Reachable catalog resolver) {root : String}
    {resolution : Resolution}
    (resolved : (resolve catalog root resolver).1 = .ok resolution)
    {other : Resolver} (numeric : Reachable catalog.numeric other) :
    (resolve catalog.numeric root other).1 = .ok resolution.numeric ∧
      ∀ record, resolution = .record record →
        record.SameExchange record.numeric := by
  constructor
  · have answers := resolve_answers byName root
    rw [answers.result resolver (reachable.remembering byName)] at resolved
    have changed := resolve_answers byName.numeric root
    rw [changed.result other (numeric.remembering byName.numeric),
      Catalog.unfold, Catalog.depthBound_numeric]
    exact Catalog.unfoldWithin_numeric resolved
  · exact fun record _ => record.numeric_sameExchange

/-- A tram with doors in its cars, a mode, and a private key. -/
def tramCatalog : Catalog :=
  .ofList [
    { name := "Door",
      kind := .enum { variants := [{ name := "Shut" }, { name := "Ajar" }] } },
    { name := "Car", kind := .struct { fields := [
      { name := "doors", typeName := "Door", arraySize := 2 },
      { name := "seats", typeName := "USINT" }] } },
    { name := "Tram", kind := .struct { fields := [
      { name := "cars", typeName := "Car", arraySize := 3, publish := true },
      { name := "mode", typeName := "Door", subscribe := true },
      { name := "key", typeName := "Door", isPrivate := true }] } }]

/-- The car with doors that are numbers. -/
def plainCar : Record where
  name := "Car"
  fields := [
    { name := "doors", type := .leaf (.integer .dint), arraySize := 2 },
    { name := "seats", type := .leaf (.integer .usint) }]

/-- The tram with doors, a mode and a key that are numbers. -/
def plainTram : Record where
  name := "Tram"
  fields := [
    { name := "cars", type := .record plainCar, arraySize := 3,
      flags := { published := true } },
    { name := "mode", type := .leaf (.integer .dint),
      flags := { subscribed := true } },
    { name := "key", type := .leaf (.integer .dint),
      flags := { isPrivate := true } }]

theorem tram_exchanged_as_integers :
    ∃ tram, tramCatalog.ByName ∧ Resolver.Reachable tramCatalog {} ∧
      (Resolver.resolve tramCatalog "Tram" {}).1 = .ok (.record tram) ∧
      tram.fields.map Field.enumName = [none, some "Door", some "Door"] ∧
      (Resolver.resolve tramCatalog.numeric "Tram" {}).1 =
        .ok (.record plainTram) ∧
      tram.SameExchange plainTram := by
  have byName : tramCatalog.ByName := Catalog.byName_ofList _
  have resolved : ∃ tram,
      (Resolver.resolve tramCatalog "Tram" {}).1 = .ok (.record tram) ∧
      tram.fields.map Field.enumName = [none, some "Door", some "Door"] ∧
      tram.numeric = plainTram :=
    ⟨_, rfl, rfl, rfl⟩
  obtain ⟨tram, resolved, declared, plain⟩ := resolved
  obtain ⟨again, same⟩ :=
    enumerations_exchanged_as_integers byName .fresh resolved .fresh
  have exchange := same tram rfl
  rw [Resolution.numeric, plain] at again
  rw [plain] at exchange
  exact ⟨tram, byName, .fresh, resolved, declared, again, exchange⟩

end DataBridge
