import DataBridge.Proofs.Header.Reading
import DataBridge.Proofs.Numbering
import DataBridge.Proofs.Resolver.Content
import Mathlib.Data.List.Forall2

/-!
# What a header defines

A header defines every type that the root of its datamodel reaches, each once
and behind the types of its members.  A struct has the fields that its
declaration has, private ones too, with the sizes that they are declared with.
-/

namespace DataBridge

open Text (OneLine IsName)
open Header (Typedef Declarator)

namespace FieldDecl

variable {catalog : Catalog} {decl : FieldDecl} {member : Field}

def nativeType (decl : FieldDecl) : String :=
  match Scalar.ofName? decl.typeName with
  | some scalar => scalar.nativeType
  | none => decl.typeName

/-- The sizes that a field is declared with: the elements of an array, and the
bytes of a string and its end. -/
def dimensions (decl : FieldDecl) : List Nat :=
  (if 0 < decl.arraySize then [decl.arraySize] else []) ++
    if Scalar.ofName? decl.typeName = some .string then
      [decl.stringLength.getD 0 + 1] else []

def declarator (decl : FieldDecl) : Declarator where
  type := decl.nativeType
  name := decl.name
  dimensions := decl.dimensions

structure Spelled (decl : FieldDecl) : Prop where
  name : IsName decl.name
  comment : ∀ comment ∈ decl.comment, OneLine comment

private theorem spelled_iff {decl : FieldDecl} :
    decl.Spelled ↔ IsName decl.name ∧ ∀ comment ∈ decl.comment,
      OneLine comment :=
  ⟨fun spelled => ⟨spelled.name, spelled.comment⟩, fun ⟨name, comment⟩ =>
    ⟨name, comment⟩⟩

instance (decl : FieldDecl) : Decidable decl.Spelled :=
  decidable_of_iff _ spelled_iff.symm

end FieldDecl

/-- Every name of a definition can be read. -/
structure TypeDef.Spelled (definition : TypeDef) : Prop where
  name : IsName definition.name
  fields : ∀ decl, definition.kind = .struct decl → ∀ field ∈ decl.fields,
    field.Spelled
  variants : ∀ decl, definition.kind = .enum decl → ∀ variant ∈ decl.variants,
    IsName variant.name

def Catalog.Spelled (catalog : Catalog) : Prop :=
  ∀ entry ∈ catalog.entries, entry.2.Spelled

namespace Catalog

variable {catalog : Catalog} {name : String}

theorem Spelled.definition (spelled : catalog.Spelled) {definition : TypeDef}
    (found : catalog.find? name = some definition) : definition.Spelled :=
  spelled _ (mem_of_lookup found)

theorem enum?_spelled (spelled : catalog.Spelled) (byName : catalog.ByName)
    {decl : EnumDecl} (enum : catalog.enum? name = some decl) :
    IsName name ∧ ∀ variant ∈ decl.variants, IsName variant.name := by
  obtain ⟨_, declared, found⟩ := enum?_eq_some_iff.mp enum
  have definition := spelled.definition found
  obtain rfl : declared = name := byName.name_eq found
  exact ⟨definition.name, definition.variants decl rfl⟩

theorem struct?_spelled (spelled : catalog.Spelled) (byName : catalog.ByName)
    {decl : StructDecl} (struct : catalog.struct? name = some decl) :
    IsName name ∧ ∀ field ∈ decl.fields, field.Spelled := by
  obtain ⟨_, declared, found⟩ := struct?_eq_some_iff.mp struct
  have definition := spelled.definition found
  obtain rfl : declared = name := byName.name_eq found
  exact ⟨definition.name, definition.fields decl rfl⟩

end Catalog

section Member

variable {catalog : Catalog} {decl : FieldDecl} {member : Field}

theorem nativeType_of_ofScalar? {length : Option Nat} {scalar : Scalar}
    {leaf : Leaf} (fits : Leaf.ofScalar? length scalar = some leaf) :
    leaf.nativeType = scalar.nativeType := by
  unfold Leaf.ofScalar? at fits
  split at fits
  any_goals
    cases fits
    rfl
  split at fits <;> cases fits
  rfl

namespace Catalog.Makes

theorem nativeType (byName : catalog.ByName)
    (makes : catalog.Makes decl member) :
    member.nativeType = decl.nativeType := by
  obtain ⟨_, type, _, _, _, enumName⟩ := member
  obtain ⟨_, _, _, typed⟩ := makes
  cases typed with
  | scalar named fits =>
      rw [FieldDecl.nativeType, named]
      exact nativeType_of_ofScalar? fits
  | enum enumeration =>
      rw [FieldDecl.nativeType, unnamed_of_enum? enumeration]
      rfl
  | record builds =>
      obtain ⟨named, unnamed⟩ := builds.named byName
      rw [FieldDecl.nativeType, unnamed]
      exact named

private theorem textSize (byName : catalog.ByName)
    (makes : catalog.Makes decl member) :
    (match member.type with
      | .leaf (.string length) => [length + 1]
      | _ => []) =
      if Scalar.ofName? decl.typeName = some .string then
          [decl.stringLength.getD 0 + 1] else [] := by
  have typed := makes.typed
  clear makes
  obtain ⟨_, type, _, _, _, enumName⟩ := member
  cases typed with
  | scalar named fits =>
      rw [named]
      unfold Leaf.ofScalar? at fits
      split at fits
      any_goals
        cases fits
        rfl
      split at fits <;> cases fits
      rename_i given
      rw [given]
      rfl
  | enum enumeration =>
      rw [unnamed_of_enum? enumeration]
      rfl
  | record builds =>
      rw [(builds.named byName).2]
      rfl

theorem dimensions (byName : catalog.ByName)
    (makes : catalog.Makes decl member) :
    (Header.Member.ofField member).dimensions = decl.dimensions := by
  have array : (if member.isArray then [member.arraySize] else []) =
      if 0 < decl.arraySize then [decl.arraySize] else [] := by
    rw [Field.isArray, makes.arraySize]
    simp only [decide_eq_true_eq]
  rw [FieldDecl.dimensions, ← array, ← makes.textSize byName]
  rfl

theorem declarator (byName : catalog.ByName)
    (makes : catalog.Makes decl member) :
    (Header.Member.ofField member).declarator = decl.declarator := by
  rw [Header.Member.declarator, FieldDecl.declarator, makes.dimensions byName,
    ← makes.nativeType byName, ← makes.name]
  rfl

end Catalog.Makes

private theorem isName_nativeType (scalar : Scalar) :
    IsName scalar.nativeType := by
  cases scalar <;> decide

theorem Catalog.Makes.isName (byName : catalog.ByName)
    (spelled : catalog.Spelled) (makes : catalog.Makes decl member) :
    IsName decl.nativeType := by
  have typed := makes.typed
  obtain ⟨_, type, _, _, _, enumName⟩ := member
  rw [FieldDecl.nativeType]
  cases typed with
  | scalar named fits =>
      rw [named]
      exact isName_nativeType _
  | enum enumeration =>
      obtain ⟨enum, found⟩ := Option.isSome_iff_exists.mp enumeration
      rw [unnamed_of_enum? enumeration]
      exact (enum?_spelled spelled byName found).1
  | record builds =>
      obtain ⟨_, _, found, _⟩ := builds.struct byName
      rw [(builds.named byName).2]
      exact (struct?_spelled spelled byName found).1

theorem Catalog.Makes.readable (byName : catalog.ByName)
    (spelled : catalog.Spelled) (makes : catalog.Makes decl member)
    (field : decl.Spelled) : (Header.Member.ofField member).Readable where
  typed := by
    change IsName member.nativeType
    rw [makes.nativeType byName]
    exact makes.isName byName spelled
  named := by
    change IsName member.name
    rw [makes.name]
    exact field.name
  comment comment known := by
    obtain ⟨written, _⟩ := Option.filter_eq_some_iff.mp known
    exact field.comment comment (makes.comment ▸ written)

end Member

/-- The type definitions hold a whole datamodel of a catalog. -/
structure Header.Complete (catalog : Catalog) (root : String)
    (types : List Typedef) : Prop where
  distinct : (types.map Typedef.name).Nodup
  enums : ∀ name, catalog.Reaches root name → (catalog.enum? name).isSome →
    .enum name ∈ types
  structs : ∀ name decl, catalog.Reaches root name →
    catalog.struct? name = some decl →
    .struct name (decl.fields.map FieldDecl.declarator) ∈ types
  /-- A struct lists its fields in declared order, and stands behind their
  types. -/
  founded : ∀ before name members after,
    types = before ++ .struct name members :: after →
    ∃ decl, catalog.struct? name = some decl ∧ members =
      decl.fields.map FieldDecl.declarator ∧
      ∀ field ∈ decl.fields, Scalar.ofName? field.typeName = none →
        field.typeName ∈ before.map Typedef.name

namespace Resolver

variable {catalog : Catalog} {resolver : Resolver} {root name : String}

/-- The type definitions that are read from the header of a memory. -/
def typedefs (resolver : Resolver) : List Typedef :=
  (Header.declarations resolver).map Header.Declaration.typedef

def recordTypedef (record : Record) : Typedef :=
  (Header.Declaration.ofRecord record).typedef

theorem typedefs_eq (resolver : Resolver) :
    resolver.typedefs = resolver.enums.map (fun entry => .enum entry.1) ++
      resolver.recordsInOrder.map recordTypedef := by
  rw [typedefs, Header.declarations, List.map_append, List.map_map,
    List.map_map]
  rfl

theorem Tidy.names_of_records {stack : List String}
    (tidy : Tidy stack resolver) :
    (resolver.recordsInOrder.map recordTypedef).map Typedef.name =
      resolver.order := by
  rw [← tidy.names_of_recordsInOrder, List.map_map]
  rfl

theorem Tidy.names_of_typedefs {stack : List String}
    (tidy : Tidy stack resolver) :
    resolver.typedefs.map Typedef.name = resolver.knownTypes := by
  rw [typedefs_eq, List.map_append, tidy.names_of_records, knownTypes,
    List.map_map]
  rfl

/-- A finished record is read as the struct that it is made of. -/
theorem Reachable.struct_of_mem_records (byName : catalog.ByName)
    (reachable : Reachable catalog resolver) {record : Record}
    (present : record ∈ resolver.recordsInOrder) :
    ∃ decl, catalog.struct? record.name = some decl ∧
      recordTypedef record =
        .struct record.name (decl.fields.map FieldDecl.declarator) ∧
      List.Forall₂ catalog.Makes decl.fields record.fields := by
  have inside := (reachable.tidy byName).mem_recordsInOrder_iff.mp present
  obtain ⟨_, decl, struct, members⟩ :=
    (reachable.builds byName inside).struct byName
  have declarators :
      (record.fields.map Header.Member.ofField).map Header.Member.declarator =
        decl.fields.map FieldDecl.declarator := by
    rw [List.map_map, ← List.forall₂_eq_eq_eq, List.forall₂_map_left_iff,
      List.forall₂_map_right_iff]
    apply members.flip.imp
    exact fun member field makes => makes.declarator byName
  refine ⟨decl, struct, ?_, members⟩
  rw [← declarators]
  rfl

theorem Reachable.readable (byName : catalog.ByName) (spelled : catalog.Spelled)
    (reachable : Reachable catalog resolver) :
    ∀ declaration ∈ Header.declarations resolver, declaration.Readable := by
  intro declaration known
  rcases List.mem_append.mp known with enumeration | record
  · obtain ⟨⟨name, decl⟩, present, rfl⟩ := List.mem_map.mp enumeration
    obtain ⟨_, found⟩ := (reachable.holding byName).enums _ present
    obtain ⟨named, variants⟩ := Catalog.enum?_spelled spelled byName found
    apply Header.Declaration.Readable.enum named
    intro variant inside
    have listed : variant.1 ∈ decl.variants.map Variant.name := by
      rw [← decl.map_fst_numbered]
      exact List.mem_map_of_mem inside
    obtain ⟨written, part, same⟩ := List.mem_map.mp listed
    rw [← same]
    exact (variants written part).oneLine
  · obtain ⟨record, present, rfl⟩ := List.mem_map.mp record
    obtain ⟨decl, found, _, made⟩ :=
      reachable.struct_of_mem_records byName present
    obtain ⟨named, fields⟩ := Catalog.struct?_spelled spelled byName found
    apply Header.Declaration.Readable.struct named
    intro member inside
    obtain ⟨field, part, rfl⟩ := List.mem_map.mp inside
    obtain ⟨declared, listed, makes⟩ := exists_of_forall₂ made.flip part
    exact Catalog.Makes.readable byName spelled makes (fields declared listed)

/-- In front of the definition of a struct stand those of all enumerations. -/
theorem exists_finished_of_typedefs {before after : List Typedef}
    {members : List Declarator}
    (split : resolver.typedefs = before ++ .struct name members :: after) :
    ∃ finished, before = resolver.enums.map (fun entry => .enum entry.1) ++
      finished ∧
      resolver.recordsInOrder.map recordTypedef =
        finished ++ .struct name members :: after := by
  rw [typedefs_eq, List.append_eq_append_iff] at split
  rcases split with whole | ⟨_ | ⟨first, others⟩, enums, rest⟩
  · exact whole
  · exact ⟨[], by simpa using enums.symm, rest.symm⟩
  · -- The struct would stand among the enumerations.
    obtain ⟨rfl, _⟩ := List.cons.inj rest
    have inside : Typedef.struct name members ∈
        resolver.enums.map (fun entry => Typedef.enum entry.1) := by
      rw [enums]
      exact List.mem_append_right _ List.mem_cons_self
    obtain ⟨_, _, same⟩ := List.mem_map.mp inside
    cases same

/-- Between the enumerations and a struct stand the structs that were finished
earlier. -/
theorem Tidy.typedefs_split {stack : List String} (tidy : Tidy stack resolver)
    {before after : List Typedef} {members : List Declarator}
    (split : resolver.typedefs = before ++ .struct name members :: after) :
    ∃ earlier later,
      before.map Typedef.name = resolver.enums.map Prod.fst ++ earlier ∧
      resolver.order = earlier ++ name :: later ∧
      ∃ record ∈ resolver.recordsInOrder,
        recordTypedef record = .struct name members := by
  obtain ⟨finished, rfl, rest⟩ := exists_finished_of_typedefs split
  refine ⟨finished.map Typedef.name, after.map Typedef.name, ?_, ?_, ?_⟩
  · rw [List.map_append, List.map_map]
    rfl
  · rw [← tidy.names_of_records, rest, List.map_append]
    rfl
  · apply List.mem_map.mp
    rw [rest]
    exact List.mem_append_right _ List.mem_cons_self

theorem Reachable.complete (byName : catalog.ByName)
    (reachable : Reachable catalog resolver) (known : root ∈ resolver.order) :
    Header.Complete catalog root resolver.typedefs := by
  have tidy := reachable.tidy byName
  have holding := reachable.holding byName
  constructor
  case distinct =>
    rw [tidy.names_of_typedefs]
    exact reachable.knownTypes_nodup byName
  case enums =>
    intro name reached enumeration
    rw [typedefs_eq]
    apply List.mem_append_left
    rcases List.mem_append.mp (reachable.mem_knownTypes byName known reached
      (Catalog.unnamed_of_enum? enumeration)) with here | finished
    · obtain ⟨entry, present, rfl⟩ := List.mem_map.mp here
      exact List.mem_map.mpr ⟨entry, present, rfl⟩
    · obtain ⟨_, _, struct⟩ := reachable.struct_of_mem_order byName finished
      obtain ⟨decl, struct⟩ := Option.isSome_iff_exists.mp struct
      rw [enum?_eq_none_of_struct? struct] at enumeration
      cases enumeration
  case structs =>
    intro name decl reached struct
    rw [typedefs_eq]
    apply List.mem_append_right
    rcases List.mem_append.mp (reachable.mem_knownTypes byName known reached
      (Catalog.struct?_eq_some_iff.mp struct).1) with enumeration | finished
    · obtain ⟨entry, present, rfl⟩ := List.mem_map.mp enumeration
      cases (enum?_eq_none_of_struct? struct).symm.trans
        (holding.enums entry present).2
    · rw [← tidy.names_of_recordsInOrder] at finished
      obtain ⟨record, present, rfl⟩ := List.mem_map.mp finished
      obtain ⟨other, found, read, _⟩ :=
        reachable.struct_of_mem_records byName present
      cases struct.symm.trans found
      rw [← read]
      exact List.mem_map_of_mem present
  case founded =>
    intro before name members after split
    obtain ⟨earlier, later, names, order, record, present, read⟩ :=
      tidy.typedefs_split split
    obtain ⟨decl, struct, written, made⟩ :=
      reachable.struct_of_mem_records byName present
    have finished := tidy.mem_recordsInOrder_iff.mp present
    obtain ⟨rfl, rfl⟩ := Typedef.struct.inj (read.symm.trans written)
    refine ⟨decl, struct, rfl, ?_⟩
    intro field part unnamed
    obtain ⟨same, found, _, parts⟩ := tidy.consistent.founded _ _ _ order
    cases (tidy.record?_of_mem finished).symm.trans found
    obtain ⟨member, inside, makes⟩ := exists_of_forall₂ made part
    rw [names, List.mem_append]
    rcases makes.typeName byName unnamed with enum | ⟨inner, record, named⟩
    · exact .inl ((tidy.backed _ finished member inside).enum _ enum)
    · right
      rw [← named]
      exact (parts member inside inner record).1

theorem Reachable.exists_complete (byName : catalog.ByName)
    (spelled : catalog.Spelled) (reachable : Reachable catalog resolver)
    (known : root ∈ resolver.order) {model : Datamodel}
    (title : model.name = root) (sourceFile : String) :
    ∃ body types,
      Header.text model resolver sourceFile = Header.banner sourceFile ++ body ∧
      Header.read? body = some types ∧ Header.Complete catalog root types := by
  obtain ⟨_, _, struct⟩ := reachable.struct_of_mem_order byName known
  obtain ⟨decl, struct⟩ := Option.isSome_iff_exists.mp struct
  have named : OneLine model.name := by
    rw [title]
    exact (Catalog.struct?_spelled spelled byName struct).1.oneLine
  obtain ⟨body, text, read⟩ :=
    Header.exists_read? named (reachable.readable byName spelled) sourceFile
  exact ⟨body, _, text, read, reachable.complete byName known⟩

end Resolver

/-- Whatever was resolved before, the header of a resolved datamodel defines
every type that the root reaches, each once and behind the types of its members,
and a struct has all of its fields as they are declared. -/
theorem header_complete {catalog : Catalog} (byName : catalog.ByName)
    (spelled : catalog.Spelled) {resolver : Resolver}
    (reachable : Resolver.Reachable catalog resolver) {root : String}
    {model : Datamodel}
    (resolved : (Resolver.resolveDatamodel catalog root resolver).1 = .ok model)
    (sourceFile : String) : ∃ body types,
      Header.text model (resolver.afterCall catalog (.resolveDatamodel root))
        sourceFile =
        Header.banner sourceFile ++ body ∧
      Header.read? body = some types ∧ Header.Complete catalog root types := by
  obtain ⟨record, title⟩ := Resolver.resolveDatamodel_eq_ok_iff.mp resolved
  have known :
      root ∈ (resolver.afterCall catalog (.resolveDatamodel root)).order := by
    rw [Resolver.afterCall, Resolver.resolveDatamodel_snd]
    exact (reachable.root_mem_order byName record).2
  exact (reachable.call _).exists_complete byName spelled known title sourceFile

/-- A ferry with labels on its deck and a ramp that it keeps to itself. -/
def ferryCatalog : Catalog :=
  .ofList [
    { name := "Ferry", kind := .struct { fields := [
      { name := "deck", typeName := "Deck", publish := true,
        comment := some "PUB; the upper one" },
      { name := "speed", typeName := "REAL" }] } },
    { name := "Deck", kind := .struct { fields := [
      { name := "labels", typeName := "STRING", arraySize := 2,
        stringLength := some 12 },
      { name := "ramp", typeName := "Ramp", isPrivate := true }] } },
    { name := "Ramp",
      kind := .enum { variants := [{ name := "Up" }, { name := "Down" }] } }]

theorem ferryCatalog_spelled : ferryCatalog.Spelled := by
  intro entry inside
  obtain ⟨definition, listed, rfl⟩ := List.mem_map.mp inside
  simp only [List.mem_cons, List.not_mem_nil, or_false] at listed
  rcases listed with rfl | rfl | rfl
  · exact ⟨by decide, by rintro _ ⟨⟩; decide, nofun⟩
  · exact ⟨by decide, by rintro _ ⟨⟩; decide, nofun⟩
  · exact ⟨by decide, nofun, by rintro _ ⟨⟩; decide⟩

theorem ferry_header_complete :
    ∃ model body types, ferryCatalog.ByName ∧ ferryCatalog.Spelled ∧
      Resolver.Reachable ferryCatalog {} ∧
      (Resolver.resolveDatamodel ferryCatalog "Ferry" {}).1 = .ok model ∧
      Header.text model
        (Resolver.afterCall ferryCatalog {} (.resolveDatamodel "Ferry"))
        "ferry.toml" =
        Header.banner "ferry.toml" ++ body ∧
      Header.read? body = some types ∧
        Header.Complete ferryCatalog "Ferry" types ∧
      .enum "Ramp" ∈ types ∧
      .struct "Deck" [⟨"char", "labels", [2, 13]⟩, ⟨"Ramp", "ramp", []⟩] ∈
        types := by
  have byName : ferryCatalog.ByName := Catalog.byName_ofList _
  have resolved : ∃ model,
      (Resolver.resolveDatamodel ferryCatalog "Ferry" {}).1 = .ok model :=
    ⟨_, rfl⟩
  have deck : ferryCatalog.Reaches "Ferry" "Deck" :=
    .single ⟨_, rfl, _, List.mem_cons_self, rfl⟩
  have ramp : ferryCatalog.Reaches "Ferry" "Ramp" :=
    deck.tail ⟨_, rfl, _, List.mem_cons_of_mem _ List.mem_cons_self, rfl⟩
  obtain ⟨model, resolved⟩ := resolved
  obtain ⟨body, types, text, read, complete⟩ :=
    header_complete byName ferryCatalog_spelled .fresh resolved "ferry.toml"
  exact ⟨model, body, types, byName, ferryCatalog_spelled, .fresh, resolved,
    text, read, complete, complete.enums _ ramp rfl,
    complete.structs _ _ deck rfl⟩

end DataBridge
