import DataBridge.Proofs.Header.Complete
import DataBridge.Proofs.Resolver.Aliases

/-!
# Types declared before their use

In a keyed catalog a member is written with the name of its struct, or with the
key of its enumeration, and a definition is written with its own name.  Records
are finished after their parts, so a member finds the struct of its type further
up.  It finds its enumeration there just when some enumeration has that key for
its name.
-/

namespace DataBridge

open Header (Typedef Declarator)

/-- The name of a native type that needs no definition. -/
def Header.IsNative (type : String) : Prop :=
  type ∈ Scalar.all.map Scalar.nativeType

instance (type : String) : Decidable (Header.IsNative type) :=
  inferInstanceAs (Decidable (type ∈ Scalar.all.map Scalar.nativeType))

/-- Every type of a member is native, or defined further up. -/
def Header.DeclaredBeforeUse (types : List Typedef) : Prop :=
  ∀ before name members after, types = before ++ .struct name members :: after →
    ∀ member ∈ members, ¬ IsNative member.type →
      member.type ∈ before.map Typedef.name

/-- The struct under a key is found by its name as well. -/
def Catalog.FindsNames (catalog : Catalog) (inside : String → Prop) : Prop :=
  ∀ key name, inside key → catalog.Names key name →
    catalog.find? name = catalog.find? key

namespace Resolver

variable {catalog : Catalog} {inside : String → Prop}
  {resolver before after : Resolver} {root key name owner : String}

/-- The definition of the record, or of the enumeration, that a member is made
of is in the memory. -/
structure Founds (catalog : Catalog) (resolver : Resolver) (member : Field) :
    Prop where
  record : ∀ inner, member.type = .record inner →
    (inner.name, inner) ∈ resolver.records
  enum : ∀ key, member.enumName = some key →
    ∃ name decl, catalog.find? key = some ⟨name, .enum decl⟩ ∧
      name ∈ resolver.enums.map Prod.fst

theorem Founds.grow {member : Field} (founds : Founds catalog before member)
    (grows : Grows before after) : Founds catalog after member where
  record inner typed := grows.records.subset (founds.record inner typed)
  enum key declared := by
    obtain ⟨name, decl, found, known⟩ := founds.enum key declared
    exact ⟨name, decl, found, List.map_subset Prod.fst grows.enums.subset known⟩

/-- The definition that a key stands for is in the memory. -/
def Lists (catalog : Catalog) (resolver : Resolver) (key : String) :
    Resolution → Prop
  | .scalar _ => True
  | .enum _ => ∃ name decl, catalog.find? key = some ⟨name, .enum decl⟩ ∧
      name ∈ resolver.enums.map Prod.fst
  | .record record => (record.name, record) ∈ resolver.records

/-- The key stands for the resolution, and its definition is in the memory. -/
structure ListsExpansion (catalog : Catalog) (resolver : Resolver)
    (key : String) (resolution : Resolution) : Prop where
  expands : catalog.Expands key resolution
  lists : Lists catalog resolver key resolution

theorem ListsExpansion.grow {resolution : Resolution}
    (listed : ListsExpansion catalog before key resolution)
    (grows : Grows before after) :
    ListsExpansion catalog after key resolution := by
  refine ⟨listed.expands, ?_⟩
  cases resolution with
  | scalar scalar => trivial
  | enum underlying =>
      obtain ⟨name, decl, found, known⟩ := listed.lists
      exact ⟨name, decl, found,
        List.map_subset Prod.fst grows.enums.subset known⟩
  | record record => exact grows.records.subset listed.lists

private theorem founds_of_heldField {decl : FieldDecl} {member : Field}
    (held : HeldField (ListsExpansion catalog) resolver owner decl member) :
    Founds catalog resolver member := by
  obtain ⟨resolution, listed, typed⟩ := held
  obtain ⟨isRecord, declared⟩ := type_of_field typed
  constructor
  · intro inner same
    have lists := listed.lists
    rw [isRecord inner same] at lists
    exact lists
  · intro key same
    rw [declared] at same
    cases resolution with
    | enum underlying =>
        cases same
        exact listed.lists
    | scalar scalar => cases same
    | record record => cases same

/-- A memory in which every record stands on older ones, all made of the
definitions under keys that are `inside`. -/
structure Layered (catalog : Catalog) (inside : String → Prop)
    (resolver : Resolver) : Prop where
  order : resolver.order = (resolver.records.map Prod.fst).reverse
  named : ∀ entry ∈ resolver.records, entry.1 = entry.2.name
  built : ∀ entry ∈ resolver.records,
    ∃ key, inside key ∧ catalog.Expands key (.record entry.2)
  enums : ∀ entry ∈ resolver.enums,
    ∃ key, inside key ∧ Scalar.ofName? key = none ∧
    catalog.find? key = some ⟨entry.1, .enum entry.2⟩
  founded : ∀ entry older, entry :: older <:+ resolver.records →
    ∀ member ∈ entry.2.fields,
    ∀ inner, member.type = .record inner → (inner.name, inner) ∈ older
  backed : ∀ entry ∈ resolver.records,
    ∀ member ∈ entry.2.fields, Founds catalog resolver member

theorem Layered.fresh (catalog : Catalog) (inside : String → Prop) :
    Layered catalog inside {} where
  order := rfl
  named := nofun
  built := nofun
  enums := nofun
  founded entry older suffix := by cases List.suffix_nil.mp suffix
  backed := nofun

theorem Layered.visiting (layered : Layered catalog inside resolver)
    (names : List String) :
    Layered catalog inside { resolver with visiting := names } where
  order := layered.order
  named := layered.named
  built := layered.built
  enums := layered.enums
  founded := layered.founded
  backed entry present member part :=
    (layered.backed entry present member part).grow
      (grows_visiting resolver names)

theorem Layered.noteEnum (layered : Layered catalog inside resolver)
    {decl : EnumDecl} (known : inside key) (unnamed : Scalar.ofName? key = none)
    (found : catalog.find? key = some ⟨name, .enum decl⟩) :
    Layered catalog inside (resolver.noteEnum name decl) := by
  have grows := grows_noteEnum resolver name decl
  unfold Resolver.noteEnum at grows ⊢
  split at grows
  · rename_i again
    rw [if_pos again]
    exact layered
  · rename_i new
    rw [if_neg new]
    constructor
    · exact layered.order
    · exact layered.named
    · exact layered.built
    · intro entry present
      rcases List.mem_append.mp present with earlier | here
      · exact layered.enums entry earlier
      · cases List.mem_singleton.mp here
        exact ⟨key, known, unnamed, found⟩
    · exact layered.founded
    · exact fun entry present member part =>
        (layered.backed entry present member part).grow grows

theorem Layered.noteRecord (layered : Layered catalog inside resolver)
    {record : Record} (known : inside key)
    (expands : catalog.Expands key (.record record))
    (founds : ∀ member ∈ record.fields, Founds catalog resolver member) :
    Layered catalog inside (resolver.noteRecord record) where
  order := by simp [Resolver.noteRecord, layered.order]
  named := List.forall_mem_cons.mpr ⟨rfl, layered.named⟩
  built := List.forall_mem_cons.mpr ⟨⟨key, known, expands⟩, layered.built⟩
  enums := layered.enums
  founded entry older suffix member part inner typed := by
    rcases List.suffix_cons_iff.mp suffix with same | deeper
    · cases same
      exact (founds member part).record inner typed
    · exact layered.founded entry older deeper member part inner typed
  backed entry present member part := by
    rcases List.mem_cons.mp present with rfl | earlier
    · exact (founds member part).grow (grows_noteRecord resolver record)
    · exact (layered.backed entry earlier member part).grow
        (grows_noteRecord resolver record)

/-- What is remembered under a key is what the key stands for. -/
theorem Layered.expands (layered : Layered catalog inside resolver)
    (finds : catalog.FindsNames inside) {record : Record}
    (unnamed : Scalar.ofName? name = none)
    (present : (name, record) ∈ resolver.records) :
    catalog.Expands name (.record record) := by
  obtain ⟨key, known, expands⟩ := layered.built _ present
  have same : name = record.name := layered.named _ present
  exact expands.of_find?_eq expands.names.1 unnamed
    (finds key name known (same ▸ expands.names))

theorem layered_upkeep
    (closed : ∀ {outer inner}, inside outer → catalog.Uses outer inner →
      inside inner)
    (finds : catalog.FindsNames inside) (limit : Nat) :
    Upkeep catalog inside limit (Layered catalog inside)
      (ListsExpansion catalog) where
  closed := closed
  visiting layered := layered.visiting
  grow grows _ _ listed := listed.grow grows
  scalar named := ⟨.scalar named, trivial⟩
  known layered _ unnamed found := by
    have present := mem_of_lookup found
    refine ⟨layered.expands finds unnamed present, ?_⟩
    rw [Lists, ← layered.named _ present]
    exact present
  enum _ layered known enters found :=
    ⟨layered.noteEnum known enters.unnamed found, .enum enters.unnamed found,
      _, _, found, mem_enums_noteEnum _ _ _⟩
  struct {start middle depth key name decl fields} _ _ layered known enters
      found _ members := by
    have each := members.each.imp fun _ _ ⟨resolution, listed, typed⟩ =>
      (⟨resolution, listed.expands, typed⟩ : catalog.ExpandsField name _ _)
    have expands : catalog.Expands key (.record (recordOf name decl fields)) :=
      Catalog.expands_record_iff.mpr ⟨enters.unnamed, decl, found, rfl,
        members.distinct, each⟩
    have founds : ∀ member ∈ fields, Founds catalog middle member := by
      intro member part
      obtain ⟨field, _, held⟩ := exists_of_forall₂ members.each.flip part
      exact founds_of_heldField held
    exact ⟨layered.noteRecord known expands founds, expands, List.mem_cons_self⟩

section Layers

variable (layered : Layered catalog inside resolver)
  (finds : catalog.FindsNames inside)

include layered finds

/-- A name has one record at most. -/
theorem Layered.single {record other : Record}
    (present : (name, record) ∈ resolver.records)
    (also : (name, other) ∈ resolver.records) : other = record := by
  obtain ⟨key, known, expands⟩ := layered.built _ present
  obtain ⟨second, alsoKnown, alsoExpands⟩ := layered.built _ also
  have named : name = record.name := layered.named _ present
  have alsoNamed : name = other.name := layered.named _ also
  have same : catalog.find? key = catalog.find? second := by
    rw [← finds key name known (named ▸ expands.names),
      ← finds second name alsoKnown (alsoNamed ▸ alsoExpands.names)]
  have equal := expands.unique
    (alsoExpands.of_find?_eq alsoExpands.names.1 expands.names.1 same)
  cases equal
  rfl

theorem Layered.record?_of_mem {entry : String × Record}
    (present : entry ∈ resolver.records) :
    resolver.record? entry.1 = some entry.2 := by
  cases found : resolver.record? entry.1 with
  | none =>
      have absent := List.lookup_eq_none_iff.mp found entry present
      simp at absent
  | some record => rw [layered.single finds present (mem_of_lookup found)]

theorem Layered.typedefs_eq :
    resolver.typedefs = resolver.enums.map (fun entry => .enum entry.1) ++
      resolver.records.reverse.map fun entry => recordTypedef entry.2 := by
  rw [Resolver.typedefs_eq, recordsInOrder_eq layered.order fun _ =>
    layered.record?_of_mem finds,
    List.map_map]
  rfl

theorem Layered.typedefs_of_split {newer older : List (String × Record)}
    {entry : String × Record}
    (split : resolver.records = newer ++ entry :: older) :
    resolver.typedefs = (resolver.enums.map (fun entry => .enum entry.1) ++
      older.reverse.map fun entry => recordTypedef entry.2) ++
        recordTypedef entry.2 :: newer.reverse.map fun entry =>
          recordTypedef entry.2 := by
  rw [layered.typedefs_eq finds, split]
  simp

theorem Layered.split_of_typedefs {before after : List Typedef}
    {members : List Declarator}
    (split : resolver.typedefs = before ++ .struct name members :: after) :
    ∃ newer older entry, resolver.records = newer ++ entry :: older ∧
      before = resolver.enums.map (fun entry => .enum entry.1) ++
        older.reverse.map (fun entry => recordTypedef entry.2) ∧
      recordTypedef entry.2 = .struct name members := by
  obtain ⟨finished, rfl, rest⟩ := exists_finished_of_typedefs split
  have reversed :
      resolver.records.reverse.map (fun entry => recordTypedef entry.2) =
        finished ++ .struct name members :: after := by
    have whole :=
      (layered.typedefs_eq finds).symm.trans (Resolver.typedefs_eq resolver)
    exact (List.append_cancel_left whole).trans rest
  obtain ⟨older, later, records, rfl, names⟩ :=
    List.map_eq_append_iff.mp reversed
  obtain ⟨entry, newer, rfl, read, rfl⟩ := List.map_eq_cons_iff.mp names
  refine ⟨newer.reverse, older.reverse, entry, ?_, by rw [List.reverse_reverse],
    read⟩
  rw [← List.reverse_reverse resolver.records, records]
  simp

end Layers

/-- The type that a member is written with. -/
theorem nativeType_of_field {decl : FieldDecl} {resolution : Resolution}
    {member : Field} (expands : catalog.Expands decl.typeName resolution)
    (made : field owner decl resolution = .ok member) :
    Header.IsNative member.nativeType ∨
      ((catalog.enum? decl.typeName).isSome ∧ member.enumName =
        some decl.typeName ∧
        member.nativeType = decl.typeName) ∨
      ∃ inner, member.type = .record inner ∧ member.nativeType =
        inner.name := by
  obtain ⟨type, typed, same⟩ := bind_eq_ok_iff.mp made
  cases same
  cases resolution with
  | scalar scalar =>
      obtain ⟨leaf, fits, rfl⟩ := Catalog.ofScalar?_of_fieldType typed
      exact .inl (List.mem_map.mpr ⟨scalar, scalar.mem_all,
        (nativeType_of_ofScalar? fits).symm⟩)
  | enum underlying => exact .inr (.inl ⟨expands.sorts, rfl, rfl⟩)
  | record record =>
      rw [fieldType] at typed
      split at typed <;> cases typed
      exact .inr (.inr ⟨record, rfl, rfl⟩)

/-- Enumerations that are used by names that enumerations have are all that the
members of a header need. -/
theorem Layered.declaredBeforeUse (layered : Layered catalog inside resolver)
    (finds : catalog.FindsNames inside)
    (closed : ∀ {outer inner}, inside outer → catalog.Uses outer inner →
      inside inner)
    (enums : ∀ key, inside key → (catalog.enum? key).isSome →
      ¬ Header.IsNative key →
      (∃ name decl, catalog.find? key = some ⟨name, .enum decl⟩ ∧
        name ∈ resolver.enums.map Prod.fst) →
          key ∈ resolver.enums.map Prod.fst) :
    Header.DeclaredBeforeUse resolver.typedefs := by
  intro before name members after split declarator written foreign
  -- In front of the struct stand the enumerations and the records that are
  -- older.
  obtain ⟨newer, older, entry, records, rfl, read⟩ :=
    layered.split_of_typedefs finds split
  have present : entry ∈ resolver.records := by
    rw [records]
    exact List.mem_append_right _ List.mem_cons_self
  obtain ⟨rfl, rfl⟩ := Typedef.struct.inj read
  rw [List.map_map] at written
  obtain ⟨member, part, rfl⟩ := List.mem_map.mp written
  obtain ⟨key, known, expands⟩ := layered.built entry present
  obtain ⟨decl, uses, resolution, here, typed⟩ := expands.exists_field part
  change member.nativeType ∈ _
  rw [List.map_append, List.mem_append]
  rcases nativeType_of_field here typed with
    native | ⟨enumeration, declared, same⟩ |
    ⟨inner, isRecord, same⟩
  · exact (foreign native).elim
  · left
    have backs := (layered.backed entry present member part).enum _ declared
    have native : ¬ Header.IsNative decl.typeName := same ▸ foreign
    have listed :=
      enums decl.typeName (closed known uses) enumeration native backs
    rw [same, List.map_map]
    exact listed
  · right
    have suffix : entry :: older <:+ resolver.records := ⟨newer, records.symm⟩
    have founded :=
      layered.founded entry older suffix member part inner isRecord
    rw [same]
    apply List.mem_map.mpr
    exact ⟨_, List.mem_map_of_mem (List.mem_reverse.mpr founded), rfl⟩

section Whole

variable (layered : Layered catalog inside resolver) {start : Record}
  (listed : ListsExpansion catalog resolver root (.record start))

include layered listed

/-- A memory that lists its root lists every struct that the root reaches. -/
theorem Layered.record_of_reaches (reached : catalog.Reaches root key)
    {decl : StructDecl} (struct : catalog.struct? key = some decl) :
    ∃ record, ListsExpansion catalog resolver key (.record record) := by
  induction reached generalizing decl with
  | refl => exact ⟨start, listed⟩
  | @tail outer inner _ uses induction =>
      obtain ⟨record, outside⟩ := induction uses.choose_spec.1
      obtain ⟨field, rfl, member, part, resolution, expands, typed⟩ :=
        outside.expands.exists_member uses
      have sorts := expands.sorts
      cases resolution with
      | scalar scalar =>
          cases sorts.symm.trans (Catalog.struct?_eq_some_iff.mp struct).1
      | enum underlying => exact (Catalog.not_enum_of_struct struct sorts).elim
      | record record =>
          have isRecord : member.type = .record record := by
            obtain ⟨type, fits, same⟩ := bind_eq_ok_iff.mp typed
            cases same
            rw [fieldType] at fits
            split at fits <;> cases fits
            rfl
          refine ⟨record, expands, ?_⟩
          exact (layered.backed _ outside.lists member part).record record
            isRecord

/-- Every enumeration that the root reaches is the type of some member. -/
theorem Layered.member_of_reaches (reached : catalog.Reaches root key)
    (enumeration : (catalog.enum? key).isSome) :
    ∃ record, (record.name, record) ∈ resolver.records ∧
      ∃ member ∈ record.fields, member.enumName = some key := by
  rcases Relation.ReflTransGen.cases_tail reached with
    rfl | ⟨outer, reached, uses⟩
  · obtain ⟨decl, struct⟩ := Option.isSome_iff_exists.mp listed.expands.sorts
    exact (Catalog.not_enum_of_struct struct enumeration).elim
  · obtain ⟨record, outside⟩ :=
      layered.record_of_reaches listed reached uses.choose_spec.1
    obtain ⟨field, rfl, member, part, resolution, expands, typed⟩ :=
      outside.expands.exists_member uses
    refine ⟨record, outside.lists, member, part, ?_⟩
    rw [(type_of_field typed).2]
    have sorts := expands.sorts
    cases resolution with
    | scalar scalar =>
        cases sorts.symm.trans (Catalog.unnamed_of_enum? enumeration)
    | enum underlying => rfl
    | record record =>
        obtain ⟨decl, struct⟩ := Option.isSome_iff_exists.mp sorts
        exact (Catalog.not_enum_of_struct struct enumeration).elim

/-- The type of a member that stands in a header of declared types is one of its
enumerations. -/
theorem Layered.mem_enums_of_declared (finds : catalog.FindsNames inside)
    (declared : Header.DeclaredBeforeUse resolver.typedefs)
    (reached : catalog.Reaches root key)
    (enumeration : (catalog.enum? key).isSome)
    (foreign : ¬ Header.IsNative key) : key ∈ resolver.enums.map Prod.fst := by
  obtain ⟨record, present, member, part, named⟩ :=
    layered.member_of_reaches listed reached enumeration
  obtain ⟨newer, older, records⟩ := List.append_of_mem present
  have written : member.nativeType = key := by
    rw [Field.nativeType, named]
  have strange : ¬ Header.IsNative member.nativeType := by
    rw [written]
    exact foreign
  have above := declared _ _ _ _ (layered.typedefs_of_split finds records)
    (Header.Member.ofField member).declarator
    (List.mem_map_of_mem (List.mem_map_of_mem part)) strange
  change member.nativeType ∈ _ at above
  rw [written, List.map_append, List.mem_append, List.map_map, List.map_map]
    at above
  rcases above with enums | structs
  · exact enums
  · -- A struct of that name would be found under it.
    obtain ⟨entry, before, rfl⟩ := List.mem_map.mp structs
    have inside : entry ∈ resolver.records := by
      rw [records]
      exact List.mem_append_right
        _ (List.mem_cons_of_mem _ (List.mem_reverse.mp before))
    obtain ⟨other, known, expands⟩ := layered.built entry inside
    have same := finds other entry.2.name known expands.names
    obtain ⟨_, decl, found⟩ := expands.names
    have struct : catalog.struct? entry.2.name = some decl :=
      Catalog.struct?_eq_some_iff.mpr
        ⟨Catalog.unnamed_of_enum? enumeration, _, same.trans found⟩
    exact (Catalog.not_enum_of_struct struct enumeration).elim

end Whole

end Resolver

open Resolver

/-- Let structs be found by their names.  The members in the header of a root
use native types and types defined further up just when every enumeration that
the root reaches has a key that is native or the name of such an enumeration.
When each enumeration has its key for its name it is so after any calls. -/
theorem header_declared_iff (catalog : Catalog) :
    (∀ root model resolver, catalog.FindsNames (catalog.Reaches root) →
      resolveDatamodel catalog root {} = (.ok model, resolver) →
        (Header.DeclaredBeforeUse resolver.typedefs ↔
          ∀ key, catalog.Reaches root key → (catalog.enum? key).isSome →
            ¬ Header.IsNative key →
            ∃ other decl,
            catalog.Reaches root other ∧ Scalar.ofName? other = none ∧
              catalog.find? other = some ⟨key, .enum decl⟩)) ∧
    (catalog.FindsNames (fun _ => True) →
      (∀ key name decl, Scalar.ofName? key = none →
        catalog.find? key = some ⟨name, .enum decl⟩ → Header.IsNative key ∨
          name = key) →
          ∀ resolver, Reachable catalog resolver →
            Header.DeclaredBeforeUse resolver.typedefs) := by
  constructor
  · intro root model resolver finds resolved
    have closed : ∀ {outer inner}, catalog.Reaches root outer →
        catalog.Uses outer inner → catalog.Reaches root inner :=
      fun reached uses => reached.tail uses
    obtain ⟨record, _⟩ :=
      resolveDatamodel_eq_ok_iff.mp (congrArg Prod.fst resolved)
    obtain rfl : (resolve catalog root {}).2 = resolver := by
      rw [← resolveDatamodel_snd, resolved]
    obtain ⟨⟨_, layered⟩, listed⟩ :=
      ((layered_upkeep closed finds _).resolve .refl (.fresh catalog _)).value
        _ record
    constructor
    · intro declared key reached enumeration foreign
      have known :=
        layered.mem_enums_of_declared listed finds declared reached
          enumeration foreign
      obtain ⟨entry, present, rfl⟩ := List.mem_map.mp known
      obtain ⟨other, inside, unnamed, found⟩ := layered.enums entry present
      exact ⟨other, entry.2, inside, unnamed, found⟩
    · intro named
      apply layered.declaredBeforeUse finds closed
      intro key reached enumeration foreign _
      obtain ⟨other, decl, inside, unnamed, found⟩ :=
        named key reached enumeration foreign
      have enum := Option.isSome_iff_exists.mpr
        ⟨decl, Catalog.enum?_eq_some_iff.mpr ⟨unnamed, key, found⟩⟩
      obtain ⟨record, present, member, part, declared⟩ :=
        layered.member_of_reaches listed inside enum
      obtain ⟨name, _, also, known⟩ :=
        (layered.backed _ present member part).enum other declared
      cases found.symm.trans also
      exact known
  · intro finds named resolver reachable
    have layered : Layered catalog (fun _ => True) resolver :=
      reachable.upkept (layered_upkeep (fun _ _ => trivial) finds _)
        (.fresh catalog _)
    apply layered.declaredBeforeUse finds fun _ _ => trivial
    intro key _ enumeration foreign backs
    obtain ⟨name, decl, found, known⟩ := backs
    obtain rfl :=
      (named key name decl (Catalog.unnamed_of_enum? enumeration)
        found).resolve_left
      foreign
    exact known

/-- A lock whose gates are of one struct under two keys, and whose signals have
each other's key for a name. -/
def lockCatalog : Catalog :=
  ⟨[("Lock", { name := "Lock", kind := .struct { fields := [
      { name := "upper", typeName := "Gate" },
      { name := "lower", typeName := "Sluice" },
      { name := "entry", typeName := "Red" },
      { name := "exit", typeName := "Green" }] } }),
    ("Gate", { name := "Sluice", kind := .struct { fields := [
      { name := "travel", typeName := "REAL" }] } }),
    ("Sluice", { name := "Sluice", kind := .struct { fields := [
      { name := "travel", typeName := "REAL" }] } }),
    ("Red",
      { name := "Green", kind := .enum { variants := [{ name := "Go" }] } }),
    ("Green",
      { name := "Red", kind := .enum { variants := [{ name := "Stop" }] } })]⟩

private theorem lock_findsNames (inside : String → Prop) :
    lockCatalog.FindsNames inside := by
  rintro key name _ ⟨_, decl, found⟩
  have entry := mem_of_lookup found
  simp only [lockCatalog, List.mem_cons, Prod.mk.injEq, List.not_mem_nil,
    or_false] at entry
  rcases entry with ⟨rfl, same⟩ | ⟨rfl, same⟩ | ⟨rfl, same⟩ | ⟨rfl, same⟩ |
    ⟨rfl, same⟩
  all_goals cases same
  all_goals rfl

private theorem lock_enums {key : String}
    (enumeration : (lockCatalog.enum? key).isSome) :
    key = "Red" ∨ key = "Green" := by
  obtain ⟨decl, enum⟩ := Option.isSome_iff_exists.mp enumeration
  obtain ⟨_, name, found⟩ := Catalog.enum?_eq_some_iff.mp enum
  have entry := mem_of_lookup found
  simp only [lockCatalog, List.mem_cons, Prod.mk.injEq, List.not_mem_nil,
    or_false] at entry
  rcases entry with ⟨_, same⟩ | ⟨_, same⟩ | ⟨_, same⟩ | ⟨named, _⟩ | ⟨named, _⟩
  · cases same
  · cases same
  · cases same
  · exact .inl named
  · exact .inr named

theorem lock_declared :
    ∃ model resolver, resolveDatamodel lockCatalog "Lock" {} = (.ok model,
      resolver) ∧
      resolver.typedefs = [.enum "Green", .enum "Red",
        .struct "Sluice" [⟨"float", "travel", []⟩],
        .struct "Lock" [⟨"Sluice", "upper", []⟩, ⟨"Sluice", "lower", []⟩,
          ⟨"Red", "entry", []⟩, ⟨"Green", "exit", []⟩]] ∧
      Header.DeclaredBeforeUse resolver.typedefs ∧
      Reachable raftCatalog floatMemory ∧
        Header.DeclaredBeforeUse floatMemory.typedefs := by
  have red : lockCatalog.Reaches "Lock" "Red" :=
    .single ⟨_, rfl, { name := "entry", typeName := "Red" }, by decide, rfl⟩
  have green : lockCatalog.Reaches "Lock" "Green" :=
    .single ⟨_, rfl, { name := "exit", typeName := "Green" }, by decide, rfl⟩
  have reachable : Reachable raftCatalog floatMemory := .call .fresh _
  refine ⟨_, _, rfl, rfl, ?_, reachable, ?_⟩
  · apply ((header_declared_iff lockCatalog).1 "Lock" _ _ (lock_findsNames _)
      rfl).mpr
    intro key _ enumeration _
    rcases lock_enums enumeration with rfl | rfl
    · exact ⟨"Green", _, green, rfl, rfl⟩
    · exact ⟨"Red", _, red, rfl, rfl⟩
  · apply (header_declared_iff raftCatalog).2 _ _ _ reachable
    · exact fun key name _ names => raft_found_by_name key name names
    · intro key name decl _ found
      have entry := mem_of_lookup found
      simp [raftCatalog] at entry

/-- A valve whose mode is an enumeration under another key than its name. -/
def valveCatalog : Catalog :=
  ⟨[("Valve", { name := "Valve", kind := .struct { fields := [
      { name := "mode", typeName := "Mode" }] } }),
    ("Mode", { name := "ValveMode", kind := .enum { variants := [
      { name := "Open" }, { name := "Shut" }] } })]⟩

/-- A plant with two tanks of one name, only one of which has a gauge. -/
def tankCatalog : Catalog :=
  ⟨[("Plant", { name := "Plant", kind := .struct { fields := [
      { name := "upper", typeName := "Upper" },
      { name := "lower", typeName := "Lower" }] } }),
    ("Upper", { name := "Tank", kind := .struct { fields := [
      { name := "level", typeName := "REAL" }] } }),
    ("Lower", { name := "Tank", kind := .struct { fields := [
      { name := "gauge", typeName := "Gauge" }] } }),
    ("Gauge", { name := "Gauge", kind := .struct { fields := [
      { name := "level", typeName := "REAL" }] } })]⟩

/-- The types of the header of the valve. -/
def valveTypes : List Typedef :=
  [.enum "ValveMode", .struct "Valve" [⟨"Mode", "mode", []⟩]]

/-- The types of the header of the plant. -/
def tankTypes : List Typedef :=
  [.struct "Tank" [⟨"Gauge", "gauge", []⟩],
    .struct "Gauge" [⟨"float", "level", []⟩],
    .struct "Tank" [⟨"Gauge", "gauge", []⟩],
    .struct "Plant" [⟨"Tank", "upper", []⟩, ⟨"Tank", "lower", []⟩]]

private theorem valve_header_read :
    ∃ model resolver body,
      resolveDatamodel valveCatalog "Valve" {} = (.ok model, resolver) ∧
      Header.text model resolver "valve.yaml" =
        Header.banner "valve.yaml" ++ body ∧
      Header.read? body = some valveTypes := by
  have resolved : ∃ model resolver,
      resolveDatamodel valveCatalog "Valve" {} = (.ok model, resolver) ∧
      Text.OneLine model.name ∧
      Header.declarations resolver =
        [.enum "ValveMode" [("Open", 0), ("Shut", 1)],
        .struct "Valve" [⟨"Mode", "mode", [], none⟩]] :=
    ⟨_, _, rfl, by decide, rfl⟩
  obtain ⟨model, resolver, resolved, whole, declarations⟩ := resolved
  have readable : ∀ declaration ∈ Header.declarations resolver,
      declaration.Readable := by
    rw [declarations]
    refine List.forall_mem_cons.mpr ⟨?_, List.forall_mem_singleton.mpr ?_⟩
    · exact .enum (by decide) (by decide)
    · exact .struct (by decide)
        (List.forall_mem_singleton.mpr ⟨by decide, by decide, nofun⟩)
  obtain ⟨body, text, read⟩ := Header.exists_read? whole readable "valve.yaml"
  rw [declarations] at read
  exact ⟨model, resolver, body, resolved, text, read⟩

/-- The mode of the valve is written with a name that its header does not
define.  The tank with the gauge is written for the other one too, in front of
the gauge. -/
theorem valve_undeclared :
    (∃ model resolver body,
      resolveDatamodel valveCatalog "Valve" {} = (.ok model, resolver) ∧
      Header.text model resolver "valve.yaml" =
        Header.banner "valve.yaml" ++ body ∧
      Header.read? body = some valveTypes ∧
        ¬ Header.DeclaredBeforeUse valveTypes) ∧
    ∃ model resolver, resolveDatamodel tankCatalog "Plant" {} = (.ok model,
      resolver) ∧
      resolver.typedefs = tankTypes ∧ ¬ Header.DeclaredBeforeUse tankTypes := by
  constructor
  · obtain ⟨model, resolver, body, resolved, text, read⟩ := valve_header_read
    refine ⟨model, resolver, body, resolved, text, read, ?_⟩
    intro declared
    have above :=
      declared [.enum "ValveMode"] _ _ [] rfl _ List.mem_cons_self (by decide)
    exact absurd above (by decide)
  · refine ⟨_, _, rfl, rfl, ?_⟩
    intro declared
    exact absurd (declared [] _ _ _ rfl _ List.mem_cons_self (by decide))
      List.not_mem_nil

end DataBridge
