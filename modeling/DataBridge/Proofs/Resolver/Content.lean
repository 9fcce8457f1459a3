import DataBridge.Proofs.Resolver.Definition

/-!
# What a memory is made of

A resolver remembers enumerations and structs of its catalog, each once.  With a
struct it remembers every type that the struct reaches, and a fresh resolver
remembers nothing that it was not asked for.
-/

namespace DataBridge

namespace Resolver

open Resolving (Ensures)

variable {catalog : Catalog} {resolver : Resolver} {inside : String → Prop}
  {root name : String}

/-- The enumerations of a memory are those of the catalog, each once, and all
that it remembers is `inside`. -/
structure Holding (catalog : Catalog) (inside : String → Prop)
    (resolver : Resolver) : Prop where
  distinct : (resolver.enums.map Prod.fst).Nodup
  enums : ∀ entry ∈ resolver.enums,
    inside entry.1 ∧ catalog.enum? entry.1 = some entry.2
  records : ∀ entry ∈ resolver.records, inside entry.1

theorem Holding.fresh (catalog : Catalog) (inside : String → Prop) :
    Holding catalog inside {} :=
  ⟨List.nodup_nil, nofun, nofun⟩

theorem Holding.visiting (holding : Holding catalog inside resolver)
    (names : List String) :
    Holding catalog inside { resolver with visiting := names } :=
  ⟨holding.distinct, holding.enums, holding.records⟩

theorem Holding.noteEnum (holding : Holding catalog inside resolver)
    {decl : EnumDecl} (known : inside name)
    (found : catalog.enum? name = some decl) :
    Holding catalog inside (resolver.noteEnum name decl) := by
  unfold Resolver.noteEnum
  split
  · exact holding
  · rename_i new
    constructor
    · rw [List.map_append, List.nodup_append]
      refine ⟨holding.distinct, List.nodup_singleton name, ?_⟩
      rintro other before _ here rfl
      cases List.mem_singleton.mp here
      obtain ⟨entry, present, rfl⟩ := List.mem_map.mp before
      exact new (List.any_eq_true.mpr ⟨entry, present, beq_self_eq_true _⟩)
    · intro entry present
      rcases List.mem_append.mp present with before | here
      · exact holding.enums entry before
      · cases List.mem_singleton.mp here
        exact ⟨known, found⟩
    · exact holding.records

theorem Holding.noteRecord (holding : Holding catalog inside resolver)
    {record : Record} (known : inside record.name) :
    Holding catalog inside (resolver.noteRecord record) where
  distinct := holding.distinct
  enums := holding.enums
  records entry present := by
    rcases List.mem_cons.mp present with rfl | before
    · exact known
    · exact holding.records entry before

private theorem fieldsWith_holding {resolve : String → Resolving Resolution}
    {owner : String} (decls : List FieldDecl) (seen : List String)
    (resolves : ∀ decl ∈ decls,
      (resolve decl.typeName).Ensures (Holding catalog inside)
      (fun _ => True) fun _ => True) :
    (fieldsWith resolve owner seen decls).Ensures (Holding catalog inside)
      (fun _ => True) fun _ => True := by
  have members :=
    @fieldsWith_ensures resolve owner (Holding catalog inside) (fun _ _ => True)
    (fun _ _ => True) (fun _ => True) decls seen resolves (fun _ _ _ _ _ _ =>
      trivial)
    (fun _ _ _ _ _ _ => trivial) fun _ _ _ _ _ => trivial
  exact ⟨members.keeps, fun _ _ _ _ => trivial, members.error⟩

/-- A resolution stays inside of what is closed under the fields of structs. -/
theorem resolveWithin_holding (byName : catalog.ByName)
    (closed : ∀ outer inner, inside outer → catalog.Uses outer inner →
      inside inner)
    (depth : Nat) (known : inside name) :
    (resolveWithin catalog depth name).Ensures (Holding catalog inside)
      (fun _ => True) fun _ => True := by
  induction depth generalizing name with
  | zero => exact .throw trivial
  | succ depth induction =>
      have members : ∀ {declared decl}, Scalar.ofName? name = none →
          catalog.find? name = some ⟨declared, .struct decl⟩ →
          (membersWithin catalog depth declared decl).Ensures
            (Holding catalog inside)
            (fun _ => True) fun _ => True := by
        intro declared decl unnamed found
        have struct :=
          Catalog.struct?_eq_some_iff.mpr ⟨unnamed, declared, found⟩
        apply Ensures.inside (fun _ holding => holding.visiting _)
          fun _ holding => holding.visiting _
        apply fieldsWith_holding
        intro field part
        exact induction (closed name _ known ⟨decl, struct, field, part, rfl⟩)
      apply ensures_of_runs
      · intro resolver resolution after holding runs
        refine ⟨?_, trivial⟩
        cases runs with
        | scalar => exact holding
        | known => exact holding
        | enum enters found =>
            obtain rfl := byName.name_eq found
            have enum :=
              Catalog.enum?_eq_some_iff.mpr ⟨enters.unnamed, _, found⟩
            exact holding.noteEnum known enum
        | struct enters found run =>
            obtain rfl := byName.name_eq found
            have kept :=
              ((members enters.unnamed found).endsIn holding).of_ok run
            exact kept.1.noteRecord known
      · intro resolver error after holding runs
        cases runs with
        | circular => exact ⟨holding, trivial⟩
        | missing => exact ⟨holding, trivial⟩
        | failed enters found run =>
            exact ((members enters.unnamed found).endsIn holding).of_error run

theorem resolveDatamodel_snd (catalog : Catalog) (name : String)
    (resolver : Resolver) :
    (resolveDatamodel catalog name resolver).2 =
      (resolve catalog name resolver).2 := by
  rw [resolveDatamodel, stateful_bind]
  rcases resolve catalog name resolver with ⟨_ | resolution, after⟩
  · rfl
  · cases resolution <;> rfl

/-- Every call leaves the memory that resolving some name leaves. -/
theorem afterCall_eq (catalog : Catalog) (resolver : Resolver) (call : Call) :
    ∃ name, resolver.afterCall catalog call =
      (resolve catalog name resolver).2 := by
  cases call with
  | resolve name => exact ⟨name, rfl⟩
  | resolveField decl =>
      refine ⟨decl.typeName, ?_⟩
      rw [afterCall, resolveField, stateful_bind]
      rcases resolve catalog decl.typeName resolver with ⟨_ | resolution, after⟩
      · rfl
      · cases field "" decl resolution <;> rfl
  | resolveDatamodel name =>
      exact ⟨name, resolveDatamodel_snd catalog name resolver⟩

theorem resolveDatamodel_eq_ok_iff {model : Datamodel} :
    (resolveDatamodel catalog name resolver).1 = .ok model ↔
      (resolve catalog name resolver).1 = .ok (.record model.root) ∧
        model.name = name := by
  rw [resolveDatamodel, stateful_bind]
  obtain ⟨title, root⟩ := model
  rcases resolve catalog name resolver with ⟨error | resolution, after⟩
  · simp
  · cases resolution with
    | record whole =>
        constructor
        · intro same
          cases same
          exact ⟨rfl, rfl⟩
        · rintro ⟨same, named⟩
          cases same
          cases named
          rfl
    | scalar scalar => constructor <;> rintro ⟨⟨⟩⟩
    | enum underlying => constructor <;> rintro ⟨⟨⟩⟩

theorem Reachable.holding (byName : catalog.ByName)
    (reachable : Reachable catalog resolver) :
    Holding catalog (fun _ => True) resolver := by
  induction reachable with
  | fresh => exact .fresh catalog _
  | @call resolver _ call induction =>
      obtain ⟨name, after⟩ := afterCall_eq catalog resolver call
      rw [after]
      apply (resolveWithin_holding byName _ _ trivial).keeps resolver induction
      exact fun _ _ _ _ => trivial

theorem Tidy.mem_order_of_holds {stack : List String}
    (tidy : Tidy stack resolver) {record : Record}
    (holds : resolver.Holds name (.record record))
    (named : record.name = name) : name ∈ resolver.order := by
  rw [tidy.order, List.mem_reverse, ← named]
  exact List.mem_map_of_mem holds

theorem Reachable.builds_of_resolve (byName : catalog.ByName)
    (reachable : Reachable catalog resolver) {record : Record}
    (resolved : (resolve catalog root resolver).1 = .ok (.record record)) :
    catalog.Builds root record := by
  rw [(resolve_answers byName root).result resolver
    (reachable.remembering byName)] at resolved
  exact ⟨_, _, resolved⟩

/-- A record that is handed out is remembered under the name that was
resolved. -/
theorem Reachable.root_mem_order (byName : catalog.ByName)
    (reachable : Reachable catalog resolver) {record : Record}
    (resolved : (resolve catalog root resolver).1 = .ok (.record record)) :
    record.name = root ∧ root ∈ (resolve catalog root resolver).2.order := by
  obtain ⟨named, _⟩ :=
    (reachable.builds_of_resolve byName resolved).struct byName
  have remembers :
      Remembers [] (Holds · root) (resolve catalog root) resolver :=
    resolveWithin_remembers byName _ (reachable.tidy byName)
  obtain ⟨advances, holds⟩ := remembers.value (.record record) resolved
  exact ⟨named, advances.tidy.mem_order_of_holds holds named⟩

/-- What a fresh resolver remembers is reached from the name that it
resolved. -/
theorem fresh_holding (byName : catalog.ByName) (name : String) :
    Holding catalog (catalog.Reaches name) (resolve catalog name {}).2 := by
  apply (resolveWithin_holding byName _ _ .refl).keeps {} (.fresh catalog _)
  exact fun _ _ reached uses => reached.tail uses

/-- The names of all types that a memory holds, enumerations first and structs
behind the structs that they contain. -/
def knownTypes (resolver : Resolver) : List String :=
  resolver.enums.map Prod.fst ++ resolver.order

section Order

variable {stack : List String}

theorem recordsInOrder_eq
    (order : resolver.order = (resolver.records.map Prod.fst).reverse)
    (single : ∀ entry ∈ resolver.records,
      resolver.record? entry.1 = some entry.2) :
    resolver.recordsInOrder = resolver.records.reverse.map Prod.snd := by
  rw [recordsInOrder, order, ← List.map_reverse, List.filterMap_map,
    ← List.filterMap_eq_map]
  apply List.filterMap_congr
  intro entry inside
  exact single entry (List.mem_reverse.mp inside)

theorem Tidy.recordsInOrder_eq (tidy : Tidy stack resolver) :
    resolver.recordsInOrder = resolver.records.reverse.map Prod.snd :=
  Resolver.recordsInOrder_eq tidy.order fun _ => tidy.record?_of_mem

theorem Tidy.names_of_recordsInOrder (tidy : Tidy stack resolver) :
    resolver.recordsInOrder.map Record.name = resolver.order := by
  rw [tidy.recordsInOrder_eq, List.map_map, tidy.order, ← List.map_reverse]
  apply List.map_congr_left
  intro entry inside
  exact (tidy.named entry (List.mem_reverse.mp inside)).symm

theorem Tidy.mem_recordsInOrder_iff (tidy : Tidy stack resolver)
    {record : Record} :
    record ∈ resolver.recordsInOrder ↔
      (record.name, record) ∈ resolver.records := by
  rw [tidy.recordsInOrder_eq, List.mem_map]
  constructor
  · rintro ⟨entry, inside, rfl⟩
    rw [← tidy.named entry (List.mem_reverse.mp inside)]
    exact List.mem_reverse.mp inside
  · exact fun inside => ⟨_, List.mem_reverse.mpr inside, rfl⟩

end Order

/-- Between two calls the memory holds structs of the catalog as they unfold. -/
theorem Reachable.builds (byName : catalog.ByName)
    (reachable : Reachable catalog resolver) {entry : String × Record}
    (present : entry ∈ resolver.records) : catalog.Builds entry.1 entry.2 :=
  (reachable.remembering byName).unfolds entry present

theorem Reachable.struct_of_mem_order (byName : catalog.ByName)
    (reachable : Reachable catalog resolver) (known : name ∈ resolver.order) :
    ∃ record, (name, record) ∈ resolver.records ∧
      (catalog.struct? name).isSome := by
  rw [(reachable.tidy byName).order, List.mem_reverse] at known
  obtain ⟨⟨_, record⟩, present, rfl⟩ := List.mem_map.mp known
  exact ⟨record, present, ((reachable.remembering byName).finished _ present).1⟩

theorem enum?_eq_none_of_struct? {decl : StructDecl}
    (struct : catalog.struct? name = some decl) :
    catalog.enum? name = none := by
  obtain ⟨scalar, declared, found⟩ := Catalog.struct?_eq_some_iff.mp struct
  rw [Catalog.enum?, scalar, found]

theorem Reachable.knownTypes_nodup (byName : catalog.ByName)
    (reachable : Reachable catalog resolver) : resolver.knownTypes.Nodup := by
  have holding := reachable.holding byName
  refine List.nodup_append.mpr ⟨holding.distinct,
    (reachable.tidy byName).distinct, ?_⟩
  rintro name enumeration _ record rfl
  obtain ⟨entry, present, rfl⟩ := List.mem_map.mp enumeration
  obtain ⟨_, _, struct⟩ := reachable.struct_of_mem_order byName record
  obtain ⟨decl, struct⟩ := Option.isSome_iff_exists.mp struct
  cases (enum?_eq_none_of_struct? struct).symm.trans
    (holding.enums entry present).2

/-- A memory that holds a struct holds the type of each of its fields. -/
theorem Reachable.mem_knownTypes_of_uses (byName : catalog.ByName)
    (reachable : Reachable catalog resolver) {outer inner : String}
    (known : outer ∈ resolver.order) (uses : catalog.Uses outer inner)
    (unnamed : Scalar.ofName? inner = none) : inner ∈ resolver.knownTypes := by
  obtain ⟨decl, struct, field, part, rfl⟩ := uses
  obtain ⟨record, present, _⟩ := reachable.struct_of_mem_order byName known
  obtain ⟨_, other, also, members⟩ :=
    (reachable.builds byName present).struct byName
  cases struct.symm.trans also
  obtain ⟨member, inside, makes⟩ := exists_of_forall₂ members part
  have tidy := reachable.tidy byName
  have backs := tidy.backed _ present member inside
  apply List.mem_append.mpr
  rcases makes.typeName byName unnamed with enum | ⟨inner, record, named⟩
  · exact .inl (backs.enum _ enum)
  · right
    rw [tidy.order, List.mem_reverse, ← named]
    exact List.mem_map_of_mem (backs.record inner record)

/-- A memory that holds a struct holds every type that the struct reaches. -/
theorem Reachable.mem_knownTypes (byName : catalog.ByName)
    (reachable : Reachable catalog resolver) (known : root ∈ resolver.order)
    (reached : catalog.Reaches root name)
    (unnamed : Scalar.ofName? name = none) : name ∈ resolver.knownTypes := by
  induction reached with
  | refl => exact List.mem_append_right _ known
  | @tail outer inner reached uses induction =>
      obtain ⟨decl, struct, field, part, rfl⟩ := uses
      have outside := (Catalog.struct?_eq_some_iff.mp struct).1
      have finished : outer ∈ resolver.order := by
        rcases List.mem_append.mp (induction outside) with
          enumeration | finished
        · obtain ⟨entry, present, rfl⟩ := List.mem_map.mp enumeration
          have enum := ((reachable.holding byName).enums entry present).2
          cases (enum?_eq_none_of_struct? struct).symm.trans enum
        · exact finished
      exact reachable.mem_knownTypes_of_uses byName finished ⟨decl, struct,
        field, part, rfl⟩ unnamed

end Resolver

end DataBridge
