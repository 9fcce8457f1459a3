import DataBridge.Proofs.Resolver.Depth
import DataBridge.Proofs.Resolver.Reachable
import DataBridge.Proofs.Resolver.WellFormed
import Mathlib.Data.List.Perm.Subperm

/-!
# Resolution accepts what is well formed

A resolver searches the structs that a type reaches.  The names on its stack are
a walk from the requested type, so a name that comes again closes a cycle.  What
it remembers is well formed throughout, so a name that is remembered hides
neither a cycle nor a fault below it.
-/

namespace DataBridge

namespace Catalog

theorem ByName.name_eq {catalog : Catalog} (byName : catalog.ByName)
    {name : String} {definition : TypeDef}
    (found : catalog.find? name = some definition) : definition.name = name :=
  (byName _ (mem_of_lookup found)).symm

/-- The struct under a key has this name. -/
def Names (catalog : Catalog) (key name : String) : Prop :=
  Scalar.ofName? key = none ∧ ∃ decl,
    catalog.find? key = some ⟨name, .struct decl⟩

/-- The structs that a type reaches have their keys for names. -/
def NamedByKey (catalog : Catalog) (root : String) : Prop :=
  ∀ key name, catalog.Reaches root key → catalog.Names key name → name = key

theorem ByName.namedByKey {catalog : Catalog} (byName : catalog.ByName)
    (root : String) : catalog.NamedByKey root := by
  intro key name _ names
  obtain ⟨_, decl, found⟩ := names
  exact byName.name_eq found

/-- A search has come from its root over the structs of a stack to a name. -/
structure Walk (catalog : Catalog) (root : String) (stack : List String)
    (name : String) : Prop where
  start : (stack ++ [name]).head? = some root
  steps : (stack ++ [name]).IsChain catalog.Uses
  distinct : stack.Nodup
  structs : ∀ outer ∈ stack, (catalog.struct? outer).isSome

variable {catalog : Catalog} {root name inner : String} {stack : List String}

theorem walk_start (catalog : Catalog) (root : String) :
    catalog.Walk root [] root :=
  ⟨rfl, .singleton root, List.nodup_nil, nofun⟩

theorem Walk.reaches (walk : catalog.Walk root stack name) :
    catalog.Reaches root name := by
  obtain ⟨rest, whole⟩ := List.head?_eq_some_iff.mp walk.start
  have steps := walk.steps
  rw [whole] at steps
  apply reflTransGen_of_isChain steps
  rw [← whole]
  exact List.mem_append_right _ (List.mem_singleton_self name)

theorem Walk.enter (walk : catalog.Walk root stack name) (fresh : name ∉ stack)
    (uses : catalog.Uses name inner) :
    catalog.Walk root (stack ++ [name]) inner := by
  constructor
  · rw [List.head?_append, walk.start]
    rfl
  · apply List.isChain_append.mpr
    refine ⟨walk.steps, .singleton inner, ?_⟩
    simpa using uses
  · apply List.nodup_append.mpr
    refine ⟨walk.distinct, List.nodup_singleton name, ?_⟩
    rintro outer inside _ here rfl
    cases List.mem_singleton.mp here
    exact fresh inside
  · intro outer inside
    rcases List.mem_append.mp inside with before | here
    · exact walk.structs outer before
    · cases List.mem_singleton.mp here
      obtain ⟨decl, found, _⟩ := uses
      simp [found]

theorem keys_of_structs
    (structs : ∀ outer ∈ stack, (catalog.struct? outer).isSome) :
    stack ⊆ catalog.entries.map Prod.fst := by
  intro outer inside
  obtain ⟨decl, found⟩ := Option.isSome_iff_exists.mp (structs outer inside)
  obtain ⟨_, declared, defined⟩ := struct?_eq_some_iff.mp found
  exact List.mem_map_of_mem (mem_of_lookup defined)

/-- There are no more structs than there are definitions. -/
theorem length_le_of_structs (distinct : stack.Nodup)
    (structs : ∀ outer ∈ stack, (catalog.struct? outer).isSome) :
    stack.length ≤ catalog.entries.length := by
  have fewer :=
    (List.subperm_of_subset distinct (keys_of_structs structs)).length_le
  rwa [List.length_map] at fewer

theorem Walk.length_le (walk : catalog.Walk root stack name) :
    stack.length ≤ catalog.entries.length :=
  length_le_of_structs walk.distinct walk.structs

theorem Walk.cycle (walk : catalog.Walk root stack name)
    (again : name ∈ stack) :
    catalog.Explains root (.circularReference (stack ++ [name])) :=
  ⟨walk.start, walk.steps, stack, name, rfl, walk.distinct, again⟩

end Catalog

namespace Resolver

open Resolving (Ensures)

/-- The state of a search: its stack, and structs that it has found well
formed. -/
structure Searching (catalog : Catalog) (stack : List String)
    (resolver : Resolver) : Prop where
  visiting : resolver.visiting = stack
  finished : ∀ entry ∈ resolver.records,
    (catalog.struct? entry.1).isSome ∧ catalog.WellFormed entry.1

variable {catalog : Catalog} {root owner name : String} {stack : List String}
  {resolver : Resolver}

theorem Searching.record (searching : Searching catalog stack resolver)
    {record : Record} (found : resolver.record? name = some record) :
    catalog.Denotes name (.record record) :=
  searching.finished (name, record) (mem_of_lookup found)

theorem Searching.noteEnum (searching : Searching catalog stack resolver)
    (decl : EnumDecl) :
    Searching catalog stack (resolver.noteEnum name decl) := by
  unfold Resolver.noteEnum
  split
  · exact searching
  · exact ⟨searching.visiting, searching.finished⟩

theorem Searching.noteRecord (searching : Searching catalog stack resolver)
    {record : Record} (isStruct : (catalog.struct? record.name).isSome)
    (wellFormed : catalog.WellFormed record.name) :
    Searching catalog stack (resolver.noteRecord record) := by
  refine ⟨searching.visiting, ?_⟩
  intro entry inside
  rcases List.mem_cons.mp inside with rfl | before
  · exact ⟨isStruct, wellFormed⟩
  · exact searching.finished entry before

private theorem fieldType_of_not_string {decl : FieldDecl}
    {resolution : Resolution}
    (denotes : catalog.Denotes decl.typeName resolution)
    (other : ¬ decl.IsString) : ∃ type, fieldType owner decl resolution =
      if decl.stringLength.isSome then
        .error (.unexpectedStringLength owner decl.name)
      else .ok type := by
  cases resolution with
  | scalar scalar =>
      cases scalar
      case string => exact (other denotes).elim
      all_goals exact ⟨_, rfl⟩
  | enum underlying => exact ⟨_, rfl⟩
  | record record => exact ⟨_, rfl⟩

private theorem fieldType_of_string {decl : FieldDecl} {resolution : Resolution}
    (denotes : catalog.Denotes decl.typeName resolution)
    (string : decl.IsString) : fieldType owner decl resolution =
      match Leaf.ofScalar? decl.stringLength .string with
      | some leaf => .ok (.leaf leaf)
      | none => .error (.missingStringLength owner decl.name) := by
  cases resolution with
  | scalar scalar =>
      have named : Scalar.ofName? decl.typeName = some scalar := denotes
      cases named.symm.trans string
      rfl
  | enum underlying => cases denotes.1.symm.trans string
  | record record =>
      obtain ⟨struct, found⟩ := Option.isSome_iff_exists.mp denotes.1
      cases (Catalog.struct?_eq_some_iff.mp found).1.symm.trans string

/-- A member gets a type if its length fits, and otherwise an error says why. -/
theorem field_cases (owner : String) {decl : FieldDecl}
    {resolution : Resolution}
    (denotes : catalog.Denotes decl.typeName resolution) :
    (decl.LengthFits ∧ ∃ member, field owner decl resolution = .ok member) ∨
      (decl.IsString ∧ (decl.stringLength = none ∨ decl.stringLength = some 0) ∧
        field owner decl resolution =
          .error (.missingStringLength owner decl.name)) ∨
      (¬ decl.IsString ∧ decl.stringLength.isSome ∧
        field owner decl resolution =
            .error (.unexpectedStringLength owner decl.name)) := by
  unfold field
  by_cases string : decl.IsString
  · rw [fieldType_of_string denotes string]
    rcases length : decl.stringLength with _ | _ | size
    · exact .inr (.inl ⟨string, .inl rfl, rfl⟩)
    · exact .inr (.inl ⟨string, .inr rfl, rfl⟩)
    · refine .inl ⟨⟨fun _ => ⟨size, length⟩, fun other => (other string).elim⟩,
        _, rfl⟩
  · obtain ⟨type, typed⟩ := fieldType_of_not_string denotes string
    rw [typed]
    rcases length : decl.stringLength with _ | size
    · exact .inl ⟨⟨fun given => (string given).elim, fun _ => length⟩, _, rfl⟩
    · exact .inr (.inr ⟨string, rfl, rfl⟩)

/-- The members of a struct on the walk.  What is wrong with them is what an
error says. -/
theorem fieldsWith_search {resolve : String → Resolving Resolution}
    {decl : StructDecl} (walk : catalog.Walk root stack owner)
    (found : catalog.struct? owner = some decl)
    (resolves : ∀ field ∈ decl.fields, (resolve field.typeName).Ensures
      (Searching catalog (stack ++ [owner])) (catalog.Denotes field.typeName)
      (catalog.Explains root)) :
    (fieldsWith resolve owner [] decl.fields).Ensures
    (Searching catalog (stack ++ [owner]))
      (fun _ => catalog.WellFormed owner) (catalog.Explains root) := by
  have typed : ∀ field ∈ decl.fields, ∀ resolution,
      catalog.Denotes field.typeName resolution → ∀ member,
        Resolver.field owner field resolution = .ok member →
          field.LengthFits ∧ catalog.Accepts field.typeName := by
    intro field _ resolution denotes member resolved
    refine ⟨?_, denotes.accepts⟩
    rcases field_cases owner denotes with ⟨fits, _⟩ | ⟨_, _, failed⟩ |
      ⟨_, _, failed⟩
    · exact fits
    · cases resolved.symm.trans failed
    · cases resolved.symm.trans failed
  have mistyped : ∀ field ∈ decl.fields, ∀ resolution,
      catalog.Denotes field.typeName resolution → ∀ error,
        Resolver.field owner field resolution = .error error →
            catalog.Explains root error := by
    intro field inside resolution denotes error failed
    rcases field_cases owner denotes with ⟨_, _, resolved⟩ |
      ⟨string, length, other⟩ |
      ⟨string, length, other⟩
    · cases failed.symm.trans resolved
    · cases failed.symm.trans other
      exact ⟨decl, walk.reaches, found, field, inside, rfl, string, length⟩
    · cases failed.symm.trans other
      exact ⟨decl, walk.reaches, found, field, inside, rfl, string, length⟩
  have repeated : ∀ before (field : FieldDecl) after,
      decl.fields = before ++ field :: after →
        field.name ∈ [] ∨ field.name ∈ before.map FieldDecl.name →
          catalog.Explains root (.duplicateField owner field.name) := by
    intro before field after split twice
    refine ⟨decl, walk.reaches, found, ?_⟩
    have earlier := List.count_pos_iff.mpr (twice.resolve_left List.not_mem_nil)
    rw [split, List.map_append, List.map_cons, List.count_append,
      List.count_cons_self]
    omega
  have members :=
    fieldsWith_ensures decl.fields [] resolves typed mistyped repeated
  refine ⟨members.keeps, ?_, members.error⟩
  intro resolver holds fields resolved
  obtain ⟨distinct, _, fitted⟩ := members.value resolver holds fields resolved
  have each : ∀ field ∈ decl.fields,
      field.LengthFits ∧ catalog.Accepts field.typeName := by
    intro field inside
    obtain ⟨index, bound, rfl⟩ := List.getElem_of_mem inside
    exact fitted.get bound (fitted.length_eq ▸ bound)
  apply Catalog.wellFormed_of_struct found
  · constructor
    · exact distinct
    · exact fun field inside => (Catalog.accepts_iff.mp (each field inside).2).1
    · exact fun field inside => (each field inside).1
  · exact fun field inside => (Catalog.accepts_iff.mp (each field inside).2).2

theorem Searching.enter (searching : Searching catalog stack resolver)
    (name : String) : Searching catalog (stack ++ [name])
      { resolver with visiting := resolver.visiting ++ [name] } :=
  ⟨by rw [searching.visiting], searching.finished⟩

theorem Searching.leave
    (searching : Searching catalog (stack ++ [name]) resolver) :
    Searching catalog stack
      { resolver with visiting := resolver.visiting.dropLast } :=
  ⟨by rw [searching.visiting, List.dropLast_concat], searching.finished⟩

/-- A search goes on to the fields of a struct that it enters. -/
theorem Searching.walks (searching : Searching catalog stack resolver)
    (walk : catalog.Walk root stack name) (enters : Enters name resolver)
    {declared : String} {decl : StructDecl}
    (found : catalog.find? name = some ⟨declared, .struct decl⟩) :
    name ∉ stack ∧ catalog.struct? name = some decl ∧
      ∀ field ∈ decl.fields,
        catalog.Walk root (stack ++ [name]) field.typeName := by
  have struct :=
    Catalog.struct?_eq_some_iff.mpr ⟨enters.unnamed, declared, found⟩
  have new : name ∉ stack := searching.visiting ▸ enters.outside
  exact ⟨new, struct, fun field inside =>
    walk.enter new ⟨decl, struct, field, inside, rfl⟩⟩

/-- A struct whose members are resolved in a search is well formed
throughout. -/
theorem membersWithin_search {depth : Nat} {decl : StructDecl}
    (walk : catalog.Walk root stack owner)
    (found : catalog.struct? owner = some decl)
    (resolves : ∀ field ∈ decl.fields,
      (resolveWithin catalog depth field.typeName).Ensures
      (Searching catalog (stack ++ [owner])) (catalog.Denotes field.typeName)
      (catalog.Explains root)) :
    (membersWithin catalog depth owner decl).Ensures (Searching catalog stack)
      (fun _ => catalog.WellFormed owner) (catalog.Explains root) :=
  .inside (fun _ searching => searching.enter owner) (fun _ => Searching.leave)
    (fieldsWith_search walk found resolves)

/-- With more depth left than there are definitions off the stack, a search
gives what the name denotes or an error that explains itself. -/
theorem resolveWithin_search (named : catalog.NamedByKey root) {depth : Nat}
    (walk : catalog.Walk root stack name)
    (enough : catalog.entries.length < depth + stack.length) :
    (resolveWithin catalog depth name).Ensures (Searching catalog stack)
      (catalog.Denotes name) (catalog.Explains root) := by
  induction depth generalizing stack name with
  | zero =>
      have bound := walk.length_le
      omega
  | succ depth induction =>
      have deeper : catalog.entries.length <
          depth + (stack ++ [name]).length := by
        rw [List.length_append, List.length_singleton]
        omega
      have members : ∀ {resolver declared decl},
          Searching catalog stack resolver → Enters name resolver →
          catalog.find? name = some ⟨declared, .struct decl⟩ →
          declared = name ∧ (catalog.struct? name).isSome ∧
            (membersWithin catalog depth name decl).Ensures
              (Searching catalog stack)
              (fun _ => catalog.WellFormed name) (catalog.Explains root) := by
        intro resolver declared decl searching enters found
        obtain ⟨_, struct, walks⟩ := searching.walks walk enters found
        have same :=
          named name declared walk.reaches ⟨enters.unnamed, decl, found⟩
        have search := membersWithin_search walk struct fun field inside =>
          induction (walks field inside) deeper
        exact ⟨same, by simp [struct], search⟩
      apply ensures_of_runs
      · intro resolver resolution after searching runs
        cases runs with
        | scalar known => exact ⟨searching, known⟩
        | known _ found => exact ⟨searching, searching.record found⟩
        | @enum declared decl enters found =>
            exact ⟨searching.noteEnum decl, enters.unnamed, _, found, rfl⟩
        | struct enters found run =>
            obtain ⟨rfl, isStruct, members⟩ := members searching enters found
            obtain ⟨searching, wellFormed⟩ :=
              (members.endsIn searching).of_ok run
            exact ⟨searching.noteRecord isStruct wellFormed, isStruct,
              wellFormed⟩
      · intro resolver error after searching runs
        cases runs with
        | circular _ _ again =>
            rw [searching.visiting] at again ⊢
            exact ⟨searching, walk.cycle again⟩
        | missing enters absent =>
            refine ⟨searching, walk.reaches, ?_⟩
            rintro (scalar | defined)
            · simp [enters.unnamed] at scalar
            · simp [absent] at defined
        | failed enters found run =>
            obtain ⟨rfl, _, members⟩ := members searching enters found
            exact (members.endsIn searching).of_error run

theorem lt_depthBound (catalog : Catalog) :
    catalog.entries.length < depthBound catalog := by
  have more : 0 < 2 * catalog.entries.length + 2 := by omega
  have wide := Nat.le_mul_of_pos_left (catalog.entries.length + 1) more
  exact Nat.lt_of_lt_of_le (Nat.lt_succ_self _) wide

theorem resolve_search {name : String} (named : catalog.NamedByKey name) :
    (resolve catalog name).Ensures (Searching catalog []) (catalog.Denotes name)
      (catalog.Explains name) := by
  apply resolveWithin_search named (Catalog.walk_start catalog name)
  exact lt_depthBound catalog

end Resolver

/-- A fresh resolver accepts exactly what is well formed throughout, and gives
what the name denotes.  Its errors explain themselves, none of them is that the
types nest without bound, and no greater depth changes the outcome. -/
theorem resolve_ok_iff_accepts {catalog : Catalog} (byName : catalog.ByName)
    (name : String) :
    ((∃ resolution, (Resolver.resolve catalog name {}).1 = .ok resolution) ↔
        catalog.Accepts name) ∧
      (∀ resolution, (Resolver.resolve catalog name {}).1 = .ok resolution →
        catalog.Denotes name resolution) ∧
      (∀ error, (Resolver.resolve catalog name {}).1 = .error error →
        catalog.Explains name error) ∧
      ∀ depth, Resolver.depthBound catalog ≤ depth →
        Resolver.resolveWithin catalog depth name {} =
          Resolver.resolve catalog name {} := by
  have fresh : Resolver.Searching catalog [] {} := ⟨rfl, nofun⟩
  have search := Resolver.resolve_search (byName.namedByKey name)
  have denotes := search.value {} fresh
  have explains := search.error {} fresh
  refine ⟨?_, denotes, explains, ?_⟩
  · constructor
    · rintro ⟨resolution, resolved⟩
      exact (denotes resolution resolved).accepts
    · intro accepts
      cases result : (Resolver.resolve catalog name {}).1 with
      | ok resolution => exact ⟨resolution, rfl⟩
      | error error => exact ((explains error result).not_accepts accepts).elim
  · intro depth more
    apply Resolver.resolveWithin_eq_of_le more
    intro typeName unbounded
    exact explains _ unbounded

/-- Two structs that hold one another, and one that misuses a length. -/
def tangledCatalog : Catalog :=
  .ofList [
    { name := "Hen", kind := .struct { fields := [
      { name := "weight", typeName := "REAL" },
      { name := "laid", typeName := "Egg" }] } },
    { name := "Egg", kind := .struct { fields := [
      { name := "parent", typeName := "Hen", isPrivate := true }] } },
    { name := "Nest", kind := .struct { fields := [
      { name := "twigs", typeName := "INT", stringLength := some 3 }] } }]

theorem tangled_rejected :
    Resolver.plantCatalog.ByName ∧ Resolver.plantCatalog.Accepts "Plant" ∧
      tangledCatalog.ByName ∧ ¬ tangledCatalog.Accepts "Hen" ∧
      tangledCatalog.Explains "Hen" (.circularReference ["Hen", "Egg", "Hen"]) ∧
      tangledCatalog.Explains "Nest"
        (.unexpectedStringLength "Nest" "twigs") := by
  have plants : Resolver.plantCatalog.ByName := Catalog.byName_ofList _
  have tangles : tangledCatalog.ByName := Catalog.byName_ofList _
  have cycle := (resolve_ok_iff_accepts tangles "Hen").2.2.1 _ rfl
  have length := (resolve_ok_iff_accepts tangles "Nest").2.2.1 _ rfl
  refine ⟨plants, ?_, tangles, cycle.not_accepts, cycle, length⟩
  exact (resolve_ok_iff_accepts plants "Plant").1.mp ⟨_, rfl⟩

end DataBridge
