import DataBridge.Proofs.Resolver.Memory
import DataBridge.Proofs.Resolver.Unfold

/-!
# What a resolution says of a definition

A name stands for an elementary type, for an enumeration, or for a record with
one member for every declared field, in the declared order.
-/

namespace DataBridge

theorem exists_of_forall₂ {α β : Type} {related : α → β → Prop} {xs : List α}
    {ys : List β} (each : List.Forall₂ related xs ys) {x : α}
    (inside : x ∈ xs) : ∃ y ∈ ys, related x y := by
  obtain ⟨index, bound, rfl⟩ := List.getElem_of_mem inside
  have within : index < ys.length := each.length_eq ▸ bound
  exact ⟨ys[index], List.getElem_mem within, each.get bound within⟩

namespace Catalog

variable {catalog : Catalog} {owner name : String} {stack : List String}
  {depth : Nat}

/-- The record is what the struct of a name unfolds to. -/
def Builds (catalog : Catalog) (name : String) (record : Record) : Prop :=
  ∃ depth stack, catalog.unfoldWithin depth stack name = .ok (.record record)

/-- The type of a declared field, and the name of its enumeration if it has
one. -/
inductive Types (catalog : Catalog) (decl : FieldDecl) :
    FieldType → Option String → Prop where
  | scalar {scalar : Scalar} {leaf : Leaf}
      (named : Scalar.ofName? decl.typeName = some scalar)
      (fits : Leaf.ofScalar? decl.stringLength scalar = some leaf) :
      Types catalog decl (.leaf leaf) none
  | enum (enumeration : (catalog.enum? decl.typeName).isSome) :
      Types catalog decl (.leaf (.integer .dint)) (some decl.typeName)
  | record {record : Record} (builds : catalog.Builds decl.typeName record) :
      Types catalog decl (.record record) none

/-- The member that a declared field becomes. -/
structure Makes (catalog : Catalog) (decl : FieldDecl) (member : Field) :
    Prop where
  name : member.name = decl.name
  arraySize : member.arraySize = decl.arraySize
  comment : member.comment = decl.comment
  typed : catalog.Types decl member.type member.enumName

/-- What a name can stand for. -/
inductive StandsFor (catalog : Catalog) (name : String) :
    Resolution → Prop where
  | scalar {scalar : Scalar} (named : Scalar.ofName? name = some scalar) :
      StandsFor catalog name (.scalar scalar)
  | enum (enumeration : (catalog.enum? name).isSome) :
      StandsFor catalog name (.enum .dint)
  | record {record : Record} {decl : StructDecl}
      (unnamed : Scalar.ofName? name = none)
      (found : catalog.find? name = some ⟨record.name, .struct decl⟩)
      (members : List.Forall₂ catalog.Makes decl.fields record.fields) :
      StandsFor catalog name (.record record)

/-- A length that a member does not have makes no difference to its leaf. -/
theorem ofScalar?_of_fieldType {decl : FieldDecl} {scalar : Scalar}
    {type : FieldType}
    (typed : Resolver.fieldType owner decl (.scalar scalar) = .ok type) :
    ∃ leaf, Leaf.ofScalar? decl.stringLength scalar = some leaf ∧ type =
      .leaf leaf := by
  unfold Resolver.fieldType at typed
  split at typed
  · rename_i same
    cases same
    split at typed
    · rename_i leaf fits
      cases typed
      exact ⟨leaf, fits, rfl⟩
    · cases typed
  · rename_i same
    cases same
    split at typed
    · cases typed
    · rename_i absent
      rw [Bool.not_eq_true, Option.isSome_eq_false_iff,
        Option.isNone_iff_eq_none] at absent
      rw [absent]
      split at typed
      · rename_i leaf fits
        cases typed
        exact ⟨leaf, fits, rfl⟩
      · cases typed
  · rename_i same
    cases same
  · rename_i same
    cases same

private theorem makes_of_field {decl : FieldDecl} {resolution : Resolution}
    {member : Field}
    (unfolded : catalog.unfoldWithin depth stack decl.typeName = .ok resolution)
    (stands : catalog.StandsFor decl.typeName resolution)
    (resolved : Resolver.field owner decl resolution = .ok member) :
    catalog.Makes decl member := by
  obtain ⟨type, typed, same⟩ := bind_eq_ok_iff.mp resolved
  cases same
  refine ⟨rfl, rfl, rfl, ?_⟩
  cases stands with
  | scalar named =>
      obtain ⟨leaf, fits, rfl⟩ := ofScalar?_of_fieldType typed
      exact .scalar named fits
  | enum enumeration =>
      rw [Resolver.fieldType] at typed
      split at typed <;> cases typed
      exact .enum enumeration
  | record unnamed found members =>
      rw [Resolver.fieldType] at typed
      split at typed <;> cases typed
      exact .record ⟨depth, stack, unfolded⟩

theorem standsFor_of_unfoldWithin {resolution : Resolution}
    (unfolded : catalog.unfoldWithin depth stack name = .ok resolution) :
    catalog.StandsFor name resolution := by
  induction depth generalizing stack name resolution with
  | zero => cases unfolded
  | succ depth induction =>
      rcases unfoldWithin_eq_ok_iff.mp unfolded with ⟨scalar, named, rfl⟩ |
        ⟨unnamed, _, defines⟩
      · exact .scalar named
      cases defines with
      | enum found =>
          apply StandsFor.enum
          rw [enum?_eq_some_iff.mpr ⟨unnamed, _, found⟩]
          rfl
      | struct found members =>
          obtain ⟨_, _, each⟩ := unfoldFields_eq_ok_iff.mp members
          apply StandsFor.record unnamed found
          apply each.imp
          rintro decl member ⟨resolution, resolved, typed⟩
          exact makes_of_field resolved (induction resolved) typed

/-- A record is made of a struct that has its name, field by field. -/
theorem Builds.struct {record : Record} (byName : catalog.ByName)
    (builds : catalog.Builds name record) :
    record.name = name ∧ ∃ decl, catalog.struct? name = some decl ∧
      List.Forall₂ catalog.Makes decl.fields record.fields := by
  obtain ⟨depth, stack, unfolded⟩ := builds
  cases standsFor_of_unfoldWithin unfolded with
  | record unnamed found members =>
      exact ⟨byName.name_eq found, _,
        struct?_eq_some_iff.mpr ⟨unnamed, _, found⟩, members⟩

theorem Builds.named {record : Record} (byName : catalog.ByName)
    (builds : catalog.Builds name record) :
    record.name = name ∧ Scalar.ofName? name = none := by
  obtain ⟨named, _, struct, _⟩ := builds.struct byName
  exact ⟨named, (struct?_eq_some_iff.mp struct).1⟩

theorem unnamed_of_enum? (enum : (catalog.enum? name).isSome) :
    Scalar.ofName? name = none := by
  obtain ⟨decl, found⟩ := Option.isSome_iff_exists.mp enum
  exact (enum?_eq_some_iff.mp found).1

/-- A member whose type is not an elementary one has an enumeration or a record
of the declared name. -/
theorem Makes.typeName {decl : FieldDecl} {member : Field}
    (byName : catalog.ByName) (makes : catalog.Makes decl member)
    (unnamed : Scalar.ofName? decl.typeName = none) :
    member.enumName = some decl.typeName ∨
      ∃ inner, member.type = .record inner ∧ inner.name = decl.typeName := by
  have typed := makes.typed
  clear makes
  obtain ⟨_, type, _, _, _, enumName⟩ := member
  cases typed with
  | scalar named => cases unnamed.symm.trans named
  | enum enumeration => exact .inl rfl
  | record builds => exact .inr ⟨_, rfl, (builds.named byName).1⟩

end Catalog

end DataBridge
