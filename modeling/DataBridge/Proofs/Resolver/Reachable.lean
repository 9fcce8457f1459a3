import DataBridge.Proofs.Record
import DataBridge.Proofs.Resolver.Ensures

/-!
# What a resolver can hand out

A resolver lives through any sequence of calls, successful or not.  Every
record that it hands out on the way is well named: a struct with a repeated
member name is never finished, and the records found in its memory were all
finished before.
-/

namespace DataBridge

/-- From a memory with the invariant a computation goes to a memory with it,
also when it fails, and a value that it gives is good. -/
def Resolving.Keeps {α : Type} (invariant : Resolver → Prop) (good : α → Prop)
    (body : Resolving α) : Prop :=
  ∀ resolver, invariant resolver →
    invariant (body resolver).2 ∧ ∀ value, (body resolver).1 = .ok value →
      good value

/-- A computation that keeps an invariant makes no promise about its errors. -/
theorem Resolving.keeps_iff_ensures {α : Type} {invariant : Resolver → Prop}
    {good : α → Prop} {body : Resolving α} :
    body.Keeps invariant good ↔ body.Ensures invariant good fun _ => True := by
  constructor
  · intro keeps
    constructor
    · exact fun resolver holds => (keeps resolver holds).1
    · exact fun resolver holds => (keeps resolver holds).2
    · exact fun _ _ _ _ => trivial
  · intro ensures resolver holds
    exact ⟨ensures.keeps resolver holds, ensures.value resolver holds⟩

namespace Resolver

open Resolving (Ensures keeps_iff_ensures)

/-- Every record in the memory is well named. -/
def WellNamed (resolver : Resolver) : Prop :=
  ∀ entry ∈ resolver.records, entry.2.WellNamed

/-- A resolution that stands for no record, or for a well-named one. -/
def Sound : Resolution → Prop
  | .scalar _ | .enum _ => True
  | .record record => record.WellNamed

/-- Well-named members with distinct names, none of them seen before. -/
structure FreshMembers (seen : List String) (fields : List Field) : Prop where
  distinct : (fields.map Field.name).Nodup
  unseen : ∀ member ∈ fields, member.name ∉ seen
  members : ∀ member ∈ fields, member.type.WellNamed

theorem FreshMembers.cons {seen : List String} {first : Field}
    {rest : List Field} (unseen : first.name ∉ seen)
    (wellNamed : first.type.WellNamed)
    (others : FreshMembers (first.name :: seen) rest) :
    FreshMembers seen (first :: rest) := by
  refine ⟨?_, ?_, ?_⟩
  · simp only [List.map_cons, List.nodup_cons, List.mem_map, not_exists,
      not_and]
    refine ⟨?_, others.distinct⟩
    intro member inside same
    exact others.unseen member inside (by simp [same])
  · intro member inside
    rcases List.mem_cons.mp inside with equal | later
    · exact equal ▸ unseen
    · intro known
      exact others.unseen member later (List.mem_cons_of_mem _ known)
  · intro member inside
    rcases List.mem_cons.mp inside with equal | later
    · exact equal ▸ wellNamed
    · exact others.members member later

private theorem freshMembers_of_forall₂ {seen : List String}
    {decls : List FieldDecl}
    {members : List Field} (distinct : (decls.map FieldDecl.name).Nodup)
    (unseen : ∀ decl ∈ decls, decl.name ∉ seen)
    (fitted : List.Forall₂ (fun decl member =>
      member.name = decl.name ∧ member.type.WellNamed)
      decls members) : FreshMembers seen members := by
  induction fitted generalizing seen with
  | nil => exact ⟨List.nodup_nil, nofun, nofun⟩
  | @cons decl member rest others here later induction =>
      obtain ⟨named, wellNamed⟩ := here
      obtain ⟨first, distinct⟩ := List.nodup_cons.mp distinct
      apply FreshMembers.cons (named ▸ unseen decl List.mem_cons_self) wellNamed
      apply induction distinct
      intro other inside known
      rcases List.mem_cons.mp known with same | before
      · exact first (List.mem_map.mpr ⟨other, inside, same.trans named⟩)
      · exact unseen other (List.mem_cons_of_mem _ inside) before

theorem field_sound {owner : String} {decl : FieldDecl}
    {resolution : Resolution} {member : Field} (sound : Sound resolution)
    (resolved : field owner decl resolution = .ok member) :
    member.name = decl.name ∧ member.type.WellNamed := by
  unfold field at resolved
  cases typed : fieldType owner decl resolution with
  | error error =>
      rw [typed] at resolved
      cases resolved
  | ok type =>
      rw [typed] at resolved
      cases resolved
      refine ⟨rfl, ?_⟩
      unfold fieldType at typed
      split at typed
      · split at typed <;> cases typed
        exact .leaf _
      · split at typed
        · cases typed
        · split at typed <;> cases typed
          exact .leaf _
      · split at typed <;> cases typed
        exact .leaf _
      · split at typed <;> cases typed
        exact sound

private theorem fieldsWith_keeps {resolve : String → Resolving Resolution}
    (resolves : ∀ typeName, (resolve typeName).Keeps WellNamed Sound)
    (owner : String) (decls : List FieldDecl) (seen : List String) :
    (fieldsWith resolve owner seen decls).Keeps WellNamed
      (FreshMembers seen) := by
  have members := @fieldsWith_ensures resolve owner WellNamed (fun _ => Sound)
    (fun decl member => member.name = decl.name ∧ member.type.WellNamed)
    (fun _ => True) decls seen
    (fun decl _ => keeps_iff_ensures.mp (resolves decl.typeName))
    (fun _ _ _ sound _ resolved => field_sound sound resolved)
    (fun _ _ _ _ _ _ => trivial) (fun _ _ _ _ _ => trivial)
  intro resolver holds
  refine ⟨members.keeps resolver holds, ?_⟩
  intro fields resolved
  obtain ⟨distinct, unseen, fitted⟩ :=
    members.value resolver holds fields resolved
  exact freshMembers_of_forall₂ distinct unseen fitted

private theorem wellNamed_noteRecord {resolver : Resolver} {record : Record}
    (memory : resolver.WellNamed) (wellNamed : record.WellNamed) :
    (resolver.noteRecord record).WellNamed := by
  intro entry inside
  rcases List.mem_cons.mp inside with equal | known
  · exact equal ▸ wellNamed
  · exact memory entry known

private theorem wellNamed_noteEnum {resolver : Resolver} (name : String)
    (decl : EnumDecl) (memory : resolver.WellNamed) :
    (resolver.noteEnum name decl).WellNamed := by
  unfold noteEnum
  split
  · exact memory
  · exact memory

private theorem wellNamed_of_record? {resolver : Resolver} {name : String}
    {record : Record} (memory : resolver.WellNamed)
    (found : resolver.record? name = some record) : record.WellNamed :=
  memory (name, record) (mem_of_lookup found)

theorem membersWithin_keeps {catalog : Catalog} {depth : Nat}
    (resolves : ∀ typeName,
      (resolveWithin catalog depth typeName).Keeps WellNamed Sound)
    (name : String) (decl : StructDecl) :
    (membersWithin catalog depth name decl).Ensures WellNamed (FreshMembers [])
      fun _ => True :=
  have fields :=
    keeps_iff_ensures.mp (fieldsWith_keeps resolves name decl.fields [])
  .inside (fun _ memory => memory) (fun _ memory => memory) fields

theorem resolveWithin_keeps (catalog : Catalog) (depth : Nat)
    (typeName : String) :
    (resolveWithin catalog depth typeName).Keeps WellNamed Sound := by
  induction depth generalizing typeName with
  | zero => exact keeps_iff_ensures.mpr (.throw trivial)
  | succ depth induction =>
      apply keeps_iff_ensures.mpr
      apply ensures_of_runs
      · intro resolver resolution after memory runs
        cases runs with
        | scalar => exact ⟨memory, trivial⟩
        | known unnamed found =>
            exact ⟨memory, wellNamed_of_record? memory found⟩
        | enum => exact ⟨wellNamed_noteEnum _ _ memory, trivial⟩
        | @struct name decl fields _ enters found members =>
            obtain ⟨memory, fresh⟩ :=
              ((membersWithin_keeps induction name decl).endsIn memory).of_ok
                members
            have finished : (recordOf name decl fields).WellNamed :=
              .record fresh.distinct fresh.members
            exact ⟨wellNamed_noteRecord memory finished, finished⟩
      · intro resolver error after memory runs
        cases runs with
        | circular => exact ⟨memory, trivial⟩
        | missing => exact ⟨memory, trivial⟩
        | failed _ _ members =>
            exact ((membersWithin_keeps induction _ _).endsIn memory).of_error
              members

inductive Call where
  | resolve (typeName : String)
  | resolveField (decl : FieldDecl)
  | resolveDatamodel (typeName : String)

/-- The memory after a call, successful or not. -/
def afterCall (catalog : Catalog) (resolver : Resolver) : Call → Resolver
  | .resolve typeName => (resolve catalog typeName resolver).2
  | .resolveField decl => (resolveField catalog decl resolver).2
  | .resolveDatamodel typeName => (resolveDatamodel catalog typeName resolver).2

/-- The memories of a resolver that started fresh. -/
inductive Reachable (catalog : Catalog) : Resolver → Prop where
  | fresh : Reachable catalog {}
  | call {resolver : Resolver} (reachable : Reachable catalog resolver)
      (call : Call) :
      Reachable catalog (resolver.afterCall catalog call)

/-- A record that a call of `resolve` hands out at some time in the life of a
resolver. -/
def Produces (catalog : Catalog) (record : Record) : Prop :=
  ∃ resolver typeName, Reachable catalog resolver ∧
    (resolve catalog typeName resolver).1 = .ok (.record record)

/-- A datamodel with a text, an array of records with an array in them, and
private members. -/
def plantCatalog : Catalog :=
  .ofList [
    { name := "Axis", kind := .struct { fields := [
      { name := "speed", typeName := "REAL" },
      { name := "ticks", typeName := "UDINT", arraySize := 2 },
      { name := "offset", typeName := "INT", isPrivate := true }] } },
    { name := "Plant", kind := .struct { fields := [
      { name := "label", typeName := "STRING", stringLength := some 4 },
      { name := "axes", typeName := "Axis", arraySize := 2 },
      { name := "spare", typeName := "Axis", isPrivate := true }] } }]

/-- The record for an axis of the plant. -/
def axis : Record where
  name := "Axis"
  fields := [
    { name := "speed", type := .leaf (.float .real) },
    { name := "ticks", type := .leaf (.integer .udint), arraySize := 2 },
    { name := "offset", type := .leaf (.integer .int),
      flags := { isPrivate := true } }]

def plant : Record where
  name := "Plant"
  fields := [
    { name := "label", type := .leaf (.string 4) },
    { name := "axes", type := .record axis, arraySize := 2 },
    { name := "spare", type := .record axis, flags := { isPrivate := true } }]

theorem axis_produced : Produces plantCatalog axis :=
  ⟨{}, "Axis", .fresh, rfl⟩

theorem plant_produced : Produces plantCatalog plant :=
  ⟨{}, "Plant", .fresh, rfl⟩

private theorem afterCall_wellNamed (catalog : Catalog) {resolver : Resolver}
    (memory : resolver.WellNamed) (call : Call) :
    (resolver.afterCall catalog call).WellNamed := by
  cases call with
  | resolve typeName =>
      exact (resolveWithin_keeps catalog _ typeName resolver memory).1
  | resolveField decl =>
      have kept : (resolveField catalog decl).Ensures WellNamed (fun _ => True)
          fun _ => True := by
        apply Ensures.bind
          (keeps_iff_ensures.mp (resolveWithin_keeps catalog _ decl.typeName))
        exact fun _ _ => .lift (fun _ _ => trivial) fun _ _ => trivial
      exact kept.keeps resolver memory
  | resolveDatamodel typeName =>
      have kept : (resolveDatamodel catalog typeName).Ensures WellNamed
          (fun _ => True)
            fun _ => True := by
        apply Ensures.bind
          (keeps_iff_ensures.mp (resolveWithin_keeps catalog _ typeName))
        intro resolution _
        cases resolution with
        | record root => exact .pure trivial
        | scalar scalar => exact .throw trivial
        | enum underlying => exact .throw trivial
      exact kept.keeps resolver memory

theorem Reachable.wellNamed {catalog : Catalog} {resolver : Resolver}
    (reachable : Reachable catalog resolver) : resolver.WellNamed := by
  induction reachable with
  | fresh =>
      intro entry inside
      cases inside
  | call _ call induction => exact afterCall_wellNamed catalog induction call

/-- Whatever was resolved before, a record that a resolver hands out has
distinct member names at every depth. -/
theorem Produces.wellNamed {catalog : Catalog} {record : Record}
    (produced : Produces catalog record) : record.WellNamed := by
  obtain ⟨resolver, typeName, reachable, resolved⟩ := produced
  exact (resolveWithin_keeps catalog _ typeName resolver reachable.wellNamed).2
    _ resolved

/-- A field that a resolver hands out: a member of a record, or a declaration
resolved on its own. -/
inductive ProducesField (catalog : Catalog) : Field → Prop where
  | member {record : Record} {field : Field}
      (produced : Produces catalog record)
      (inside : field ∈ record.fields) : ProducesField catalog field
  | alone {resolver : Resolver} {decl : FieldDecl} {field : Field}
      (reachable : Reachable catalog resolver)
      (resolved : (resolveField catalog decl resolver).1 = .ok field) :
      ProducesField catalog field

theorem ProducesField.wellNamed {catalog : Catalog} {field : Field}
    (produced : ProducesField catalog field) : field.type.WellNamed := by
  cases produced with
  | member produced inside =>
      exact Record.WellNamed.member produced.wellNamed inside
  | @alone resolver decl _ reachable resolved =>
      have kept : (resolveField catalog decl).Ensures WellNamed
          (fun field => field.type.WellNamed) fun _ => True := by
        apply Ensures.bind
          (keeps_iff_ensures.mp (resolveWithin_keeps catalog _ decl.typeName))
        intro resolution sound
        exact .lift (fun field resolved => (field_sound sound resolved).2)
          fun _ _ => trivial
      exact kept.value resolver reachable.wellNamed field resolved

end Resolver

end DataBridge
