import DataBridge.Proofs.Resolver.Content
import DataBridge.Proofs.Resolver.Descent

/-!
# What every resolution keeps up

From the cases of one level follows, for any property of memories, that a
resolution keeps it up when each change of the memory does, and that it then
gives what the property promises of its values.  Nothing is assumed of the names
of definitions and the keys that they are under.
-/

namespace DataBridge

namespace Resolver

variable {catalog : Catalog} {resolver after : Resolver} {depth : Nat}
  {key : String} {result : Except ResolveError Resolution}
  {resolution : Resolution}

/-- From one memory to a later one that has the property. -/
structure Onward (holds : Resolver → Prop) (before after : Resolver) : Prop
    extends Grows before after where
  holds : holds after

/-- From the memory a computation goes on to one with the property, which holds
what is `held` of the value that it gives. -/
def Leads {α : Type} (holds : Resolver → Prop) (held : Resolver → α → Prop)
    (body : Resolving α) (resolver : Resolver) : Prop :=
  EndsIn body resolver (fun value after =>
    Onward holds resolver after ∧ held after value)
    fun _ after => Onward holds resolver after

section Leads

variable {α β : Type} {holds : Resolver → Prop} {kept : Resolver → α → Prop}
  {later : Resolver → β → Prop} {body : Resolving α} {before : Resolver}

theorem Onward.trans (first : Onward holds before resolver)
    (second : Onward holds resolver after) : Onward holds before after :=
  ⟨first.toGrows.trans second.toGrows, second.holds⟩

theorem Leads.bind {next : α → Resolving β}
    (first : Leads holds kept body resolver)
    (second : ∀ value after, Onward holds resolver after → kept after value →
      Leads holds later (next value) after) :
    Leads holds later (body >>= next) resolver :=
  EndsIn.seq Onward.trans first second

theorem Leads.inside {name : String}
    (visiting : ∀ {resolver : Resolver}, holds resolver →
      ∀ names, holds { resolver with visiting := names })
    (grow : ∀ {before after : Resolver}, Grows before after →
      ∀ {value}, kept before value → kept after value)
    (leads : Leads holds kept body
      { resolver with visiting := resolver.visiting ++ [name] }) :
    Leads holds kept (Resolver.inside name body) resolver := by
  have left : ∀ {after : Resolver},
      Onward holds
        { resolver with visiting := resolver.visiting ++ [name] } after →
        Onward holds resolver
          { after with visiting := after.visiting.dropLast } :=
    fun onward =>
      ⟨((grows_visiting resolver _).trans onward.toGrows).trans
        (grows_visiting _ _),
      visiting onward.holds _⟩
  constructor
  · intro value result
    obtain ⟨onward, isKept⟩ := leads.value value result
    exact ⟨left onward, grow (grows_visiting _ _) isKept⟩
  · exact fun error result => left (leads.error error result)

end Leads

/-- A declared field is this member, by what a memory holds of its type. -/
def HeldField (held : Resolver → String → Resolution → Prop)
    (resolver : Resolver) (owner : String) (decl : FieldDecl) (member : Field) :
    Prop :=
  ∃ resolution, held resolver decl.typeName resolution ∧
    field owner decl resolution = .ok member

/-- The members of a struct, by what a memory holds of their types. -/
structure HeldMembers (held : Resolver → String → Resolution → Prop)
    (owner : String) (seen : List String) (decls : List FieldDecl)
    (resolver : Resolver) (members : List Field) : Prop where
  distinct : (decls.map FieldDecl.name).Nodup
  unseen : ∀ decl ∈ decls, decl.name ∉ seen
  each : List.Forall₂ (HeldField held resolver owner) decls members

section Upkeep

variable {inside : String → Prop} {limit : Nat} {holds : Resolver → Prop}
  {held : Resolver → String → Resolution → Prop} {owner : String}

theorem HeldMembers.grow {seen : List String} {decls : List FieldDecl}
    {members : List Field} {before : Resolver}
    (transport : ∀ {key resolution}, held before key resolution →
      held after key resolution)
    (known : HeldMembers held owner seen decls before members) :
    HeldMembers held owner seen decls after members where
  distinct := known.distinct
  unseen := known.unseen
  each := known.each.imp fun _ _ ⟨resolution, here, typed⟩ =>
    ⟨resolution, transport here, typed⟩

private theorem fieldsWith_leads {resolve : String → Resolving Resolution}
    (grow : ∀ {before after : Resolver}, Grows before after →
      ∀ {key resolution}, held before key resolution →
        held after key resolution)
    (decls : List FieldDecl) (seen : List String)
    (resolves : ∀ decl ∈ decls, ∀ resolver, holds resolver →
      Leads holds (held · decl.typeName) (resolve decl.typeName) resolver)
    (start : holds resolver) :
    Leads holds (HeldMembers held owner seen decls)
      (fieldsWith resolve owner seen decls)
      resolver := by
  induction decls generalizing seen resolver with
  | nil => exact EndsIn.pure ⟨⟨.refl resolver, start⟩, List.nodup_nil,
      nofun, .nil⟩
  | cons decl rest induction =>
      rw [fieldsWith]
      by_cases known : seen.contains decl.name = true
      · rw [if_pos known]
        exact EndsIn.throw_bind ⟨.refl resolver, start⟩
      rw [if_neg known]
      obtain ⟨first, others⟩ := List.forall_mem_cons.mp resolves
      apply (first resolver start).bind
      intro resolution middle onward here
      have typing : Leads holds (fun _ member =>
          field owner decl resolution = .ok member)
            (liftM (field owner decl resolution)) middle :=
        EndsIn.lift (fun _ typed => ⟨⟨.refl middle, onward.holds⟩, typed⟩)
          fun _ _ => ⟨.refl middle, onward.holds⟩
      apply typing.bind
      intro member next sooner typed
      apply (induction (decl.name :: seen) others sooner.holds).bind
      intro members last later more
      obtain ⟨distinct, unseen⟩ :=
        distinct_cons (by simpa using known) more.distinct more.unseen
      have first : HeldField held last owner decl member :=
        ⟨resolution, grow (sooner.trans later).toGrows here, typed⟩
      exact EndsIn.pure ⟨⟨.refl last, later.holds⟩, distinct, unseen,
        .cons first more.each⟩

/-- A property of memories, and what it promises of the values of keys, that no
change of the memory hurts.  The keys are `inside` of what is closed under the
fields of structs. -/
structure Upkeep (catalog : Catalog) (inside : String → Prop) (limit : Nat)
    (holds : Resolver → Prop) (held : Resolver → String → Resolution → Prop) :
    Prop where
  closed : ∀ {outer inner}, inside outer → catalog.Uses outer inner →
    inside inner
  visiting : ∀ {resolver : Resolver}, holds resolver →
    ∀ names, holds { resolver with visiting := names }
  grow : ∀ {before after : Resolver}, Grows before after →
    ∀ {key resolution}, held before key resolution → held after key resolution
  scalar : ∀ {resolver key scalar}, Scalar.ofName? key = some scalar →
    held resolver key (.scalar scalar)
  known : ∀ {resolver key record}, holds resolver → inside key →
    Scalar.ofName? key = none →
    resolver.record? key = some record → held resolver key (.record record)
  enum : ∀ {resolver depth key name decl}, depth < limit → holds resolver →
    inside key →
    Enters key resolver → catalog.find? key = some ⟨name, .enum decl⟩ →
      holds (resolver.noteEnum name decl) ∧
        held (resolver.noteEnum name decl) key (.enum .dint)
  struct : ∀ {start middle depth key name decl fields},
    depth < limit → holds start →
    holds middle → inside key → Enters key start →
    catalog.find? key = some ⟨name, .struct decl⟩ →
    membersWithin catalog depth name decl start = (.ok fields, middle) →
    HeldMembers held name [] decl.fields middle fields →
      holds (middle.noteRecord (recordOf name decl fields)) ∧
        held (middle.noteRecord (recordOf name decl fields)) key
          (.record (recordOf name decl fields))

theorem Upkeep.leads (upkeep : Upkeep catalog inside limit holds held)
    (bound : depth ≤ limit) (known : inside key) (start : holds resolver) :
    Leads holds (held · key) (resolveWithin catalog depth key) resolver := by
  induction depth generalizing key resolver with
  | zero => exact EndsIn.throw ⟨.refl resolver, start⟩
  | succ depth induction =>
      have members : ∀ {name decl}, Scalar.ofName? key = none →
          catalog.find? key = some ⟨name, .struct decl⟩ →
          Leads holds (HeldMembers held name [] decl.fields)
            (membersWithin catalog depth name decl) resolver := by
        intro name decl unnamed found
        have struct := Catalog.struct?_eq_some_iff.mpr ⟨unnamed, name, found⟩
        apply Leads.inside upkeep.visiting fun grows _ members =>
          members.grow (upkeep.grow grows)
        apply fieldsWith_leads upkeep.grow decl.fields
          [] _ (upkeep.visiting start _)
        intro field part resolver start
        exact induction (Nat.le_of_succ_le bound)
          (upkeep.closed known ⟨decl, struct, field, part, rfl⟩) start
      apply endsIn_of_runs
      · intro resolution after runs
        cases runs with
        | scalar named => exact ⟨⟨.refl resolver, start⟩, upkeep.scalar named⟩
        | known unnamed found =>
            exact ⟨⟨.refl resolver, start⟩,
              upkeep.known start known unnamed found⟩
        | @enum name decl enters found =>
            exact ⟨⟨grows_noteEnum resolver name decl,
              (upkeep.enum bound start known enters found).1⟩,
              (upkeep.enum bound start known enters found).2⟩
        | @struct name decl fields middle enters found run =>
            obtain ⟨onward, parts⟩ := (members enters.unnamed found).of_ok run
            have done :=
              upkeep.struct bound start onward.holds known enters found
                run parts
            exact ⟨⟨onward.toGrows.trans (grows_noteRecord middle _), done.1⟩,
              done.2⟩
      · intro error after runs
        cases runs with
        | circular => exact ⟨.refl resolver, start⟩
        | missing => exact ⟨.refl resolver, start⟩
        | failed enters found run =>
            exact (members enters.unnamed found).of_error run

theorem Upkeep.resolve
    (upkeep : Upkeep catalog inside (depthBound catalog) holds held)
    (known : inside key) (start : holds resolver) :
    Leads holds (held · key) (resolve catalog key) resolver :=
  upkeep.leads le_rfl known start

/-- What is kept up everywhere holds of every memory of a resolver. -/
theorem Reachable.upkept
    (upkeep : Upkeep catalog (fun _ => True) (depthBound catalog) holds held)
    (fresh : holds {}) (reachable : Reachable catalog resolver) :
    holds resolver := by
  induction reachable with
  | fresh => exact fresh
  | @call resolver _ call induction =>
      obtain ⟨key, after⟩ := afterCall_eq catalog resolver call
      rw [after]
      have leads :
          Leads holds (held · key) (Resolver.resolve catalog key) resolver :=
        upkeep.resolve trivial induction
      apply EndsIn.after
      exact leads.mono (fun _ _ last => last.1.holds) fun _ _ last => last.holds

end Upkeep

end Resolver

end DataBridge
