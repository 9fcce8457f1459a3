import DataBridge.Proofs.Resolver.Search

/-!
# Resolution without a memory

Unfolding resolves a type name by walking every struct anew.  A resolver gives
what unfolding gives, whatever it remembers: a name that it remembers is well
formed throughout, so no struct on the stack stands below it, and unfolding it
there gives what it gave when it was finished.
-/

namespace DataBridge

namespace Catalog

/-- The members of a struct, each type name by `unfold`.  `seen` holds the names
of the members before. -/
def unfoldFields (unfold : String → Except ResolveError Resolution)
    (owner : String) :
    List String → List FieldDecl → Except ResolveError (List Field)
  | _, [] => .ok []
  | seen, decl :: rest =>
      if seen.contains decl.name then .error (.duplicateField owner decl.name)
      else do
        let resolution ← unfold decl.typeName
        let first ← Resolver.field owner decl resolution
        let others ← unfoldFields unfold owner (decl.name :: seen) rest
        return first :: others

/-- What a name stands for inside the structs of a stack. -/
def unfoldWithin (catalog : Catalog) :
    Nat → List String → String → Except ResolveError Resolution
  | 0, _, name => .error (.unboundedNesting name)
  | depth + 1, stack, name =>
      match Scalar.ofName? name with
      | some scalar => .ok (.scalar scalar)
      | none =>
          if stack.contains name then
            .error (.circularReference (stack ++ [name]))
          else
            match catalog.find? name with
            | none => .error (.schemaNotFound name)
            | some ⟨_, .enum _⟩ => .ok (.enum .dint)
            | some ⟨declared, .struct decl⟩ => do
                let fields ← unfoldFields
                  (catalog.unfoldWithin depth (stack ++ [declared]))
                  declared [] decl.fields
                return .record
                  { name := declared, comment := decl.comment, fields }

/-- What a name stands for. -/
def unfold (catalog : Catalog) (name : String) :
    Except ResolveError Resolution :=
  catalog.unfoldWithin (Resolver.depthBound catalog) [] name

variable {catalog : Catalog} {root name : String} {stack : List String}

/-- A declared field is this member, by what its type name unfolds to. -/
def UnfoldsTo (unfold : String → Except ResolveError Resolution)
    (owner : String) (decl : FieldDecl) (member : Field) : Prop :=
  ∃ resolution, unfold decl.typeName = .ok resolution ∧
    Resolver.field owner decl resolution = .ok member

/-- The members of a struct unfold when no name comes twice and each of them
does. -/
theorem unfoldFields_eq_ok_iff
    {unfold : String → Except ResolveError Resolution} {owner : String}
    {seen : List String} {decls : List FieldDecl} {members : List Field} :
    unfoldFields unfold owner seen decls = .ok members ↔
      (decls.map FieldDecl.name).Nodup ∧ (∀ decl ∈ decls, decl.name ∉ seen) ∧
        List.Forall₂ (UnfoldsTo unfold owner) decls members := by
  induction decls generalizing seen members with
  | nil =>
      constructor
      · rintro ⟨⟩
        exact ⟨List.nodup_nil, nofun, .nil⟩
      · rintro ⟨_, _, ⟨⟩⟩
        rfl
  | cons decl rest induction =>
      rw [unfoldFields]
      by_cases known : decl.name ∈ seen
      · rw [if_pos (List.contains_iff_mem.mpr known)]
        constructor
        · exact nofun
        · rintro ⟨_, unseen, _⟩
          exact absurd known (unseen decl List.mem_cons_self)
      rw [if_neg (by simpa using known)]
      constructor
      · intro unfolded
        obtain ⟨resolution, resolved, unfolded⟩ := bind_eq_ok_iff.mp unfolded
        obtain ⟨first, typed, unfolded⟩ := bind_eq_ok_iff.mp unfolded
        obtain ⟨others, later, same⟩ := bind_eq_ok_iff.mp unfolded
        cases same
        obtain ⟨distinct, unseen, each⟩ := induction.mp later
        obtain ⟨distinct, unseen⟩ :=
          Resolver.distinct_cons known distinct unseen
        exact ⟨distinct, unseen, .cons ⟨resolution, resolved, typed⟩ each⟩
      · rintro ⟨distinct, unseen, each⟩
        cases each with
        | cons here others =>
            obtain ⟨resolution, resolved, typed⟩ := here
            obtain ⟨first, distinct⟩ := List.nodup_cons.mp distinct
            have later :=
              (@induction (decl.name :: seen) _).mpr ⟨distinct, ?_, others⟩
            · rw [resolved, ok_bind, typed, ok_bind, later]
              rfl
            intro other inside
            rw [List.mem_cons, not_or]
            refine ⟨?_, unseen other (List.mem_cons_of_mem _ inside)⟩
            exact fun same => first (List.mem_map.mpr ⟨other, inside, same⟩)

/-- What a name is defined as, the members of a struct by `unfold` inside of
it. -/
def lookUp (catalog : Catalog)
    (unfold : String → String → Except ResolveError Resolution)
    (name : String) : Except ResolveError Resolution :=
  match catalog.find? name with
  | none => .error (.schemaNotFound name)
  | some ⟨_, .enum _⟩ => .ok (.enum .dint)
  | some ⟨declared, .struct decl⟩ => do
      let fields ← unfoldFields (unfold declared) declared [] decl.fields
      return .record (Resolver.recordOf declared decl fields)

/-- The definitions of which something comes. -/
inductive Defines (catalog : Catalog)
    (unfold : String → String → Except ResolveError Resolution)
    (name : String) : Resolution → Prop where
  | enum {declared : String} {decl : EnumDecl}
      (found : catalog.find? name = some ⟨declared, .enum decl⟩) :
      Defines catalog unfold name (.enum .dint)
  | struct {declared : String} {decl : StructDecl} {fields : List Field}
      (found : catalog.find? name = some ⟨declared, .struct decl⟩)
      (members : unfoldFields (unfold declared) declared [] decl.fields =
        .ok fields) :
      Defines catalog unfold name
        (.record (Resolver.recordOf declared decl fields))

theorem lookUp_eq_ok_iff
    {unfold : String → String → Except ResolveError Resolution}
    {resolution : Resolution} :
    catalog.lookUp unfold name = .ok resolution ↔
      catalog.Defines unfold name resolution := by
  constructor
  · intro defined
    rw [lookUp] at defined
    rcases found : catalog.find? name with _ | ⟨declared, decl | decl⟩
    all_goals rw [found] at defined
    · cases defined
    · obtain ⟨fields, members, same⟩ := bind_eq_ok_iff.mp defined
      cases same
      exact .struct found members
    · cases defined
      exact .enum found
  · intro defines
    cases defines with
    | enum found => rw [lookUp, found]
    | struct found members =>
        rw [lookUp, found]
        dsimp only
        rw [members]
        rfl

theorem unfoldWithin_scalar {scalar : Scalar}
    (named : Scalar.ofName? name = some scalar) (depth : Nat) :
    catalog.unfoldWithin (depth + 1) stack name = .ok (.scalar scalar) := by
  rw [unfoldWithin, named]

theorem unfoldWithin_again {depth : Nat} (unnamed : Scalar.ofName? name = none)
    (again : name ∈ stack) :
    catalog.unfoldWithin (depth + 1) stack name =
      .error (.circularReference (stack ++ [name])) := by
  rw [unfoldWithin, unnamed]
  exact if_pos (List.contains_iff_mem.mpr again)

theorem unfoldWithin_new {depth : Nat} (unnamed : Scalar.ofName? name = none)
    (new : name ∉ stack) :
    catalog.unfoldWithin (depth + 1) stack name =
      catalog.lookUp (fun declared =>
        catalog.unfoldWithin depth (stack ++ [declared])) name := by
  rw [unfoldWithin, unnamed]
  exact if_neg (by simpa using new)

/-- A name that unfolds is an elementary type, or it is off the stack and
defined. -/
theorem unfoldWithin_eq_ok_iff {depth : Nat} {resolution : Resolution} :
    catalog.unfoldWithin (depth + 1) stack name = .ok resolution ↔
      (∃ scalar, Scalar.ofName? name = some scalar ∧ resolution =
        .scalar scalar) ∨
        Scalar.ofName? name = none ∧ name ∉ stack ∧
          catalog.Defines (fun declared =>
            catalog.unfoldWithin depth (stack ++ [declared])) name
            resolution := by
  cases scalar : Scalar.ofName? name with
  | some kind => simp [unfoldWithin_scalar scalar, eq_comm]
  | none =>
      by_cases again : name ∈ stack
      · simp [unfoldWithin_again scalar again, again]
      · simp [unfoldWithin_new scalar again, again, lookUp_eq_ok_iff]

/-- A struct that is well formed throughout stands below none of its own
parts. -/
theorem Walk.fresh (walk : catalog.Walk root stack name)
    (wellFormed : catalog.WellFormed name) : name ∉ stack := by
  intro again
  obtain ⟨before, after, rfl⟩ := List.append_of_mem again
  have steps := walk.steps
  rw [List.append_assoc] at steps
  exact wellFormed.acyclic name .refl
    (transGen_of_isChain steps.right_of_append)

theorem WellFormed.uses {inner : String} (wellFormed : catalog.WellFormed name)
    (uses : catalog.Uses name inner) : catalog.WellFormed inner := by
  constructor
  · intro deeper decl reached
    exact wellFormed.structs deeper decl (.head uses reached)
  · intro deeper reached
    exact wellFormed.acyclic deeper (.head uses reached)

theorem unfoldFields_ok_of_forall
    {unfold other : String → Except ResolveError Resolution} {owner : String}
    {seen : List String} {decls : List FieldDecl} {members : List Field}
    (agrees : ∀ decl ∈ decls,
      ∀ resolution, unfold decl.typeName = .ok resolution →
      other decl.typeName = .ok resolution)
    (unfolded : unfoldFields unfold owner seen decls = .ok members) :
    unfoldFields other owner seen decls = .ok members := by
  obtain ⟨distinct, unseen, each⟩ := unfoldFields_eq_ok_iff.mp unfolded
  refine unfoldFields_eq_ok_iff.mpr ⟨distinct, unseen, ?_⟩
  apply ((List.forall₂_and_left decls members).mpr ⟨agrees, each⟩).imp
  rintro decl member ⟨agrees, resolution, resolved, typed⟩
  exact ⟨resolution, agrees resolution resolved, typed⟩

/-- What a well-formed name stands for does not depend on the structs around it,
nor on the depth once that suffices. -/
theorem unfoldWithin_stable (byName : catalog.ByName) {depth less : Nat}
    {outer : List String} {resolution : Resolution}
    (walk : catalog.Walk root stack name)
    (enough : catalog.entries.length < depth + stack.length)
    (wellFormed : catalog.WellFormed name)
    (unfolded : catalog.unfoldWithin less outer name = .ok resolution) :
    catalog.unfoldWithin depth stack name = .ok resolution := by
  induction less generalizing depth stack outer name resolution with
  | zero => cases unfolded
  | succ less induction =>
      have bound := walk.length_le
      obtain ⟨depth, rfl⟩ : ∃ fewer, depth = fewer + 1 := ⟨depth - 1, by omega⟩
      apply unfoldWithin_eq_ok_iff.mpr
      rcases unfoldWithin_eq_ok_iff.mp unfolded with
        scalar | ⟨unnamed, _, defines⟩
      · exact .inl scalar
      have new := walk.fresh wellFormed
      refine .inr ⟨unnamed, new, ?_⟩
      cases defines with
      | enum found => exact .enum found
      | struct found members =>
          obtain rfl := byName.name_eq found
          have struct := struct?_eq_some_iff.mpr ⟨unnamed, _, found⟩
          refine .struct found (unfoldFields_ok_of_forall ?_ members)
          intro field inside resolution resolved
          have uses : catalog.Uses _ field.typeName :=
            ⟨_, struct, field, inside, rfl⟩
          apply induction (walk.enter new uses) _ (wellFormed.uses uses)
            resolved
          rw [List.length_append, List.length_singleton]
          omega

end Catalog

/-- From every memory with the invariant a computation gives this answer, and it
keeps the invariant. -/
structure Resolving.Answers {α : Type} (invariant : Resolver → Prop)
    (answer : Except ResolveError α) (body : Resolving α) : Prop where
  result : ∀ resolver, invariant resolver → (body resolver).1 = answer
  keeps : ∀ resolver, invariant resolver → invariant (body resolver).2

namespace Resolving.Answers

variable {α β : Type} {invariant inner : Resolver → Prop}
  {answer : Except ResolveError α} {body : Resolving α}

theorem pure {value : α} : Answers invariant (.ok value) (Pure.pure value) :=
  ⟨fun _ _ => rfl, fun _ holds => holds⟩

theorem throw {error : ResolveError} :
    Answers invariant (.error error) (throw error : Resolving α) :=
  ⟨fun _ _ => rfl, fun _ holds => holds⟩

theorem throw_bind {error : ResolveError} {next : α → Resolving β} :
    Answers invariant (.error error) (MonadExcept.throw error >>= next) :=
  ⟨fun _ _ => rfl, fun _ holds => holds⟩

theorem lift : Answers invariant answer (liftM answer) := by
  cases answer with
  | error error => exact throw
  | ok value => exact pure

theorem bind {next : α → Resolving β} {later : α → Except ResolveError β}
    (first : Answers invariant answer body)
    (second : ∀ value, answer = .ok value →
      Answers invariant (later value) (next value)) :
    Answers invariant (answer >>= later) (body >>= next) := by
  constructor
  all_goals
    intro resolver holds
    have same := first.result resolver holds
    have kept := first.keeps resolver holds
    rw [stateful_bind]
    rcases run : body resolver with ⟨_ | value, after⟩
    all_goals
      rw [run] at same kept
      subst same
  · rfl
  · exact (second value rfl).result after kept
  · exact kept
  · exact (second value rfl).keeps after kept

theorem inside {name : String}
    (entered : ∀ resolver, invariant resolver →
      inner { resolver with visiting := resolver.visiting ++ [name] })
    (left : ∀ resolver, inner resolver →
      invariant { resolver with visiting := resolver.visiting.dropLast })
    (answers : Answers inner answer body) :
    Answers invariant answer (Resolver.inside name body) where
  result resolver holds := answers.result _ (entered resolver holds)
  keeps resolver holds := left _ (answers.keeps _ (entered resolver holds))

theorem of_run (answers : Answers invariant answer body)
    {resolver after : Resolver} {result : Except ResolveError α}
    (holds : invariant resolver) (run : body resolver = (result, after)) :
    result = answer ∧ invariant after := by
  have same := answers.result resolver holds
  have kept := answers.keeps resolver holds
  rw [run] at same kept
  exact ⟨same, kept⟩

end Resolving.Answers

namespace Resolver

open Resolving (Answers)

variable {catalog : Catalog} {root owner name : String} {stack : List String}
  {resolver : Resolver}

/-- The state of a search that remembers what unfolding gives. -/
structure Remembering (catalog : Catalog) (stack : List String)
    (resolver : Resolver) : Prop
    extends Searching catalog stack resolver where
  unfolds : ∀ entry ∈ resolver.records, ∃ depth outer,
    catalog.unfoldWithin depth outer entry.1 = .ok (.record entry.2)

theorem Remembering.fresh (catalog : Catalog) : Remembering catalog [] {} :=
  ⟨⟨rfl, nofun⟩, nofun⟩

theorem Remembering.enter (remembering : Remembering catalog stack resolver)
    (name : String) : Remembering catalog (stack ++ [name])
      { resolver with visiting := resolver.visiting ++ [name] } :=
  ⟨remembering.toSearching.enter name, remembering.unfolds⟩

theorem Remembering.leave
    (remembering : Remembering catalog (stack ++ [name]) resolver) :
    Remembering catalog stack
      { resolver with visiting := resolver.visiting.dropLast } :=
  ⟨remembering.toSearching.leave, remembering.unfolds⟩

theorem Remembering.noteEnum (remembering : Remembering catalog stack resolver)
    (decl : EnumDecl) :
    Remembering catalog stack (resolver.noteEnum name decl) := by
  refine ⟨remembering.toSearching.noteEnum decl, ?_⟩
  unfold Resolver.noteEnum
  split
  · exact remembering.unfolds
  · exact remembering.unfolds

theorem Remembering.noteRecord
    (remembering : Remembering catalog stack resolver) {record : Record}
    {depth : Nat} (isStruct : (catalog.struct? record.name).isSome)
    (wellFormed : catalog.WellFormed record.name)
    (unfolded : catalog.unfoldWithin depth stack record.name =
      .ok (.record record)) :
    Remembering catalog stack (resolver.noteRecord record) := by
  refine ⟨remembering.toSearching.noteRecord isStruct wellFormed, ?_⟩
  intro entry inside
  rcases List.mem_cons.mp inside with rfl | before
  · exact ⟨depth, stack, unfolded⟩
  · exact remembering.unfolds entry before

private theorem answers_of_runs {invariant : Resolver → Prop} {depth : Nat}
    {answer : Except ResolveError Resolution}
    (each : ∀ resolver result after, invariant resolver →
      Runs catalog depth name resolver result after →
        result = answer ∧ invariant after) :
    (resolveWithin catalog (depth + 1) name).Answers invariant answer := by
  constructor
  all_goals
    intro resolver holds
    obtain ⟨result, after, runs⟩ := exists_runs catalog depth name resolver
    rw [runs.eq]
  · exact (each resolver result after holds runs).1
  · exact (each resolver result after holds runs).2

private theorem fieldsWith_answers {resolve : String → Resolving Resolution}
    {unfold : String → Except ResolveError Resolution}
    {invariant : Resolver → Prop} (decls : List FieldDecl) (seen : List String)
    (resolves : ∀ decl ∈ decls,
      (resolve decl.typeName).Answers invariant (unfold decl.typeName)) :
    (fieldsWith resolve owner seen decls).Answers invariant
      (Catalog.unfoldFields unfold owner seen decls) := by
  induction decls generalizing seen with
  | nil => exact .pure
  | cons decl rest induction =>
      rw [fieldsWith, Catalog.unfoldFields]
      by_cases known : seen.contains decl.name = true
      · rw [if_pos known, if_pos known]
        exact .throw_bind
      · rw [if_neg known, if_neg known]
        apply Answers.bind (resolves decl List.mem_cons_self)
        intro resolution _
        apply Answers.bind .lift
        intro first _
        apply Answers.bind
        · exact induction _ fun later inside =>
            resolves later (List.mem_cons_of_mem _ inside)
        · exact fun others _ => .pure

theorem membersWithin_answers {depth : Nat} {decl : StructDecl}
    (resolves : ∀ field ∈ decl.fields,
      (resolveWithin catalog depth field.typeName).Answers
      (Remembering catalog (stack ++ [owner]))
      (catalog.unfoldWithin depth (stack ++ [owner]) field.typeName)) :
    (membersWithin catalog depth owner decl).Answers (Remembering catalog stack)
      (Catalog.unfoldFields
        (catalog.unfoldWithin depth (stack ++ [owner])) owner []
        decl.fields) :=
  .inside (fun _ remembering => remembering.enter owner)
    (fun _ => Remembering.leave) (fieldsWith_answers decl.fields [] resolves)

/-- With more depth left than there are definitions off the stack, a resolver
gives what unfolding gives. -/
theorem resolveWithin_answers (byName : catalog.ByName) {depth : Nat}
    (walk : catalog.Walk root stack name)
    (enough : catalog.entries.length < depth + stack.length) :
    (resolveWithin catalog depth name).Answers (Remembering catalog stack)
      (catalog.unfoldWithin depth stack name) := by
  induction depth generalizing stack name with
  | zero => exact .throw
  | succ depth induction =>
      have deeper : catalog.entries.length <
          depth + (stack ++ [name]).length := by
        rw [List.length_append, List.length_singleton]
        omega
      apply answers_of_runs
      intro resolver result after remembering runs
      cases runs with
      | scalar named =>
          rw [Catalog.unfoldWithin_scalar named]
          exact ⟨rfl, remembering⟩
      | @known record unnamed found =>
          have wellFormed := (remembering.toSearching.record found).2
          obtain ⟨less, outer, unfolded⟩ :=
            remembering.unfolds (name, record) (mem_of_lookup found)
          rw [Catalog.unfoldWithin_stable byName walk enough wellFormed
            unfolded]
          exact ⟨rfl, remembering⟩
      | circular unnamed _ again =>
          rw [remembering.visiting] at again ⊢
          rw [Catalog.unfoldWithin_again unnamed again]
          exact ⟨rfl, remembering⟩
      | missing enters absent =>
          have new : name ∉ stack := remembering.visiting ▸ enters.outside
          rw [Catalog.unfoldWithin_new enters.unnamed new,
            Catalog.lookUp, absent]
          exact ⟨rfl, remembering⟩
      | @enum declared decl enters found =>
          have new : name ∉ stack := remembering.visiting ▸ enters.outside
          rw [Catalog.unfoldWithin_new enters.unnamed new,
            Catalog.lookUp, found]
          exact ⟨rfl, remembering.noteEnum decl⟩
      | failed enters found run =>
          obtain rfl := byName.name_eq found
          obtain ⟨new, _, walks⟩ :=
            remembering.toSearching.walks walk enters found
          have members := membersWithin_answers fun field inside =>
            induction (walks field inside) deeper
          obtain ⟨same, kept⟩ := members.of_run remembering run
          rw [Catalog.unfoldWithin_new enters.unnamed new,
            Catalog.lookUp, found]
          dsimp only
          rw [← same]
          exact ⟨rfl, kept⟩
      | struct enters found run =>
          obtain rfl := byName.name_eq found
          obtain ⟨new, struct, walks⟩ :=
            remembering.toSearching.walks walk enters found
          have members := membersWithin_answers fun field inside =>
            induction (walks field inside) deeper
          have search := membersWithin_search walk struct fun field inside =>
            resolveWithin_search (byName.namedByKey root)
              (walks field inside) deeper
          obtain ⟨same, kept⟩ := members.of_run remembering run
          have wellFormed :=
            ((search.endsIn remembering.toSearching).of_ok run).2
          have unfolds : catalog.unfoldWithin (depth + 1) stack _ =
              .ok (.record _) :=
            Catalog.unfoldWithin_eq_ok_iff.mpr
              (.inr ⟨enters.unnamed, new, .struct found same.symm⟩)
          rw [unfolds]
          exact ⟨rfl,
            kept.noteRecord (by simp [recordOf, struct]) wellFormed unfolds⟩

theorem resolve_answers (byName : catalog.ByName) (name : String) :
    (resolve catalog name).Answers (Remembering catalog [])
      (catalog.unfold name) := by
  unfold resolve Catalog.unfold
  apply resolveWithin_answers byName (Catalog.walk_start catalog name)
  rw [List.length_nil, Nat.add_zero]
  exact lt_depthBound catalog

theorem resolveField_answers (byName : catalog.ByName) (decl : FieldDecl) :
    (resolveField catalog decl).Answers (Remembering catalog [])
      (catalog.unfold decl.typeName >>= field "" decl) := by
  rw [resolveField]
  apply Answers.bind (resolve_answers byName decl.typeName)
  exact fun resolution _ => .lift

theorem resolveDatamodel_answers (byName : catalog.ByName) (name : String) :
    (resolveDatamodel catalog name).Answers (Remembering catalog [])
      (catalog.unfold name >>= fun
        | .record root => .ok { name, root }
        | .scalar _ | .enum _ => .error (.notARecord name)) := by
  rw [resolveDatamodel]
  apply Answers.bind (resolve_answers byName name)
  intro resolution _
  cases resolution with
  | record root => exact .pure
  | scalar scalar => exact .throw
  | enum underlying => exact .throw

/-- Every memory of a resolver agrees with unfolding, also after failures. -/
theorem Reachable.remembering (byName : catalog.ByName)
    (reachable : Reachable catalog resolver) :
    Remembering catalog [] resolver := by
  induction reachable with
  | fresh => exact .fresh catalog
  | call _ call induction =>
      cases call with
      | resolve name => exact (resolve_answers byName name).keeps _ induction
      | resolveField decl =>
          exact (resolveField_answers byName decl).keeps _ induction
      | resolveDatamodel name =>
          exact (resolveDatamodel_answers byName name).keeps _ induction

end Resolver

open Resolver in
/-- Whatever was resolved before, and whether it failed or not, a resolver
answers each call as a fresh one does.  No greater depth changes what it
does. -/
theorem resolver_answers_as_fresh {catalog : Catalog} (byName : catalog.ByName)
    {resolver : Resolver} (reachable : Reachable catalog resolver) :
    (∀ name, (resolve catalog name resolver).1 = (resolve catalog name {}).1) ∧
      (∀ decl, (resolveField catalog decl resolver).1 =
        (resolveField catalog decl {}).1) ∧
      (∀ name, (resolveDatamodel catalog name resolver).1 =
        (resolveDatamodel catalog name {}).1) ∧
      ∀ name depth, depthBound catalog ≤ depth →
        resolveWithin catalog depth name resolver =
          resolve catalog name resolver := by
  have fresh := Remembering.fresh catalog
  have remembering := reachable.remembering byName
  refine ⟨?_, ?_, ?_, ?_⟩
  · intro name
    have answers := resolve_answers byName name
    rw [answers.result resolver remembering, answers.result {} fresh]
  · intro decl
    have answers := resolveField_answers byName decl
    rw [answers.result resolver remembering, answers.result {} fresh]
  · intro name
    have answers := resolveDatamodel_answers byName name
    rw [answers.result resolver remembering, answers.result {} fresh]
  · intro name depth more
    apply resolveWithin_eq_of_le more
    intro typeName unbounded
    exact (resolve_search (byName.namedByKey name)).error resolver
      remembering.toSearching _ unbounded

/-- A struct that holds a sound one before it holds itself, and one that holds
both. -/
def rigCatalog : Catalog :=
  .ofList [
    { name := "Arm",
      kind :=
        .struct { fields := [{ name := "angle", typeName := "LREAL" }] } },
    { name := "Rig", kind := .struct { fields := [
      { name := "arm", typeName := "Arm" },
      { name := "spare", typeName := "Rig", isPrivate := true }] } },
    { name := "Hall", kind := .struct { fields := [
      { name := "arm", typeName := "Arm", arraySize := 2 },
      { name := "rig", typeName := "Rig" }] } }]

/-- The memory of a resolver that has failed on a struct and kept a part of
it. -/
def rigMemory : Resolver :=
  Resolver.afterCall rigCatalog {} (.resolve "Rig")

theorem rig_answers_as_fresh :
    rigCatalog.ByName ∧ Resolver.Reachable rigCatalog rigMemory ∧
      rigMemory.order = ["Arm"] ∧
      (Resolver.resolve rigCatalog "Hall" rigMemory).1 =
        .error (.circularReference ["Hall", "Rig", "Rig"]) ∧
      (Resolver.resolve rigCatalog "Arm" rigMemory).1 =
        (Resolver.resolve rigCatalog "Arm" {}).1 := by
  have byName : rigCatalog.ByName := Catalog.byName_ofList _
  have reachable : Resolver.Reachable rigCatalog rigMemory := .call .fresh _
  have answers := (resolver_answers_as_fresh byName reachable).1
  refine ⟨byName, reachable, rfl, ?_, answers "Arm"⟩
  rw [answers "Hall"]
  rfl

end DataBridge
