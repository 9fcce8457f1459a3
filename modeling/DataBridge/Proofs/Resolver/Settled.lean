import DataBridge.Proofs.Resolver.Upkeep

/-!
# What failed calls leave behind

A call that fails keeps the records that it has finished by then.  Each of them
was finished by a call within the call, and such a call gives the same on its
own: the structs around it can only stop it.  So the memory that a failed call
leaves is one that successful calls lead to.
-/

namespace DataBridge

/-- A computation that gives a value gives it with fewer structs around it too,
and goes to the same memory. -/
def Resolving.IgnoresStack {α : Type} (body : Resolving α) : Prop :=
  ∀ resolver value after, body resolver = (.ok value, after) →
    after.visiting = resolver.visiting ∧
      ∀ stack, stack ⊆ resolver.visiting →
        body { resolver with visiting := stack } =
          (.ok value, { after with visiting := stack })

namespace Resolving.IgnoresStack

variable {α β : Type} {body : Resolving α}

theorem pure {value : α} : IgnoresStack (Pure.pure value) := by
  intro resolver other after run
  cases run
  exact ⟨rfl, fun _ _ => rfl⟩

theorem lift {result : Except ResolveError α} :
    IgnoresStack (liftM result) := by
  intro resolver other after run
  cases result with
  | error error => cases run
  | ok value => exact pure resolver other after run

theorem bind {next : α → Resolving β} (first : IgnoresStack body)
    (second : ∀ value, IgnoresStack (next value)) :
    IgnoresStack (body >>= next) := by
  intro resolver last after run
  rw [stateful_bind] at run
  rcases here : body resolver with ⟨error | value, middle⟩
  all_goals rw [here] at run
  · cases run
  · obtain ⟨same, relax⟩ := first resolver value middle here
    obtain ⟨later, relaxLater⟩ := second value middle last after run
    refine ⟨later.trans same, ?_⟩
    intro stack fewer
    rw [stateful_bind, relax stack fewer]
    exact relaxLater stack (same ▸ fewer)

theorem throw_bind {error : ResolveError} {next : α → Resolving β} :
    IgnoresStack (MonadExcept.throw error >>= next) := by
  intro resolver value after run
  cases run

theorem inside {name : String} (ignores : IgnoresStack body) :
    IgnoresStack (Resolver.inside name body) := by
  intro resolver value after run
  rw [Resolver.inside] at run
  rcases here : body { resolver with visiting := resolver.visiting ++ [name] }
    with ⟨result, middle⟩
  rw [here] at run
  cases run
  obtain ⟨same, relax⟩ := ignores _ value middle here
  refine ⟨?_, ?_⟩
  · rw [same, List.dropLast_concat]
  · intro stack fewer
    have within : stack ++ [name] ⊆ resolver.visiting ++ [name] :=
      List.append_subset.mpr
        ⟨List.Subset.trans fewer (List.subset_append_left _ _),
          List.subset_append_right _ _⟩
    rw [Resolver.inside]
    dsimp only
    rw [relax (stack ++ [name]) within]
    dsimp only
    rw [List.dropLast_concat]

end Resolving.IgnoresStack

namespace Resolver

open Resolving (IgnoresStack)

variable {catalog : Catalog} {resolver after : Resolver} {depth : Nat}
  {key name : String} {resolution : Resolution} {record : Record}

private theorem fieldsWith_ignoresStack
    {resolve : String → Resolving Resolution}
    {owner : String} (ignores : ∀ typeName, IgnoresStack (resolve typeName))
    (decls : List FieldDecl) (seen : List String) :
    IgnoresStack (fieldsWith resolve owner seen decls) := by
  induction decls generalizing seen with
  | nil => exact .pure
  | cons decl rest induction =>
      rw [fieldsWith]
      by_cases known : seen.contains decl.name = true
      · rw [if_pos known]
        exact .throw_bind
      · rw [if_neg known]
        apply IgnoresStack.bind (ignores decl.typeName)
        intro resolution
        apply IgnoresStack.bind .lift
        intro first
        exact (induction (decl.name :: seen)).bind fun others => .pure

theorem Enters.relax (enters : Enters key resolver) {stack : List String}
    (fewer : stack ⊆ resolver.visiting) :
    Enters key { resolver with visiting := stack } :=
  ⟨enters.unnamed, enters.unknown, fun inside => enters.outside (fewer inside)⟩

theorem noteEnum_visiting (resolver : Resolver) (name : String)
    (decl : EnumDecl) (stack : List String) :
    (resolver.noteEnum name decl).visiting = resolver.visiting ∧
      noteEnum name decl { resolver with visiting := stack } =
        { resolver.noteEnum name decl with visiting := stack } := by
  unfold noteEnum
  split
  · exact ⟨rfl, rfl⟩
  · exact ⟨rfl, rfl⟩

private theorem resolveWithin_ignoresStack (catalog : Catalog) (depth : Nat)
    (key : String) : IgnoresStack (resolveWithin catalog depth key) := by
  induction depth generalizing key with
  | zero =>
      intro resolver resolution after run
      cases run
  | succ depth induction =>
      intro resolver resolution after run
      -- Only the guard against circles reads the stack, and fewer structs pass
      -- it too.
      cases resolveWithin_eq_iff.mp run with
      | scalar named => exact ⟨rfl, fun _ _ => Runs.eq (.scalar named)⟩
      | known unnamed found =>
          exact ⟨rfl, fun _ _ => Runs.eq (.known unnamed found)⟩
      | @enum declared decl enters found =>
          refine ⟨(noteEnum_visiting resolver declared decl []).1, ?_⟩
          intro stack fewer
          rw [← (noteEnum_visiting resolver declared decl stack).2]
          exact Runs.eq (.enum (enters.relax fewer) found)
      | @struct declared decl fields middle enters found members =>
          obtain ⟨same, relax⟩ :=
            (fieldsWith_ignoresStack induction decl.fields []).inside resolver
              fields middle members
          exact ⟨same, fun stack fewer =>
            Runs.eq (.struct (enters.relax fewer) found (relax stack fewer))⟩

/-- The memories that calls of `resolve` lead to which all succeed. -/
inductive Settled (catalog : Catalog) : Resolver → Prop where
  | fresh : Settled catalog {}
  | call {resolver after : Resolver} {key : String} {resolution : Resolution}
      (settled : Settled catalog resolver)
      (resolved : resolve catalog key resolver = (.ok resolution, after)) :
        Settled catalog after

/-- The memory in the middle of a call, with the structs around it left out. -/
def Underway (catalog : Catalog) (resolver : Resolver) : Prop :=
  Settled catalog { resolver with visiting := [] }

theorem Settled.reachable (settled : Settled catalog resolver) :
    Reachable catalog resolver := by
  induction settled with
  | fresh => exact .fresh
  | @call resolver after key resolution _ resolved induction =>
      have same : resolver.afterCall catalog (.resolve key) = after :=
        congrArg Prod.snd resolved
      exact same ▸ .call induction _

/-- A part of a call that succeeds is a call that succeeds. -/
theorem Underway.step (underway : Underway catalog resolver)
    (bound : depth ≤ depthBound catalog)
    (run : resolveWithin catalog depth key resolver = (.ok resolution, after)) :
    Underway catalog after := by
  obtain ⟨_, relax⟩ :=
    resolveWithin_ignoresStack catalog depth key resolver resolution after run
  have alone := relax [] (List.nil_subset _)
  apply Settled.call underway
  exact (resolveWithin_eq_of_le bound (by rw [alone]; nofun)).trans alone

private theorem underway_upkeep (catalog : Catalog) :
    Upkeep catalog (fun _ => True) (depthBound catalog) (Underway catalog)
      fun _ _ _ => True where
  closed _ _ := trivial
  visiting underway _ := underway
  grow _ _ _ known := known
  scalar _ := trivial
  known _ _ _ _ := trivial
  enum bound start _ enters found :=
    ⟨start.step bound (Runs.enum enters found).eq, trivial⟩
  struct bound start _ _ enters found members _ :=
    ⟨start.step bound (Runs.struct enters found members).eq, trivial⟩

theorem Reachable.idle (reachable : Reachable catalog resolver) :
    resolver.visiting = [] := by
  induction reachable with
  | fresh => rfl
  | @call resolver _ call induction =>
      obtain ⟨name, after⟩ := afterCall_eq catalog resolver call
      rw [after, resolve]
      exact (resolveWithin_sinks catalog (depthBound catalog) name []).keeps
        resolver induction

/-- What calls leave behind that fail is what calls leave behind that
succeed. -/
theorem Reachable.settled (reachable : Reachable catalog resolver) :
    Settled catalog resolver := by
  have underway : Underway catalog resolver :=
    reachable.upkept (underway_upkeep catalog) .fresh
  rw [Underway, ← reachable.idle] at underway
  exact underway

end Resolver

end DataBridge
