import DataBridge.Proofs.Resolver.Level

/-!
# Depth of a resolution

A resolution that does not run out of depth is the same at every greater depth.
-/

namespace DataBridge

/-- The second computation does what the first does where that does not run out
of depth. -/
def Resolving.Extends {α : Type} (first second : Resolving α) : Prop :=
  ∀ resolver, (∀ name, (first resolver).1 ≠ .error (.unboundedNesting name)) →
    second resolver = first resolver

namespace Resolving.Extends

variable {α β : Type} {first second : Resolving α}

theorem refl (body : Resolving α) : Extends body body :=
  fun _ _ => rfl

theorem bind {next later : α → Resolving β} (agrees : Extends first second)
    (after : ∀ value, Extends (next value) (later value)) :
    Extends (first >>= next) (second >>= later) := by
  intro resolver bounded
  rw [stateful_bind] at bounded ⊢
  rw [stateful_bind]
  have same : second resolver = first resolver := by
    apply agrees
    intro name unbounded
    apply bounded name
    rcases result : first resolver with ⟨failure | value, state⟩
    all_goals
      rw [result] at unbounded
      cases unbounded
    rfl
  rw [same]
  rcases result : first resolver with ⟨failure | value, state⟩
  · rfl
  · rw [result] at bounded
    exact after value state bounded

theorem throw_bind (error : ResolveError) (next later : α → Resolving β) :
    Extends (throw error >>= next) (throw error >>= later) :=
  fun _ _ => rfl

theorem inside (name : String) (agrees : Extends first second) :
    Extends (Resolver.inside name first) (Resolver.inside name second) := by
  intro resolver bounded
  have same :=
    agrees { resolver with visiting := resolver.visiting ++ [name] } bounded
  simp only [Resolver.inside, same]

end Resolving.Extends

namespace Resolver

open Resolving (Extends)

private theorem fieldsWith_extends
    {resolve deeper : String → Resolving Resolution}
    (agrees : ∀ name, Extends (resolve name) (deeper name)) (owner : String)
    (decls : List FieldDecl) (seen : List String) :
    Extends (fieldsWith resolve owner seen decls)
      (fieldsWith deeper owner seen decls) := by
  induction decls generalizing seen with
  | nil => exact .refl _
  | cons decl rest induction =>
      rw [fieldsWith, fieldsWith]
      by_cases known : seen.contains decl.name = true
      · rw [if_pos known, if_pos known]
        exact .throw_bind _ _ _
      · rw [if_neg known, if_neg known]
        apply Extends.bind (agrees decl.typeName)
        intro resolution
        apply Extends.bind (.refl _)
        intro first
        exact (induction (decl.name :: seen)).bind fun others => .refl _

private theorem resolveWithin_extends (catalog : Catalog) (depth : Nat)
    (name : String) :
    Extends (resolveWithin catalog depth name)
      (resolveWithin catalog (depth + 1) name) := by
  induction depth generalizing name with
  | zero =>
      intro resolver bounded
      exact (bounded name rfl).elim
  | succ depth induction =>
      intro resolver bounded
      obtain ⟨result, after, runs⟩ := exists_runs catalog depth name resolver
      rw [runs.eq] at bounded ⊢
      apply Runs.eq
      apply runs.elsewhere fun _ => rfl
      intro declared decl _ _ fails
      have members :=
        (fieldsWith_extends induction declared decl.fields []).inside declared
      exact members resolver fun typeName unbounded =>
        bounded typeName (fails _ unbounded)

theorem resolveWithin_eq_of_le {catalog : Catalog} {name : String}
    {resolver : Resolver} {depth more : Nat} (order : depth ≤ more)
    (bounded : ∀ typeName,
      (resolveWithin catalog depth name resolver).1 ≠
        .error (.unboundedNesting typeName)) :
    resolveWithin catalog more name resolver =
    resolveWithin catalog depth name resolver := by
  induction order with
  | refl => rfl
  | step _ induction =>
      rw [resolveWithin_extends catalog _ name resolver (induction ▸ bounded),
        induction]

end Resolver

end DataBridge
