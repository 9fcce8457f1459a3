import DataBridge.Proofs.Ending
import DataBridge.Resolver

/-!
# One level of a resolution

A resolution reads the memory, looks a name up and resolves the members of a
struct.  What one level comes to is told case by case, given what the members
come to, and whatever is proved of a resolution is proved from these cases.
-/

namespace DataBridge

namespace Resolver

variable {catalog : Catalog} {resolver after : Resolver} {depth : Nat}
  {key : String} {result : Except ResolveError Resolution}

/-- The key is not remembered, and no struct of its name is around it. -/
structure Enters (key : String) (resolver : Resolver) : Prop where
  unnamed : Scalar.ofName? key = none
  unknown : resolver.record? key = none
  outside : key ∉ resolver.visiting

/-- The record of a struct with these members. -/
def recordOf (name : String) (decl : StructDecl) (fields : List Field) :
    Record where
  name := name
  comment := decl.comment
  fields := fields

/-- What the members of a struct come to. -/
def membersWithin (catalog : Catalog) (depth : Nat) (name : String)
    (decl : StructDecl) : Resolving (List Field) :=
  inside name (fieldsWith (resolveWithin catalog depth) name [] decl.fields)

/-- What a resolution comes to, given what the members of its struct come to. -/
inductive Runs (catalog : Catalog) (depth : Nat) (key : String)
    (resolver : Resolver) :
    Except ResolveError Resolution → Resolver → Prop where
  | scalar {scalar : Scalar} (named : Scalar.ofName? key = some scalar) :
      Runs catalog depth key resolver (.ok (.scalar scalar)) resolver
  | known {record : Record} (unnamed : Scalar.ofName? key = none)
      (found : resolver.record? key = some record) :
      Runs catalog depth key resolver (.ok (.record record)) resolver
  | circular (unnamed : Scalar.ofName? key = none)
      (unknown : resolver.record? key = none)
      (again : key ∈ resolver.visiting) :
      Runs catalog depth key resolver
        (.error (.circularReference (resolver.visiting ++ [key]))) resolver
  | missing (enters : Enters key resolver) (absent : catalog.find? key = none) :
      Runs catalog depth key resolver (.error (.schemaNotFound key)) resolver
  | enum {name : String} {decl : EnumDecl} (enters : Enters key resolver)
      (found : catalog.find? key = some ⟨name, .enum decl⟩) :
      Runs catalog depth key resolver (.ok (.enum .dint))
        (resolver.noteEnum name decl)
  | failed {name : String} {decl : StructDecl} {error : ResolveError}
      {after : Resolver}
      (enters : Enters key resolver)
      (found : catalog.find? key = some ⟨name, .struct decl⟩)
      (members : membersWithin catalog depth name decl resolver =
        (.error error, after)) :
      Runs catalog depth key resolver (.error error) after
  | struct {name : String} {decl : StructDecl} {fields : List Field}
      {after : Resolver}
      (enters : Enters key resolver)
      (found : catalog.find? key = some ⟨name, .struct decl⟩)
      (members : membersWithin catalog depth name decl resolver =
        (.ok fields, after)) :
      Runs catalog depth key resolver
        (.ok (.record (recordOf name decl fields)))
        (after.noteRecord (recordOf name decl fields))

theorem get_bind_apply {α : Type} (next : Resolver → Resolving α)
    (resolver : Resolver) : (get >>= next) resolver = next resolver resolver :=
  rfl

/-- What is neither remembered nor entered is looked up. -/
theorem resolveWithin_enters (enters : Enters key resolver) :
    resolveWithin catalog (depth + 1) key resolver =
      (match catalog.find? key with
        | none => throw (.schemaNotFound key)
        | some ⟨name, .enum decl⟩ => do
            modify (noteEnum name decl)
            return .enum .dint
        | some ⟨name, .struct decl⟩ => do
            let fields ← membersWithin catalog depth name decl
            modify (noteRecord (recordOf name decl fields))
            return .record (recordOf name decl fields) :
        Resolving Resolution) resolver := by
  have outside : ¬ resolver.visiting.contains key = true := by
    simpa using enters.outside
  rw [resolveWithin, enters.unnamed]
  dsimp only
  rw [get_bind_apply, enters.unknown]
  dsimp only
  rw [if_neg outside]
  rfl

theorem Runs.eq (runs : Runs catalog depth key resolver result after) :
    resolveWithin catalog (depth + 1) key resolver = (result, after) := by
  cases runs with
  | scalar named =>
      rw [resolveWithin, named]
      rfl
  | known unnamed found =>
      rw [resolveWithin, unnamed]
      dsimp only
      rw [get_bind_apply, found]
      rfl
  | circular unnamed unknown again =>
      rw [resolveWithin, unnamed]
      dsimp only
      rw [get_bind_apply, unknown]
      dsimp only
      rw [if_pos (List.contains_iff_mem.mpr again)]
      rfl
  | missing enters absent =>
      rw [resolveWithin_enters enters, absent]
      rfl
  | enum enters found =>
      rw [resolveWithin_enters enters, found]
      rfl
  | failed enters found members =>
      rw [resolveWithin_enters enters, found]
      dsimp only
      rw [stateful_bind, members]
  | struct enters found members =>
      rw [resolveWithin_enters enters, found]
      dsimp only
      rw [stateful_bind, members]
      rfl

theorem exists_runs (catalog : Catalog) (depth : Nat) (key : String)
    (resolver : Resolver) :
    ∃ result after, Runs catalog depth key resolver result after := by
  cases scalar : Scalar.ofName? key with
  | some kind => exact ⟨_, _, .scalar scalar⟩
  | none =>
      cases known : resolver.record? key with
      | some record => exact ⟨_, _, .known scalar known⟩
      | none =>
          by_cases again : key ∈ resolver.visiting
          · exact ⟨_, _, .circular scalar known again⟩
          have enters : Enters key resolver := ⟨scalar, known, again⟩
          rcases found : catalog.find? key with _ | ⟨name, decl | decl⟩
          · exact ⟨_, _, .missing enters found⟩
          · rcases members : membersWithin catalog depth name decl resolver with
              ⟨error | fields, after⟩
            · exact ⟨_, _, .failed enters found members⟩
            · exact ⟨_, _, .struct enters found members⟩
          · exact ⟨_, _, .enum enters found⟩

theorem resolveWithin_eq_iff :
    resolveWithin catalog (depth + 1) key resolver = (result, after) ↔
      Runs catalog depth key resolver result after := by
  constructor
  · intro run
    obtain ⟨other, later, runs⟩ := exists_runs catalog depth key resolver
    cases run.symm.trans runs.eq
    exact runs
  · exact Runs.eq

theorem run_eq {α : Type} {body : Resolving α} {result : Except ResolveError α}
    (ended : (body resolver).1 = result) :
    body resolver = (result, (body resolver).2) :=
  Prod.ext ended rfl

theorem endsIn_of_runs {done : Resolution → Resolver → Prop}
    {failed : ResolveError → Resolver → Prop}
    (well : ∀ resolution after,
      Runs catalog depth key resolver (.ok resolution) after →
      done resolution after)
    (badly : ∀ error after,
      Runs catalog depth key resolver (.error error) after →
      failed error after) :
    EndsIn (resolveWithin catalog (depth + 1) key) resolver done failed where
  value value result := well value _ (resolveWithin_eq_iff.mp (run_eq result))
  error error result := badly error _ (resolveWithin_eq_iff.mp (run_eq result))

/-- The level is the same wherever the key is found alike and the members of its
struct, as which the level fails, come to the same. -/
theorem Runs.elsewhere {other : Catalog} {more : Nat}
    (runs : Runs catalog depth key resolver result after)
    (alike : Scalar.ofName? key = none → other.find? key = catalog.find? key)
    (same : ∀ name decl, Scalar.ofName? key = none →
      catalog.find? key = some ⟨name, .struct decl⟩ →
      (∀ error, (membersWithin catalog depth name decl resolver).1 =
        .error error →
        result = .error error) →
      membersWithin other more name decl resolver =
        membersWithin catalog depth name decl resolver) :
    Runs other more key resolver result after := by
  cases runs with
  | scalar named => exact .scalar named
  | known unnamed found => exact .known unnamed found
  | circular unnamed unknown again => exact .circular unnamed unknown again
  | missing enters absent =>
      exact .missing enters ((alike enters.unnamed).trans absent)
  | enum enters found => exact .enum enters ((alike enters.unnamed).trans found)
  | failed enters found members =>
      refine .failed enters ((alike enters.unnamed).trans found) ?_
      rw [← members]
      apply same _ _ enters.unnamed found
      rintro other failed
      rw [members] at failed
      cases failed
      rfl
  | struct enters found members =>
      refine .struct enters ((alike enters.unnamed).trans found) ?_
      rw [← members]
      apply same _ _ enters.unnamed found
      rintro other failed
      rw [members] at failed
      cases failed

end Resolver

end DataBridge
