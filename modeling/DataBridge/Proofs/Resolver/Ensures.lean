import DataBridge.Proofs.Resolver.Level
import Mathlib.Data.List.Forall2

/-!
# Contracts of resolving computations

A contract has an invariant of the memory, which holds also after a failure, and
says what the values and what the errors are like.  There is one rule for each
way to build a computation, one for the members of a struct, and one for the
cases of a level.
-/

namespace DataBridge

/-- From a memory with the invariant a computation goes to a memory with it.
A value that it gives is good, and an error that it gives is sound. -/
structure Resolving.Ensures {α : Type} (invariant : Resolver → Prop)
    (good : α → Prop) (sound : ResolveError → Prop) (body : Resolving α) :
    Prop where
  keeps : ∀ resolver, invariant resolver → invariant (body resolver).2
  value : ∀ resolver, invariant resolver →
    ∀ value, (body resolver).1 = .ok value → good value
  error : ∀ resolver, invariant resolver →
    ∀ error, (body resolver).1 = .error error →
    sound error

namespace Resolving.Ensures

variable {α β : Type} {invariant inner : Resolver → Prop} {good : α → Prop}
  {better : β → Prop} {sound : ResolveError → Prop} {resolver : Resolver}

theorem mono {body : Resolving α} (ensures : Ensures invariant good sound body)
    {worse : ResolveError → Prop} (badly : ∀ error, sound error → worse error) :
    Ensures invariant good worse body where
  keeps := ensures.keeps
  value := ensures.value
  error resolver holds error failed :=
    badly error (ensures.error resolver holds error failed)

theorem endsIn {body : Resolving α}
    (ensures : Ensures invariant good sound body) (holds : invariant resolver) :
    EndsIn body resolver (fun value after => invariant after ∧ good value)
      fun error after => invariant after ∧ sound error where
  value value result :=
    ⟨ensures.keeps resolver holds, ensures.value resolver holds value result⟩
  error error result :=
    ⟨ensures.keeps resolver holds, ensures.error resolver holds error result⟩

theorem of_endsIn {body : Resolving α}
    (ends : ∀ resolver, invariant resolver →
      EndsIn body resolver (fun value after => invariant after ∧ good value)
        fun error after => invariant after ∧ sound error) :
    Ensures invariant good sound body where
  keeps resolver holds :=
    ((ends resolver holds).mono (fun _ _ => And.left) fun _ _ => And.left).after
  value resolver holds value result :=
    ((ends resolver holds).value value result).2
  error resolver holds error result :=
    ((ends resolver holds).error error result).2

theorem pure {value : α} (isGood : good value) :
    Ensures invariant good sound (Pure.pure value) :=
  of_endsIn fun _ holds => .pure ⟨holds, isGood⟩

theorem throw {error : ResolveError} (isSound : sound error) :
    Ensures invariant good sound (throw error : Resolving α) :=
  of_endsIn fun _ holds => .throw ⟨holds, isSound⟩

theorem throw_bind {error : ResolveError} (isSound : sound error)
    (next : α → Resolving β) :
    Ensures invariant better sound (MonadExcept.throw error >>= next) :=
  of_endsIn fun _ holds => .throw_bind ⟨holds, isSound⟩

theorem lift {result : Except ResolveError α}
    (isGood : ∀ value, result = .ok value → good value)
    (isSound : ∀ error, result = .error error → sound error) :
    Ensures invariant good sound (liftM result : Resolving α) :=
  of_endsIn fun _ holds =>
    .lift (fun value equal => ⟨holds, isGood value equal⟩)
    fun error equal => ⟨holds, isSound error equal⟩

theorem bind {body : Resolving α} {next : α → Resolving β}
    (first : Ensures invariant good sound body)
    (second : ∀ value,
      good value → Ensures invariant better sound (next value)) :
    Ensures invariant better sound (body >>= next) := by
  apply of_endsIn
  intro resolver holds
  apply EndsIn.bind
  apply (first.endsIn holds).mono
  · intro value after ⟨kept, isGood⟩
    exact (second value isGood).endsIn kept
  · exact fun _ _ failed => failed

theorem inside {body : Resolving α} {name : String}
    (entered : ∀ resolver, invariant resolver →
      inner { resolver with visiting := resolver.visiting ++ [name] })
    (left : ∀ resolver, inner resolver →
      invariant { resolver with visiting := resolver.visiting.dropLast })
    (ensures : Ensures inner good sound body) :
    Ensures invariant good sound (Resolver.inside name body) where
  keeps resolver holds := left _ (ensures.keeps _ (entered resolver holds))
  value resolver holds := ensures.value _ (entered resolver holds)
  error resolver holds := ensures.error _ (entered resolver holds)

end Resolving.Ensures

namespace Resolver

open Resolving (Ensures)

variable {resolve : String → Resolving Resolution} {owner : String}
  {invariant : Resolver → Prop} {good : String → Resolution → Prop}
  {fits : FieldDecl → Field → Prop} {sound : ResolveError → Prop}

/-- A field with a new name in front of others. -/
theorem distinct_cons {decl : FieldDecl} {rest : List FieldDecl}
    {seen : List String} (new : decl.name ∉ seen)
    (distinct : (rest.map FieldDecl.name).Nodup)
    (unseen : ∀ other ∈ rest, other.name ∉ decl.name :: seen) :
    ((decl :: rest).map FieldDecl.name).Nodup ∧ ∀ other ∈ decl :: rest,
      other.name ∉ seen := by
  constructor
  · refine List.nodup_cons.mpr ⟨?_, distinct⟩
    intro again
    obtain ⟨other, inside, same⟩ := List.mem_map.mp again
    exact unseen other inside (same ▸ List.mem_cons_self)
  · refine List.forall_mem_cons.mpr ⟨new, ?_⟩
    exact fun other inside before =>
      unseen other inside (List.mem_cons_of_mem _ before)

/-- The members of a struct: their types are resolved one by one, and no name
comes twice. -/
theorem fieldsWith_ensures (decls : List FieldDecl) (seen : List String)
    (resolves : ∀ decl ∈ decls,
      (resolve decl.typeName).Ensures invariant (good decl.typeName) sound)
    (typed : ∀ decl ∈ decls, ∀ resolution, good decl.typeName resolution →
      ∀ member, field owner decl resolution = .ok member → fits decl member)
    (mistyped : ∀ decl ∈ decls, ∀ resolution, good decl.typeName resolution →
      ∀ error, field owner decl resolution = .error error → sound error)
    (repeated : ∀ before decl after, decls = before ++ decl :: after →
      decl.name ∈ seen ∨ decl.name ∈ before.map FieldDecl.name →
        sound (.duplicateField owner decl.name)) :
    (fieldsWith resolve owner seen decls).Ensures invariant
      (fun members =>
        (decls.map FieldDecl.name).Nodup ∧ (∀ decl ∈ decls, decl.name ∉ seen) ∧
        List.Forall₂ fits decls members) sound := by
  induction decls generalizing seen with
  | nil => exact .pure ⟨List.nodup_nil, nofun, .nil⟩
  | cons decl rest induction =>
      rw [fieldsWith]
      by_cases known : seen.contains decl.name = true
      · rw [if_pos known]
        exact .throw_bind
          (repeated [] decl rest rfl (.inl (by simpa using known))) _
      · rw [if_neg known]
        apply Ensures.bind (resolves decl List.mem_cons_self)
        intro resolution resolved
        apply Ensures.bind
        · exact .lift (typed decl List.mem_cons_self resolution resolved)
            (mistyped decl List.mem_cons_self resolution resolved)
        intro first fitting
        apply Ensures.bind
        · apply induction (decl.name :: seen)
          · exact fun later inside =>
              resolves later (List.mem_cons_of_mem _ inside)
          · exact fun later inside =>
              typed later (List.mem_cons_of_mem _ inside)
          · exact fun later inside =>
              mistyped later (List.mem_cons_of_mem _ inside)
          · rintro before later after rfl twice
            apply repeated (decl :: before) later after rfl
            rw [List.map_cons, List.mem_cons]
            rw [List.mem_cons] at twice
            tauto
        rintro others ⟨distinct, unseen, fitted⟩
        obtain ⟨distinct, unseen⟩ :=
          distinct_cons (by simpa using known) distinct unseen
        exact .pure ⟨distinct, unseen, .cons fitting fitted⟩

/-- A level ensures what each of its cases does. -/
theorem ensures_of_runs {catalog : Catalog} {depth : Nat} {key : String}
    {isGood : Resolution → Prop}
    (well : ∀ resolver resolution after, invariant resolver →
      Runs catalog depth key resolver (.ok resolution) after →
        invariant after ∧ isGood resolution)
    (badly : ∀ resolver error after, invariant resolver →
      Runs catalog depth key resolver (.error error) after →
        invariant after ∧ sound error) :
    (resolveWithin catalog (depth + 1) key).Ensures invariant isGood sound :=
  .of_endsIn fun resolver holds =>
    endsIn_of_runs (fun resolution after =>
      well resolver resolution after holds)
      fun error after => badly resolver error after holds

end Resolver

end DataBridge
