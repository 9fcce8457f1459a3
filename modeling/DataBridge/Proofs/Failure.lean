import Mathlib.Control.Monad.Basic

/-!
# Computations that can fail

A computation with a state keeps the state that it has reached when it fails.
-/

namespace DataBridge

/-- A sequence stops at its first failure, in the state reached so far. -/
theorem stateful_bind {ε σ α β : Type} (body : ExceptT ε (StateM σ) α)
    (next : α → ExceptT ε (StateM σ) β) (state : σ) :
    (body >>= next) state =
      match body state with
      | (.ok value, after) => next value after
      | (.error error, after) => (.error error, after) := by
  rw [show (body >>= next) state = ExceptT.bind body next state from rfl]
  simp only [ExceptT.bind, ExceptT.mk, ExceptT.bindCont, bind, StateT.bind]
  rcases body state with ⟨_ | _, after⟩ <;> rfl

theorem stateful_bind_error {ε σ α β : Type} {body : ExceptT ε (StateM σ) α}
    {next : α → ExceptT ε (StateM σ) β} {state : σ} {error : ε}
    (failed : (body state).1 = .error error) :
    ((body >>= next) state).1 = .error error := by
  rw [stateful_bind]
  rcases run : body state with ⟨failure | value, after⟩
  all_goals
    rw [run] at failed
    cases failed
  rfl

@[simp] theorem ok_bind {ε α β : Type} (value : α) (next : α → Except ε β) :
    (Except.ok value >>= next) = next value :=
  rfl

@[simp] theorem error_bind {ε α β : Type} (error : ε) (next : α → Except ε β) :
    (Except.error error >>= next) = .error error :=
  rfl

@[simp] theorem pure_eq_ok {ε α : Type} (value : α) :
    (pure value : Except ε α) = .ok value :=
  rfl

@[simp] theorem mapError_ok {ε δ α : Type} (kind : ε → δ) (value : α) :
    (Except.ok value : Except ε α).mapError kind = .ok value :=
  rfl

@[simp] theorem mapError_error {ε δ α : Type} (kind : ε → δ) (error : ε) :
    (Except.error error : Except ε α).mapError kind = .error (kind error) :=
  rfl

theorem mapError_eq_ok_iff {ε δ α : Type} {result : Except ε α} {kind : ε → δ}
    {value : α} : result.mapError kind = .ok value ↔ result = .ok value := by
  cases result <;> simp

theorem toOption_eq_some_iff {ε α : Type} {result : Except ε α} {value : α} :
    result.toOption = some value ↔ result = .ok value := by
  cases result <;> simp [Except.toOption]

theorem bind_eq_ok_iff {ε α β : Type} {result : Except ε α}
    {next : α → Except ε β} {value : β} :
    (result >>= next) = .ok value ↔
      ∃ middle, result = .ok middle ∧ next middle = .ok value := by
  cases result <;> simp

/-- What is done to each result may be done to all of them at the end. -/
theorem mapM_change {ε α β γ : Type} {f : α → Except ε β} (change : β → γ)
    (xs : List α) :
    (xs.mapM fun x => do return change (← f x)) = do
      return (← xs.mapM f).map change := by
  induction xs with
  | nil => rfl
  | cons x xs induction =>
      rw [List.mapM_cons, List.mapM_cons, induction]
      cases f x with
      | error error => rfl
      | ok first => cases xs.mapM f <;> rfl

/-- A list goes through when each of its elements does. -/
theorem mapM_eq_ok_iff {ε α β : Type} [Inhabited β] {f : α → Except ε β}
    {xs : List α} {ys : List β} :
    xs.mapM f = .ok ys ↔
      ∃ g : α → β, (∀ x ∈ xs, f x = .ok (g x)) ∧ xs.map g = ys := by
  constructor
  · intro mapped
    refine ⟨fun x => (f x).toOption.getD default, ?_⟩
    induction xs generalizing ys with
    | nil =>
        cases mapped
        simp
    | cons x xs induction =>
        rw [List.mapM_cons] at mapped
        obtain ⟨y, first, rest⟩ := bind_eq_ok_iff.mp mapped
        obtain ⟨tail, later, done⟩ := bind_eq_ok_iff.mp rest
        cases done
        obtain ⟨each, equal⟩ := induction later
        refine ⟨?_, ?_⟩
        · intro other inside
          rcases List.mem_cons.mp inside with rfl | inside
          · simp [first, Except.toOption]
          · exact each other inside
        · rw [List.map_cons, equal, first]
          rfl
  · rintro ⟨g, each, rfl⟩
    induction xs with
    | nil => rfl
    | cons x xs induction =>
        have later := induction fun y inside =>
          each y (List.mem_cons_of_mem x inside)
        rw [List.mapM_cons, each x List.mem_cons_self, ok_bind, later]
        rfl

theorem exists_of_mem_mapM {ε α β : Type} {f : α → Except ε β} {xs : List α}
    {ys : List β} (mapped : xs.mapM f = .ok ys) {y : β} (known : y ∈ ys) :
    ∃ x ∈ xs, f x = .ok y := by
  have : Inhabited β := ⟨y⟩
  obtain ⟨g, each, rfl⟩ := mapM_eq_ok_iff.mp mapped
  obtain ⟨x, inside, rfl⟩ := List.mem_map.mp known
  exact ⟨x, inside, each x inside⟩

/-- What is written element by element is read element by element. -/
theorem mapM_map_eq_some {α β γ : Type} {read : β → Option γ} {write : α → β}
    {content : α → γ} {xs : List α}
    (reads : ∀ x ∈ xs, read (write x) = some (content x)) :
    (xs.map write).mapM read = some (xs.map content) := by
  induction xs with
  | nil => rfl
  | cons x rest induction =>
      obtain ⟨first, later⟩ := List.forall_mem_cons.mp reads
      rw [List.map_cons, List.mapM_cons, first, induction later]
      rfl

theorem mapM_map_inverse {α β : Type} {read : β → Option α} {write : α → β}
    {xs : List α} (reads : ∀ x ∈ xs, read (write x) = some x) :
    (xs.map write).mapM read = some xs := by
  have each := mapM_map_eq_some reads
  rwa [List.map_id'] at each

end DataBridge
