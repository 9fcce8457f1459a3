import DataBridge.Proofs.Failure

/-!
# How computations end

What a computation does from one state: it ends in a value and a state, or in an
error and the state that it has reached by then.  There is one rule for each way
to build a computation.
-/

namespace DataBridge

/-- From the state the computation ends well in what is `done`, or fails in what
has `failed`. -/
structure EndsIn {ε σ α : Type} (body : ExceptT ε (StateM σ) α) (state : σ)
    (done : α → σ → Prop) (failed : ε → σ → Prop) : Prop where
  value : ∀ value, (body state).1 = .ok value → done value (body state).2
  error : ∀ error, (body state).1 = .error error → failed error (body state).2

namespace EndsIn

variable {ε σ α β : Type} {body : ExceptT ε (StateM σ) α} {state : σ}
  {done : α → σ → Prop} {failed : ε → σ → Prop}

theorem mono (ends : EndsIn body state done failed) {more : α → σ → Prop}
    {worse : ε → σ → Prop}
    (well : ∀ value after, done value after → more value after)
    (badly : ∀ error after, failed error after → worse error after) :
    EndsIn body state more worse where
  value value result := well value _ (ends.value value result)
  error error result := badly error _ (ends.error error result)

theorem of_ok (ends : EndsIn body state done failed) {value : α} {last : σ}
    (run : body state = (.ok value, last)) : done value last := by
  have well := ends.value value (by rw [run])
  rwa [run] at well

theorem of_error (ends : EndsIn body state done failed) {error : ε} {last : σ}
    (run : body state = (.error error, last)) : failed error last := by
  have badly := ends.error error (by rw [run])
  rwa [run] at badly

/-- What holds in either case. -/
theorem after {holds : σ → Prop}
    (ends : EndsIn body state (fun _ => holds) fun _ => holds) :
    holds (body state).2 := by
  cases result : (body state).1 with
  | error error => exact ends.error error result
  | ok value => exact ends.value value result

theorem pure {value : α} (well : done value state) :
    EndsIn (Pure.pure value) state done failed where
  value _ result := by
    cases result
    exact well
  error _ result := by cases result

theorem throw {error : ε} (badly : failed error state) :
    EndsIn (throw error : ExceptT ε (StateM σ) α) state done failed where
  value _ result := by cases result
  error _ result := by
    cases result
    exact badly

theorem throw_bind {error : ε} {next : α → ExceptT ε (StateM σ) β}
    {more : β → σ → Prop} (badly : failed error state) :
    EndsIn (MonadExcept.throw error >>= next) state more failed where
  value _ result := by cases result
  error _ result := by
    cases result
    exact badly

theorem lift {result : Except ε α}
    (well : ∀ value, result = .ok value → done value state)
    (badly : ∀ error, result = .error error → failed error state) :
    EndsIn (liftM result) state done failed := by
  cases result with
  | error error => exact throw (badly error rfl)
  | ok value => exact pure (well value rfl)

theorem bind {next : α → ExceptT ε (StateM σ) β} {more : β → σ → Prop}
    (ends : EndsIn body state (fun value after =>
      EndsIn (next value) after more failed)
      failed) :
    EndsIn (body >>= next) state more failed := by
  have well := ends.value
  have badly := ends.error
  constructor
  all_goals
    rw [stateful_bind]
    rcases run : body state with ⟨failure | value, after⟩
    all_goals rw [run] at well badly
  · exact nofun
  · exact (well value rfl).value
  · rintro _ ⟨⟩
    exact badly failure rfl
  · exact (well value rfl).error

/-- A sequence goes on from where its first part has gone. -/
theorem seq {next : α → ExceptT ε (StateM σ) β} {related : σ → σ → Prop}
    {held : σ → α → Prop} {kept : σ → β → Prop}
    (trans : ∀ {first second third}, related first second →
      related second third →
      related first third)
    (first : EndsIn body state (fun value after =>
      related state after ∧ held after value)
      fun _ after => related state after)
    (second : ∀ value after, related state after → held after value →
      EndsIn (next value) after (fun value last =>
        related after last ∧ kept last value)
        fun _ last => related after last) :
    EndsIn (body >>= next) state
    (fun value last => related state last ∧ kept last value)
      fun _ last => related state last := by
  apply bind
  apply first.mono
  · intro value middle here
    obtain ⟨gone, isHeld⟩ := here
    apply (second value middle gone isHeld).mono
    · exact fun _ _ later => ⟨trans gone later.1, later.2⟩
    · exact fun _ _ later => trans gone later
  · exact fun _ _ gone => gone

theorem get_bind {next : σ → ExceptT ε (StateM σ) α}
    (ends : EndsIn (next state) state done failed) :
    EndsIn (get >>= next) state done failed :=
  ⟨ends.value, ends.error⟩

theorem modify {change : σ → σ} {done : PUnit → σ → Prop}
    (well : done ⟨⟩ (change state)) :
    EndsIn (modify change : ExceptT ε (StateM σ) PUnit) state done failed where
  value _ _ := well
  error _ result := by cases result

theorem set {next : σ} {done : PUnit → σ → Prop} (well : done ⟨⟩ next) :
    EndsIn (set next : ExceptT ε (StateM σ) PUnit) state done failed where
  value _ _ := well
  error _ result := by cases result

/-- A loop keeps what holds of the items that are done. -/
theorem forM {items : List α} {step : α → ExceptT ε (StateM σ) PUnit}
    (holds : List α → σ → Prop) (start : holds [] state)
    (each : ∀ first item rest state, items = first ++ item :: rest →
      holds first state →
      EndsIn (step item) state (fun _ => holds (first ++ [item])) failed) :
    EndsIn (items.forM step) state (fun _ => holds items) failed := by
  -- The induction is on the items that are left.
  suffices ∀ rest first state, items = first ++ rest → holds first state →
      EndsIn (rest.forM step) state (fun _ => holds items) failed from
    this items [] state rfl start
  intro rest
  induction rest with
  | nil =>
      rintro first state rfl start
      rw [List.append_nil]
      exact pure start
  | cons item rest induction =>
      intro first state split start
      change EndsIn (step item >>= fun _ => rest.forM step) state _ _
      apply bind
      apply (each first item rest state split start).mono
      · intro _ after kept
        exact induction (first ++ [item]) after (by simpa using split) kept
      · intro error after failure
        exact failure

end EndsIn

end DataBridge
