import DataBridge.Proofs.Naming.HighWater
import DataBridge.Proofs.Resolver.Reachable

/-!
# Naming discipline over scripts

A script opens scopes for slots and loops on one naming context and makes
flattening calls inside them, of which some fail.  At every call the context
comes back as it was but for a higher mark.  A program that a call gives names
one block of slots right after those of the scopes around it, and the
iterators of the loops around it stay out of its own loops.
-/

namespace DataBridge

namespace Naming

/-- A flattening call with an expression for its JavaScript value. -/
inductive Call where
  | record (root : Record) (place : Place) (expression : String)
      (direction : Direction)
  | dataset (field : Field) (place : Place) (expression : String)
      (direction : Direction)
  | defaults (field : Field) (expression : String)

def Call.run : Call → Flattening Emission
  | .record root place expression direction =>
      root.emission place (.external expression) direction
  | .dataset field place expression direction =>
      field.emission place (.external expression) direction
  | .defaults field expression => field.defaultsEmission (.external expression)

/-- Calls in a nest of scopes. -/
inductive Script where
  | stop
  | call (request : Call) (rest : Script)
  | slot (inside rest : Script)
  | loop (inside rest : Script)

/-- Runs a script.  It goes on after a call that fails, and passes over a loop
that cannot be opened. -/
def Script.run : Script → Flattening Unit
  | .stop => pure ()
  | .call request rest => fun naming => rest.run (request.run naming).2
  | .slot inside rest => fun naming =>
      rest.run (withSlot (fun _ => inside.run) naming).2
  | .loop inside rest => fun naming =>
      rest.run (withIterator (fun _ => inside.run) naming).2

/-- A point of a script: the naming context, and the slots and iterators of the
scopes around it, the innermost first. -/
structure Situation where
  naming : Naming := {}
  slots : List Nat := []
  iterators : List Char := []

/-- The calls of a script with the situations in which it comes to them. -/
def Script.visits : Script → Situation → List (Situation × Call)
  | .stop, _ => []
  | .call request rest, here =>
      (here, request) :: rest.visits
        { here with naming := (request.run here.naming).2 }
  | .slot inside rest, here =>
      inside.visits
          { here with
            naming := here.naming.enterSlot
            slots := here.naming.nextSlot :: here.slots } ++
        rest.visits
          { here with naming := (withSlot (fun _ => inside.run) here.naming).2 }
  | .loop inside rest, here =>
      (match alphabet[here.naming.openLoops]? with
        | none => []
        | some letter =>
            inside.visits
              { here with
                naming :=
                  { here.naming with openLoops := here.naming.openLoops + 1 }
                iterators := letter :: here.iterators }) ++
        rest.visits
          { here with
            naming := (withIterator (fun _ => inside.run) here.naming).2 }

/-- What a program of a call has to do with the names in use at the call. -/
structure Situation.Block (here : Situation) (after : Naming)
    (emission : Emission) (count : Nat) : Prop where
  slots : ∀ index, .slot index ∈ emission.temps ↔
    here.naming.nextSlot ≤ index ∧ index < here.naming.nextSlot + count
  mark : after.highWater =
    raise here.naming.highWater here.naming.nextSlot count
  maxSlot : emission.maxSlot = after.highWater
  outerSlots : ∀ slot ∈ here.slots, .slot slot ∉ emission.temps
  outerLoops : ∀ occurrence ∈ emission.occurrences, ∀ iterator rounds body,
    occurrence.statement = .forEach iterator rounds body →
      iterator ∉ here.iterators

/-- What a call does to the names in use, whether it fails or not. -/
structure Situation.Disciplined (here : Situation) (call : Call) : Prop where
  slot : (call.run here.naming).2.slot = here.naming.slot
  openLoops : (call.run here.naming).2.openLoops = here.naming.openLoops
  rises : AtMost here.naming.highWater (call.run here.naming).2.highWater
  block : ∀ emission, (call.run here.naming).1 = .ok emission →
    ∃ count, here.Block (call.run here.naming).2 emission count
  fresh : here.naming = {} → ∀ emission,
    (call.run here.naming).1 = .ok emission →
    (∀ index, .slot index ∈ emission.temps ↔
      ∃ last, emission.maxSlot = some last ∧ index ≤ last) ∧
    (emission.maxSlot = none ↔ ∀ temp ∈ emission.temps, temp.isSlot = false)

end Naming

theorem Temp.mem_insert_iff {temp other : Temp} {temps : List Temp} :
    temp ∈ Temp.insert other temps ↔ temp = other ∨ temp ∈ temps := by
  induction temps with
  | nil => simp [Temp.insert]
  | cons first rest induction =>
      rw [Temp.insert]
      split
      · rename_i same
        simp [same]
      · split
        · simp
        · simp only [List.mem_cons, induction]
          exact or_left_comm

theorem Temp.mem_ordered_iff {temp : Temp} {temps : List Temp} :
    temp ∈ Temp.ordered temps ↔ temp ∈ temps := by
  induction temps with
  | nil => simp [Temp.ordered]
  | cons first rest induction =>
      rw [Temp.ordered, List.foldr_cons, Temp.mem_insert_iff, List.mem_cons]
      exact or_congr_right induction

namespace Flattening

/-- Statements whose names follow from the first free slot and the free
iterators. -/
structure Named (body : Flattening (List Stmt)) (depth count : Nat)
    (value : Nat → List Char → List Stmt) : Prop where
  computes : body.Computes depth value
  allots : body.Allots count
  uses : ∀ next letters, depth ≤ letters.length →
    Stmt.Uses [] next count letters (value next letters)

variable {depth count : Nat} {value : Nat → List Char → List Stmt}
  {body : Flattening (List Stmt)}

theorem finish_allots (allots : body.Allots count) (direction : Direction) :
    Allots count (body >>= Flatten.finish direction) := by
  have finishes : ∀ statements,
      Allots 0 (Flatten.finish direction statements) := fun _ =>
    ⟨⟨fun _ => rfl, fun _ => rfl⟩, fun naming => .refl naming.highWater,
      fun _ _ _ => rfl⟩
  have both := allots.bind finishes
  rw [Nat.max_zero] at both
  exact both

/-- A finished program carries the statements and the mark. -/
theorem Named.finish (named : body.Named depth count value)
    {direction : Direction} {naming : Naming} {emission : Emission}
    (done : ((body >>= Flatten.finish direction) naming).1 = .ok emission) :
    Stmt.Uses [] naming.nextSlot count naming.free emission.body ∧
      emission.maxSlot =
        ((body >>= Flatten.finish direction) naming).2.highWater := by
  obtain ⟨mark, computed⟩ := named.computes naming
  rw [stateful_bind, computed] at done ⊢
  by_cases enough : depth ≤ naming.free.length
  · rw [if_pos enough] at done ⊢
    cases done
    exact ⟨named.uses _ _ enough, rfl⟩
  · rw [if_neg enough] at done
    cases done

end Flattening

namespace Naming

open Flattening (Allots Named)

theorem uses_external {statements : List Stmt} {next count : Nat}
    {letters : List Char} {expression : String}
    (uses : Stmt.Uses [.external expression] next count letters statements) :
    Stmt.Uses [] next count letters statements :=
  ⟨fun index _ => uses.slots index (by simp), uses.loops⟩

theorem dataset_named (dataset : Field) (origin : Origin)
    (expression : String) :
    Named (Flatten.outDataset origin (.external expression) dataset)
      dataset.depth
      (dataset.datasetSlots .outgoing)
      fun next letters =>
        Layout.outDataset origin (.external expression) next letters
          dataset where
  computes := Layout.outDataset_computes origin _ dataset
  allots := Flatten.outDataset_allots dataset origin _
  uses next _ enough :=
    uses_external (Layout.outDataset_uses dataset origin _ next enough)

private theorem inDataset_named (dataset : Field) (place : Place)
    (expression : String) :
    Named (Flatten.inDataset (.external expression) place dataset) dataset.depth
      (dataset.datasetSlots .incoming)
      fun next letters =>
        Layout.inDataset (.external expression) place next letters dataset where
  computes := Layout.inDataset_computes _ place dataset
  allots := Flatten.inDataset_allots dataset _ place
  uses next _ enough :=
    uses_external (Layout.inDataset_uses dataset _ place next enough)

/-- Every call finishes statements whose names follow from the context. -/
theorem Call.run_eq (call : Call) :
    ∃ body depth count value direction, Named body depth count value ∧
      call.run = body >>= Flatten.finish direction := by
  have ofDataset : ∀ (dataset : Field) (place : Place) (expression : String)
      (direction : Direction), ∃ body depth count value direction',
        Named body depth count value ∧
          dataset.emission place (.external expression) direction =
            body >>= Flatten.finish direction' := by
    intro dataset place expression direction
    cases direction with
    | outgoing =>
        exact ⟨_, _, _, _, .outgoing,
          dataset_named dataset (.native place) expression, rfl⟩
    | incoming => exact ⟨_, _, _, _, .incoming,
        inDataset_named dataset place expression, rfl⟩
  cases call with
  | record record place expression direction =>
      have asField := ofDataset record.asField place expression direction
      rw [← Record.emission_eq_asField] at asField
      exact asField
  | dataset dataset place expression direction =>
      exact ofDataset dataset place expression direction
  | defaults dataset expression =>
      exact ⟨_, _, _, _, .outgoing, dataset_named dataset .defaults expression,
        rfl⟩

/-- The names of the scopes around a situation are not handed out again. -/
structure Situation.Sound (here : Situation) : Prop where
  slots : ∀ slot ∈ here.slots, slot < here.naming.nextSlot
  iterators : ∀ iterator ∈ here.iterators, iterator ∉ here.naming.free

theorem Situation.Sound.resume {here : Situation} (sound : here.Sound)
    {α : Type} {body : Flattening α} (restores : body.Restores) :
    Situation.Sound { here with naming := (body here.naming).2 } := by
  constructor
  · intro index inside
    have below := sound.slots index inside
    simpa only [nextSlot, restores.slot] using below
  · intro iterator inside
    have outside := sound.iterators iterator inside
    simpa only [free, restores.openLoops] using outside

theorem Situation.Sound.enterSlot {here : Situation} (sound : here.Sound) :
    Situation.Sound
      { here with
        naming := here.naming.enterSlot
        slots := here.naming.nextSlot :: here.slots } := by
  constructor
  · intro index inside
    change index < here.naming.nextSlot + 1
    rcases List.mem_cons.mp inside with own | outer
    · omega
    · have below := sound.slots index outer
      omega
  · exact sound.iterators

theorem Situation.Sound.enterLoop {here : Situation} (sound : here.Sound)
    {letter : Char} (taken : alphabet[here.naming.openLoops]? = some letter) :
    Situation.Sound
      { here with
        naming := { here.naming with openLoops := here.naming.openLoops + 1 }
        iterators := letter :: here.iterators } := by
  obtain ⟨inside, equal⟩ := List.getElem?_eq_some_iff.mp taken
  have split : here.naming.free =
      letter :: alphabet.drop (here.naming.openLoops + 1) := by
    rw [free, List.drop_eq_getElem_cons inside, equal]
  have distinct := here.naming.free_nodup
  rw [split, List.nodup_cons] at distinct
  constructor
  · exact sound.slots
  · intro iterator known free
    rcases List.mem_cons.mp known with rfl | outer
    · exact distinct.1 free
    · apply sound.iterators iterator outer
      rw [split]
      exact List.mem_cons_of_mem _ free

theorem Call.allots (call : Call) : ∃ count, Allots count call.run := by
  obtain ⟨body, depth, count, value, direction, named, equal⟩ := call.run_eq
  rw [equal]
  exact ⟨count, Flattening.finish_allots named.allots direction⟩

theorem Call.restores (call : Call) : call.run.Restores := by
  obtain ⟨count, allots⟩ := call.allots
  exact allots.restores

theorem Script.run_restores (script : Script) : script.run.Restores := by
  induction script with
  | stop => exact .pure ()
  | call request rest induction =>
      constructor
      · exact fun naming =>
          (induction.slot _).trans (request.restores.slot naming)
      · exact fun naming =>
          (induction.openLoops _).trans (request.restores.openLoops naming)
  | slot inside rest inner induction =>
      have scope := Flattening.Restores.withSlot fun _ => inner
      constructor
      · exact fun naming => (induction.slot _).trans (scope.slot naming)
      · exact fun naming =>
          (induction.openLoops _).trans (scope.openLoops naming)
  | loop inside rest inner induction =>
      have scope := Flattening.Restores.withIterator fun _ => inner
      constructor
      · exact fun naming => (induction.slot _).trans (scope.slot naming)
      · exact fun naming =>
          (induction.openLoops _).trans (scope.openLoops naming)

/-- Every call of a script comes in a sound situation. -/
theorem Script.visits_sound (script : Script) {here : Situation}
    (sound : here.Sound) : ∀ visit ∈ script.visits here, visit.1.Sound := by
  induction script generalizing here with
  | stop =>
      intro visit inside
      cases inside
  | call request rest induction =>
      intro visit known
      rcases List.mem_cons.mp known with rfl | later
      · exact sound
      · exact induction (sound.resume request.restores) visit later
  | slot inside rest inner induction =>
      have scope := Flattening.Restores.withSlot fun _ => inside.run_restores
      intro visit known
      rcases List.mem_append.mp known with deeper | later
      · exact inner sound.enterSlot visit deeper
      · exact induction (sound.resume scope) visit later
  | loop inside rest inner induction =>
      have scope := Flattening.Restores.withIterator fun _ =>
        inside.run_restores
      intro visit known
      rcases List.mem_append.mp known with deeper | later
      · split at deeper
        · cases deeper
        · rename_i letter taken
          exact inner (sound.enterLoop taken) visit deeper
      · exact induction (sound.resume scope) visit later

/-- In a sound situation a program keeps to its own names. -/
theorem Situation.Sound.block {here : Situation} (sound : here.Sound)
    {after : Naming} {emission : Emission} {count : Nat}
    (uses : Stmt.Uses [] here.naming.nextSlot count here.naming.free
      emission.body)
    (mark : after.highWater =
      raise here.naming.highWater here.naming.nextSlot count)
    (maxSlot : emission.maxSlot = after.highWater) :
    here.Block after emission count := by
  have slots : ∀ index, .slot index ∈ emission.temps ↔
      here.naming.nextSlot ≤ index ∧ index < here.naming.nextSlot + count := by
    intro index
    rw [Emission.temps, Temp.mem_ordered_iff]
    exact uses.slots index List.not_mem_nil
  refine ⟨slots, mark, maxSlot, ?_, ?_⟩
  · intro slot outer named
    have below := sound.slots slot outer
    have within := (slots slot).mp named
    omega
  · intro occurrence inside iterator rounds body loop outer
    have free := uses.loops [] occurrence inside iterator rounds body loop
    exact sound.iterators iterator outer free

theorem Situation.Block.fresh {here : Situation} {after : Naming}
    {emission : Emission} {count : Nat}
    (block : here.Block after emission count) (unused : here.naming = {}) :
    (∀ index, .slot index ∈ emission.temps ↔
      ∃ last, emission.maxSlot = some last ∧ index ≤ last) ∧
    (emission.maxSlot = none ↔ ∀ temp ∈ emission.temps,
      temp.isSlot = false) := by
  have slots := block.slots
  have mark := block.maxSlot.trans block.mark
  rw [unused] at slots mark
  have named : ∀ index, .slot index ∈ emission.temps ↔
      ∃ last, emission.maxSlot = some last ∧ index ≤ last := by
    intro index
    rw [slots, mark]
    cases count with
    | zero => simp [raise]
    | succ count =>
        simp only [raise, nextSlot, Option.some.injEq, exists_eq_left']
        rw [Option.getD_none]
        omega
  refine ⟨named, ?_⟩
  constructor
  · intro none temp inside
    cases temp with
    | slot index =>
        obtain ⟨last, some, _⟩ := (named index).mp inside
        cases none.symm.trans some
    | _ => rfl
  · intro slotless
    cases last : emission.maxSlot with
    | none => rfl
    | some last' =>
        have first := (named 0).mpr ⟨last', last, Nat.zero_le _⟩
        cases slotless _ first

end Naming

open Naming (Script Situation)

/-- At every call of a script on a fresh context, the names in use come back
and only the mark rises.  A program that the call gives names the slots of one
block after those in use, and none of the names of the scopes around it. -/
theorem script_disciplined (script : Script) :
    ∀ visit ∈ script.visits {}, visit.1.Disciplined visit.2 := by
  intro visit inside
  have unused : Situation.Sound {} := ⟨by simp, by simp⟩
  have sound := script.visits_sound unused visit inside
  obtain ⟨here, call⟩ := visit
  obtain ⟨body, depth, count, value, direction, named, equal⟩ := call.run_eq
  have allots := Flattening.finish_allots named.allots direction
  rw [← equal] at allots
  have block : ∀ emission, (call.run here.naming).1 = .ok emission →
      here.Block (call.run here.naming).2 emission count := by
    intro emission done
    have mark := allots.mark here.naming emission done
    rw [equal] at done
    obtain ⟨uses, maxSlot⟩ := named.finish done
    rw [← equal] at maxSlot
    exact sound.block uses mark maxSlot
  constructor
  · exact allots.restores.slot here.naming
  · exact allots.restores.openLoops here.naming
  · exact allots.rises here.naming
  · exact fun emission done => ⟨count, block emission done⟩
  · exact fun unused emission done => (block emission done).fresh unused

/-- A call inside a loop inside a slot, and one that reads a member behind
both. -/
def nestedScript : Script :=
  .slot
    (.loop (.call (.record Resolver.plant { root := "plc" } "message" .outgoing)
      .stop) .stop)
    (.call (.dataset Resolver.plant.asField
      { root := "plc" } "message" .incoming) .stop)

theorem nestedScript_disciplined :
    ∃ inner last, nestedScript.visits {} = [inner, last] ∧
      inner.1.slots = [0] ∧ inner.1.iterators = ['i'] ∧
        inner.1.Disciplined inner.2 ∧
      (∃ emission, (inner.2.run inner.1.naming).1 = .ok emission ∧
        emission.temps = [.slot 1, .slot 2, .slot 3, .slot 4, .property,
          .arrayItem] ∧
        emission.maxSlot = some 4) ∧
      last.1.naming = { highWater := some 4 } ∧ last.1.Disciplined last.2 := by
  have disciplined := script_disciplined nestedScript
  refine ⟨_, _, rfl, rfl, rfl, disciplined _ ?_, ⟨_, rfl, rfl, rfl⟩, rfl,
    disciplined _ ?_⟩
  · exact List.mem_cons_self
  · exact List.mem_cons_of_mem _ List.mem_cons_self

end DataBridge
