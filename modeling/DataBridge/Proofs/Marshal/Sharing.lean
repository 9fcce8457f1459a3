import DataBridge.Proofs.Marshal.Aliasing
import DataBridge.Proofs.Marshal.Outgoing
import DataBridge.Proofs.Naming.Script

/-!
# Outgoing programs change nothing late

An outgoing program stores a container when it is finished and begins a new one
for every element.  So a machine that holds references gives the same value as
one that copies, and it never changes a container that is stored.
-/

namespace DataBridge

namespace HeapMachine

theorem run_cons (statement : Stmt) (rest : List Stmt) (machine : HeapMachine) :
    run (statement :: rest) machine = step statement machine >>= run rest := rfl

theorem run_single (statement : Stmt) (machine : HeapMachine) :
    run [statement] machine = step statement machine := by
  rw [run_cons]
  cases step statement machine <;> rfl

theorem run_append (first second : List Stmt) (machine : HeapMachine) :
    run (first ++ second) machine = run first machine >>= run second := by
  induction first generalizing machine with
  | nil => rfl
  | cons statement rest induction =>
      rw [List.cons_append, run_cons, run_cons]
      cases step statement machine with
      | error fault => rfl
      | ok middle => exact induction middle

section Step

variable {machine : HeapMachine} {object array value target : Handle}
  {part : Reference} {address : Nat}

private theorem step_setNamed {name : String}
    {members : List (String × Reference)}
    (held : machine.read value = .ok part)
    (taken : machine.object object = .ok (address, members)) :
    step (.setNamed object name value) machine =
      .ok (machine.change address part
        (.object (Reference.insert name part members))) := by
  change (machine.read value >>= _) = _
  rw [held, ok_bind, taken]
  rfl

private theorem step_setElement {letter : Char} {position : Nat}
    {items : List Reference}
    (index : machine.places.index letter = .ok position)
    (held : machine.read value = .ok part)
    (taken : machine.array array = .ok (address, items)) :
    step (.setElement array letter value) machine =
      .ok (machine.change address part
        (.array (Reference.setElement part position items))) := by
  change (machine.places.index letter >>= _) = _
  rw [index, ok_bind, held, ok_bind, taken]
  rfl

private theorem step_assign (held : machine.read value = .ok part) :
    step (.assign target value) machine =
      .ok (HeapMachine.bind
        { machine with heap := machine.heap.markStored part } target part) := by
  change (machine.read value >>= _) = _
  rw [held]
  rfl

end Step

end HeapMachine

namespace Simulates

variable {opened : Handle → Prop} {copying after : Machine}
  {sharing : HeapMachine} {object array value : Handle}

theorem loops (simulates : Simulates opened copying sharing)
    (iterators : List (Char × Nat)) :
    Simulates opened { copying with iterators } { sharing with iterators } :=
  { simulates with iterators := rfl }

theorem enter (simulates : Simulates opened copying sharing) (letter : Char)
    (position : Nat) : Simulates opened (copying.enter letter position)
      { sharing with
        iterators := (sharing.places.enter letter position).iterators } := by
  simp only [Machine.enter, HeapMachine.places, simulates.iterators]
  exact simulates.loops _

theorem leave (simulates : Simulates opened copying sharing) (letter : Char) :
    Simulates opened (copying.leave letter)
      { sharing with
        iterators := (sharing.places.leave letter).iterators } := by
  simp only [Machine.leave, HeapMachine.places, simulates.iterators]
  exact simulates.loops _

theorem setNamed (simulates : Simulates opened copying sharing)
    (inside : opened object) (closed : ¬ opened value) {name : String}
    (ran : Machine.step (.setNamed object name value) copying = .ok after) :
    ∃ other, HeapMachine.step (.setNamed object name value) sharing =
      .ok other ∧
      Simulates opened after other := by
  rw [Machine.step] at ran
  obtain ⟨wire, read, continued⟩ := bind_eq_ok_iff.mp ran
  obtain ⟨shown, found, done⟩ := bind_eq_ok_iff.mp continued
  cases done
  obtain ⟨part, held, visible⟩ := simulates.shown value wire read
  obtain ⟨address, members, owns, taken, settled, below⟩ :=
    simulates.object inside found
  refine ⟨sharing.change address part (.object
    (Reference.insert name part members)), ?_, ?_⟩
  · exact HeapMachine.step_setNamed held taken
  · apply simulates.store inside closed owns held
    · intro inner among
      rcases Contents.mem_parts_insert among with rfl | old
      · exact Heap.settled_markStored visible
      · exact (settled inner old).markStored part
    · exact Contents.tree_insert (Heap.contents_markStored below part) name
        visible.stored

theorem setElement (simulates : Simulates opened copying sharing)
    (inside : opened array) (closed : ¬ opened value) {letter : Char}
    (ran : Machine.step (.setElement array letter value) copying = .ok after) :
    ∃ other, HeapMachine.step (.setElement array letter value) sharing =
      .ok other ∧
      Simulates opened after other := by
  rw [Machine.step] at ran
  obtain ⟨position, index, continued⟩ := bind_eq_ok_iff.mp ran
  obtain ⟨wire, read, continued⟩ := bind_eq_ok_iff.mp continued
  obtain ⟨shown, found, done⟩ := bind_eq_ok_iff.mp continued
  cases done
  obtain ⟨part, held, visible⟩ := simulates.shown value wire read
  obtain ⟨address, items, owns, taken, settled, below⟩ :=
    simulates.array inside found
  refine ⟨sharing.change address part
    (.array (Reference.setElement part position items)),
    ?_, ?_⟩
  · apply HeapMachine.step_setElement _ held taken
    rw [simulates.index, index]
  · apply simulates.store inside closed owns held
    · intro inner among
      rcases Contents.mem_parts_setElement among with rfl | rfl | old
      · exact Heap.settled_markStored visible
      · exact Heap.settled_primitive _ _ _
      · exact (settled inner old).markStored part
    · apply Contents.tree_setElement (Heap.contents_markStored below part)
        position visible.stored
      exact Heap.tree_primitive _ _ _ _

theorem assign (simulates : Simulates opened copying sharing) {target : Handle}
    (unused : ¬ opened target) (closed : ¬ opened value)
    (ran : Machine.step (.assign target value) copying = .ok after) :
    ∃ other, HeapMachine.step (.assign target value) sharing = .ok other ∧
      Simulates opened after other := by
  rw [Machine.step] at ran
  obtain ⟨wire, read, done⟩ := bind_eq_ok_iff.mp ran
  cases done
  obtain ⟨reference, held, visible⟩ := simulates.shown value wire read
  exact ⟨_, HeapMachine.step_assign held,
    (simulates.markStored held closed).bind unused
    (Heap.settled_markStored visible) (visible.markStored reference)⟩

theorem leaf (simulates : Simulates opened copying sharing) (origin : Origin)
    (kind : Leaf) {target : Handle} (closed : ¬ opened target)
    (ran : Machine.step (origin.leaf kind target) copying = .ok after) :
    ∃ other, HeapMachine.step (origin.leaf kind target) sharing = .ok other ∧
      Simulates opened after other := by
  have bound : ∀ wire (plain : wire.isPrimitive = true), Simulates opened
      (copying.bind target wire)
          (sharing.bind target (.primitive wire plain)) := by
    intro wire plain
    exact simulates.bind closed (Heap.settled_primitive _ wire plain)
      (Heap.shows_primitive _ wire plain)
  cases origin with
  | defaults =>
      cases ran
      exact ⟨_, rfl, bound _ _⟩
  | native place =>
      rw [Origin.leaf, Machine.step] at ran
      obtain ⟨native, loaded, continued⟩ := bind_eq_ok_iff.mp ran
      obtain ⟨wire, converted, done⟩ := bind_eq_ok_iff.mp continued
      cases done
      refine ⟨_, ?_, bound wire (Leaf.toWire_isPrimitive converted)⟩
      rw [Origin.leaf, HeapMachine.step, simulates.load, loaded, ok_bind]
      split
      · rename_i other same
        cases same.symm.trans converted
        rfl
      · rename_i fault same
        cases same.symm.trans converted

/-- A loop keeps two machines together if its body does. -/
theorem repeated {body : List Stmt} {letter : Char}
    (keeps : ∀ (copying after : Machine) (sharing : HeapMachine),
      Simulates opened copying sharing → Machine.run body copying = .ok after →
        ∃ other, HeapMachine.run body sharing = .ok other ∧
          Simulates opened after other)
    {count start : Nat} (simulates : Simulates opened copying sharing)
    (ran : Machine.repeated letter (Machine.run body) count start copying =
      .ok after) :
    ∃ other,
      HeapMachine.repeated letter (HeapMachine.run body) count start sharing =
        .ok other ∧ Simulates opened after other := by
  induction count generalizing start copying sharing with
  | zero =>
      cases ran
      exact ⟨sharing, rfl, simulates⟩
  | succ count induction =>
      rw [Machine.repeated] at ran
      obtain ⟨middle, once, rest⟩ := bind_eq_ok_iff.mp ran
      obtain ⟨other, same, between⟩ :=
        keeps _ _ _ (simulates.enter letter start) once
      obtain ⟨final, looped, together⟩ := induction between rest
      refine ⟨final, ?_, together⟩
      rw [HeapMachine.repeated, same]
      exact looped

end Simulates

/-- Statements keep two machines together.  The handles that are `opened` before
them become those that are open `later`. -/
def Stmt.Tracks (opened later : Handle → Prop) (statements : List Stmt) :
    Prop :=
  ∀ (copying after : Machine) (sharing : HeapMachine),
    Simulates opened copying sharing →
    Machine.run statements copying = .ok after →
      ∃ other, HeapMachine.run statements sharing = .ok other ∧
        Simulates later after other

namespace Stmt.Tracks

variable {opened between later fewer : Handle → Prop}
  {first second body : List Stmt}

theorem nil : Tracks opened opened [] := by
  intro copying after sharing simulates ran
  cases ran
  exact ⟨sharing, rfl, simulates⟩

theorem single {statement : Stmt}
    (keeps : ∀ {copying after : Machine} {sharing : HeapMachine},
      Simulates opened copying sharing → Machine.step statement copying =
        .ok after →
        ∃ other, HeapMachine.step statement sharing = .ok other ∧
          Simulates later after other) :
    Tracks opened later [statement] := by
  intro copying after sharing simulates ran
  rw [Machine.run_single] at ran
  rw [HeapMachine.run_single]
  exact keeps simulates ran

theorem append (before : Tracks opened between first)
    (after : Tracks between later second) :
    Tracks opened later (first ++ second) := by
  intro copying done sharing simulates ran
  rw [Machine.run_append] at ran
  obtain ⟨middle, early, late⟩ := bind_eq_ok_iff.mp ran
  obtain ⟨other, same, together⟩ := before _ _ _ simulates early
  obtain ⟨final, finished, still⟩ := after _ _ _ together late
  refine ⟨final, ?_, still⟩
  rw [HeapMachine.run_append, same]
  exact finished

theorem cons {statement : Stmt} (before : Tracks opened between [statement])
    (after : Tracks between later second) :
    Tracks opened later (statement :: second) :=
  append before after

theorem mono (tracks : Tracks opened later first)
    (less : ∀ handle, fewer handle → later handle) :
    Tracks opened fewer first := by
  intro copying after sharing simulates ran
  obtain ⟨other, same, together⟩ := tracks _ _ _ simulates ran
  exact ⟨other, same, together.mono less⟩

theorem createObject (target : Handle) :
    Tracks opened (fun handle => opened handle ∨ handle = target)
      [.createObject target] := by
  apply single
  intro copying after sharing simulates ran
  cases ran
  exact ⟨_, rfl, simulates.create target rfl rfl⟩

theorem createArray (target : Handle) :
    Tracks opened (fun handle => opened handle ∨ handle = target)
      [.createArray target] := by
  apply single
  intro copying after sharing simulates ran
  cases ran
  exact ⟨_, rfl, simulates.create target rfl rfl⟩

theorem setNamed {object value : Handle} (inside : opened object)
    (closed : ¬ opened value) (name : String) :
    Tracks opened opened [.setNamed object name value] :=
  single fun simulates ran => simulates.setNamed inside closed ran

theorem setElement {array value : Handle} (inside : opened array)
    (closed : ¬ opened value) (letter : Char) :
    Tracks opened opened [.setElement array letter value] :=
  single fun simulates ran => simulates.setElement inside closed ran

theorem assign {target value : Handle} (unused : ¬ opened target)
    (closed : ¬ opened value) : Tracks opened opened [.assign target value] :=
  single fun simulates ran => simulates.assign unused closed ran

theorem leaf {target : Handle} (closed : ¬ opened target) (origin : Origin)
    (kind : Leaf) : Tracks opened opened [origin.leaf kind target] :=
  single fun simulates ran => simulates.leaf origin kind closed ran

theorem forEach (tracks : Tracks opened opened body) (letter : Char)
    (rounds : Nat) : Tracks opened opened [.forEach letter rounds body] := by
  apply single
  intro copying after sharing simulates ran
  rw [Machine.step] at ran
  obtain ⟨middle, looped, done⟩ := bind_eq_ok_iff.mp ran
  cases done
  obtain ⟨other, same, together⟩ := simulates.repeated tracks looped
  refine ⟨_, ?_, together.leave letter⟩
  rw [HeapMachine.step, same]
  rfl

end Stmt.Tracks

namespace Layout

open Stmt (Tracks)

/-- The statements for a member keep the machines together while handles around
them are open. -/
def TracksField (field : Field) : Prop :=
  ∀ {opened : Handle → Prop} {next : Nat} {dest : Handle} (origin : Origin)
    (letters : List Char),
    (∀ handle, opened handle → handle.Outer next) → ¬ opened dest →
    (dest.Outer next ∨ field.holder next = .property) →
    Tracks opened opened (outField origin dest next letters field)

private theorem outMembers_tracks {fields : List Field}
    (members : ∀ member ∈ fields, TracksField member) {opened : Handle → Prop}
    {next : Nat} {parent : Handle} (origin : Origin) (letters : List Char)
    (outer : ∀ handle, opened handle → handle.Outer next)
    (inside : opened parent) :
    Tracks opened opened (outMembers origin parent next letters fields) := by
  induction fields with
  | nil => exact .nil
  | cons member rest induction =>
      have others := induction fun inner among =>
        members inner (List.mem_cons_of_mem _ among)
      by_cases hidden : member.isPrivate = true
      · rw [outMembers, if_pos hidden]
        exact others
      · have closed : ¬ opened (member.holder next) :=
          fun taken => member.holder_not_outer next (outer _ taken)
        rw [outMembers, if_neg hidden, List.append_cons]
        apply Tracks.append _ others
        apply Tracks.append
        · apply members member List.mem_cons_self _ _ _ closed
          · exact member.holder_outer_or_property next
          · exact fun handle taken =>
              (outer handle taken).mono (Nat.le_succ next)
        · exact .setNamed inside closed member.name

theorem outField_tracks (field : Field) : TracksField field := by
  induction field using Field.nested_induction with
  | step field induction =>
      have single : ∀ {opened : Handle → Prop} {next : Nat} {dest : Handle}
          (origin : Origin) (letters : List Char),
          (∀ handle, opened handle → handle.Outer next) → ¬ opened dest →
          (∀ record, field.type = .record record → dest.Outer next) →
          Tracks opened opened
            (outType origin dest next letters field.type) := by
        intro opened next dest origin letters outer closed enough
        cases type : field.type with
        | leaf kind => exact .leaf closed origin kind
        | record record =>
            rw [outType_record]
            apply Tracks.cons (.createObject dest)
            apply Tracks.mono
            · apply outMembers_tracks (induction record type) origin letters
              · rintro handle (known | rfl)
                · exact outer handle known
                · exact enough record type
              · exact .inr rfl
            · exact fun _ => .inl
      intro opened next dest origin letters outer closed enough
      rcases size : field.arraySize with _ | count
      · rw [outField_single size]
        apply single origin letters outer closed
        intro record type
        apply enough.resolve_right
        simp [Field.holder, type]
      · have outside : dest.Outer next := by
          apply enough.resolve_right
          cases type : field.type <;> simp [Field.holder, size, type]
        have wider : ∀ handle, opened handle ∨ handle = dest →
            handle.Outer next := by
          rintro handle (known | rfl)
          · exact outer handle known
          · exact outside
        have fresh : ¬ (opened (field.type.holder next) ∨
            field.type.holder next = dest) :=
          fun taken => field.type.holder_not_outer next (wider _ taken)
        rw [outField_array size]
        apply Tracks.cons (.createArray dest)
        apply Tracks.mono
        · apply Tracks.forEach
          apply Tracks.append
          · apply single _ _ _ fresh
            · intro record type
              rw [type]
              exact Handle.slot_outer next
            · exact fun handle taken =>
                (wider handle taken).mono (Nat.le_succ next)
          · exact .setElement (.inr rfl) fresh _
        · exact fun _ => .inl

private theorem outDataset_tracks (dataset : Field) (origin : Origin)
    (expression : String) (next : Nat) (letters : List Char) :
    Tracks (fun _ => False) (fun _ => False)
      (outDataset origin (.external expression) next letters dataset) := by
  obtain ⟨name, type, size, flags, comment, enumName⟩ := dataset
  cases type <;> cases size
  case record.zero record =>
    apply Tracks.append
    · apply outField_tracks ⟨name, .record record, 0, flags, comment, enumName⟩
        origin letters
      · exact fun _ => False.elim
      · exact id
      · exact .inl (Handle.slot_outer next)
    · exact .assign id id
  all_goals
    apply outField_tracks _ origin letters
    · exact fun _ => False.elim
    · exact id
    · exact .inl trivial

end Layout

theorem Flatten.direction_of_finish {body : Flattening (List Stmt)}
    {direction : Direction} {naming : Naming} {emission : Emission}
    (finished : ((body >>= Flatten.finish direction) naming).1 = .ok emission) :
    emission.direction = direction := by
  rw [stateful_bind] at finished
  split at finished <;> cases finished
  rfl

/-- The body of an outgoing program is the layout of a dataset. -/
theorem Naming.Call.outgoing_body {call : Naming.Call} {naming : Naming}
    {emission : Emission} (flattened : (call.run naming).1 = .ok emission)
    (outgoing : emission.direction = .outgoing) :
    ∃ origin dataset expression, emission.body =
      Layout.outDataset origin (.external expression) naming.nextSlot
        naming.free dataset := by
  have built : ∀ origin dataset expression,
      ((Flatten.outDataset origin (.external expression) dataset >>=
        Flatten.finish .outgoing) naming).1 = .ok emission →
      ∃ origin dataset expression, emission.body =
        Layout.outDataset origin (.external expression) naming.nextSlot
          naming.free
          dataset := by
    intro origin dataset expression finished
    refine ⟨origin, dataset, expression, ?_⟩
    obtain ⟨maxSlot, equal⟩ :=
      (Layout.outDataset_computes origin (.external expression) dataset).finish
        .outgoing naming
    rw [equal] at finished
    split at finished <;> cases finished
    rfl
  cases call with
  | record root place expression direction =>
      cases direction with
      | outgoing =>
          exact built (.native place) root.asField expression flattened
      | incoming =>
          cases outgoing.symm.trans (Flatten.direction_of_finish flattened)
  | dataset dataset place expression direction =>
      cases direction with
      | outgoing => exact built (.native place) dataset expression flattened
      | incoming =>
          cases outgoing.symm.trans (Flatten.direction_of_finish flattened)
  | defaults dataset expression =>
      exact built .defaults dataset expression flattened

/-- On every native value that an outgoing program marshals, the machine that
holds references gives the same value, and no container changes once it is
stored. -/
theorem marshalOutByReference_eq_marshalOut {call : Naming.Call}
    {naming : Naming} {emission : Emission}
    (flattened : (call.run naming).1 = .ok emission)
    (outgoing : emission.direction = .outgoing) {native : Native} {wire : Wire}
    (marshalled : emission.marshalOut native = .ok wire) :
    ∃ heap, emission.marshalOutByReference native = .ok (wire, heap) ∧
      ∀ cell ∈ heap, cell.changedLate = false := by
  obtain ⟨origin, dataset, expression, body⟩ :=
    Naming.Call.outgoing_body flattened outgoing
  rw [Emission.marshalOut] at marshalled
  rw [Emission.marshalOutByReference]
  cases found : emission.wireRoot? with
  | none =>
      rw [found] at marshalled
      cases marshalled
  | some root =>
      rw [found] at marshalled
      obtain ⟨after, ran, read⟩ := bind_eq_ok_iff.mp marshalled
      rw [body] at ran ⊢
      obtain ⟨other, same, together⟩ :=
        Layout.outDataset_tracks dataset origin expression
          _ _ _ _ _ (.start native) ran
      obtain ⟨reference, held, visible⟩ := together.shown root wire read
      refine ⟨other.heap, ?_, ?_⟩
      · simp only [same, ok_bind, HeapMachine.value, held, visible.tree_length]
        rfl
      · intro cell inside
        obtain ⟨address, found⟩ := List.getElem?_of_mem inside
        exact together.sound.punctual address cell found

theorem axis_sharesNothingLate :
    (∃ emission heap,
      (Naming.Call.run (.record Resolver.axis
        { root := "plc" } "message" .outgoing) {}).1 =
        .ok emission ∧
      emission.marshalOutByReference looseAxis =
        .ok (.object [("speed", .double ⟨⟨4607182418800017408⟩, by decide⟩),
          ("ticks", .array [.int ⟨1, by decide⟩,
            .int ⟨4000000000, by decide⟩])], heap) ∧
      ∀ cell ∈ heap, cell.changedLate = false) ∧
    ∃ emission heap,
      (Naming.Call.run (.defaults Resolver.axis.asField "message") {}).1 =
        .ok emission ∧
      emission.marshalOutByReference (.record []) =
        .ok (.object [("speed", .int ⟨0, by decide⟩),
          ("ticks", .array [.int ⟨0, by decide⟩, .int ⟨0, by decide⟩])], heap) ∧
      ∀ cell ∈ heap, cell.changedLate = false := by
  constructor
  · obtain ⟨emission, flattened⟩ : ∃ emission,
        (Resolver.axis.emission
          { root := "plc" } (.external "message") .outgoing {}).1 =
          .ok emission := ⟨_, rfl⟩
    have outgoing : emission.direction = .outgoing :=
      Flatten.direction_of_finish flattened
    have encodes :=
      (Outgoing.marshalOut_record Resolver.axis_produced.wellNamed flattened).2
      looseAxis looseAxis_fits
    obtain ⟨heap, shared⟩ := @marshalOutByReference_eq_marshalOut
      (.record Resolver.axis { root := "plc" } "message" .outgoing) {} emission
        flattened
      outgoing looseAxis _ encodes
    exact ⟨emission, heap, flattened, shared⟩
  · obtain ⟨heap, shared⟩ := @marshalOutByReference_eq_marshalOut
      (.defaults Resolver.axis.asField "message") {} _ rfl rfl
        (.record []) _ rfl
    exact ⟨_, heap, rfl, shared⟩

/-- A program that stores an object before it fills it gives different values on
the two machines. -/
example :
    let emission : Emission :=
      { direction := .outgoing, maxSlot := some 0,
        body := [.createObject (.external "message"), .createObject (.slot 0),
          .setNamed (.external "message") "axis" (.slot 0),
          .default .bool .property,
          .setNamed (.slot 0) "ready" .property] }
    emission.marshalOut (.record []) = .ok (.object [("axis", .object [])]) ∧
      (emission.marshalOutByReference (.record [])).map Prod.fst =
        .ok (.object [("axis", .object [("ready", .bool false)])]) :=
  ⟨rfl, rfl⟩

end DataBridge
