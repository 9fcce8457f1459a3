import DataBridge.Marshal.Machine
import DataBridge.Proofs.Failure

/-!
# What a run leaves alone

Lemmas on the state of a machine: handles and iterators that a binding does not
concern keep their values, and a run that keeps a set of handles and iterators
is a `Frame`.  `Native.Around` describes a native value by the part at a path
and what stands around it, so that a store is a change of the part.
-/

namespace DataBridge

theorem lookup_filter_ne {α β : Type} [BEq α] [LawfulBEq α] {key other : α}
    (different : other ≠ key) (entries : List (α × β)) :
    (entries.filter fun entry => entry.1 != key).lookup other =
      entries.lookup other := by
  induction entries with
  | nil => rfl
  | cons entry rest induction =>
      obtain ⟨name, value⟩ := entry
      by_cases same : name = key
      · subst name
        have apart : (other == key) = false := beq_eq_false_iff_ne.mpr different
        simp [List.lookup_cons, apart, induction]
      · have kept : (name != key) = true := bne_iff_ne.mpr same
        simp [List.lookup_cons, kept, induction]

/-- No step of the place uses one of the iterators. -/
def Place.Avoids (letters : List Char) (place : Place) : Prop :=
  ∀ letter, .index letter ∈ place.segments → letter ∉ letters

theorem Place.Avoids.field {letters : List Char} {place : Place}
    (avoids : place.Avoids letters) (name : String) :
    (place.field name).Avoids letters := by
  intro letter inside
  have before : .index letter ∈ place.segments := by
    simpa [Place.field] using inside
  exact avoids letter before

theorem Place.Avoids.index {letter : Char} {letters : List Char} {place : Place}
    (avoids : place.Avoids (letter :: letters)) (fresh : letter ∉ letters) :
    (place.index letter).Avoids letters := by
  intro other inside
  have cases : .index other ∈ place.segments ∨ other = letter := by
    simpa [Place.index] using inside
  rcases cases with before | equal
  · exact fun own => avoids other before (List.mem_cons_of_mem _ own)
  · exact equal ▸ fresh

namespace Machine

variable {machine : Machine} {handle other : Handle} {value : Wire}
  {letter another : Char} {position : Nat}

@[simp] theorem read_bind_self :
    (machine.bind handle value).read handle = .ok value := by
  simp [read, bind]

theorem read_bind_of_ne (different : other ≠ handle) :
    (machine.bind handle value).read other = machine.read other := by
  have apart : (other == handle) = false := beq_eq_false_iff_ne.mpr different
  simp [read, bind, List.lookup_cons, apart, lookup_filter_ne different]

/-- A handle of a machine with one handle bound holds the bound value or what
it held before. -/
theorem read_bind_cases {found : Except Fault Wire}
    (read : (machine.bind handle value).read other = found) :
    (other = handle ∧ found = .ok value) ∨
      (other ≠ handle ∧ machine.read other = found) := by
  by_cases same : other = handle
  · subst same
    exact .inl ⟨rfl, read.symm.trans read_bind_self⟩
  · exact .inr ⟨same, (read_bind_of_ne same).symm.trans read⟩

@[simp] theorem index_enter_self :
    (machine.enter letter position).index letter = .ok position := by
  simp [index, enter]

theorem index_enter_of_ne (different : another ≠ letter) :
    (machine.enter letter position).index another = machine.index another := by
  have apart : (another == letter) = false := beq_eq_false_iff_ne.mpr different
  simp [index, enter, List.lookup_cons, apart, lookup_filter_ne different]

private theorem index_leave_of_ne (different : another ≠ letter) :
    (machine.leave letter).index another = machine.index another := by
  simp [index, leave, lookup_filter_ne different]

theorem array_eq_ok_iff {items : List Wire} :
    machine.array handle = .ok items ↔
      machine.read handle = .ok (.array items) := by
  constructor
  · intro found
    obtain ⟨wire, read, done⟩ := bind_eq_ok_iff.mp found
    cases wire <;> cases done
    exact read
  · intro bound
    rw [Machine.array, bound]
    rfl

theorem object_eq_ok_iff {members : List (String × Wire)} :
    machine.object handle = .ok members ↔
      machine.read handle = .ok (.object members) := by
  constructor
  · intro found
    obtain ⟨wire, read, done⟩ := bind_eq_ok_iff.mp found
    cases wire <;> cases done
    exact read
  · intro bound
    rw [Machine.object, bound]
    rfl

/-- A run that keeps the values of some handles, and the indices of all
iterators that are not its own. -/
structure Frame (kept : Handle → Prop) (letters : List Char)
    (before after : Machine) : Prop where
  read : ∀ handle, kept handle → after.read handle = before.read handle
  index : ∀ letter, letter ∉ letters → after.index letter = before.index letter

namespace Frame

variable {kept fewer : Handle → Prop} {letters more : List Char}
  {before middle after : Machine}

theorem refl (kept : Handle → Prop) (letters : List Char) (machine : Machine) :
    Frame kept letters machine machine :=
  ⟨fun _ _ => rfl, fun _ _ => rfl⟩

theorem trans (first : Frame kept letters before middle)
    (second : Frame kept letters middle after) :
    Frame kept letters before after :=
  ⟨fun handle inside =>
    (second.read handle inside).trans (first.read handle inside),
    fun letter outside =>
      (second.index letter outside).trans (first.index letter outside)⟩

/-- A frame for more handles and fewer iterators serves as well. -/
theorem mono (frame : Frame kept letters before after)
    (handles : ∀ handle, fewer handle → kept handle)
    (iterators : letters ⊆ more) : Frame fewer more before after :=
  ⟨fun handle inside => frame.read handle (handles handle inside),
    fun letter outside => frame.index letter fun own => outside (iterators own)⟩

theorem bind (free : ¬ kept handle) (value : Wire) :
    Frame kept letters machine (machine.bind handle value) := by
  refine ⟨?_, fun _ _ => rfl⟩
  intro other inside
  exact read_bind_of_ne fun same => free (same ▸ inside)

theorem enter (own : letter ∈ letters) (position : Nat) :
    Frame kept letters machine (machine.enter letter position) := by
  refine ⟨fun _ _ => rfl, ?_⟩
  intro another outside
  exact index_enter_of_ne fun same => outside (same ▸ own)

theorem leave (own : letter ∈ letters) :
    Frame kept letters machine (machine.leave letter) := by
  refine ⟨fun _ _ => rfl, ?_⟩
  intro another outside
  exact index_leave_of_ne fun same => outside (same ▸ own)

end Frame

theorem steps_append (first second : List Segment) :
    machine.steps (first ++ second) =
      do return (← machine.steps first) ++ (← machine.steps second) := by
  induction first with
  | nil => cases located : machine.steps second <;> simp [steps, located]
  | cons segment rest induction =>
      cases segment with
      | field name =>
          simp only [List.cons_append, steps, induction]
          cases machine.steps rest <;> cases machine.steps second <;> rfl
      | index letter =>
          simp only [List.cons_append, steps, induction]
          cases machine.index letter <;> cases machine.steps rest <;>
            cases machine.steps second <;> rfl

theorem steps_field {place : Place} {steps : List Step} {name : String}
    (located : machine.steps place.segments = .ok steps) :
    machine.steps (place.field name).segments =
      .ok (steps ++ [.member name]) := by
  simp [Place.field, steps_append, located, Machine.steps]

theorem steps_index {place : Place} {steps : List Step}
    (located : machine.steps place.segments = .ok steps)
    (found : machine.index letter = .ok position) :
    machine.steps (place.index letter).segments =
      .ok (steps ++ [.element position]) := by
  simp [Place.index, steps_append, located, found, Machine.steps]

/-- A path without the iterators of a run leads to the same part after it. -/
theorem Frame.steps {kept : Handle → Prop} {letters : List Char}
    {before after : Machine} (frame : Frame kept letters before after)
    {place : Place} (avoids : place.Avoids letters) :
    after.steps place.segments = before.steps place.segments := by
  obtain ⟨root, segments⟩ := place
  unfold Place.Avoids at avoids
  induction segments with
  | nil => rfl
  | cons segment rest induction =>
      have later := induction fun letter inside =>
        avoids letter (List.mem_cons_of_mem _ inside)
      cases segment with
      | field name => simp only [Machine.steps, later]
      | index letter =>
          have found := frame.index letter (avoids letter List.mem_cons_self)
          simp only [Machine.steps, found, later]

section Run

variable {statement : Stmt} {first second : List Stmt} {middle : Machine}
  {fault : Fault}

theorem run_cons (statement : Stmt) (rest : List Stmt) (machine : Machine) :
    run (statement :: rest) machine = step statement machine >>= run rest := rfl

theorem run_cons_ok (done : step statement machine = .ok middle) :
    run (statement :: second) machine = run second middle := by
  rw [run_cons, done]
  rfl

theorem run_cons_error (failed : step statement machine = .error fault) :
    run (statement :: second) machine = .error fault := by
  rw [run_cons, failed]
  rfl

theorem run_single : run [statement] machine = step statement machine := by
  rw [run_cons]
  cases step statement machine <;> rfl

theorem run_append (first second : List Stmt) (machine : Machine) :
    run (first ++ second) machine = run first machine >>= run second := by
  induction first generalizing machine with
  | nil => rfl
  | cons statement rest induction =>
      rw [List.cons_append, run_cons, run_cons]
      cases step statement machine with
      | error fault => rfl
      | ok middle => exact induction middle

end Run

end Machine

namespace Native

/-- `plug` rebuilds a native value from its part below a path: reading the path
gives the part, and a store there changes nothing else. -/
structure Around (steps : List Step) (plug : Native → Native) : Prop where
  reads : ∀ part path, get path steps (plug part) = .ok part
  writes : ∀ part path new, set path new steps (plug part) = .ok (plug new)

theorem get_append {path : String} {steps : List Step} {whole inner : Native}
    (reached : get path steps whole = .ok inner) (more : List Step) :
    get path (steps ++ more) whole = get path more inner := by
  induction steps generalizing whole with
  | nil =>
      cases reached
      rfl
  | cons step rest induction =>
      rw [get] at reached
      rw [List.cons_append, get]
      cases found : part path step whole with
      | error fault => simp [found] at reached
      | ok next =>
          rw [found] at reached
          exact induction reached

private theorem set_append {path : String} {steps more : List Step}
    {whole inner new updated : Native}
    (reached : get path steps whole = .ok inner)
    (changed : set path new more inner = .ok updated) :
    set path new (steps ++ more) whole = set path updated steps whole := by
  induction steps generalizing whole with
  | nil =>
      cases reached
      exact changed
  | cons step rest induction =>
      rw [get] at reached
      rw [List.cons_append, set, set]
      cases found : part path step whole with
      | error fault => rfl
      | ok next =>
          rw [found] at reached
          rw [ok_bind, ok_bind, induction reached]

theorem Around.here : Around [] id :=
  ⟨fun _ _ => rfl, fun _ _ _ => rfl⟩

/-- A step that reads a part and stores to it leads one level further in. -/
theorem Around.enter {steps : List Step} {plug : Native → Native} {step : Step}
    (around : Around steps plug) (inner : Native → Native)
    (readable : ∀ value path, part path step (inner value) = .ok value)
    (writable : ∀ value new, setPart new step (inner value) = inner new) :
    Around (steps ++ [step]) fun value => plug (inner value) := by
  constructor
  · intro value path
    rw [get_append (around.reads _ path), get, readable value path]
    rfl
  · intro value path new
    have changed : set path new [step] (inner value) = .ok (inner new) := by
      rw [set, readable value path]
      simp [set, writable]
    rw [set_append (around.reads _ path) changed]
    exact around.writes _ path _

private theorem lookup_append_cons {name : String} {value : Native}
    {before after : List (String × Native)}
    (fresh : name ∉ before.map Prod.fst) :
    (before ++ (name, value) :: after).lookup name = some value := by
  rw [List.lookup_eq_some_iff]
  refine ⟨before, after, rfl, ?_⟩
  intro entry inside
  have different : name ≠ entry.1 := fun same =>
    fresh (same ▸ List.mem_map_of_mem inside)
  exact bne_iff_ne.mpr different

theorem setMember_append_cons {name : String} {value new : Native}
    {before after : List (String × Native)}
    (fresh : name ∉ before.map Prod.fst) :
    setMember name new (before ++ (name, value) :: after) =
      before ++ (name, new) :: after := by
  induction before with
  | nil => simp [setMember]
  | cons entry rest induction =>
      obtain ⟨first, old⟩ := entry
      simp only [List.map_cons, List.mem_cons, not_or] at fresh
      have different : first ≠ name := fun same => fresh.1 same.symm
      simp [setMember, different, induction fresh.2]

theorem Around.member {steps : List Step} {plug : Native → Native}
    {name : String} (around : Around steps plug)
    (before after : List (String × Native))
    (fresh : name ∉ before.map Prod.fst) : Around (steps ++ [.member name])
      fun value => plug (.record (before ++ (name, value) :: after)) := by
  refine around.enter (fun value => .record (before ++ (name, value) :: after))
    ?_ ?_
  · intro value path
    simp [part, lookup_append_cons fresh]
  · intro value new
    simp [setPart, setMember_append_cons fresh]

theorem Around.element {steps : List Step} {plug : Native → Native}
    {index : Nat} (around : Around steps plug) (before after : List Native)
    (position : before.length = index) : Around (steps ++ [.element index])
      fun value => plug (.array (before ++ value :: after)) := by
  subst position
  refine around.enter (fun value => .array (before ++ value :: after)) ?_ ?_
  · intro value path
    simp [part]
  · intro value new
    simp [setPart]

end Native

end DataBridge
