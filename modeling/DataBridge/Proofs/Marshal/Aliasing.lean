import DataBridge.Proofs.Flatten.Layout
import DataBridge.Proofs.Marshal.Heap
import DataBridge.Proofs.Marshal.Machine

/-!
# Copies agree with references

A machine that copies and one that holds references run a program side by side.
They agree as long as a container is changed only while a single handle knows
it.  Such a handle is open; it stays open until its container is stored, and
after that the program may bind it anew but not change what it held.
-/

namespace DataBridge

namespace HeapMachine

variable {machine : HeapMachine} {handle other : Handle} {reference : Reference}

theorem read_bind_self :
    (machine.bind handle reference).read handle = .ok reference := by
  simp [read, bind]

theorem read_bind_of_ne (different : other ≠ handle) :
    (machine.bind handle reference).read other = machine.read other := by
  have apart : (other == handle) = false := beq_eq_false_iff_ne.mpr different
  simp [read, bind, List.lookup_cons, apart, lookup_filter_ne different]

/-- A handle of a machine with one handle bound holds the bound reference or
what it held before. -/
theorem read_bind_cases {found : Except Fault Reference}
    (read : (machine.bind handle reference).read other = found) :
    (other = handle ∧ found = .ok reference) ∨
      (other ≠ handle ∧ machine.read other = found) := by
  by_cases same : other = handle
  · subst same
    exact .inl ⟨rfl, read.symm.trans read_bind_self⟩
  · exact .inr ⟨same, (read_bind_of_ne same).symm.trans read⟩

/-- The handle holds a container that is not stored. -/
def Owns (machine : HeapMachine) (handle : Handle) (address : Nat) : Prop :=
  machine.read handle = .ok (.container address) ∧ machine.heap.Fresh address

end HeapMachine

/-- Two machines show the same values, and the `opened` handles each hold a
container of their own that is not stored yet. -/
structure Simulates (opened : Handle → Prop) (copying : Machine)
    (sharing : HeapMachine) : Prop where
  native : sharing.native = copying.native
  iterators : sharing.iterators = copying.iterators
  shown : ∀ handle wire, copying.read handle = .ok wire →
    ∃ reference,
      sharing.read handle = .ok reference ∧ sharing.heap.Shows reference wire
  known : ∀ handle address, sharing.read handle = .ok (.container address) →
    address < sharing.heap.length
  sound : sharing.heap.Sound
  alone : ∀ handle other address, sharing.Owns handle address →
    sharing.Owns other address →
    handle = other
  own : ∀ handle, opened handle → ∃ address, sharing.Owns handle address

namespace Simulates

variable {opened fewer : Handle → Prop} {copying : Machine}
  {sharing : HeapMachine} {handle value : Handle} {wire : Wire}
  {reference : Reference}

theorem mono (simulates : Simulates opened copying sharing)
    (less : ∀ handle, fewer handle → opened handle) :
    Simulates fewer copying sharing :=
  { simulates with
    own := fun handle inside => simulates.own handle (less handle inside) }

theorem start (native : Native) :
    Simulates (fun _ => False) { native } { native } where
  native := rfl
  iterators := rfl
  shown := nofun
  known := nofun
  sound := ⟨nofun, nofun⟩
  alone := fun _ _ _ owns => nomatch owns.1
  own := nofun

/-- The machines find the same native value at a place. -/
theorem load (simulates : Simulates opened copying sharing) (place : Place) :
    sharing.places.load place = copying.load place := by
  have frame : Machine.Frame (fun _ => False) [] copying sharing.places := by
    constructor
    · exact fun _ => False.elim
    · intro letter _
      simp only [Machine.index, HeapMachine.places, simulates.iterators]
  have avoids : place.Avoids [] := fun _ _ => List.not_mem_nil
  have steps := frame.steps avoids
  have native : sharing.places.native = copying.native := simulates.native
  rw [Machine.load, Machine.load, steps, native]

theorem index (simulates : Simulates opened copying sharing) (letter : Char) :
    sharing.places.index letter = copying.index letter := by
  simp only [Machine.index, HeapMachine.places, simulates.iterators]

/-- A handle that is not open can be bound to something stored. -/
theorem bind (simulates : Simulates opened copying sharing)
    (closed : ¬ opened handle) (settled : sharing.heap.Settled reference)
    (visible : sharing.heap.Shows reference wire) :
    Simulates opened (copying.bind handle wire)
      (sharing.bind handle reference) where
  native := simulates.native
  iterators := simulates.iterators
  shown := by
    intro other inner read
    rcases Machine.read_bind_cases read with ⟨rfl, found⟩ | ⟨same, before⟩
    · cases found
      exact ⟨reference, HeapMachine.read_bind_self, visible⟩
    · rw [HeapMachine.read_bind_of_ne same]
      exact simulates.shown other inner before
  known := by
    intro other address read
    rcases HeapMachine.read_bind_cases read with ⟨_, found⟩ | ⟨_, before⟩
    · cases found
      obtain ⟨cell, found, _⟩ := settled address rfl
      exact (List.getElem?_eq_some_iff.mp found).1
    · exact simulates.known other address before
  sound := simulates.sound
  alone := by
    have outside : ∀ {other address},
        (sharing.bind handle reference).Owns other address →
          sharing.Owns other address := by
      intro other address owns
      rcases HeapMachine.read_bind_cases owns.1 with ⟨_, found⟩ | ⟨_, before⟩
      · cases found
        exact (settled.ne_of_fresh owns.2 rfl).elim
      · exact ⟨before, owns.2⟩
    exact fun first second address one two =>
      simulates.alone first second address (outside one) (outside two)
  own := by
    intro other inside
    obtain ⟨address, read, fresh⟩ := simulates.own other inside
    have different : other ≠ handle := by
      rintro rfl
      exact closed inside
    exact ⟨address, (HeapMachine.read_bind_of_ne different).trans read, fresh⟩

/-- A handle that is bound to a new container is open. -/
theorem create (simulates : Simulates opened copying sharing) (handle : Handle)
    {contents : Contents} (empty : contents.parts = [])
    (shown : contents.tree (sharing.heap.tree sharing.heap.storedCount) =
      some wire) :
    Simulates (fun other => opened other ∨ other = handle)
      (copying.bind handle wire) (sharing.create handle contents) where
  native := simulates.native
  iterators := simulates.iterators
  shown := by
    intro other inner read
    rcases Machine.read_bind_cases read with ⟨rfl, found⟩ | ⟨same, before⟩
    · cases found
      exact ⟨_, HeapMachine.read_bind_self, Heap.shows_append rfl empty shown⟩
    · obtain ⟨reference, found, visible⟩ := simulates.shown other inner before
      exact ⟨reference, (HeapMachine.read_bind_of_ne same).trans found,
        visible.append rfl⟩
  known := by
    intro other address read
    change address < (sharing.heap ++ [_]).length
    rw [List.length_append, List.length_singleton]
    rcases HeapMachine.read_bind_cases read with ⟨_, found⟩ | ⟨_, before⟩
    · cases found
      exact Nat.lt_succ_self _
    · exact Nat.lt_succ_of_lt (simulates.known other address before)
  sound := simulates.sound.append empty rfl
  alone := by
    have either : ∀ {other address},
        (sharing.create handle contents).Owns other address →
        (other = handle ∧ address = sharing.heap.length) ∨
          (address < sharing.heap.length ∧ sharing.Owns other address) := by
      intro other address owns
      rcases HeapMachine.read_bind_cases owns.1 with ⟨same, found⟩ | ⟨_, before⟩
      · cases found
        exact .inl ⟨same, rfl⟩
      · have bound := simulates.known other address before
        exact .inr ⟨bound, before, (Heap.fresh_append_iff bound).mp owns.2⟩
    intro first second address one two
    rcases either one with ⟨rfl, rfl⟩ | ⟨bound, one⟩
    · rcases either two with ⟨rfl, _⟩ | ⟨bound, _⟩
      · rfl
      · exact (Nat.lt_irrefl _ bound).elim
    · rcases either two with ⟨_, rfl⟩ | ⟨_, two⟩
      · exact (Nat.lt_irrefl _ bound).elim
      · exact simulates.alone first second address one two
  own := by
    intro other inside
    by_cases same : other = handle
    · subst same
      exact ⟨_, HeapMachine.read_bind_self, _, Heap.getElem?_append_self, rfl⟩
    · obtain ⟨address, read, fresh⟩ :=
        simulates.own other (inside.resolve_right same)
      have bound := simulates.known other address read
      exact ⟨address, (HeapMachine.read_bind_of_ne same).trans read,
        (Heap.fresh_append_iff bound).mpr fresh⟩

/-- Storing what a handle holds leaves the open handles alone. -/
theorem markStored (simulates : Simulates opened copying sharing)
    (read : sharing.read value = .ok reference) (closed : ¬ opened value) :
    Simulates opened copying
      { sharing with heap := sharing.heap.markStored reference } where
  native := simulates.native
  iterators := simulates.iterators
  shown := by
    intro other inner bound
    obtain ⟨found, held, visible⟩ := simulates.shown other inner bound
    exact ⟨found, held, visible.markStored reference⟩
  known := by
    intro other address held
    change address < (sharing.heap.markStored reference).length
    rw [Heap.length_markStored]
    exact simulates.known other address held
  sound := simulates.sound.markStored reference
  alone := by
    intro first second address one two
    have before := (Heap.fresh_markStored_iff.mp one.2).1
    exact simulates.alone first second address ⟨one.1, before⟩ ⟨two.1, before⟩
  own := by
    intro other inside
    obtain ⟨address, held, fresh⟩ := simulates.own other inside
    refine ⟨address, held, Heap.fresh_markStored_iff.mpr ⟨fresh, ?_⟩⟩
    rintro rfl
    cases simulates.alone other value address ⟨held, fresh⟩ ⟨read, fresh⟩
    exact closed inside

/-- A container that one handle holds can be changed through it. -/
theorem change (simulates : Simulates opened copying sharing) {address : Nat}
    (owns : sharing.Owns handle address) {contents : Contents}
    (settled : ∀ part ∈ contents.parts, sharing.heap.Settled part)
    (shown : contents.tree (sharing.heap.tree sharing.heap.storedCount) =
      some wire) :
    Simulates opened (copying.bind handle wire)
      { sharing with
        heap := sharing.heap.modify address (Cell.change contents) } where
  native := simulates.native
  iterators := simulates.iterators
  shown := by
    intro other inner read
    rcases Machine.read_bind_cases read with ⟨rfl, found⟩ | ⟨same, before⟩
    · cases found
      exact ⟨_, owns.1, Heap.shows_change simulates.sound owns.2 settled shown⟩
    · obtain ⟨reference, held, visible⟩ := simulates.shown other inner before
      refine ⟨reference, held, visible.change simulates.sound owns.2 ?_⟩
      rintro rfl
      exact same (simulates.alone other handle address ⟨held, owns.2⟩ owns)
  known := by
    intro other inner held
    change inner < (sharing.heap.modify address _).length
    rw [List.length_modify]
    exact simulates.known other inner held
  sound := simulates.sound.change owns.2 settled
  alone := by
    intro first second inner one two
    have before := Heap.fresh_change_iff.mp one.2
    exact simulates.alone first second inner ⟨one.1, before⟩ ⟨two.1, before⟩
  own := by
    intro other inside
    obtain ⟨inner, held, fresh⟩ := simulates.own other inside
    exact ⟨inner, held, Heap.fresh_change_iff.mpr fresh⟩

/-- What an open handle holds. -/
theorem contents (simulates : Simulates opened copying sharing)
    (inside : opened handle) (read : copying.read handle = .ok wire) :
    ∃ address cell, sharing.Owns handle address ∧ sharing.heap[address]? =
      some cell ∧
      cell.contents.tree (sharing.heap.tree sharing.heap.storedCount) =
        some wire := by
  obtain ⟨address, held, fresh⟩ := simulates.own handle inside
  obtain ⟨reference, found, visible⟩ := simulates.shown handle wire read
  cases held.symm.trans found
  obtain ⟨cell, present, below⟩ := Heap.tree_container_eq_some visible.whole
  exact ⟨address, cell, ⟨held, fresh⟩, present, below⟩

theorem object (simulates : Simulates opened copying sharing)
    (inside : opened handle) {shown : List (String × Wire)}
    (found : copying.object handle = .ok shown) :
    ∃ address members, sharing.Owns handle address ∧
      sharing.object handle = .ok (address, members) ∧
      (∀ part ∈ (Contents.object members).parts, sharing.heap.Settled part) ∧
      (Contents.object members).tree
        (sharing.heap.tree sharing.heap.storedCount) =
        some (.object shown) := by
  obtain ⟨address, ⟨contents, stored, late⟩, owns, present, below⟩ :=
    simulates.contents inside (Machine.object_eq_ok_iff.mp found)
  cases contents with
  | array items =>
      obtain ⟨_, equal, _⟩ := Contents.tree_array_iff.mp below
      cases equal
  | object members =>
      refine ⟨address, members, owns, ?_,
        simulates.sound.parts address _ present, below⟩
      rw [HeapMachine.object, owns.1, ok_bind]
      simp only [present]
      rfl

theorem array (simulates : Simulates opened copying sharing)
    (inside : opened handle) {shown : List Wire}
    (found : copying.array handle = .ok shown) :
    ∃ address items, sharing.Owns handle address ∧
      sharing.array handle = .ok (address, items) ∧
      (∀ part ∈ (Contents.array items).parts, sharing.heap.Settled part) ∧
      (Contents.array items).tree (sharing.heap.tree sharing.heap.storedCount) =
        some (.array shown) := by
  obtain ⟨address, ⟨contents, stored, late⟩, owns, present, below⟩ :=
    simulates.contents inside (Machine.array_eq_ok_iff.mp found)
  cases contents with
  | object members =>
      obtain ⟨_, equal, _⟩ := Contents.tree_object_iff.mp below
      cases equal
  | array items =>
      refine ⟨address, items, owns, ?_, simulates.sound.parts address _ present,
        below⟩
      rw [HeapMachine.array, owns.1, ok_bind]
      simp only [present]
      rfl

/-- Storing a value in an open container. -/
theorem store (simulates : Simulates opened copying sharing)
    (inside : opened handle) (closed : ¬ opened value) {address : Nat}
    (owns : sharing.Owns handle address)
    (read : sharing.read value = .ok reference) {contents : Contents}
    (settled : ∀ part ∈ contents.parts,
      (sharing.heap.markStored reference).Settled part)
    (shown : contents.tree ((sharing.heap.markStored reference).tree
      (sharing.heap.markStored reference).storedCount) = some wire) :
    Simulates opened (copying.bind handle wire)
    (sharing.change address reference contents) := by
  have marked := simulates.markStored read closed
  have still : HeapMachine.Owns
      { sharing with heap := sharing.heap.markStored reference }
      handle address := by
    obtain ⟨other, own⟩ := marked.own handle inside
    cases owns.1.symm.trans own.1
    exact own
  exact marked.change still settled shown

end Simulates

end DataBridge
