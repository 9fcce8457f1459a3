import DataBridge.Marshal.Machine

/-!
# Running a program on references

A second machine for marshalling programs.  Containers live in a heap, handles
and containers hold references to them, and a change of a container shows
wherever a reference to it is held.  A container also remembers whether it was
changed after a reference to it was stored.
-/

namespace DataBridge

def Wire.isPrimitive : Wire → Bool
  | .array _ | .object _ => false
  | .null | .bool _ | .int _ | .double _ | .string _ => true

theorem Leaf.toWire_isPrimitive {leaf : Leaf} {native : Native} {place : Place}
    {wire : Wire} (converted : leaf.toWire native place = .ok wire) :
    wire.isPrimitive = true := by
  unfold Leaf.toWire at converted
  split at converted <;> cases converted
  case h_3 type value =>
    unfold Wire.ofDouble
    split <;> rfl
  all_goals rfl

theorem Machine.defaultValue_isPrimitive (value : DefaultValue) :
    (Machine.defaultValue value).isPrimitive = true := by
  cases value <;> rfl

/-- What a handle or a container holds: a primitive value, or the address of a
container. -/
inductive Reference where
  | primitive (value : Wire) (plain : value.isPrimitive = true)
  | container (address : Nat)

namespace Reference

def null : Reference :=
  .primitive .null rfl

/-- Sets a member of an object.  A name that is there keeps its position. -/
def insert (name : String) (value : Reference) :
    List (String × Reference) → List (String × Reference)
  | [] => [(name, value)]
  | (first, old) :: rest =>
      if first = name then (name, value) :: rest
      else (first, old) :: insert name value rest

/-- Sets an element of an array.  Elements missing before it are null. -/
def setElement (value : Reference) : Nat → List Reference → List Reference
  | 0, [] => [value]
  | 0, _ :: rest => value :: rest
  | index + 1, [] => null :: setElement value index []
  | index + 1, first :: rest => first :: setElement value index rest

end Reference

inductive Contents where
  | object (members : List (String × Reference))
  | array (items : List Reference)

namespace Contents

def parts : Contents → List Reference
  | .object members => members.map Prod.snd
  | .array items => items

/-- The value of a container whose parts `read` reads. -/
def tree (read : Reference → Option Wire) : Contents → Option Wire
  | .object members => do
      return .object
        (← members.mapM fun member => do return (member.1, ← read member.2))
  | .array items => do return .array (← items.mapM read)

end Contents

/-- A container in the heap.  It is `stored` once a second handle or a
container holds it, and `changedLate` if it was changed when it was stored. -/
structure Cell where
  contents : Contents
  stored : Bool := false
  changedLate : Bool := false

def Cell.change (contents : Contents) (cell : Cell) : Cell :=
  { cell with contents, changedLate := cell.changedLate || cell.stored }

/-- The containers by address. -/
abbrev Heap := List Cell

namespace Heap

/-- The value behind a reference, read to a depth. -/
def tree (heap : Heap) : Nat → Reference → Option Wire
  | _, .primitive value _ => some value
  | 0, .container _ => none
  | depth + 1, .container address =>
      match heap[address]? with
      | some cell => cell.contents.tree (heap.tree depth)
      | none => none

def markStored : Reference → Heap → Heap
  | .primitive _ _, heap => heap
  | .container address, heap => heap.modify address fun cell =>
      { cell with stored := true }

end Heap

/-- The state of a program that runs on references. -/
structure HeapMachine where
  native : Native
  heap : Heap := []
  /-- The handles that are bound, the newest first. -/
  handles : List (Handle × Reference) := []
  /-- The loop iterators that are bound, the newest first. -/
  iterators : List (Char × Nat) := []

namespace HeapMachine

/-- The native value and the open loops, for the places that a program names. -/
def places (machine : HeapMachine) : Machine :=
  { native := machine.native, iterators := machine.iterators }

def read (machine : HeapMachine) (handle : Handle) : Except Fault Reference :=
  match machine.handles.lookup handle with
  | some reference => .ok reference
  | none => .error (.unboundHandle handle.text)

/-- The value behind a handle.  A value without a cycle is no deeper than there
are containers. -/
def value (machine : HeapMachine) (handle : Handle) : Except Fault Wire := do
  match machine.heap.tree machine.heap.length (← machine.read handle) with
  | some value => return value
  | none => throw (.unboundHandle handle.text)

def bind (machine : HeapMachine) (handle : Handle) (reference : Reference) :
    HeapMachine :=
  { machine with
    handles := (handle, reference) :: machine.handles.filter fun bound =>
      bound.1 != handle }

def create (machine : HeapMachine) (handle : Handle) (contents : Contents) :
    HeapMachine :=
  { machine with heap := machine.heap ++ [Cell.mk contents false false] }.bind
    handle (.container machine.heap.length)

/-- Gives a container other parts, one of which is now stored in it. -/
def change (machine : HeapMachine) (address : Nat) (part : Reference)
    (contents : Contents) : HeapMachine :=
  { machine with
    heap :=
      (machine.heap.markStored part).modify address (Cell.change contents) }

/-- The object behind a handle: its address and its members. -/
def object (machine : HeapMachine) (handle : Handle) :
    Except Fault (Nat × List (String × Reference)) := do
  match ← machine.read handle with
  | .container address =>
      match machine.heap[address]? with
      | some { contents := .object members, .. } => return (address, members)
      | _ => throw (.typeMismatch .object handle.text)
  | .primitive _ _ => throw (.typeMismatch .object handle.text)

/-- The array behind a handle: its address and its elements. -/
def array (machine : HeapMachine) (handle : Handle) :
    Except Fault (Nat × List Reference) := do
  match ← machine.read handle with
  | .container address =>
      match machine.heap[address]? with
      | some { contents := .array items, .. } => return (address, items)
      | _ => throw (.typeMismatch .array handle.text)
  | .primitive _ _ => throw (.typeMismatch .array handle.text)

/-- Runs a body once for each index of a loop, from `next` on. -/
def repeated (iterator : Char) (body : HeapMachine → Except Fault HeapMachine) :
    Nat → Nat → HeapMachine → Except Fault HeapMachine
  | 0, _, machine => .ok machine
  | count + 1, next, machine => do
      let entered :=
        { machine with
          iterators := (machine.places.enter iterator next).iterators }
      repeated iterator body count (next + 1) (← body entered)

mutual

def step : Stmt → HeapMachine → Except Fault HeapMachine
  | .createObject target, machine => .ok (machine.create target (.object []))
  | .createArray target, machine => .ok (machine.create target (.array []))
  | .setNamed object name value, machine => do
      let part ← machine.read value
      let (address, members) ← machine.object object
      return machine.change address part
        (.object (Reference.insert name part members))
  | .setElement array iterator value, machine => do
      let index ← machine.places.index iterator
      let part ← machine.read value
      let (address, items) ← machine.array array
      return machine.change address part
        (.array (Reference.setElement part index items))
  | .getNamed object name target, machine => do
      let (_, members) ← machine.object object
      match members.lookup name with
      | some part => return machine.bind target part
      | none => throw (.missingProperty name)
  | .getElement array iterator target, machine => do
      let index ← machine.places.index iterator
      let (_, items) ← machine.array array
      match items[index]? with
      | some part => return machine.bind target part
      | none => throw (.indexOutOfRange index items.length)
  | .assign target value, machine => do
      let reference ← machine.read value
      return { machine with heap := machine.heap.markStored reference }.bind
        target reference
  | .leafOut leaf source target, machine => do
      let native ← machine.places.load source
      match converted : leaf.toWire native source with
      | .ok value =>
          return machine.bind target
            (.primitive value (Leaf.toWire_isPrimitive converted))
      | .error fault => throw fault
  | .leafIn leaf source target, machine => do
      let value ← machine.value source
      let after ← machine.places.store target (← leaf.ofWire value target)
      return { machine with native := after.native }
  | .default value target, machine =>
      .ok (machine.bind target
        (.primitive (Machine.defaultValue value)
          (Machine.defaultValue_isPrimitive value)))
  | .forEach iterator count body, machine => do
      let after ← repeated iterator (run body) count 0 machine
      return { after with iterators := (after.places.leave iterator).iterators }

def run : List Stmt → HeapMachine → Except Fault HeapMachine
  | [], machine => .ok machine
  | first :: rest, machine => do run rest (← step first machine)

end

end HeapMachine

/-- Runs an outgoing program on references.  Gives the value that its wire root
holds at the end, and the heap. -/
def Emission.marshalOutByReference (emission : Emission) (native : Native) :
    Except Fault (Wire × Heap) :=
  match emission.wireRoot? with
  | none => .error (.unboundHandle "<wire root>")
  | some root => do
      let machine ← HeapMachine.run emission.body { native }
      return (← machine.value root, machine.heap)

end DataBridge
