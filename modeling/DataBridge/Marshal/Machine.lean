import DataBridge.Marshal.Leaf

/-!
# Running a program

A machine holds the native value, the JavaScript values behind the handles and
the indices of the open loops.  Every store copies a whole value.
-/

namespace DataBridge

/-- The state of a running program. -/
structure Machine where
  native : Native
  /-- The handles that are bound, the newest first. -/
  handles : List (Handle × Wire) := []
  /-- The loop iterators that are bound, the newest first. -/
  iterators : List (Char × Nat) := []

/-- A step of a path with its index known. -/
inductive Step where
  | member (name : String)
  | element (index : Nat)
deriving DecidableEq, Repr

namespace Native

/-- Replaces a member of a record, the first of its name. -/
def setMember (name : String) (value : Native) :
    List (String × Native) → List (String × Native)
  | [] => []
  | (first, old) :: rest =>
      if first = name then (first, value) :: rest
      else (first, old) :: setMember name value rest

/-- The part of a value at a step; `path` names the whole place in a fault. -/
def part (path : String) : Step → Native → Except Fault Native
  | .member name, .record members =>
      match members.lookup name with
      | some value => .ok value
      | none => .error (.nativeShape path .recordWithMember)
  | .element index, .array items =>
      match items[index]? with
      | some value => .ok value
      | none => .error (.indexOutOfRange index items.length)
  | .member _, _ => .error (.nativeShape path .record)
  | .element _, _ => .error (.nativeShape path .array)

/-- The value with its part at a step replaced. -/
def setPart (value : Native) : Step → Native → Native
  | .member name, .record members => .record (setMember name value members)
  | .element index, .array items => .array (items.set index value)
  | _, whole => whole

/-- The part of a value below a path. -/
def get (path : String) : List Step → Native → Except Fault Native
  | [], value => .ok value
  | step :: rest, value => do get path rest (← part path step value)

/-- The value with the part below a path replaced. -/
def set (path : String) (new : Native) :
    List Step → Native → Except Fault Native
  | [], _ => .ok new
  | step :: rest, value => do
      let inner ← part path step value
      return setPart (← set path new rest inner) step value

end Native

namespace Machine

def read (machine : Machine) (handle : Handle) : Except Fault Wire :=
  match machine.handles.lookup handle with
  | some value => .ok value
  | none => .error (.unboundHandle handle.text)

def bind (machine : Machine) (handle : Handle) (value : Wire) : Machine :=
  { machine with
    handles := (handle, value) :: machine.handles.filter fun bound =>
      bound.1 != handle }

def index (machine : Machine) (iterator : Char) : Except Fault Nat :=
  match machine.iterators.lookup iterator with
  | some index => .ok index
  | none => .error (.unboundIterator iterator)

def enter (machine : Machine) (iterator : Char) (index : Nat) : Machine :=
  { machine with
    iterators := (iterator, index) :: machine.iterators.filter fun bound =>
      bound.1 != iterator }

def leave (machine : Machine) (iterator : Char) : Machine :=
  { machine with iterators := machine.iterators.filter fun bound =>
    bound.1 != iterator }

/-- The steps of a place, with the indices of the open loops. -/
def steps (machine : Machine) : List Segment → Except Fault (List Step)
  | [] => .ok []
  | .field name :: rest => do return .member name :: (← machine.steps rest)
  | .index iterator :: rest => do
      let index ← machine.index iterator
      return .element index :: (← machine.steps rest)

def load (machine : Machine) (place : Place) : Except Fault Native := do
  let steps ← machine.steps place.segments
  machine.native.get place.text steps

/-- The machine with the native value at a place replaced. -/
def store (machine : Machine) (place : Place) (value : Native) :
    Except Fault Machine := do
  let steps ← machine.steps place.segments
  return { machine with
    native := ← Native.set place.text value steps machine.native }

/-- The initial JavaScript value of a default. -/
def defaultValue : DefaultValue → Wire
  | .bool => .bool false
  | .number => .int ⟨0, by decide⟩
  | .string => .string ""

/-- The members of the object behind a handle. -/
def object (machine : Machine) (handle : Handle) :
    Except Fault (List (String × Wire)) := do
  match ← machine.read handle with
  | .object members => return members
  | _ => throw (.typeMismatch .object handle.text)

/-- The elements of the array behind a handle. -/
def array (machine : Machine) (handle : Handle) : Except Fault (List Wire) := do
  match ← machine.read handle with
  | .array items => return items
  | _ => throw (.typeMismatch .array handle.text)

/-- Runs a body once for each index of a loop, from `next` on. -/
def repeated (iterator : Char) (body : Machine → Except Fault Machine) :
    Nat → Nat → Machine → Except Fault Machine
  | 0, _, machine => .ok machine
  | count + 1, next, machine => do
      repeated iterator body count (next + 1)
        (← body (machine.enter iterator next))

mutual

def step : Stmt → Machine → Except Fault Machine
  | .createObject target, machine => .ok (machine.bind target (.object []))
  | .createArray target, machine => .ok (machine.bind target (.array []))
  | .setNamed object name value, machine => do
      let value ← machine.read value
      let members ← machine.object object
      return machine.bind object (.object (Wire.insert name value members))
  | .setElement array iterator value, machine => do
      let index ← machine.index iterator
      let value ← machine.read value
      let items ← machine.array array
      return machine.bind array (.array (Wire.setElement value index items))
  | .getNamed object name target, machine => do
      let members ← machine.object object
      match members.lookup name with
      | some value => return machine.bind target value
      | none => throw (.missingProperty name)
  | .getElement array iterator target, machine => do
      let index ← machine.index iterator
      let items ← machine.array array
      match items[index]? with
      | some value => return machine.bind target value
      | none => throw (.indexOutOfRange index items.length)
  | .assign target value, machine => do
      return machine.bind target (← machine.read value)
  | .leafOut leaf source target, machine => do
      let native ← machine.load source
      return machine.bind target (← leaf.toWire native source)
  | .leafIn leaf source target, machine => do
      let value ← machine.read source
      machine.store target (← leaf.ofWire value target)
  | .default value target, machine =>
      .ok (machine.bind target (defaultValue value))
  | .forEach iterator count body, machine => do
      let after ← repeated iterator (run body) count 0 machine
      return after.leave iterator

def run : List Stmt → Machine → Except Fault Machine
  | [], machine => .ok machine
  | first :: rest, machine => do run rest (← step first machine)

end

end Machine

/-- Runs an outgoing program on a native value and returns the JavaScript value
that its wire root holds at the end. -/
def Emission.marshalOut (emission : Emission) (native : Native) :
    Except Fault Wire :=
  match emission.wireRoot? with
  | none => .error (.unboundHandle "<wire root>")
  | some root => do
      let machine ← Machine.run emission.body { native }
      machine.read root

/-- Runs an incoming program on a JavaScript value, bound to its wire root, and
returns the native value that it leaves in memory shaped like `root`. -/
def Emission.marshalIn (emission : Emission) (root : Field) (wire : Wire) :
    Except Fault Native := do
  let start : Machine := { native := Native.zeroed root }
  let bound :=
    match emission.wireRoot? with
    | some handle => start.bind handle wire
    | none => start
  let machine ← Machine.run emission.body bound
  return machine.native

end DataBridge
