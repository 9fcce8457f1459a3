import DataBridge.Program.Basic

/-!
# Temporaries of a program

The variables that the text of a program needs declared, collected from its
statements in a fixed order without repetition.
-/

namespace DataBridge

/-- A variable that belongs to a program's text. -/
inductive Temp where
  | slot (index : Nat)
  | property
  | arrayItem
  | lengthScratch
  | intScratch
  | floatScratch
deriving DecidableEq, Repr

namespace Temp

def nativeType : Temp → String
  | .slot _ | .property | .arrayItem => "napi_value"
  | .lengthScratch => "size_t"
  | .intScratch => "int32_t"
  | .floatScratch => "double"

def identifier : Temp → String
  | .slot index => "object" ++ toString index
  | .property => "property"
  | .arrayItem => "arrayItem"
  | .lengthScratch => "_r"
  | .intScratch => "_value"
  | .floatScratch => "__value"

def isSlot : Temp → Bool
  | .slot _ => true
  | _ => false

/-- The position of a variable's kind among the kinds. -/
def rank : Temp → Nat
  | .slot _ => 0
  | .property => 1
  | .arrayItem => 2
  | .lengthScratch => 3
  | .intScratch => 4
  | .floatScratch => 5

/-- The number of a slot, and zero for the others. -/
def number : Temp → Nat
  | .slot index => index
  | _ => 0

/-- The order of declarations: by kind, and slots by number. -/
def before (first second : Temp) : Bool :=
  first.rank < second.rank ||
    (first.rank == second.rank && first.number < second.number)

/-- Inserts a variable into an ordered list, once. -/
def insert (temp : Temp) : List Temp → List Temp
  | [] => [temp]
  | first :: rest =>
      if temp = first then first :: rest
      else if temp.before first then temp :: first :: rest
      else first :: insert temp rest

/-- The variables of a list in order and without repetition. -/
def ordered (temps : List Temp) : List Temp :=
  temps.foldr insert []

/-- The variable behind a handle.  An external handle has none. -/
def ofHandle? : Handle → Option Temp
  | .slot index => some (.slot index)
  | .property => some .property
  | .arrayItem => some .arrayItem
  | .external _ => none

/-- The scratch variable that reading a leaf needs. -/
def scratch? : Leaf → Option Temp
  | .bool => none
  | .integer _ => some .intScratch
  | .float _ => some .floatScratch
  | .string _ => some .lengthScratch

end Temp

/-- The handles that a statement names, loops apart. -/
def Stmt.handles : Stmt → List Handle
  | .createObject target | .createArray target => [target]
  | .setNamed object _ value => [object, value]
  | .setElement array _ value => [array, value]
  | .getNamed object _ target => [object, target]
  | .getElement array _ target => [array, target]
  | .assign target value => [target, value]
  | .leafOut _ _ target => [target]
  | .leafIn _ source _ => [source]
  | .default _ target => [target]
  | .forEach _ _ _ => []

/-- The scratch variable that a statement needs. -/
def Stmt.scratch? : Stmt → Option Temp
  | .leafIn leaf _ _ => Temp.scratch? leaf
  | _ => none

mutual

/-- The variables of a statement, as they come. -/
def Stmt.temps : Stmt → List Temp
  | .forEach _ _ body => Stmt.tempsList body
  | statement =>
      statement.handles.filterMap Temp.ofHandle? ++ statement.scratch?.toList

/-- The variables of a list of statements, as they come. -/
def Stmt.tempsList : List Stmt → List Temp
  | [] => []
  | first :: rest => first.temps ++ Stmt.tempsList rest

end

/-- The variables of a program, in the order of their declarations. -/
def Emission.temps (emission : Emission) : List Temp :=
  Temp.ordered (Stmt.tempsList emission.body)

end DataBridge
