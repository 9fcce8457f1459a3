import DataBridge.Record

/-!
# Marshalling programs

A marshalling program moves values between a native struct and JavaScript
values.  Its statements name native places on one side and handles of
JavaScript values on the other.
-/

namespace DataBridge

/-- Whether values leave the native struct or enter it. -/
inductive Direction where
  | outgoing
  | incoming
deriving DecidableEq, Repr

/-- A JavaScript value that a program reads or writes. -/
inductive Handle where
  /-- A numbered container temporary. -/
  | slot (index : Nat)
  /-- The scratch value for a named member. -/
  | property
  /-- The scratch value for an array element. -/
  | arrayItem
  /-- An expression that belongs to the code around the program. -/
  | external (expression : String)
deriving DecidableEq, Repr

/-- The name of a handle in a program's text. -/
def Handle.text : Handle → String
  | .slot index => "object" ++ toString index
  | .property => "property"
  | .arrayItem => "arrayItem"
  | .external expression => expression

/-- Whether the handle belongs to the code around the program. -/
def Handle.isExternal : Handle → Bool
  | .external _ => true
  | .slot _ | .property | .arrayItem => false

/-- A step of a path into a native value. -/
inductive Segment where
  | field (name : String)
  | index (iterator : Char)
deriving DecidableEq, Repr

/-- A native place: a root variable and a path below it. -/
structure Place where
  root : String
  segments : List Segment := []
deriving DecidableEq, Repr

namespace Place

def field (place : Place) (name : String) : Place :=
  { place with segments := place.segments ++ [.field name] }

/-- The element of a place at a loop iterator. -/
def index (place : Place) (iterator : Char) : Place :=
  { place with segments := place.segments ++ [.index iterator] }

def bracketed (iterator : Char) : String :=
  "[" ++ iterator.toString ++ "]"

/-- The text of a path after `before`.  A dot stands in front of a member's
name unless nothing is before it. -/
def pathFrom (before : String) : List Segment → String
  | [] => before
  | .field name :: rest =>
      pathFrom (if before.isEmpty then name else before ++ "." ++ name) rest
  | .index iterator :: rest => pathFrom (before ++ bracketed iterator) rest

/-- The path below the root, as messages name it. -/
def path (place : Place) : String :=
  pathFrom "" place.segments

/-- The text of one step in an expression. -/
def segmentText : Segment → String
  | .field name => "." ++ name
  | .index iterator => bracketed iterator

def text (place : Place) : String :=
  place.segments.foldl (fun before segment => before ++ segmentText segment)
    place.root

end Place

/-- The kinds of shared default values. -/
inductive DefaultValue where
  | bool
  | number
  | string
deriving DecidableEq, Repr

namespace DefaultValue

def ofLeaf : Leaf → DefaultValue
  | .bool => .bool
  | .string _ => .string
  | .integer _ | .float _ => .number

def variableName : DefaultValue → String
  | .bool => "def_bool"
  | .number => "def_number"
  | .string => "def_string"

end DefaultValue

/-- A statement of a marshalling program. -/
inductive Stmt where
  | createObject (target : Handle)
  | createArray (target : Handle)
  | setNamed (object : Handle) (name : String) (value : Handle)
  | setElement (array : Handle) (index : Char) (value : Handle)
  | getNamed (object : Handle) (name : String) (target : Handle)
  | getElement (array : Handle) (index : Char) (target : Handle)
  | assign (target value : Handle)
  /-- Turns a native leaf into a fresh JavaScript value. -/
  | leafOut (leaf : Leaf) (source : Place) (target : Handle)
  /-- Turns a JavaScript value into a native leaf. -/
  | leafIn (leaf : Leaf) (source : Handle) (target : Place)
  | default (value : DefaultValue) (target : Handle)
  | forEach (iterator : Char) (count : Nat) (body : List Stmt)
deriving Repr

/-- A marshalling program.  `maxSlot` is the largest slot of the pass that made
it, if that pass used any. -/
structure Emission where
  direction : Direction
  body : List Stmt
  maxSlot : Option Nat
deriving Repr

mutual

def Stmt.loopDepth : Stmt → Nat
  | .forEach _ _ body => 1 + Stmt.loopDepthList body
  | _ => 0

/-- The deepest loop nesting of a list of statements. -/
def Stmt.loopDepthList : List Stmt → Nat
  | [] => 0
  | first :: rest => max first.loopDepth (Stmt.loopDepthList rest)

end

def Emission.loopDepth (emission : Emission) : Nat :=
  Stmt.loopDepthList emission.body

/-- The handles of a statement in which the value of the whole program may
arrive or leave, loops apart. -/
def Stmt.wireHandles : Stmt → List Handle
  | .assign target value => [target, value]
  | .createObject target | .createArray target => [target]
  | .getNamed object _ _ => [object]
  | .getElement array _ _ => [array]
  | .setElement array _ _ => [array]
  | .leafOut _ _ target => [target]
  | .default _ target => [target]
  | .leafIn _ source _ => [source]
  | .setNamed object _ _ => [object]
  | .forEach _ _ _ => []

mutual

/-- The first external handle of a statement. -/
def Stmt.wireRoot? : Stmt → Option Handle
  | .forEach _ _ body => Stmt.wireRootList? body
  | statement => statement.wireHandles.find? Handle.isExternal

/-- The first external handle of a list of statements. -/
def Stmt.wireRootList? : List Stmt → Option Handle
  | [] => none
  | first :: rest => first.wireRoot?.orElse fun _ => Stmt.wireRootList? rest

end

/-- The external handle to which a program binds its JavaScript value. -/
def Emission.wireRoot? (emission : Emission) : Option Handle :=
  Stmt.wireRootList? emission.body

end DataBridge
