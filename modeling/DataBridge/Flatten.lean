import DataBridge.Naming
import DataBridge.Program.Basic

/-!
# Flattening

Turns a record or a dataset into the marshalling program that moves it.  The
walk follows the members in declared order, leaves private members out, opens
a slot for each container and a loop for each array.
-/

namespace DataBridge

/-- Where the leaves of an outgoing program take their values from. -/
inductive Origin where
  | native (place : Place)
  | defaults
deriving DecidableEq, Repr

namespace Origin

def field : Origin → String → Origin
  | .native place, name => .native (place.field name)
  | .defaults, _ => .defaults

def index : Origin → Char → Origin
  | .native place, iterator => .native (place.index iterator)
  | .defaults, _ => .defaults

/-- The statement that brings a leaf of the origin into a handle. -/
def leaf : Origin → Leaf → Handle → Stmt
  | .native place, leaf, target => .leafOut leaf place target
  | .defaults, leaf, target => .default (.ofLeaf leaf) target

end Origin

namespace Flatten

open Naming (withSlot withIterator)

mutual

/-- The statements that put a field into a handle. -/
def outField (origin : Origin) (dest : Handle) (field : Field) :
    Flattening (List Stmt) :=
  match field with
  | { type := .leaf leaf, arraySize := 0, .. } => pure [origin.leaf leaf dest]
  | { type := .leaf leaf, arraySize := size + 1, .. } => do
      let loop ← withIterator fun iterator => pure <|
        Stmt.forEach iterator (size + 1)
          [(origin.index iterator).leaf leaf .arrayItem,
            .setElement dest iterator .arrayItem]
      return [.createArray dest, loop]
  | { type := .record record, arraySize := 0, .. } => do
      let members ← outRecord origin dest record
      return .createObject dest :: members
  | { type := .record record, arraySize := size + 1, .. } => do
      let loop ← withSlot fun slot => withIterator fun iterator => do
        let members ← outRecord (origin.index iterator) (.slot slot) record
        return Stmt.forEach iterator (size + 1)
          (.createObject (.slot slot) :: members ++
            [.setElement dest iterator (.slot slot)])
      return [.createArray dest, loop]

/-- The statements that put the members of a record into an object. -/
def outRecord (origin : Origin) (parent : Handle) (record : Record) :
    Flattening (List Stmt) :=
  match record with
  | { fields, .. } => outMembers origin parent fields

/-- The statements that put members into an object, in order.  A plain leaf
goes through the scratch property and everything else through a slot. -/
def outMembers (origin : Origin) (parent : Handle) :
    List Field → Flattening (List Stmt)
  | [] => pure []
  | member :: rest =>
      if member.isPrivate then outMembers origin parent rest
      else do
        let first ← match member.type, member.arraySize with
          | .leaf leaf, 0 =>
              pure [(origin.field member.name).leaf leaf .property,
                .setNamed parent member.name .property]
          | _, _ =>
              withSlot fun slot => do
                let statements ← outField (origin.field member.name)
                  (.slot slot) member
                return statements ++ [.setNamed parent member.name (.slot slot)]
        let others ← outMembers origin parent rest
        return first ++ others

end

/-- The statements that build a record in a slot and bind it to a handle. -/
def outRoot (origin : Origin) (dest : Handle) (record : Record) :
    Flattening (List Stmt) :=
  withSlot fun slot => do
    let members ← outRecord origin (.slot slot) record
    return .createObject (.slot slot) :: members ++ [.assign dest (.slot slot)]

/-- The statements that put a dataset into a handle. -/
def outDataset (origin : Origin) (dest : Handle) (dataset : Field) :
    Flattening (List Stmt) :=
  match dataset.type, dataset.arraySize with
  | .record record, 0 => outRoot origin dest record
  | _, _ => outField origin dest dataset

mutual

/-- The statements that read a field from a handle. -/
def inField (source : Handle) (dest : Place) (field : Field) :
    Flattening (List Stmt) :=
  match field with
  | { type := .leaf leaf, arraySize := 0, .. } =>
      pure [.leafIn leaf source dest]
  | { type := .leaf leaf, arraySize := size + 1, .. } =>
      withIterator fun iterator => pure
        [.forEach iterator (size + 1)
          [.getElement source iterator .arrayItem,
            .leafIn leaf .arrayItem (dest.index iterator)]]
  | { type := .record record, arraySize := 0, .. } =>
      inRecord source dest record
  | { type := .record record, arraySize := size + 1, .. } =>
      withSlot fun slot => withIterator fun iterator => do
        let members ← inRecord (.slot slot) (dest.index iterator) record
        return [.forEach iterator (size + 1)
          (.getElement source iterator (.slot slot) :: members)]

/-- The statements that read the members of a record from an object. -/
def inRecord (source : Handle) (dest : Place) (record : Record) :
    Flattening (List Stmt) :=
  match record with
  | { fields, .. } => inMembers source dest fields

/-- The statements that read members from an object, in order. -/
def inMembers (source : Handle) (dest : Place) :
    List Field → Flattening (List Stmt)
  | [] => pure []
  | member :: rest =>
      if member.isPrivate then inMembers source dest rest
      else do
        let first ← withSlot fun slot => do
          let statements ← inField (.slot slot) (dest.field member.name) member
          return .getNamed source member.name (.slot slot) :: statements
        let others ← inMembers source dest rest
        return first ++ others

end

/-- The statements that bind a handle to a slot and read a record from it. -/
def inRoot (source : Handle) (dest : Place) (record : Record) :
    Flattening (List Stmt) :=
  withSlot fun slot => do
    let members ← inRecord (.slot slot) dest record
    return .assign (.slot slot) source :: members

/-- The statements that read a dataset from a handle. -/
def inDataset (source : Handle) (dest : Place) (dataset : Field) :
    Flattening (List Stmt) :=
  match dataset.type, dataset.arraySize with
  | .record record, 0 => inRoot source dest record
  | _, _ => inField source dest dataset

/-- The program made of statements, with the largest slot handed out so far. -/
def finish (direction : Direction) (body : List Stmt) :
    Flattening Emission := do
  let naming ← get
  return { direction, body, maxSlot := naming.highWater }

end Flatten

/-- The program that moves the exchanged members of a record between a place
and a handle. -/
def Record.emission (record : Record) (place : Place) (handle : Handle)
    (direction : Direction) : Flattening Emission := do
  let body ←
    match direction with
    | .outgoing => Flatten.outRoot (.native place) handle record
    | .incoming => Flatten.inRoot handle place record
  Flatten.finish direction body

/-- The program that moves a dataset, which may be a leaf, a record or an array
of either, between a place and a handle. -/
def Field.emission (dataset : Field) (place : Place) (handle : Handle)
    (direction : Direction) : Flattening Emission := do
  let body ←
    match direction with
    | .outgoing => Flatten.outDataset (.native place) handle dataset
    | .incoming => Flatten.inDataset handle place dataset
  Flatten.finish direction body

/-- The program that builds the initial value of a dataset from the shared
default values. -/
def Field.defaultsEmission (dataset : Field) (handle : Handle) :
    Flattening Emission := do
  let body ← Flatten.outDataset .defaults handle dataset
  Flatten.finish .outgoing body

/-- Runs a computation with no name in use. -/
def Flattening.fresh {α : Type} (body : Flattening α) : Except EmitError α :=
  (body {}).1

end DataBridge
