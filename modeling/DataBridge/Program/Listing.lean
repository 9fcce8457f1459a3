import DataBridge.Program.Codec
import DataBridge.Yaml.Tree

/-!
# Programs as tagged trees

A program is written as a tree in which the kind of a statement is its tag.
Loop iterators are always quoted.
-/

namespace DataBridge

open Yaml (Tree)

def Yaml.Tree.number (value : Nat) : Tree :=
  .word (toString value)

def Leaf.toTree : Leaf → Tree
  | .bool => .text "bool"
  | .integer type => .tagged "integer" (.text type.tag)
  | .float type => .tagged "float" (.text type.tag)
  | .string length => .tagged "string" (.mapping [("length", .number length)])

def Handle.toTree : Handle → Tree
  | .slot index => .tagged "slot" (.number index)
  | .property => .text "property"
  | .arrayItem => .text "array-item"
  | .external expression => .tagged "external" (.text expression)

def iteratorTree (iterator : Char) : Tree :=
  .quoted iterator.toString

/-- The tree of a step of a path. -/
def Segment.toTree : Segment → Tree
  | .field name => .tagged "field" (.text name)
  | .index iterator => .tagged "index" (iteratorTree iterator)

def Place.toTree (place : Place) : Tree :=
  .mapping
    [("root", .text place.root),
      ("segments", .sequence (place.segments.map Segment.toTree))]

mutual

def Stmt.toTree : Stmt → Tree
  | .createObject target =>
      .tagged "create-object" (.mapping [("target", target.toTree)])
  | .createArray target =>
      .tagged "create-array" (.mapping [("target", target.toTree)])
  | .setNamed object name value =>
      .tagged "set-named"
        (.mapping [("object", object.toTree), ("name", .text name),
          ("value", value.toTree)])
  | .setElement array index value =>
      .tagged "set-element"
        (.mapping
          [("array", array.toTree), ("index", iteratorTree index),
            ("value", value.toTree)])
  | .getNamed object name target =>
      .tagged "get-named"
        (.mapping [("object", object.toTree), ("name", .text name),
          ("target", target.toTree)])
  | .getElement array index target =>
      .tagged "get-element"
        (.mapping
          [("array", array.toTree), ("index", iteratorTree index),
            ("target", target.toTree)])
  | .assign target value =>
      .tagged "assign" (.mapping [("target", target.toTree),
        ("value", value.toTree)])
  | .leafOut leaf source target =>
      .tagged "leaf-out"
        (.mapping
          [("leaf", leaf.toTree), ("source", source.toTree),
            ("target", target.toTree)])
  | .leafIn leaf source target =>
      .tagged "leaf-in"
        (.mapping
          [("leaf", leaf.toTree), ("source", source.toTree),
            ("target", target.toTree)])
  | .default value target =>
      .tagged "default" (.mapping [("value", .text value.tag),
        ("target", target.toTree)])
  | .forEach iterator count body =>
      .tagged "for-each"
        (.mapping
          [("iterator", iteratorTree iterator), ("count", .number count),
            ("body", .sequence (Stmt.listToTree body))])

def Stmt.listToTree : List Stmt → List Tree
  | [] => []
  | first :: rest => first.toTree :: Stmt.listToTree rest

end

def Emission.toTree (emission : Emission) : Tree :=
  .mapping
    [("direction", .text emission.direction.tag),
      ("body", .sequence (Stmt.listToTree emission.body)),
      ("max-slot", (emission.maxSlot.map Tree.number).getD (.word "null"))]

end DataBridge
