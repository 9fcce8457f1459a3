import DataBridge.Yaml.Token

/-!
# Documents

A document is a tree of scalars, sequences and mappings, in which a node can
stand for another one by an alias.
-/

namespace DataBridge.Yaml

/-- A node.  An alias holds the number of the anchor that it names. -/
inductive Node where
  | scalar (scalar : Scalar)
  | sequence (items : List Node)
  | mapping (members : List (Node × Node))
  | alias (number : Nat)
deriving Repr

namespace Node

mutual

/-- The number of marks that write a node: one for a scalar or an alias, and one
for each end of a collection besides those of its nodes. -/
def size : Node → Nat
  | .scalar _ => 1
  | .sequence items => itemsSize items + 2
  | .mapping members => membersSize members + 2
  | .alias _ => 1

/-- The number of marks that write nodes. -/
def itemsSize : List Node → Nat
  | [] => 0
  | item :: rest => item.size + itemsSize rest

/-- The number of marks that write members. -/
def membersSize : List (Node × Node) → Nat
  | [] => 0
  | (key, value) :: rest => key.size + value.size + membersSize rest

end

end Node

/-- What stands where a node is left out. -/
def Node.empty : Node :=
  .scalar { text := "", plain := true }

/-- The anchors of a document.  The number of an anchor is the count of the
names that were known before it, so a name that is given again leaves a number
to be given twice, and the last node with a number counts.  A node is told from
others by the number of tokens that follow its anchor. -/
structure Anchors where
  numbers : List (String × Nat) := []
  /-- The last node of each number. -/
  latest : List (Nat × Nat) := []
  nodes : List (Nat × Node) := []
deriving Repr

namespace Anchors

/-- The anchors with a name for the node at a place. -/
def declare (anchors : Anchors) (name : String) (place : Nat) : Anchors :=
  let number := anchors.numbers.length
  { anchors with
    numbers := (name, number) :: anchors.numbers.filter (·.1 != name)
    latest := (number, place) :: anchors.latest }

/-- The anchors with the node at a place. -/
def define (anchors : Anchors) (place : Nat) (node : Node) : Anchors :=
  { anchors with nodes := (place, node) :: anchors.nodes }

def find? (anchors : Anchors) (number : Nat) : Option Node := do
  anchors.nodes.lookup (← anchors.latest.lookup number)

end Anchors

/-- What is known while a document is read. -/
structure Reading where
  tokens : List Token
  handles : List String := ["", "!", "!!"]
  anchors : Anchors := {}

abbrev Reader := StateT Reading (Except Fault)

namespace Reader

def peek? : Reader (Option Token) := do
  return (← get).tokens.head?

def advance : Reader Unit :=
  modify fun reading => { reading with tokens := reading.tokens.tail }

/-- Leaves the next token behind if it is the given one, and says whether it
is. -/
def accept (token : Token) : Reader Bool := do
  if (← peek?) = some token then
    advance
    return true
  return false

/-- Leaves the given token behind, which must come next. -/
def expect (token : Token) : Reader Unit := do
  if !(← accept token) then throw .content

/-- Whether the next token is one of those given. -/
def sees (tokens : List Token) : Reader Bool := do
  return (← peek?).any tokens.contains

/-- Reads the anchor and the tag in front of a node, in any order.  The answer
is the name of the anchor, and whether anything was there. -/
def properties : Nat → Option String → Bool → Reader (Option String × Bool)
  | 0, name, tagged => return (name, tagged)
  | steps + 1, name, tagged => do
      match ← peek? with
      | some (.anchor given) =>
          if name.isSome then return (name, tagged)
          advance
          properties steps (some given) tagged
      | some (.tag handle) =>
          if tagged then return (name, tagged)
          if !(← get).handles.contains handle then throw (.unknownHandle handle)
          advance
          properties steps name true
      | _ => return (name, tagged)

/-- Declares the anchor of a node whose first token comes next. -/
def declare (name : Option String) : Reader Nat := do
  let place := (← get).tokens.length
  if let some name := name then
    modify fun reading =>
      { reading with anchors := reading.anchors.declare name place }
  return place

/-- Defines the node of an anchor. -/
def define (name : Option String) (place : Nat) (node : Node) :
    Reader Node := do
  if name.isSome then
    modify fun reading =>
      { reading with anchors := reading.anchors.define place node }
  return node

def aliasOf (name : String) : Reader Node := do
  match (← get).anchors.numbers.lookup name with
  | some number => return .alias number
  | none => throw (.unknownAnchor name)

/-- How a node may be written at its place. -/
inductive Form where
  /-- Only between brackets, as inside brackets. -/
  | flow
  | block
  /-- Also as a sequence whose dashes stand at the column of the mapping around
  it. -/
  | indentless
deriving DecidableEq, Repr

mutual

/-- Reads a node, unless one of the tokens that stand behind a node comes
next. -/
def nodeUnless (stops : List Token) (form : Form) : Nat → Reader Node
  | 0 => throw .content
  | depth + 1 => do
      if ← sees stops then return .empty
      node form depth

def node (form : Form) : Nat → Reader Node
  | 0 => throw .content
  | depth + 1 => do
      if let some (.alias name) ← peek? then
        advance
        return ← aliasOf name
      let (anchor, tagged) ← properties 2 none false
      let place ← declare anchor
      match ← peek? with
      | some (.scalar scalar) =>
          advance
          define anchor place (.scalar scalar)
      | some .flowSequenceStart =>
          advance
          define anchor place (.sequence (← flowItems true depth))
      | some .flowMappingStart =>
          advance
          define anchor place (.mapping (← flowMembers true depth))
      | next =>
          if next = some .blockSequenceStart && form ≠ .flow then
            advance
            define anchor place (.sequence (← blockItems depth))
          else if next = some .blockMappingStart && form ≠ .flow then
            advance
            define anchor place (.mapping (← blockMembers depth))
          else if next = some .blockEntry && form = .indentless then
            define anchor place (.sequence (← indentlessItems depth))
          else if anchor.isSome || tagged then define anchor place .empty
          else throw .content

/-- Reads the entries of a block sequence and its end. -/
def blockItems : Nat → Reader (List Node)
  | 0 => throw .content
  | depth + 1 => do
      if ← accept .blockEntry then
        let item ← nodeUnless [.blockEntry, .blockEnd] .block depth
        return item :: (← blockItems depth)
      expect .blockEnd
      return []

/-- Reads the entries of a sequence that has no indentation of its own. -/
def indentlessItems : Nat → Reader (List Node)
  | 0 => throw .content
  | depth + 1 => do
      if ← accept .blockEntry then
        let item ← nodeUnless [.blockEntry, .key, .value, .blockEnd]
          .block depth
        return item :: (← indentlessItems depth)
      return []

/-- Reads the members of a block mapping and its end. -/
def blockMembers : Nat → Reader (List (Node × Node))
  | 0 => throw .content
  | depth + 1 => do
      if ← accept .key then
        let stops := [Token.key, .value, .blockEnd]
        let key ← nodeUnless stops .indentless depth
        let value ←
          if ← accept .value then nodeUnless stops .indentless depth
          else pure .empty
        return (key, value) :: (← blockMembers depth)
      expect .blockEnd
      return []

/-- Reads the entries of a sequence between brackets and the closing bracket.
An entry with a colon is a mapping with one member. -/
def flowItems (first : Bool) : Nat → Reader (List Node)
  | 0 => throw .content
  | depth + 1 => do
      if ← accept .flowSequenceEnd then return []
      if !first then expect .flowEntry
      if ← accept .flowSequenceEnd then return []
      let item ← if ← accept .key then pairItem depth else node .flow depth
      return item :: (← flowItems false depth)

/-- Reads the one member of a mapping without brackets.  Where the key is left
out, the token in its place is left behind. -/
def pairItem : Nat → Reader Node
  | 0 => throw .content
  | depth + 1 => do
      let stops := [Token.flowEntry, .flowSequenceEnd]
      let key ←
        if ← sees (.value :: stops) then
          advance
          pure .empty
        else node .flow depth
      let value ← if ← accept .value then
        nodeUnless stops .flow depth else pure .empty
      return .mapping [(key, value)]

/-- Reads the members of a mapping between brackets and the closing bracket. -/
def flowMembers (first : Bool) : Nat → Reader (List (Node × Node))
  | 0 => throw .content
  | depth + 1 => do
      if ← accept .flowMappingEnd then return []
      if !first then expect .flowEntry
      if ← accept .flowMappingEnd then return []
      let stops := [Token.flowEntry, .flowMappingEnd]
      let member ←
        if ← accept .key then
          let key ← nodeUnless (.value :: stops) .flow depth
          let value ← if ← accept .value then
            nodeUnless stops .flow depth else pure .empty
          pure (key, value)
        else pure (← node .flow depth, .empty)
      return member :: (← flowMembers false depth)

end

/-- Reads directives, at most `steps` of them.  A version may be given once, and
so may what each handle stands for. -/
def directives : Nat → (versioned : Bool) → (declared : List String) →
    Reader Unit
  | 0, _, _ => return
  | steps + 1, versioned, declared => do
      match ← peek? with
      | some (.version major minor) =>
          if versioned || major ≠ 1 || (minor ≠ 1 && minor ≠ 2) then
            throw (.content)
          advance
          directives steps true declared
      | some (.handle name) =>
          if declared.contains name then throw (.content)
          modify fun reading =>
            { reading with handles := name :: reading.handles }
          advance
          directives steps versioned (name :: declared)
      | _ => return

/-- Leaves behind the marks that end a document, at most `steps` of them. -/
def documentEnds : Nat → Reader Unit
  | 0 => return
  | steps + 1 => do
      if ← accept .documentEnd then documentEnds steps

/-- Reads the one document of a text.  An empty text has none. -/
def document : Reader (Option Node) := do
  let length := (← get).tokens.length
  let bound := 2 * length + 4
  match ← peek? with
  | none => return none
  | some first =>
      let explicit :=
        match first with
        | .version _ _ | .handle _ | .documentStart => true
        | _ => false
      if explicit then
        directives length false []
        expect .documentStart
      let atEnd :=
        match ← peek? with
        | none | some (.version _ _) | some (.handle _) | some .documentStart
        | some .documentEnd => explicit
        | _ => false
      let root ← if atEnd then pure .empty else node .block bound
      documentEnds length
      if (← peek?).isSome then throw .documents
      return some root

end Reader

/-- A document with its anchors.  An empty text has no root. -/
structure Document where
  root : Option Node
  anchors : Anchors := {}
deriving Repr

namespace Document

def ofTokens (tokens : List Token) : Except Fault Document := do
  let (root, reading) ← Reader.document.run { tokens := tokens }
  return { root := root, anchors := reading.anchors }

def ofText (text : String) : Except Fault Document := do
  ofTokens (← Token.scan text)

/-- The number of marks that write a document. -/
def size (document : Document) : Nat :=
  document.root.elim 0 Node.size

end Document

end DataBridge.Yaml
