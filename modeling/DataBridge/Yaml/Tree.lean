import DataBridge.Yaml.Quoting

/-!
# Written documents

Trees of texts, sequences and mappings with tags, and the document of a tree.
Mappings inside each other are indented by two blanks, and the dashes of a
sequence stand at the column of the mapping around it.
-/

namespace DataBridge.Yaml

/-- A tree that can be written as a document. -/
inductive Tree where
  /-- A word that is not a text, such as a number. -/
  | word (text : String)
  | text (text : String)
  /-- A text that is always quoted. -/
  | quoted (text : String)
  | sequence (items : List Tree)
  | mapping (members : List (String × Tree))
  | tagged (tag : String) (tree : Tree)
deriving Repr

namespace Tree

/-- The longest text that is written in front of its colon. -/
def keyLimit : Nat := 128

def blanks (count : Nat) : String :=
  String.ofList (List.replicate count ' ')

/-- A text behind a blank, up to the end of its line. -/
def line (chars : List Char) : String :=
  let ended := if chars.getLast?.any isBreak then chars else chars ++ ['\n']
  String.ofList (' ' :: ended)

/-- Whether a key is written in front of its colon. -/
def isShortKey (key : String) : Bool :=
  !key.toList.any isBreak && key.utf8ByteSize ≤ keyLimit

/-- A key up to its colon. -/
def keyText (indent : Nat) (key : String) : String :=
  if isShortKey key then
    String.ofList (written indent key (Style.ofText key)) ++ ":"
  else "?" ++ line (written (indent + 2) key (Style.ofText key)) ++
    blanks indent ++ ":"

mutual

/-- What stands behind a colon, a dash or a tag in a collection at a column.  A
mapping starts on a line of its own, or on the same line if `inline`. -/
def valueText (indent : Nat) (inline : Bool) : Tree → String
  | .word value => line value.toList
  | .text value => line (written (indent + 2) value (Style.ofText value))
  | .quoted value => line (written (indent + 2) value .single)
  | .sequence [] => " []\n"
  | .sequence (first :: rest) => "\n" ++ itemsText indent (first :: rest)
  | .mapping [] => " {}\n"
  | .mapping (first :: rest) =>
      let lines := membersText (indent + 2) (first :: rest)
      if inline then " " ++ String.ofList (lines.toList.drop (indent + 2))
      else "\n" ++ lines
  | .tagged tag tree => " !" ++ tag ++ valueText indent false tree

/-- The items of a sequence at a column. -/
def itemsText (indent : Nat) : List Tree → String
  | [] => ""
  | first :: rest =>
      blanks indent ++ "-" ++ valueText indent true first ++
        itemsText indent rest

/-- The members of a mapping at a column. -/
def membersText (indent : Nat) : List (String × Tree) → String
  | [] => ""
  | (key, tree) :: rest =>
      blanks indent ++ keyText indent key ++
        valueText indent (!isShortKey key) tree ++
        membersText indent rest

end

def document (entries : List (String × Tree)) : String :=
  if entries.isEmpty then "{}\n" else membersText 0 entries

end Tree

end DataBridge.Yaml
