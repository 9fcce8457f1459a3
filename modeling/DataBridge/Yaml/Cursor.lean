/-!
# Reading positions

A position in a text with what follows it, and the classes of characters that
the syntax of documents distinguishes.
-/

namespace DataBridge.Yaml

/-- Why a text is not a document, with the line where that shows. -/
inductive Fault where
  /-- A character that no document holds. -/
  | forbidden
  /-- A character that starts nothing. -/
  | character (line : Nat)
  /-- A tab where columns count. -/
  | tab (line : Nat)
  /-- A quoted text that does not end. -/
  | unclosed (line : Nat)
  /-- An escape that means nothing. -/
  | escape (line : Nat)
  /-- A mark in front of a block text that means nothing. -/
  | blockMark (line : Nat)
  /-- A colon that touches a bracket or comma. -/
  | colon (line : Nat)
  /-- An anchor, an alias or a tag without a proper name. -/
  | name (line : Nat)
  /-- A directive that is not known. -/
  | directive (line : Nat)
  /-- A sequence entry, a key or a value where none may start. -/
  | misplaced (line : Nat)
  /-- A line that has to be a key and is none. -/
  | keyExpected (line : Nat)
  /-- Tokens that form no node. -/
  | content
  /-- An alias of an anchor that is not known. -/
  | unknownAnchor (name : String)
  /-- A tag with a handle that is not known. -/
  | unknownHandle (handle : String)
  /-- More than one document. -/
  | documents
deriving DecidableEq, Repr

/-- Characters that a document may hold. -/
def isAllowed (char : Char) : Bool :=
  let code := char.toNat
  code == 0x9 || code == 0xA || code == 0xD || (0x20 ≤ code && code ≤ 0x7E) ||
    code == 0x85 ||
    (0xA0 ≤ code && code ≤ 0xD7FF) || (0xE000 ≤ code && code ≤ 0xFFFD) ||
      0x10000 ≤ code

def isBlank (char : Char) : Bool :=
  char == ' ' || char == '\t'

def isBreak (char : Char) : Bool :=
  char == '\n' || char == '\r' || char == '\u0085' || char == '\u2028' ||
    char == '\u2029'

def isWhite (char : Char) : Bool :=
  isBlank char || isBreak char

def isNameChar (char : Char) : Bool :=
  char.isAlphanum || char == '_' || char == '-'

/-- A position in a text.  The offset counts the bytes before it in UTF-8, and
the column counts the characters since the last line break. -/
structure Cursor where
  rest : List Char
  offset : Nat := 0
  line : Nat := 0
  column : Nat := 0
deriving DecidableEq, Repr

namespace Cursor

def ofText (text : String) : Cursor :=
  { rest := text.toList }

def peek? (cursor : Cursor) (distance : Nat) : Option Char :=
  (cursor.rest.drop distance).head?

/-- Whether the next character is the given one. -/
def sees (cursor : Cursor) (char : Char) : Bool :=
  cursor.peek? 0 == some char

/-- Whether white space or the end of the text is `distance` places ahead. -/
def whiteAt (cursor : Cursor) (distance : Nat) : Bool :=
  (cursor.peek? distance).all isWhite

def offsetAt (cursor : Cursor) (count : Nat) : Nat :=
  (cursor.rest.take count).foldl (fun offset char => offset + char.utf8Size)
    cursor.offset

def skip (cursor : Cursor) (count : Nat) : Cursor :=
  { cursor with
    rest := cursor.rest.drop count
    offset := cursor.offsetAt count
    column := cursor.column + count }

/-- Moves over the characters of a class without line breaks. -/
def skipWhile (cursor : Cursor) (holds : Char → Bool) : Cursor :=
  cursor.skip (cursor.rest.takeWhile holds).length

def skipLine (cursor : Cursor) : Cursor :=
  cursor.skipWhile fun char => !isBreak char

/-- Moves to the start of the next line. -/
def startLine (cursor : Cursor) (count : Nat) : Cursor where
  rest := cursor.rest.drop count
  offset := cursor.offsetAt count
  line := cursor.line + 1
  column := 0

/-- The line break at the cursor, as it counts in a text, and the position
after it.  A carriage return with a line feed is one break, and most breaks
count as a line feed. -/
def break? (cursor : Cursor) : Option (Char × Cursor) :=
  match cursor.rest with
  | '\r' :: '\n' :: _ => some ('\n', cursor.startLine 2)
  | char :: _ =>
      if char == '\u2028' || char == '\u2029' then
        some (char, cursor.startLine 1)
      else if isBreak char then some ('\n', cursor.startLine 1)
      else none
  | [] => none

/-- Whether a line starts here that consists of three equal marks, the third
one followed by white space. -/
def marksLine (cursor : Cursor) (mark : Char) : Bool :=
  cursor.column == 0 && cursor.rest.take 3 == [mark, mark, mark] &&
    cursor.whiteAt 3

/-- Whether a document starts or ends here. -/
def marksDocument (cursor : Cursor) : Bool :=
  cursor.marksLine '-' || cursor.marksLine '.'

end Cursor

end DataBridge.Yaml
