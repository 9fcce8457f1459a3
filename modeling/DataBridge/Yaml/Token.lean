import DataBridge.Yaml.Scalar

/-!
# Tokens

A document as a list of tokens.  Indentation becomes tokens of its own, which
open and close block collections.  A text only shows at its colon that it is a
key, so the tokens in front of a key are put in when the colon is reached.
-/

namespace DataBridge.Yaml

inductive Token where
  | version (major minor : Nat)
  | handle (name : String)
  | documentStart
  | documentEnd
  | blockSequenceStart
  | blockMappingStart
  | blockEnd
  | flowSequenceStart
  | flowSequenceEnd
  | flowMappingStart
  | flowMappingEnd
  | flowEntry
  | blockEntry
  | key
  | value
  | alias (name : String)
  | anchor (name : String)
  /-- A tag, of which only the handle counts. -/
  | tag (handle : String)
  | scalar (scalar : Scalar)
deriving DecidableEq, Repr

/-- A place where a key may start. -/
structure KeyStart where
  /-- The number of tokens before it. -/
  position : Nat
  /-- Whether the line has to be a key, because it stands where the keys of an
  open mapping do. -/
  required : Bool
  offset : Nat
  line : Nat
  column : Nat
deriving DecidableEq, Repr

/-- The number of bytes of the longest text that can be a key. -/
def keyLimit : Nat := 1024

/-- Whether a key that starts there can still end at the cursor. -/
def KeyStart.reaches (start : KeyStart) (cursor : Cursor) : Bool :=
  start.line == cursor.line && cursor.offset ≤ start.offset + keyLimit

/-- The tokens of the text before the cursor, and what is open there. -/
structure Scan where
  cursor : Cursor
  tokens : Array Token := #[]
  /-- The column of the innermost open block collection, or -1. -/
  indent : Int := -1
  /-- The columns of the block collections around it. -/
  outerIndents : List Int := []
  /-- Where a key may have started between the innermost open brackets. -/
  keyStart : Option KeyStart := none
  /-- The same for the brackets around them.  There is one entry for each open
  bracket. -/
  outerKeyStarts : List (Option KeyStart) := []
  /-- Whether a key may start at the cursor. -/
  keyAllowed : Bool := true

namespace Scan

def inFlow (scan : Scan) : Bool :=
  !scan.outerKeyStarts.isEmpty

/-- The setting of a scalar at the cursor. -/
def setting (scan : Scan) : Setting where
  flow := scan.inFlow
  indent := scan.indent

def push (scan : Scan) (token : Token) : Scan :=
  { scan with tokens := scan.tokens.push token }

/-- Adds a token and moves behind its characters. -/
def pushSkip (scan : Scan) (token : Token) (count : Nat) : Scan :=
  { scan.push token with cursor := scan.cursor.skip count }

/-- Puts a token in front of those from a position on. -/
def insertAt (scan : Scan) (position : Nat) (token : Token) : Scan :=
  { scan with tokens := scan.tokens.insertIdxIfInBounds position token }

/-- Says whether a key may start at the cursor. -/
def allowKey (scan : Scan) (allowed : Bool) : Scan :=
  { scan with keyAllowed := allowed }

/-! ## Indentation -/

/-- Opens a block collection at a column, unless one is open there or brackets
are open. -/
def openBlock (scan : Scan) (column : Nat) (token : Token) (position : Nat) :
    Scan :=
  if scan.inFlow || decide ((column : Int) ≤ scan.indent) then scan
  else
    let opened :=
      { scan with
        indent := column, outerIndents := scan.indent :: scan.outerIndents }
    if position < scan.tokens.size then opened.insertAt position token
    else opened.push token

/-- Closes the block collections at columns greater than `column`, of which
`outer` are open around the innermost one. -/
def closeFrom (column : Int) : List Int → Scan → Scan
  | [], scan => scan
  | indent :: outer, scan =>
      if column < scan.indent then
        closeFrom column outer
          { scan.push .blockEnd with indent := indent, outerIndents := outer }
      else scan

/-- Closes the block collections that a line at a column is not part of. -/
def closeBlocks (scan : Scan) (column : Int) : Scan :=
  if scan.inFlow then scan else closeFrom column scan.outerIndents scan

/-! ## Keys -/

/-- Gives up a place where a key may have started. -/
def dropKey (line : Nat) : Option KeyStart → Except Fault (Option KeyStart)
  | some start => if start.required then
      .error (.keyExpected line) else .ok none
  | none => .ok none

/-- Gives up the innermost place where a key may have started. -/
def forgetKey (scan : Scan) : Except Fault Scan := do
  return { scan with keyStart := ← dropKey scan.cursor.line scan.keyStart }

/-- Gives up a place that is too far away. -/
def dropFar (cursor : Cursor) : Option KeyStart → Except Fault (Option KeyStart)
  | some start =>
      if start.reaches cursor then .ok (some start)
      else dropKey cursor.line (some start)
  | none => .ok none

/-- Gives up the places that are too far away. -/
def forgetFar (scan : Scan) : Except Fault Scan := do
  let outer ← scan.outerKeyStarts.mapM (dropFar scan.cursor)
  return { scan with
    keyStart := ← dropFar scan.cursor scan.keyStart
    outerKeyStarts := outer }

/-- Notes that the next token may start a key. -/
def noteKey (scan : Scan) : Except Fault Scan := do
  if !scan.keyAllowed then return scan
  let start : KeyStart :=
    { position := scan.tokens.size
      required := !scan.inFlow && scan.indent == scan.cursor.column
      offset := scan.cursor.offset
      line := scan.cursor.line
      column := scan.cursor.column }
  return { ← scan.forgetKey with keyStart := some start }

/-! ## White space between tokens -/

/-- Moves to the next token, over at most `steps` lines.  Tabs may stand where
they cannot be taken for indentation, and a key may start on a new line.  A byte
order mark at the start of a line is passed over but counts as a column. -/
def skipFrom : Nat → Scan → Scan
  | 0, scan => scan
  | steps + 1, scan =>
      let cursor := scan.cursor
      let tabs := scan.inFlow || !scan.keyAllowed
      let next := if cursor.column = 0 && cursor.sees '\ufeff' then
        cursor.skip 1 else cursor
      let next := next.skipWhile fun char =>
        char == ' ' || (tabs && char == '\t')
      let next := if next.sees '#' then next.skipLine else next
      match next.break? with
      | some (_, line) =>
          skipFrom steps
            { scan with
              cursor := line, keyAllowed := scan.keyAllowed || !scan.inFlow }
      | none => { scan with cursor := next }

def skipSpace (scan : Scan) : Scan :=
  skipFrom (scan.cursor.rest.length + 1) scan

/-! ## Tokens of one or more characters -/

/-- A line that starts or ends a document. -/
def documentLine (scan : Scan) (token : Token) : Except Fault Scan := do
  return ((← (scan.closeBlocks (-1)).forgetKey).allowKey false).pushSkip token 3

def openFlow (scan : Scan) (token : Token) : Except Fault Scan := do
  let noted ← scan.noteKey
  return { (noted.allowKey true).pushSkip token 1 with
    keyStart := none
    outerKeyStarts := noted.keyStart :: noted.outerKeyStarts }

def closeFlow (scan : Scan) (token : Token) : Except Fault Scan := do
  let closed := ((← scan.forgetKey).allowKey false).pushSkip token 1
  match closed.outerKeyStarts with
  | [] => return closed
  | start :: outer =>
      return { closed with keyStart := start, outerKeyStarts := outer }

def flowEntry (scan : Scan) : Except Fault Scan := do
  return ((← scan.forgetKey).allowKey true).pushSkip .flowEntry 1

/-- Opens a block collection for an entry, a key or a value, which must be
allowed there. -/
def startEntry (scan : Scan) (collection : Token) : Except Fault Scan :=
  if scan.inFlow then .ok scan
  else if scan.keyAllowed then
    .ok (scan.openBlock scan.cursor.column collection scan.tokens.size)
  else .error (.misplaced scan.cursor.line)

/-- A dash in front of a sequence entry. -/
def blockEntry (scan : Scan) : Except Fault Scan := do
  let started ← scan.startEntry .blockSequenceStart
  return ((← started.forgetKey).allowKey true).pushSkip .blockEntry 1

/-- A question mark in front of a key. -/
def explicitKey (scan : Scan) : Except Fault Scan := do
  let started ← scan.startEntry .blockMappingStart
  return ((← started.forgetKey).allowKey (!scan.inFlow)).pushSkip .key 1

/-- A colon in front of a value. -/
def value (scan : Scan) : Except Fault Scan := do
  match scan.keyStart with
  | some start =>
      let keyed :=
        (scan.insertAt start.position .key).openBlock start.column
          .blockMappingStart
        start.position
      return { (keyed.allowKey false).pushSkip .value 1 with keyStart := none }
  | none =>
      let started ← scan.startEntry .blockMappingStart
      return (started.allowKey (!scan.inFlow)).pushSkip .value 1

/-- Characters that may follow a name. -/
def endsName (cursor : Cursor) : Bool :=
  (cursor.peek? 0).all fun char =>
    isWhite char || r"?:,]}%@`".toList.contains char

/-- A name behind a mark, as an anchor or an alias. -/
def named (scan : Scan) (token : String → Token) : Except Fault Scan := do
  let noted ← scan.noteKey
  let start := scan.cursor.skip 1
  let next := start.skipWhile isNameChar
  if next.offset = start.offset || !endsName next then
    throw (.name scan.cursor.line)
  let name := String.ofList (start.rest.takeWhile isNameChar)
  return { (noted.allowKey false).push (token name) with cursor := next }

/-- A scalar that has been read up to a position. -/
def pushScalar (scan : Scan) (scalar : Scalar) (allowed : Bool)
    (next : Cursor) : Scan :=
  { (scan.allowKey allowed).push (.scalar scalar) with cursor := next }

def blockScalar (scan : Scan) (folding : Bool) : Except Fault Scan := do
  let ready ← scan.forgetKey
  let (scalar, next) ← readBlock folding scan.setting scan.cursor
  return ready.pushScalar scalar true next

def quoted (scan : Scan) (quote : Char) : Except Fault Scan := do
  let noted ← scan.noteKey
  let (scalar, next) ← readQuoted quote scan.cursor
  return noted.pushScalar scalar false next

def plain (scan : Scan) : Except Fault Scan := do
  let noted ← scan.noteKey
  let (scalar, broken, next) ← readPlain scan.setting scan.cursor
  return noted.pushScalar scalar broken next

/-! ## Tags and directives -/

def isTagChar (char : Char) : Bool :=
  isNameChar char || ";/?:@&=+$.!~*'()%".toList.contains char

def isTagUriChar (char : Char) : Bool :=
  isTagChar char || char == ',' || char == '[' || char == ']'

/-- The number of characters of a tag, in which a percent sign stands in front
of two hexadecimal digits. -/
def tagRun (holds : Char → Bool) : List Char → Option Nat
  | [] => some 0
  | '%' :: first :: second :: rest =>
      if (hexDigit? first).isSome && (hexDigit? second).isSome then
        (tagRun holds rest).map (· + 3)
      else none
  | char :: rest =>
      if char == '%' then none
      else if holds char then (tagRun holds rest).map (· + 1)
      else some 0

/-- The handle at the start of a tag: one exclamation mark, or a name between
two. -/
def handleOf (text : List Char) : String :=
  let name := (text.drop 1).takeWhile isNameChar
  if ((text.drop 1).drop name.length).head? == some '!' then
    String.ofList ('!' :: name ++ ['!'])
  else "!"

def tag (scan : Scan) : Except Fault Scan := do
  let noted ← scan.noteKey
  let fault := Fault.name scan.cursor.line
  let finish (handle : String) (next : Cursor) : Except Fault Scan :=
    if next.whiteAt 0 || (scan.inFlow && next.sees ',') then
      .ok { (noted.allowKey false).push (.tag handle) with cursor := next }
    else .error fault
  if scan.cursor.peek? 1 = some '<' then
    let start := scan.cursor.skip 2
    match tagRun isTagUriChar start.rest with
    | some count =>
        if count = 0 || !(start.skip count).sees '>' then throw fault
        finish "" (start.skip (count + 1))
    | none => throw fault
  else
    let handle := handleOf scan.cursor.rest
    let start := scan.cursor.skip handle.length
    match tagRun isTagChar start.rest with
    | some count =>
        if count = 0 && handle != "!" then throw fault
        finish handle (start.skip count)
    | none => throw fault

/-- The number at the start of a text, of at most nine digits, and its
length. -/
def number? (text : List Char) : Option (Nat × Nat) :=
  let digits := text.takeWhile Char.isDigit
  if digits.isEmpty || 9 < digits.length then none
  else
    let value :=
      digits.foldl (fun total digit => total * 10 + (digit.toNat - '0'.toNat)) 0
    some (value, digits.length)

def version? (cursor : Cursor) : Option (Token × Cursor) := do
  let start := cursor.skipWhile isBlank
  let (major, length) ← number? start.rest
  let middle := start.skip length
  if !middle.sees '.' then none
  let (minor, length) ← number? (middle.rest.drop 1)
  return (.version major minor, middle.skip (length + 1))

/-- Reads a handle and what it stands for behind their directive. -/
def handle? (cursor : Cursor) : Option (Token × Cursor) := do
  let start := cursor.skipWhile isBlank
  if !start.sees '!' then none
  let handle := handleOf start.rest
  let middle := start.skip handle.length
  if !(middle.peek? 0).any isBlank then none
  let text := middle.skipWhile isBlank
  let count ← tagRun isTagUriChar text.rest
  if count = 0 || !(text.skip count).whiteAt 0 then none
  return (.handle handle, text.skip count)

def directive (scan : Scan) : Except Fault Scan := do
  let ready := (← (scan.closeBlocks (-1)).forgetKey).allowKey false
  let fault := Fault.directive scan.cursor.line
  let start := scan.cursor.skip 1
  let name := String.ofList (start.rest.takeWhile isNameChar)
  let behind := start.skipWhile isNameChar
  if !behind.whiteAt 0 then throw fault
  let read : Option (Token × Cursor) :=
    if name = "YAML" then version? behind else if name = "TAG" then
      handle? behind else none
  match read with
  | none => throw fault
  | some (token, next) =>
      let next := next.skipWhile isBlank
      let next := if next.sees '#' then next.skipLine else next
      match next.break? with
      | some (_, line) => return { ready.push token with cursor := line }
      | none =>
          if next.rest.isEmpty then
            return { ready.push token with cursor := next }
          else throw fault

/-! ## The whole text -/

/-- Characters that cannot start a plain scalar. -/
def isIndicator (char : Char) : Bool :=
  "-?:,[]{}#&*!|>'\"%@`".toList.contains char

/-- Whether a plain scalar starts at the cursor. -/
def startsPlain (scan : Scan) (char : Char) : Bool :=
  (!isWhite char && !isIndicator char) ||
    (char == '-' && !(scan.cursor.peek? 1).any isBlank) ||
    (!scan.inFlow && (char == '?' || char == ':') && !scan.cursor.whiteAt 1)

/-- The token that starts with a character at the cursor. -/
def token (scan : Scan) (char : Char) : Except Fault Scan :=
  let cursor := scan.cursor
  let stands := scan.inFlow || cursor.whiteAt 1
  if cursor.column = 0 && char == '%' then scan.directive
  else if cursor.marksLine '-' then scan.documentLine .documentStart
  else if cursor.marksLine '.' then scan.documentLine .documentEnd
  else if char == '[' then scan.openFlow .flowSequenceStart
  else if char == '{' then scan.openFlow .flowMappingStart
  else if char == ']' then scan.closeFlow .flowSequenceEnd
  else if char == '}' then scan.closeFlow .flowMappingEnd
  else if char == ',' then scan.flowEntry
  else if char == '-' && cursor.whiteAt 1 then scan.blockEntry
  else if char == '?' && stands then scan.explicitKey
  else if char == ':' && stands then scan.value
  else if char == '*' then scan.named .alias
  else if char == '&' then scan.named .anchor
  else if char == '!' then scan.tag
  else if char == '|' && !scan.inFlow then scan.blockScalar false
  else if char == '>' && !scan.inFlow then scan.blockScalar true
  else if char == '\'' || char == '"' then scan.quoted char
  else if scan.startsPlain char then scan.plain
  else .error (.character cursor.line)

/-- The end of the text closes everything.  An unfinished last line counts as a
line. -/
def finish (scan : Scan) : Except Fault (Array Token) := do
  return (← (scan.closeBlocks (-1)).forgetKey).tokens

def run : Nat → Scan → Except Fault (Array Token)
  | 0, scan => .ok scan.tokens
  | steps + 1, scan => do
      let next ← scan.skipSpace.forgetFar
      let next := next.closeBlocks next.cursor.column
      match next.cursor.rest with
      | [] => next.finish
      | char :: _ => run steps (← next.token char)

end Scan

def Token.scan (text : String) : Except Fault (List Token) := do
  if !text.toList.all isAllowed then throw .forbidden
  return (← Scan.run (text.length + 1) { cursor := .ofText text }).toList

end DataBridge.Yaml
