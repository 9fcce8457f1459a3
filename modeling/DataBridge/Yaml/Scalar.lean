import DataBridge.Yaml.Cursor

/-!
# Scalars

The three ways to write a text in a document: plain, between quotes, and as a
block of lines.  Lines are folded: one line break counts as a space, and more
breaks count as one less.
-/

namespace DataBridge.Yaml

/-- A text in a document.  Only a plain text can stand for a number, a truth
value or nothing. -/
structure Scalar where
  text : String
  plain : Bool := false
deriving DecidableEq, Repr

structure Setting where
  flow : Bool
  /-- The column of the innermost open block collection, or -1. -/
  indent : Int
deriving DecidableEq, Repr

/-! ## White space inside scalars -/

/-- White space inside a scalar: blanks of one line, or line breaks.  An escaped
break is a first break without a character. -/
inductive Gap where
  | blanks (text : List Char)
  | breaks (first : Option Char) (more : List Char)
deriving DecidableEq, Repr

namespace Gap

/-- No white space. -/
def empty : Gap := .blanks []

def broken : Gap → Bool
  | .blanks _ => false
  | .breaks _ _ => true

/-- One more blank.  Blanks beside a line break do not count. -/
def addBlank (blank : Char) : Gap → Gap
  | .blanks text => .blanks (text ++ [blank])
  | .breaks first more => .breaks first more

/-- One more line break.  It takes away the blanks before it. -/
def addBreak (char : Char) : Gap → Gap
  | .blanks _ => .breaks (some char) []
  | .breaks first more => .breaks first (more ++ [char])

/-- What the gap counts as. -/
def folded : Gap → List Char
  | .blanks text => text
  | .breaks (some '\n') [] => [' ']
  | .breaks (some '\n') more => more
  | .breaks first more => first.toList ++ more

end Gap

/-- Reads at most `steps` characters of white space.  On a later line no tab may
stand in front of the column `limit`. -/
def gapFrom (limit : Int) : Nat → Gap → Cursor → Except Fault (Gap × Cursor)
  | 0, gap, cursor => .ok (gap, cursor)
  | steps + 1, gap, cursor =>
      match cursor.break? with
      | some (char, next) => gapFrom limit steps (gap.addBreak char) next
      | none =>
          match cursor.rest with
          | char :: _ =>
              if isBlank char then
                if gap.broken && char == '\t' && cursor.column < limit then
                  .error (.tab cursor.line)
                else gapFrom limit steps (gap.addBlank char) (cursor.skip 1)
              else .ok (gap, cursor)
          | [] => .ok (gap, cursor)

def readGap (limit : Int) (gap : Gap) (cursor : Cursor) :
    Except Fault (Gap × Cursor) :=
  gapFrom limit cursor.rest.length gap cursor

/-! ## Plain scalars -/

/-- Characters that end a plain scalar between brackets. -/
def isFlowMark (char : Char) : Bool :=
  ",[]{}".toList.contains char

/-- The number of characters up to white space or to the end of a plain
scalar. -/
def plainRun (flow : Bool) (line : Nat) : List Char → Except Fault Nat
  | [] => .ok 0
  | char :: rest =>
      if isWhite char then .ok 0
      else if flow && char == ':' && rest.head?.any fun next =>
          next == '?' || isFlowMark next then
        .error (.colon line)
      else if char == ':' && rest.head?.all isWhite then .ok 0
      else if flow && isFlowMark char then .ok 0
      else do
        return (← plainRun flow line rest) + 1

/-- Reads a plain scalar from where the gap ends, at most `steps` runs of it.
The answer also says whether white space with a line break follows. -/
def plainFrom (setting : Setting) :
    Nat → List Char → Gap → Cursor → Except Fault (List Char × Bool × Cursor)
  | 0, text, gap, cursor => .ok (text, gap.broken, cursor)
  | steps + 1, text, gap, cursor =>
      if cursor.marksDocument || cursor.sees '#' then
        .ok (text, gap.broken, cursor)
      else do
        let count ← plainRun setting.flow cursor.line cursor.rest
        if count = 0 then return (text, gap.broken, cursor)
        let longer := text ++ gap.folded ++ cursor.rest.take count
        let limit := setting.indent + 1
        let (gap, next) ← readGap limit .empty (cursor.skip count)
        if gap = .empty || (!setting.flow && next.column < limit) then
          return (longer, gap.broken, next)
        else plainFrom setting steps longer gap next

def readPlain (setting : Setting) (cursor : Cursor) :
    Except Fault (Scalar × Bool × Cursor) := do
  let (text, broken, next) ← plainFrom setting cursor.rest.length
    [] .empty cursor
  return ({ text := String.ofList text, plain := true }, broken, next)

/-! ## Quoted scalars -/

def hexDigit? (char : Char) : Option Nat :=
  if char.isDigit then some (char.toNat - '0'.toNat)
  else if 'a' ≤ char && char ≤ 'f' then some (char.toNat - 'a'.toNat + 10)
  else if 'A' ≤ char && char ≤ 'F' then some (char.toNat - 'A'.toNat + 10)
  else none

/-- The character that `count` hexadecimal digits name. -/
def charOfHex? (count : Nat) (digits : List Char) : Option Char := do
  let values ← (digits.take count).mapM hexDigit?
  let code := values.foldl (fun total value => total * 16 + value) 0
  if values.length = count && (Char.ofNat code).toNat = code then
    some (Char.ofNat code) else none

/-- The number of hexadecimal digits behind a letter that names a character by
its number. -/
def hexLength? : Char → Option Nat
  | 'x' => some 2
  | 'u' => some 4
  | 'U' => some 8
  | _ => none

/-- The character that an escape with one letter means. -/
def escape? : Char → Option Char
  | '0' => some '\x00'
  | 'a' => some '\x07'
  | 'b' => some '\x08'
  | 't' | '\t' => some '\t'
  | 'n' => some '\n'
  | 'v' => some '\x0b'
  | 'f' => some '\x0c'
  | 'r' => some '\r'
  | 'e' => some '\x1b'
  | ' ' => some ' '
  | '"' => some '"'
  | '/' => some '/'
  | '\\' => some '\\'
  | 'N' => some '\u0085'
  | '_' => some '\u00a0'
  | 'L' => some '\u2028'
  | 'P' => some '\u2029'
  | _ => none

/-- What stands next in a quoted scalar. -/
inductive QuotedPiece where
  | char (char : Char) (length : Nat)
  | close
  /-- A line break behind a backslash. -/
  | continued
  /-- White space or the end of the text. -/
  | gap
deriving DecidableEq, Repr

/-- The next piece of a scalar between single or double quotes. -/
def quotedPiece (quote : Char) (line : Nat) :
    List Char → Except Fault QuotedPiece
  | [] => .ok .gap
  | char :: rest =>
      if isWhite char then .ok .gap
      else if char == quote then
        if quote == '\'' && rest.head? == some '\'' then .ok (.char '\'' 2)
        else .ok .close
      else if quote == '"' && char == '\\' then
        match rest with
        | [] => .error (.escape line)
        | letter :: digits =>
            if isBreak letter then .ok .continued
            else
              match hexLength? letter, escape? letter with
              | some count, _ =>
                  match charOfHex? count digits with
                  | some named => .ok (.char named (count + 2))
                  | none => .error (.escape line)
              | none, some meant => .ok (.char meant 2)
              | none, none => .error (.escape line)
      else .ok (.char char 1)

/-- Reads a quoted scalar behind its opening quote, at most `steps` pieces of
it. -/
def quotedFrom (quote : Char) :
    Nat → List Char → Cursor → Except Fault (List Char × Cursor)
  | 0, _, cursor => .error (.unclosed cursor.line)
  | steps + 1, text, cursor => do
      match ← quotedPiece quote cursor.line cursor.rest with
      | .char char length =>
          quotedFrom quote steps (char :: text) (cursor.skip length)
      | .close => return (text.reverse, cursor.skip 1)
      | .continued =>
          match (cursor.skip 1).break? with
          | none => throw (.escape cursor.line)
          | some (_, next) =>
              if next.sees quote then return (text.reverse, next.skip 1)
              else resume steps text (.breaks none []) next
      | .gap => resume steps text .empty cursor
where
  /-- Goes on behind white space, unless the text or the document ends there. -/
  resume (steps : Nat) (text : List Char) (gap : Gap) (cursor : Cursor) :
      Except Fault (List Char × Cursor) := do
    let (gap, next) ← readGap 0 gap cursor
    if next.marksDocument || next.rest.isEmpty then throw (.unclosed next.line)
    quotedFrom quote steps (gap.folded.reverse ++ text) next

def readQuoted (quote : Char) (cursor : Cursor) :
    Except Fault (Scalar × Cursor) := do
  let (text, next) ← quotedFrom quote cursor.rest.length [] (cursor.skip 1)
  return ({ text := String.ofList text }, next)

/-! ## Block scalars -/

/-- What happens to the line breaks at the end of a block. -/
inductive Chomping where
  | strip
  | clip
  | keep
deriving DecidableEq, Repr

namespace Chomping

def ofMark? : Char → Option Chomping
  | '-' => some .strip
  | '+' => some .keep
  | _ => none

/-- What is left of the last line break and the breaks behind it. -/
def ending (last more : List Char) : Chomping → List Char
  | .strip => []
  | .clip => last
  | .keep => last ++ more

end Chomping

/-- How a block is written: its chomping, and how far it is indented if that is
said. -/
structure BlockHeader where
  chomping : Chomping := .clip
  increment : Option Nat := none
deriving DecidableEq, Repr

/-- Reads what stands between the mark of a block and the end of its line. -/
def readBlockHeader (cursor : Cursor) :
    Except Fault (BlockHeader × Cursor) := do
  let chomping? (cursor : Cursor) : Option Chomping :=
    (cursor.peek? 0).bind Chomping.ofMark?
  let digit? (cursor : Cursor) : Option Nat :=
    (cursor.peek? 0).bind fun char =>
      if char.isDigit then hexDigit? char else none
  let (header, next) : BlockHeader × Cursor :=
    match chomping? cursor with
    | some chomping =>
        match digit? (cursor.skip 1) with
        | some digit => (⟨chomping, some digit⟩, cursor.skip 2)
        | none => (⟨chomping, none⟩, cursor.skip 1)
    | none =>
        match digit? cursor with
        | some digit =>
            match chomping? (cursor.skip 1) with
            | some chomping => (⟨chomping, some digit⟩, cursor.skip 2)
            | none => (⟨.clip, some digit⟩, cursor.skip 1)
        | none => (⟨.clip, none⟩, cursor)
  if header.increment = some 0 then throw (.blockMark cursor.line)
  let next := next.skipWhile isBlank
  let next := if next.sees '#' then next.skipLine else next
  match next.break? with
  | some (_, start) => return (header, start)
  | none => if next.rest.isEmpty then
      return (header, next) else throw (.blockMark cursor.line)

/-- Reads empty lines and the indentation of the line behind them, at most
`steps` lines.  Without a known indentation the widest of these lines counts. -/
def emptyLines (indent : Option Nat) :
    Nat → List Char → Nat → Cursor → Except Fault (List Char × Nat × Cursor)
  | 0, breaks, widest, cursor => .ok (breaks, widest, cursor)
  | steps + 1, breaks, widest, cursor =>
      let spaces := (cursor.rest.takeWhile (· == ' ')).length
      let next := cursor.skip (indent.elim spaces fun column =>
        min spaces (column - cursor.column))
      let widest := max widest next.column
      if next.sees '\t' && indent.all (next.column < ·) then
        .error (.tab next.line)
      else
        match next.break? with
        | some (char, line) =>
            emptyLines indent steps (breaks ++ [char]) widest line
        | none => .ok (breaks, widest, next)

def readEmptyLines (indent : Option Nat) (cursor : Cursor) :
    Except Fault (List Char × Nat × Cursor) :=
  emptyLines indent (cursor.rest.length + 1) [] 0 cursor

/-- Reads the lines of a block, at most `steps` of them.  `last` is the break
behind the line before, `more` are the breaks behind that, and `blank` says
whether that line starts with a blank. -/
def blockLines (folding : Bool) (indent : Nat) (chomping : Chomping) :
    Nat → List Char → List Char → List Char → Bool → Cursor →
      Except Fault (List Char × Cursor)
  | 0, text, _, _, _, cursor => .ok (text, cursor)
  | steps + 1, text, last, more, blank, cursor =>
      if cursor.column = indent && !cursor.rest.isEmpty then do
        let blankHere := (cursor.peek? 0).any isBlank
        let joint :=
          if folding && last == ['\n'] && !blank && !blankHere then
            if more.isEmpty then [' '] else more
          else last ++ more
        let line := cursor.rest.takeWhile fun char => !isBreak char
        let ended := cursor.skip line.length
        let (last, start) : List Char × Cursor :=
          match ended.break? with
          | some (char, start) => ([char], start)
          | none => ([], ended)
        let (more, _, next) ← readEmptyLines (some indent) start
        blockLines folding indent chomping steps (text ++ joint ++ line) last
          more blankHere next
      else return (text ++ chomping.ending last more, cursor)

def readBlock (folding : Bool) (setting : Setting) (cursor : Cursor) :
    Except Fault (Scalar × Cursor) := do
  let (header, start) ← readBlockHeader (cursor.skip 1)
  let said := header.increment.map fun increment =>
    (max setting.indent 0).toNat + increment
  let (more, widest, next) ← readEmptyLines said start
  let indent := said.getD (max (max widest (setting.indent + 1).toNat) 1)
  let (text, next) ←
    blockLines folding indent header.chomping (cursor.rest.length + 1) []
      [] more false next
  return ({ text := String.ofList text }, next)

end DataBridge.Yaml
