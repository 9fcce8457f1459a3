import DataBridge.Text.Casing
import DataBridge.Yaml.Cursor

/-!
# Writing texts

A text in a document is written as plainly as a reader will take it for the same
text again: plain, in single quotes, as a block of lines, or in double quotes.
-/

namespace DataBridge.Yaml

inductive Style where
  | plain
  | single
  | double
  | block
deriving DecidableEq, Repr

/-- Words that some readers take for something else than their text, whatever
their case. -/
def reservedWords : List String :=
  ["", "~", "null", "nil", "nan", "true", "false", "yes", "y", "no", "n",
    "on", "off"]

/-- Whether a plain text could be taken for a value of another kind.  Every text
that starts as a number does counts. -/
def isAmbiguous (text : String) : Bool :=
  reservedWords.contains (Text.lower text) ||
    text.toList.head?.any fun char =>
      char.isDigit || char == '-' || char == '.' || char == '+'

/-- Characters that are written as they are, inside double quotes too. -/
def isPrintable (char : Char) : Bool :=
  let code := char.toNat
  code == 0xA || (0x20 ≤ code && code ≤ 0x7E) ||
    (0xA0 ≤ code && code != 0xFEFF && code != 0xFFFE && code != 0xFFFF)

/-- Whether two characters with the given properties stand side by side. -/
def hasPair (first second : Char → Bool) : List Char → Bool
  | left :: right :: rest =>
      (first left && second right) || hasPair first second (right :: rest)
  | _ => false

/-- Whether white space or the end comes first. -/
def startsWhite (chars : List Char) : Bool :=
  chars.head?.all isWhite

/-- Whether a character at the start of a text has a meaning of its own. -/
def startsMarked : List Char → Bool
  | [] => false
  | char :: rest =>
      "#,[]{}&*!|>'\"%@`".toList.contains char ||
        ("?:-".toList.contains char && startsWhite rest) ||
        (char :: rest).take 3 == ['-', '-', '-'] || (char :: rest).take 3 ==
          ['.', '.', '.']

/-- Whether a colon that ends a key or a mark that starts a comment stands in a
text. -/
def holdsMark : List Char → Bool
  | [] => false
  | char :: rest =>
      (char == ':' && startsWhite rest) ||
        (isWhite char && rest.head? == some '#') ||
        holdsMark rest

namespace Style

/-- Whether blanks stand at the end of a line. -/
def endsLineBlank (chars : List Char) : Bool :=
  hasPair (· == ' ') isBreak chars

/-- Whether a text may be plain. -/
def allowsPlain (chars : List Char) : Bool :=
  chars.all isPrintable && !chars.any isBreak && !chars.head?.any (· == ' ') &&
    !chars.getLast?.any (· == ' ') && !startsMarked chars && !holdsMark chars

/-- Whether a text may stand in single quotes. -/
def allowsSingle (chars : List Char) : Bool :=
  chars.all isPrintable && !endsLineBlank chars &&
    !hasPair isBreak (· == ' ') chars

/-- Whether a text may be a block of lines. -/
def allowsBlock (chars : List Char) : Bool :=
  chars.all isPrintable && !endsLineBlank chars &&
    !chars.getLast?.any (· == ' ')

def ofText (text : String) : Style :=
  let chars := text.toList
  if chars.contains '\n' then
    if allowsBlock chars then .block else .double
  else if !isAmbiguous text && allowsPlain chars then .plain
  else if allowsSingle chars then .single
  else .double

end Style

/-- The upper-case hexadecimal digits of a number, `width` of them. -/
def hexDigits (width : Nat) (code : Nat) : List Char :=
  let digits := (Nat.toDigits 16 code).map Char.toUpper
  List.replicate (width - digits.length) '0' ++ digits

def escaped (char : Char) : List Char :=
  match char with
  | '"' => ['\\', '"']
  | '\\' => ['\\', '\\']
  | '\x00' => ['\\', '0']
  | '\x07' => ['\\', 'a']
  | '\x08' => ['\\', 'b']
  | '\t' => ['\\', 't']
  | '\n' => ['\\', 'n']
  | '\x0b' => ['\\', 'v']
  | '\x0c' => ['\\', 'f']
  | '\r' => ['\\', 'r']
  | '\x1b' => ['\\', 'e']
  | '\u0085' => ['\\', 'N']
  | '\u2028' => ['\\', 'L']
  | '\u2029' => ['\\', 'P']
  | char =>
      if isPrintable char then [char]
      else if char.toNat < 0x100 then '\\' :: 'x' :: hexDigits 2 char.toNat
      else '\\' :: 'u' :: hexDigits 4 char.toNat

/-- Characters with blanks in front of each line but the first, and in front of
that one too if `fresh`. -/
def indented (indent : Nat) (fresh : Bool) : List Char → List Char
  | [] => []
  | char :: rest =>
      if isBreak char then char :: indented indent true rest
      else (if fresh then List.replicate indent ' ' else []) ++ char ::
        indented indent false rest

/-- The mark in front of a block of lines: whether it starts with white space,
and how it ends. -/
def blockMark (chars : List Char) : List Char :=
  let start := if chars.head?.any fun char =>
    char == ' ' || isBreak char then ['2'] else []
  let ending :=
    match chars.reverse with
    | [] => ['-']
    | last :: before =>
        if !isBreak last then ['-'] else if before.head?.all isBreak then ['+']
        else []
  '|' :: start ++ ending

/-- A text in a style, with its further lines behind `indent` blanks. -/
def written (indent : Nat) (text : String) : Style → List Char
  | .plain => text.toList
  | .single =>
      let quoted := text.toList.flatMap fun char =>
        if char == '\'' then ['\'', '\''] else [char]
      let ending := if text.toList.getLast?.any isBreak then
        List.replicate indent ' ' else []
      '\'' :: indented indent false quoted ++ ending ++ ['\'']
  | .double => '"' :: text.toList.flatMap escaped ++ ['"']
  | .block => blockMark text.toList ++ '\n' :: indented indent true text.toList

end DataBridge.Yaml
