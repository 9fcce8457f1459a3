/-!
# Parts of a text

Whether one text occurs inside another, what stands between the occurrences of a
character, and a text without the blanks around it.  A blank is a character with
the Unicode property `White_Space`; format characters such as the zero-width
space and the byte order mark do not have it.
-/

namespace DataBridge.Text

/-- Whether `part` stands at some position of the characters. -/
def occursIn (part : List Char) : List Char → Bool
  | [] => part.isEmpty
  | c :: rest => part.isPrefixOf (c :: rest) || occursIn part rest

/-- Whether the text `part` occurs somewhere in the text `whole`. -/
def contains (whole part : String) : Bool :=
  occursIn part.toList whole.toList

/-- The parts between occurrences of a separator.  There is one part more than
there are separators. -/
def splitChars (separator : Char) : List Char → List (List Char)
  | [] => [[]]
  | c :: rest =>
      if c = separator then [] :: splitChars separator rest
      else
        match splitChars separator rest with
        | [] => [[c]]
        | part :: parts => (c :: part) :: parts

/-- The parts of a text between occurrences of a separator. -/
def split (separator : Char) (text : String) : List String :=
  (splitChars separator text.toList).map String.ofList

/-- A character with the Unicode property `White_Space`. -/
def isBlank (c : Char) : Bool :=
  let n := c.toNat
  (9 ≤ n && n ≤ 13) || n == 32 || n == 0x85 || n == 0xA0 || n == 0x1680 ||
    (0x2000 ≤ n && n ≤ 0x200A) || n == 0x2028 || n == 0x2029 || n == 0x202F ||
    n == 0x205F || n == 0x3000

/-- Drops the blanks at the end of a list of characters. -/
def dropBlanksRight (cs : List Char) : List Char :=
  cs.foldr (fun c kept => if isBlank c && kept.isEmpty then [] else c :: kept)
    []

/-- The text without the blanks at either end. -/
def trim (s : String) : String :=
  String.ofList (dropBlanksRight (s.toList.dropWhile isBlank))

end DataBridge.Text
