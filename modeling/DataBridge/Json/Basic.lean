/-!
# JSON documents

Documents with whole numbers and with object members in a fixed order, and
their printed form: two blanks for each level, one member or element a line.
-/

namespace DataBridge

/-- A JSON document.  Its numbers are whole. -/
inductive Json where
  | null
  | bool (value : Bool)
  | number (value : Int)
  | string (text : String)
  | array (items : List Json)
  | object (members : List (String × Json))
deriving Repr

namespace Json

instance : Coe String Json := ⟨Json.string⟩

instance : Inhabited Json := ⟨.null⟩

/-- The value of a member of an object, the first of its name. -/
def member? (name : String) : Json → Option Json
  | .object members => members.lookup name
  | _ => none

/-- The hexadecimal digit of a number below sixteen. -/
def hexDigit (n : Nat) : Char :=
  if n < 10 then Char.ofNat (48 + n) else Char.ofNat (87 + n)

/-- A character inside quotes.  Quotes, backslashes and the characters below
the blank are escaped, the latter by a letter where there is one. -/
def escapeChar (c : Char) : List Char :=
  match c with
  | '"' => ['\\', '"']
  | '\\' => ['\\', '\\']
  | '\n' => ['\\', 'n']
  | '\r' => ['\\', 'r']
  | '\t' => ['\\', 't']
  | '\x08' => ['\\', 'b']
  | '\x0c' => ['\\', 'f']
  | c =>
      if c.toNat < 32 then
        ['\\', 'u', '0', '0', hexDigit (c.toNat / 16), hexDigit (c.toNat % 16)]
      else [c]

def quote (text : String) : String :=
  String.ofList ('"' :: text.toList.flatMap escapeChar ++ ['"'])

/-- The line break in front of a member or element, with its blanks. -/
def lineBreak (depth : Nat) : String :=
  "\n" ++ String.join (List.replicate depth "  ")

mutual

/-- The printed form of a document that stands `depth` levels deep. -/
def prettyAt (depth : Nat) : Json → String
  | .null => "null"
  | .bool true => "true"
  | .bool false => "false"
  | .number value => toString value
  | .string text => quote text
  | .array [] => "[]"
  | .array (first :: rest) =>
      "[" ++ lineBreak (depth + 1) ++ prettyAt (depth + 1) first ++
        prettyItems (depth + 1) rest ++
        lineBreak depth ++ "]"
  | .object [] => "{}"
  | .object (first :: rest) =>
      r"{" ++ lineBreak (depth + 1) ++ prettyMember (depth + 1) first ++
        prettyMembers (depth + 1) rest ++ lineBreak depth ++ r"}"

/-- The printed form of the elements after the first. -/
def prettyItems (depth : Nat) : List Json → String
  | [] => ""
  | first :: rest =>
      "," ++ lineBreak depth ++ prettyAt depth first ++ prettyItems depth rest

def prettyMember (depth : Nat) : String × Json → String
  | (name, value) => quote name ++ ": " ++ prettyAt depth value

/-- The printed form of the members after the first. -/
def prettyMembers (depth : Nat) : List (String × Json) → String
  | [] => ""
  | first :: rest =>
      "," ++ lineBreak depth ++ prettyMember depth first ++
        prettyMembers depth rest

end

def pretty (document : Json) : String :=
  prettyAt 0 document

end Json

end DataBridge
