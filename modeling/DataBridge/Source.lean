/-!
# Lines of generated source

Generated source is a list of lines.  A line is made of pieces of text, and a
piece that is a name carries a mark which says whether the line introduces the
name or relies on it.
-/

namespace DataBridge

/-- What a line does with a name. -/
inductive Mark where
  /-- The line begins the definition of a function. -/
  | definesFunction
  /-- The line hands a function of this name to the runtime or calls it. -/
  | usesFunction
  /-- The line declares a variable or a type. -/
  | declares
  /-- The line reads or writes a variable, or a part of it. -/
  | uses
deriving DecidableEq, Repr

inductive Piece where
  | text (text : String)
  | name (mark : Mark) (name : String)
deriving DecidableEq, Repr

instance : Coe String Piece := ⟨Piece.text⟩

def Piece.render : Piece → String
  | .text content => content
  | .name _ content => content

/-- A piece that begins a function. -/
def definesFunction (name : String) : Piece := .name .definesFunction name

/-- A piece that names a function. -/
def usesFunction (name : String) : Piece := .name .usesFunction name

/-- A piece that declares a name. -/
def declares (name : String) : Piece := .name .declares name

/-- A piece that uses a variable. -/
def uses (expression : String) : Piece := .name .uses expression

/-- A line of source, or text that is laid out already. -/
inductive Line where
  | indented (depth : Nat) (pieces : List Piece)
  | verbatim (text : String)
deriving DecidableEq, Repr

def indentation (depth : Nat) : String :=
  String.join (List.replicate depth "    ")

namespace Line

/-- The text of a line with its line break. -/
def render : Line → String
  | .indented depth pieces =>
      indentation depth ++ String.join (pieces.map Piece.render) ++ "\n"
  | .verbatim content => content

def plain (depth : Nat) (text : String) : Line := .indented depth [text]

def blank : Line := .indented 0 []

def pieces : Line → List Piece
  | .indented _ pieces => pieces
  | .verbatim content => [.text content]

end Line

abbrev Source := List Line

namespace Source

def render (source : Source) : String :=
  String.join (source.map Line.render)

/-- The names that the source carries with a mark, in order. -/
def marked (mark : Mark) (source : Source) : List String :=
  source.flatMap fun line => line.pieces.filterMap fun piece =>
    match piece with
    | .text _ => none
    | .name found name => if found = mark then some name else none

def block (depth : Nat) (body : Source) : Source :=
  .plain depth r"{" :: body ++ [.plain depth r"}"]

/-- A condition with a block of lines that run when it holds. -/
def guarded (depth : Nat) (condition : List Piece) (body : List (List Piece)) :
    Source :=
  .indented depth (.text "if (" :: (condition ++ [.text ")"])) ::
    block depth (body.map (Line.indented (depth + 1)))

end Source

end DataBridge
