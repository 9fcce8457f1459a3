import DataBridge.Text.Parts

/-!
# Paths

Paths are texts with slashes.  Their parts leave out what does not matter:
empty parts, and single dots behind the first part.
-/

namespace DataBridge

/-- A part of a path.  The order of the constructors is that of paths. -/
inductive PathPart where
  | root
  | here
  | up
  | name (text : String)
deriving DecidableEq, Repr

namespace PathPart

def text : PathPart → String
  | .root => "/"
  | .here => "."
  | .up => ".."
  | .name text => text

/-- The position of a kind of part in the order. -/
def rank : PathPart → Nat
  | .root => 0
  | .here => 1
  | .up => 2
  | .name _ => 3

/-- The order of parts: by kind, and names by their characters. -/
def compare (first second : PathPart) : Ordering :=
  match first, second with
  | .name left, .name right => compareOfLessAndEq left right
  | _, _ => Ord.compare first.rank second.rank

end PathPart

namespace Path

def isAbsolute (path : String) : Bool :=
  path.toList.head? == some '/'

/-- The part that a piece between slashes stands for.  A single dot counts only
at the start of a path that is not absolute. -/
def partOf (first : Bool) (piece : String) : Option PathPart :=
  if piece = "" then none
  else if piece = "." then (if first then some .here else none)
  else if piece = ".." then some .up
  else some (.name piece)

def parts (path : String) : List PathPart :=
  match Text.split '/' path with
  | [] => []
  | piece :: rest =>
      let absolute := isAbsolute path
      (if absolute then [.root] else (partOf true piece).toList) ++
        rest.filterMap (partOf false)

/-- The path below a base.  An absolute path does not need the base. -/
def join (base path : String) : String :=
  if isAbsolute path then path
  else if base = "" then path
  else if base.toList.getLast? == some '/' then base ++ path
  else base ++ "/" ++ path

/-- The order of paths: part by part. -/
def compareParts : List PathPart → List PathPart → Ordering
  | [], [] => .eq
  | [], _ :: _ => .lt
  | _ :: _, [] => .gt
  | first :: rest, second :: others =>
      match first.compare second with
      | .eq => compareParts rest others
      | different => different

/-- Compares two paths by their parts. -/
def compare (first second : String) : Ordering :=
  compareParts (parts first) (parts second)

/-- The last name of a path, if the path ends in a name. -/
def fileName? (path : String) : Option String :=
  match (parts path).getLast? with
  | some (.name text) => some text
  | _ => none

/-- Removes slashes at the end, and single dots behind a slash. -/
def dropEmptyEnd : List Char → List Char
  | '/' :: rest => dropEmptyEnd rest
  | '.' :: '/' :: rest => dropEmptyEnd ('/' :: rest)
  | reversed => reversed

/-- The path without its last part, written as it was.  Nothing is above the
root or the empty path. -/
def parent? (path : String) : Option String :=
  match (parts path).reverse with
  | [] => none
  | .root :: _ => none
  | _ :: above =>
      let trimmed := dropEmptyEnd path.toList.reverse
      let shorter := dropEmptyEnd (trimmed.dropWhile (· != '/'))
      if above = [.root] then some "/"
      else some (String.ofList shorter.reverse)

end Path

end DataBridge
