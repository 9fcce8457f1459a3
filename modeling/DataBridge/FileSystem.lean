import DataBridge.Path

/-!
# A file system

A tree of directories and files with a working directory, as a value.  Places
in the tree are lists of names from the root; the operations take paths as they
are written.
-/

namespace DataBridge

/-- Why an operation on files fails. -/
inductive FileError where
  | notFound
  | exists
  | notDirectory
  | isDirectory
  | notText
deriving DecidableEq, Repr

def FileError.message : FileError → String
  | .notFound => "No such file or directory (os error 2)"
  | .exists => "File exists (os error 17)"
  | .notDirectory => "Not a directory (os error 20)"
  | .isDirectory => "Is a directory (os error 21)"
  | .notText => "stream did not contain valid UTF-8"

inductive FileEntry where
  | directory
  | file (bytes : ByteArray)

/-- A place: the names from the root. -/
abbrev Location := List String

/-- A file system.  The root is a directory that is not listed. -/
structure FileSystem where
  entries : List (Location × FileEntry) := []
  working : Location := []

namespace FileSystem

def entry? (fs : FileSystem) : Location → Option FileEntry
  | [] => some .directory
  | location => fs.entries.lookup location

/-- Puts an entry at a place, in the position of the one that was there. -/
def put (fs : FileSystem) (location : Location) (entry : FileEntry) :
    FileSystem :=
  if fs.entries.any (·.1 == location) then
    { fs with entries := fs.entries.map fun old =>
        if old.1 = location then (location, entry) else old }
  else { fs with entries := fs.entries ++ [(location, entry)] }

/-- One step from a place, which must be a directory. -/
def step (fs : FileSystem) (location : Location) (piece : String) :
    Except FileError Location :=
  match fs.entry? location with
  | some .directory =>
      if piece = "" ∨ piece = "." then .ok location
      else if piece = ".." then .ok location.dropLast
      else if (fs.entry? (location ++ [piece])).isSome then
        .ok (location ++ [piece])
      else .error .notFound
  | some (.file _) => .error .notDirectory
  | none => .error .notFound

/-- The place that pieces between slashes lead to. -/
def walk (fs : FileSystem) : Location → List String → Except FileError Location
  | location, [] => .ok location
  | location, piece :: rest => do fs.walk (← fs.step location piece) rest

/-- The place where a path starts, and its pieces. -/
def start (fs : FileSystem) (path : String) : Location × List String :=
  if Path.isAbsolute path then ([], (Text.split '/' path).drop 1)
  else (fs.working, Text.split '/' path)

/-- The place of a path.  The empty path has none. -/
def locate (fs : FileSystem) (path : String) : Except FileError Location :=
  if path = "" then .error .notFound
  else
    let (origin, pieces) := fs.start path
    fs.walk origin pieces

def pathExists (fs : FileSystem) (path : String) : Bool :=
  (fs.locate path).isOk

def isDirectory (fs : FileSystem) (path : String) : Bool :=
  match fs.locate path with
  | .ok location =>
      match fs.entry? location with
      | some .directory => true
      | _ => false
  | .error _ => false

/-- The absolute path of a place. -/
def absolute (location : Location) : String :=
  "/" ++ "/".intercalate location

/-- The one absolute path of the place of a path. -/
def canonicalize (fs : FileSystem) (path : String) :
    Except FileError String := do
  return absolute (← fs.locate path)

def readBytes (fs : FileSystem) (path : String) :
    Except FileError ByteArray := do
  match fs.entry? (← fs.locate path) with
  | some (.file bytes) => return bytes
  | some .directory => throw .isDirectory
  | none => throw .notFound

def readText (fs : FileSystem) (path : String) : Except FileError String := do
  match String.fromUTF8? (← fs.readBytes path) with
  | some text => return text
  | none => throw .notText

/-- The place above the last name of a path, and that name.  A path that does
not end in a name has none. -/
def target? (fs : FileSystem) (path : String) :
    Option (Except FileError Location × String) :=
  let (origin, pieces) := fs.start path
  match (pieces.reverse.dropWhile (· == "")) with
  | [] => none
  | last :: above =>
      if last = "." ∨ last = ".." then none
      else some (fs.walk origin above.reverse, last)

def makeDirectory (fs : FileSystem) (path : String) :
    Except FileError FileSystem :=
  match fs.target? path with
  | none => do
      let _ ← fs.locate path
      throw .exists
  | some (parent, name) => do
      let parent ← parent
      match fs.step parent name with
      | .ok _ => throw .exists
      | .error .notFound => return fs.put (parent ++ [name]) .directory
      | .error failure => throw failure

/-- Makes a directory and those above it, at most `depth` of them. -/
def makeAbove (fs : FileSystem) : Nat → String → Except FileError FileSystem
  | 0, _ => .error .notFound
  | depth + 1, path =>
      if path = "" then .ok fs
      else
        match fs.makeDirectory path with
        | .ok made => .ok made
        | .error .notFound => do
            match Path.parent? path with
            | none => throw .notFound
            | some parent =>
                let above ← fs.makeAbove depth parent
                match above.makeDirectory path with
                | .ok made => return made
                | .error failure =>
                    if above.isDirectory path then return above
                    else throw failure
        | .error failure => if fs.isDirectory path then
            .ok fs else .error failure

/-- Makes a directory and those above it, as far as they are missing. -/
def makeDirectories (fs : FileSystem) (path : String) :
    Except FileError FileSystem :=
  fs.makeAbove (path.length + 1) path

/-- Writes bytes to a file, which is made if its directory is there.  The write
is all or nothing: what stands in the tree decides whether the file can be
opened, and a file that is open takes all of the bytes.  A device that fills up
behind an open file, which would leave it cut off, is not described. -/
def write (fs : FileSystem) (path : String) (bytes : ByteArray) :
    Except FileError FileSystem :=
  match fs.locate path with
  | .ok location =>
      match fs.entry? location with
      | some (.file _) => .ok (fs.put location (.file bytes))
      | _ => .error .isDirectory
  | .error .notFound =>
      match fs.target? path with
      | some (parent, name) => do
          let parent ← parent
          return fs.put (parent ++ [name]) (.file bytes)
      | none => .error .notFound
  | .error failure => .error failure

/-- The files at or below a place, in the order of their paths. -/
def filesBelow (fs : FileSystem) (location : Location) :
    List (String × ByteArray) :=
  let found := fs.entries.filterMap fun (place, entry) =>
    match entry with
    | .file bytes => if location.isPrefixOf place then
        some (absolute place, bytes) else none
    | .directory => none
  found.mergeSort fun first second => (Path.compare first.1 second.1).isLE

end FileSystem

end DataBridge
