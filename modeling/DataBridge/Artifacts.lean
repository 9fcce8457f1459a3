import DataBridge.FileSystem

/-!
# Generated files

The files of a component with their paths, in the order of the paths.  Two
spellings of one path are one file.
-/

namespace DataBridge

/-- Generated files by path. -/
structure Artifacts where
  files : List (String × String) := []
deriving DecidableEq, Repr

namespace Artifacts

/-- Inserts a file into a list in the order of paths.  A path that is there
keeps its spelling and gets the new text. -/
def insertFile (path text : String) :
    List (String × String) → List (String × String)
  | [] => [(path, text)]
  | (first, old) :: rest =>
      match Path.compare path first with
      | .lt => (path, text) :: (first, old) :: rest
      | .eq => (first, text) :: rest
      | .gt => (first, old) :: insertFile path text rest

def insert (artifacts : Artifacts) (path text : String) : Artifacts :=
  ⟨insertFile path text artifacts.files⟩

def paths (artifacts : Artifacts) : List String :=
  artifacts.files.map (·.1)

/-- A path that could not be written, and why. -/
structure WriteFailure where
  path : String
  failure : FileError
deriving DecidableEq, Repr

def WriteFailure.message (failed : WriteFailure) : String :=
  "failed to write " ++ failed.path ++ ": " ++ failed.failure.message

/-- Writes one file, and the directories above it. -/
def writeFile (path text : String) (fs : FileSystem) :
    Except WriteFailure Unit × FileSystem :=
  let directory : Except WriteFailure FileSystem :=
    match Path.parent? path with
    | none => .ok fs
    | some parent => (fs.makeDirectories parent).mapError fun failure =>
        ⟨parent, failure⟩
  match directory with
  | .error failed => (.error failed, fs)
  | .ok prepared =>
      match prepared.write path text.toUTF8 with
      | .error failure => (.error ⟨path, failure⟩, prepared)
      | .ok written => (.ok (), written)

/-- Writes files below a directory, one after the other, until one fails. -/
def writeFiles (output : String) :
    List (String × String) → FileSystem → Except WriteFailure Unit × FileSystem
  | [], fs => (.ok (), fs)
  | (path, text) :: rest, fs =>
      match writeFile (Path.join output path) text fs with
      | (.ok (), written) => writeFiles output rest written
      | (.error failed, left) => (.error failed, left)

def write (artifacts : Artifacts) (output : String) (fs : FileSystem) :
    Except WriteFailure Unit × FileSystem :=
  writeFiles output artifacts.files fs

end Artifacts

end DataBridge
