import DataBridge.Command.Run

/-!
# The command line

The outermost layer.  It copies what a request may look at from the disk into a
file system, runs the request there, and brings what it wrote to the disk.
-/

namespace DataBridge.Disk

/-- The place of an absolute path. -/
def placeOf (path : String) : Location :=
  (Text.split '/' path).filter (· != "")

/-- Puts an entry at a place, below directories. -/
def mount (fs : FileSystem) (location : Location) (entry : FileEntry) :
    FileSystem :=
  let above := (List.range location.length).map location.take
  let prepared := above.foldl
    (fun known place =>
      if place.isEmpty then known else known.put place .directory) fs
  if location.isEmpty then prepared else prepared.put location entry

/-- The bytes of a file on the disk.  What cannot be read has none. -/
def bytes? (path : String) : IO (Option ByteArray) :=
  tryCatch (some <$> IO.FS.readBinFile path) fun _ => return none

/-- The absolute path of a path on the disk, if it leads anywhere. -/
def realPath? (path : String) : IO (Option String) :=
  tryCatch ((some ∘ toString) <$> IO.FS.realPath path) fun _ => return none

def copyPath (fs : FileSystem) (path : String) : IO FileSystem := do
  match ← realPath? path with
  | none => return fs
  | some place =>
      match ← bytes? path with
      | some bytes => return mount fs (placeOf place) (.file bytes)
      | none => return mount fs (placeOf place) .directory

/-- The paths that a path leads through, and the path itself. -/
def stages (path : String) : List String :=
  let pieces := Text.split '/' path
  ((List.range pieces.length).map fun count =>
    "/".intercalate (pieces.take (count + 1))).filter
    (· != "")

/-- Copies what stands at a path and at the paths that it leads through. -/
def copy (fs : FileSystem) (path : String) : IO FileSystem :=
  (stages path).foldlM copyPath fs

/-- Copies datamodel files and whatever their imports may mean.  The places of
the files that were copied are `known`. -/
partial def copyImports (includeDirs : List String) (known : List String)
  (fs : FileSystem) :
    List String → IO FileSystem
  | [] => return fs
  | path :: rest => do
      let fs ← copy fs path
      match fs.canonicalize path with
      | .error _ => copyImports includeDirs known fs rest
      | .ok place =>
          if known.contains place then copyImports includeDirs known fs rest
          else
            let imports :=
              match Loader.readFile fs path with
              | .ok file => file.imports
              | .error _ => []
            let candidates := imports.flatMap fun imported =>
              Loader.candidates includeDirs imported path
            let fs ← candidates.foldlM copy fs
            let found := candidates.filterMap fun candidate =>
              (fs.canonicalize candidate).toOption
            copyImports includeDirs (place :: known) fs (found ++ rest)

def subjectOf : Request → Option Subject
  | .generate request => some request.subject
  | .analyze request => some request.subject
  | .help => none

/-- The paths of the files that a run has written. -/
def writtenPaths (before after : FileSystem) : List String :=
  (after.filesBelow []).filterMap fun (path, bytes) =>
    match before.entry? (placeOf path) with
    | some (.file old) => if old.data == bytes.data then none else some path
    | _ => some path

def save (fs : FileSystem) (path : String) : IO Unit := do
  match fs.readBytes path with
  | .ok bytes =>
      IO.FS.createDirAll ((Path.parent? path).getD "/")
      IO.FS.writeBinFile path bytes
  | .error _ => return

end DataBridge.Disk

open DataBridge in
def main (arguments : List String) : IO UInt32 := do
  let working := toString (← IO.FS.realPath ".")
  let fs ← Disk.copy { working := Disk.placeOf working } working
  let fs ←
    match (Request.ofArguments arguments).toOption.bind Disk.subjectOf with
    | none => pure fs
    | some subject =>
        Disk.copyImports subject.includeDirs []
          (← subject.includeDirs.foldlM Disk.copy fs)
          [subject.file]
  let planned := DataBridge.run arguments fs
  let fs ← (Disk.writtenPaths fs planned.fs).foldlM Disk.copy fs
  let outcome := DataBridge.run arguments fs
  (Disk.writtenPaths fs outcome.fs).forM (Disk.save outcome.fs)
  IO.print outcome.printed
  IO.eprint outcome.complaint
  return UInt32.ofNat outcome.status
