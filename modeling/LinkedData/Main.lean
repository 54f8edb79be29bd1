/-
  LinkedData.Main — the program: the files that a run needs are read into a file tree, the run
  is worked out on it, and what changed is written back.
-/

import LinkedData.CommandLine.Run
import Std.Time.DateTime.Timestamp

namespace LinkedData.Main

/-- The text of a path, from the top of the file system. -/
def located (p : Path) : String := "/" ++ "/".intercalate p

/-! ## Reading -/

/-- Put what is at a path into the tree: a file with its content, a directory alone. -/
def readEntry (t : FileTree) (p : Path) : IO FileTree := do
  let place := (← IO.currentDir) / located p
  if p = [] then return t
  else if ← place.isDir then return ⟨t.entries.insert p .directory⟩
  else if ← place.pathExists then return ⟨t.entries.insert p (.file (← IO.FS.readBinFile place).toList)⟩
  else return t

/-- Put everything that a path leads through into the tree. -/
def readPath (t : FileTree) (p : Path) : IO FileTree :=
  (List.range p.length).foldlM (fun t n => readEntry t (Location.flatten (p.take (n + 1)))) t

/-- Put a directory and everything below it into the tree. -/
partial def readAll (t : FileTree) (p : Path) : IO FileTree := do
  let t ← readPath t p
  let place := (← IO.currentDir) / located p
  if ← place.isDir then
    (← place.readDir).foldlM (fun t e => readAll t (p ++ [e.fileName])) t
  else return t

/-- The environment of the process: names and values, each pair ended by a zero byte. -/
def environment : IO (List (String × String)) := do
  let bytes ← IO.FS.readBinFile "/proc/self/environ"
  let pairs := ((String.fromUTF8? bytes).getD "").splitOn "\x00"
  return pairs.filterMap fun pair =>
    match pair.splitOn "=" with
    | name :: value@(_ :: _) => some (name, "=".intercalate value)
    | _ => none

/-- The number of the process, which is the first thing that is said of its state. -/
def process : IO UInt32 := do
  let state ← IO.FS.readFile "/proc/self/stat"
  return (((state.splitOn " ").head?.bind String.toNat?).getD 0).toUInt32

def clock : IO Instant := do
  let now ← Std.Time.Timestamp.now
  return ⟨now.val.second.val, now.val.nano.val.toNat⟩

/-- The places of configuration files, with the endings that they may have. -/
def configPlaces (s : Surroundings) (i : Invocation) : List String :=
  let places := match i.config with
    | some file => [file]
    | none => (Config.userFile? s).toList ++ Config.workspaceFiles s i.workspace
  places.flatMap fun l => l :: Config.forms.filterMap fun f => Location.withEnding? l f.1

/-- The places of the stores. -/
def storePlaces (s : Surroundings) (i : Invocation) : List String :=
  match CommandLine.loadConfig s i.workspace i.config with
  | .ok c =>
    let storage := c.storage.resolve i.workspace
    [storage.store, storage.mementos, storage.binaries]
  | .error _ => []

/-- Everything that a run may look at. -/
def surroundings (i : Invocation) : IO Surroundings := do
  let here := Location.path [] (← IO.currentDir).toString
  let s : Surroundings := ⟨← environment, here, ← readPath .empty here⟩
  let files ← (configPlaces s i).foldlM (fun t l => readPath t (Location.path here l)) s.files
  let s := { s with files }
  let files ← (storePlaces s i).foldlM (fun t l => do
    let p := Location.path here l
    readAll (← readPath t p) (Location.flatten p)) s.files
  let files ← readPath files (Location.path here (CommandLine.loggingConfig s i).file)
  return { s with files }

/-! ## Writing -/

/-- Make the files what `after` says, where it differs from `before`. Directories come before what is
    in them, and go after it. -/
def writeBack (before after : FileTree) : IO Unit := do
  for (p, e) in before.entries.toList.reverse do
    if after.entries[p]?.isNone then
      match e with
      | .directory => IO.FS.removeDir (located p)
      | .file _ => IO.FS.removeFile (located p)
  for (p, e) in after.entries.toList do
    if before.entries[p]? ≠ some e then
      match e with
      | .directory => IO.FS.createDirAll (located p)
      | .file content => IO.FS.writeBinFile (located p) ⟨content.toArray⟩

def run (i : Invocation) : IO UInt32 := do
  let s ← surroundings i
  let (outcome, files) := CommandLine.runInvocation s i (← clock) (← process)
  writeBack s.files files
  IO.print outcome.out
  IO.eprint outcome.err
  return outcome.code.toUInt32

end LinkedData.Main

def main (args : List String) : IO UInt32 :=
  match LinkedData.CommandLine.parse args with
  | .ok i => LinkedData.Main.run i
  | .error fault => do
    IO.eprintln ("usage: " ++ fault.name)
    return fault.code.toUInt32
