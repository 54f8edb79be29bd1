/-
  LinkedData.FileTree — directories and files, as a value.

  A tree says what is at each place below its top: a file with its bytes, or a directory. A
  path is followed name by name from the top; every name but the last stands for a directory,
  two dots for the one above. The operations are those of a file system, each with the faults
  it can have. One that fails keeps what it did so far: of the directories that it was to
  make, some may have been made.
-/

import LinkedData.Hex
import Std.Data.ExtTreeMap

namespace LinkedData

open Std

/-- The names from the top down. A last name that is empty or a dot asks for a directory. -/
abbrev Path := List String

inductive Entry
  | file (content : Bytes)
  | directory
  deriving DecidableEq

inductive FileFault
  | notFound
  | notDirectory
  | isDirectory
  | occupied
  | notEmpty
  /-- Nothing can have this name. -/
  | badName
  deriving DecidableEq, Repr

/-- The top itself is a directory, and has no entry. -/
structure FileTree where
  entries : ExtTreeMap Path Entry compare
  deriving DecidableEq

/-- A change of a tree. -/
abbrev FileM := ExceptT FileFault (StateM FileTree)

namespace FileTree

def empty : FileTree := ⟨∅⟩

/-! ## Names -/

/-- The bytes that a name may have. -/
def longestName : Nat := 255

/-- The bytes that a path may have, a slash before each name. -/
def longestPath : Nat := 4095

def width (p : Path) : Nat := p.foldl (fun n name => n + 1 + name.utf8ByteSize) 0

/-- A path that can be asked for at all: not too long, and without zero bytes. -/
def isSound (p : Path) : Bool := width p ≤ longestPath && p.all fun name => !name.toList.contains '\x00'

/-- The name of the directory itself. -/
def isHere (name : String) : Bool := name == "" || name == "."

/-! ## Finding -/

/-- The place that a path leads to from the directory `done`. -/
def follow (t : FileTree) (done : Path) : Path → Except FileFault Path
  | [] => .ok done
  | name :: rest =>
    if isHere name then follow t done rest
    else if name = ".." then follow t done.dropLast rest
    else if longestName < name.utf8ByteSize then .error .badName
    else match t.entries[done ++ [name]]? with
      | none => .error .notFound
      | some .directory => follow t (done ++ [name]) rest
      | some (.file _) => if rest = [] then .ok (done ++ [name]) else .error .notDirectory

/-- What is at a place that was found. -/
def at_ (t : FileTree) (place : Path) : Entry := t.entries.getD place .directory

def locate (t : FileTree) (p : Path) : Except FileFault Path :=
  if isSound p then t.follow [] p else .error .badName

def entry (t : FileTree) (p : Path) : Except FileFault Entry := (t.locate p).map t.at_

def exists? (t : FileTree) (p : Path) : Bool := (t.entry p).isOk

def isFile (t : FileTree) (p : Path) : Bool :=
  match t.entry p with
  | .ok (.file _) => true
  | _ => false

def isDirectory (t : FileTree) (p : Path) : Bool := (t.entry p).toOption == some .directory

def readFile (t : FileTree) (p : Path) : Except FileFault Bytes :=
  match t.entry p with
  | .ok (.file content) => .ok content
  | .ok .directory => .error .isDirectory
  | .error f => .error f

/-- The names of what is directly in a directory, in order. -/
def list (t : FileTree) (p : Path) : Except FileFault (List String) :=
  match t.locate p with
  | .error f => .error f
  | .ok q =>
    match t.at_ q with
    | .file _ => .error .notDirectory
    | .directory => .ok (t.entries.keys.filterMap fun k => if k.dropLast = q then k.getLast? else none)

/-- The place at the end of a path, where something may be or may be put: its directory is there. -/
def slot (t : FileTree) (p : Path) : Except FileFault Path := do
  if ¬ isSound p then throw .badName
  let above ← t.locate p.dropLast
  match t.at_ above, p.getLast? with
  | .file _, _ => throw .notDirectory
  | .directory, none => return []
  | .directory, some name =>
    if isHere name ∨ name = ".." then t.locate p
    else if longestName < name.utf8ByteSize then throw .badName
    else return above ++ [name]

/-! ## Changing -/

/-- The place of a file that is there or may be made. -/
def fileSlot (p : Path) : FileM Path := do
  let t ← get
  let q ← t.slot p
  if t.entries[q]? = some .directory ∨ q = [] then throw .isDirectory
  return q

def writeFile (p : Path) (content : Bytes) : FileM Unit := do
  let q ← fileSlot p
  modify fun t => ⟨t.entries.insert q (.file content)⟩

/-- Make an empty file, unless there is one. -/
def touch (p : Path) : FileM Unit := do
  let q ← fileSlot p
  modify fun t => ⟨t.entries.insertIfNew q (.file [])⟩

def createDirectory (p : Path) : FileM Unit := do
  let t ← get
  let q ← t.slot p
  if q = [] ∨ (t.entries[q]?).isSome then throw .occupied
  set (⟨t.entries.insert q .directory⟩ : FileTree)

/-- Make a directory, unless there is one. -/
def ensureDirectory (p : Path) : FileM Unit := do
  if (← get).isDirectory p then return ()
  createDirectory p

/-- The directories that a path goes through, from the top down, and its own. A dot at the end is
    nothing that could be made. -/
def stages (p : Path) : List Path :=
  match p.getLast? with
  | some "" => (List.range p.length).map (p.take ·)
  | some "." => (List.range (p.length - 1)).map (p.take ·) ++ [p]
  | _ => (List.range (p.length + 1)).map (p.take ·)

/-- Make a directory with everything above it. -/
def createDirectories (p : Path) : FileM Unit := do
  if ¬ isSound p then throw .badName
  (stages p).forM ensureDirectory

/-- Move a file, over another one if there is one. -/
def rename (p q : Path) : FileM Unit := do
  let content ← (← get).readFile p
  let source ← fileSlot p
  let target ← fileSlot q
  modify fun t => ⟨(t.entries.erase source).insert target (.file content)⟩

def removeFile (p : Path) : FileM Unit := do
  let _ ← (← get).readFile p
  let q ← fileSlot p
  modify fun t => ⟨t.entries.erase q⟩

/-- Remove an empty directory. -/
def removeDirectory (p : Path) : FileM Unit := do
  let t ← get
  if (← t.list p) ≠ [] then throw .notEmpty
  let q ← t.locate p
  set (⟨t.entries.erase q⟩ : FileTree)

/-- Remove whatever is at a path, and all that is below it. -/
def removeAll (p : Path) : FileM Unit := do
  let t ← get
  match t.locate p with
  | .ok q => set (⟨t.entries.filter fun k _ => ¬ q.isPrefixOf k⟩ : FileTree)
  | .error _ => return ()

/-- Put a plain file in the place of whatever is at a path. -/
def replace (p : Path) (content : Bytes) : FileM Unit := do
  removeAll p
  createDirectories p.dropLast
  writeFile p content

/-- Write a file, with the directories above it. -/
def plant (p : Path) (content : Bytes) : FileM Unit := do
  createDirectories p.dropLast
  writeFile p content

/-- Write a file beside its place, with the directories above it, and move it there. One that cannot be
    moved is removed. -/
def publish (directory : Path) (name : String) (content : Bytes) : FileM Unit := do
  let temporary := directory ++ [name ++ ".tmp"]
  createDirectories directory
  writeFile temporary content
  tryCatch (rename temporary (directory ++ [name])) fun fault => do
    tryCatch (removeFile temporary) fun _ => pure ()
    throw fault

/-- Run a change; what it did stands even if it failed. -/
def run {α : Type} (t : FileTree) (m : FileM α) : Except FileFault α × FileTree := (ExceptT.run m).run t

/-- The tree after a change. -/
def after {α : Type} (t : FileTree) (m : FileM α) : FileTree := (t.run m).2

/-! ## Showing -/

/-- The files and the empty directories below `p`, each with its path from there. -/
def layout (t : FileTree) (p : Path) : List (Path × Entry) :=
  t.entries.toList.filterMap fun (q, e) =>
    if p.isPrefixOf q ∧ q ≠ p ∧ (e ≠ .directory ∨ (t.list q).toOption = some []) then some (q.drop p.length, e)
    else none

end FileTree

end LinkedData
