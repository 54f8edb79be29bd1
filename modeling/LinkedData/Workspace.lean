/-
  LinkedData.Workspace — a service on the files of a directory.

  A workspace is opened by its configuration: the records are read from the store's
  directory, mementos and blobs are used where they lie. Closing it gives the files back with
  everything that was written. The store keeps all its records in one file.
-/

import LinkedData.Archive.Files
import LinkedData.Config
import LinkedData.Service

namespace LinkedData

open Std

namespace Disk

/-- All records, one after another. -/
def encode (d : Disk) : Bytes :=
  Encoding.list (fun (cell : Iri × Bytes) => Encoding.iri cell.1 ++ Encoding.size cell.2.length ++ cell.2)
    d.cells.toList

def decodeCell (bs : Bytes) : Option ((Iri × Bytes) × Bytes) := do
  let (id, bs) ← Encoding.decodeIri bs
  let (n, bs) ← Encoding.decodeNumber 8 bs
  let (content, rest) ← Encoding.takeBytes n bs
  some ((id, content), rest)

def decode (bs : Bytes) : Option Disk := do
  let (cells, rest) ← Encoding.decodeList decodeCell bs
  if rest = [] then some ⟨.ofList cells compare⟩ else none

end Disk

structure Workspace where
  config : Config
  storePath : Path
  service : Service Disk FileArchive Sink

namespace Workspace

def storeFault : Error := .storage (.backend "Failed to open the store")

/-! ## The store's directory -/

/-- The file of the records. -/
def recordsFile (storePath : Path) : Path := storePath ++ ["db"]

/-- The file that says how the records are kept. -/
def formatFile (storePath : Path) : Path := storePath ++ ["conf"]

/-- The directory of what is too large for the file of the records. -/
def overflowPath (storePath : Path) : Path := storePath ++ ["blobs"]

/-- How the records are kept: names with their values, a line each. -/
def format : List (String × String) := [("segment_size", "524288"), ("use_compression", "false"), ("version", "0.34")]

/-- A file that says how the records are kept ends in this many bytes of a seal. -/
def sealSize : Nat := 4

def formatText : String := String.join (format.map fun f => f.1 ++ ": " ++ f.2 ++ "\n")

def formatContent : Bytes := Encoding.utf8 formatText ++ List.replicate sealSize 0

/-- The names and the values of some lines; nothing if a line has no value. -/
def readFormat (text : String) : Option (List (String × String)) :=
  let lines := text.splitOn "\n"
  let lines := if lines.getLast? = some "" then lines.dropLast else lines
  lines.mapM fun line =>
    match line.splitOn ": " with
    | name :: value :: _ => some (name, value)
    | _ => none

/-- A file says that the records are kept in the one way that there is. One that holds next to
    nothing says nothing. -/
def agrees (content : Bytes) : Bool :=
  content.length ≤ 2 * sealSize ||
    match (Encoding.ofUtf8? (content.take (content.length - sealSize))).bind readFormat with
    | some lines => format.all fun f => lines.reverse.lookup f.1 == some f.2
    | none => false

/-- Make the store's directory, or find the records in it. What is no file of records counts as an
    empty one. -/
def openStore (storePath : Path) : FileM Disk := do
  if !(← get).exists? (overflowPath storePath) then FileTree.createDirectories (overflowPath storePath)
  match (← get).readFile (formatFile storePath) with
  | .ok content =>
    if !agrees content then throw .occupied
    if content.length ≤ 2 * sealSize then FileTree.writeFile (formatFile storePath) formatContent
  | .error .notFound => FileTree.writeFile (formatFile storePath) formatContent
  | .error fault => throw fault
  FileTree.touch (recordsFile storePath)
  return (Disk.decode (← (← get).readFile (recordsFile storePath))).getD .empty

/-! ## Opening and closing -/

/-- Open the workspace whose locations are seen from `root`. Its news go to `sink`, `issued` of them
    having been made before by the process. The files are given back as they are then. -/
def «open» (files : FileTree) (root : Path) (config : Config) (now : Instant) (sink : Sink) (issued : Nat)
    (process : UInt32 := 0) : Except Error Workspace × FileTree :=
  if ¬ config.Valid then (.error (.config ("; ".intercalate config.messages)), files)
  else
    let storePath := Location.path root config.storage.store
    let blobs := Location.path root config.storage.binaries
    match files.run (openStore storePath) with
    | (.error _, files) => (.error storeFault, files)
    | (.ok disk, files) =>
      match BlobFiles.create blobs files with
      | (.error f, files) => (.error (.storage f), files)
      | (.ok (), files) =>
        let archive : FileArchive := ⟨files, Location.path root config.storage.mementos, blobs⟩
        (.ok ⟨config, storePath, ⟨.open ⟨config.baseUrl⟩ disk process now, archive, config.versioning, sink,
          config.agentSpace, .new config.cacheCapacity, process, issued⟩⟩, files)

/-- The files with everything that was written. -/
def close (w : Workspace) : FileTree :=
  w.service.archive.files.after (FileTree.writeFile (recordsFile w.storePath) w.service.repository.store.encode)

end Workspace

end LinkedData
