/-
  LinkedData.Blob.Files — blobs as files, named by their hash.

  The file of a blob lies two directories deep below `root`, by the first digits of its hash.
  Storing the same content again changes nothing. What is read is hashed again, so a damaged
  blob is never taken for its content.
-/

import LinkedData.Blob
import LinkedData.FileTree

namespace LinkedData

namespace BlobFiles

def ioFault (doing : String) (_ : FileFault) : StorageError := .backend ("Failed to " ++ doing)

/-- The directory and the name of the file of a hash, if it is one: 64 hexadecimal digits. -/
def place (hex : String) : Except StorageError (Path × String) :=
  let cs := hex.toList
  if cs.length = 64 ∧ cs.all Hex.isDigit then
    .ok ([String.ofList (cs.take 2), String.ofList ((cs.drop 2).take 2)], hex ++ ".bin")
  else .error (.invalidPath hex)

def path (root : Path) (hex : String) : Except StorageError Path :=
  (place hex).map fun (directory, name) => root ++ directory ++ [name]

/-- Make the directory of blobs. -/
def create (root : Path) (files : FileTree) : Except StorageError Unit × FileTree :=
  let (made, files) := files.run (FileTree.createDirectories root)
  (made.mapError (ioFault "create binary directory"), files)

/-- Keep `content`, unless there is something at its place already. -/
def store (root : Path) (files : FileTree) (content : Bytes) (mime : Option String) :
    Except StorageError Binary × FileTree :=
  match place (Blake3.hexOf content) with
  | .error f => (.error f, files)
  | .ok (directory, name) =>
    if files.exists? (root ++ directory ++ [name]) then (.ok (Blob.describe content mime), files)
    else
      let (written, files) := files.run (FileTree.publish (root ++ directory) name content)
      ((written.mapError (ioFault "write binary")).map fun _ => Blob.describe content mime, files)

/-- The content at a location, if there is any, and if it is what the location says. -/
def get (root : Path) (files : FileTree) (location : Iri) : Except StorageError (Option Bytes) := do
  let hex ← Blob.hexOf location
  let p ← path root hex
  if ¬ files.exists? p then return none
  let content ← (files.readFile p).mapError (ioFault "read binary")
  let actual := Blake3.hexOf content
  if actual ≠ hex then throw (.hashMismatch hex actual)
  return some content

def has (root : Path) (files : FileTree) (location : Iri) : Except StorageError Bool := do
  return files.exists? (← path root (← Blob.hexOf location))

end BlobFiles

end LinkedData
