/-
  LinkedData.Memento.Files — mementos as files, one directory to an identifier.

  The directory is found by the hash of the identifier, two directories deep, so that any
  identifier has one. A memento's file is named for its time: seconds and nanoseconds since
  1970. A listing is what the names in the directory say; a name that is no time is passed
  over, whoever put it there. All of it lies below `root`, which need not be there before the
  first memento is written.
-/

import LinkedData.Blake3
import LinkedData.Encoding.Record
import LinkedData.FileTree
import LinkedData.Memento

namespace LinkedData

namespace MementoFiles

open Text

def extension : List Char := ".memento".toList

def fileNameChars (t : Instant) : List Char := paddedInt 20 t.second ++ '-' :: padded 9 t.nano ++ extension

def fileName (t : Instant) : String := String.ofList (fileNameChars t)

/-- Digits, after a plus sign or not. -/
def natural? (cs : List Char) : Option Nat :=
  let digits := match cs with
    | '+' :: rest => rest
    | _ => cs
  if digits ≠ [] ∧ digits.all Char.isDigit then some (value digits) else none

def integer? : List Char → Option Int
  | '-' :: rest => if rest ≠ [] ∧ rest.all Char.isDigit then some (-(value rest : Int)) else none
  | cs => (natural? cs).map Int.ofNat

/-- What stands before and after the last dash. -/
def splitLastDash : List Char → Option (List Char × List Char)
  | [] => none
  | c :: cs =>
    match splitLastDash cs with
    | some (front, back) => some (c :: front, back)
    | none => if c = '-' then some ([], cs) else none

/-- The time that a file is named for. -/
def parseChars? (name : List Char) : Option Instant := do
  if ¬ extension.isSuffixOf name then failure
  let (seconds, nanos) ← splitLastDash (name.take (name.length - extension.length))
  let t : Instant := ⟨← integer? seconds, ← natural? nanos⟩
  if t.Valid then some t else none

def parse? (name : String) : Option Instant := parseChars? name.toList

/-- The directory of an identifier's history, below the root. -/
def directoryOf (id : Iri) : Path :=
  let hex := Hex.encodeChars (Blake3.hash (Encoding.utf8 id.text))
  [String.ofList (hex.take 2), String.ofList ((hex.drop 2).take 2), String.ofList hex]

def directory (root : Path) (id : Iri) : Path := root ++ directoryOf id

def path (root : Path) (id : Iri) (t : Instant) : Path := directory root id ++ [fileName t]

def ioFault (doing : String) (_ : FileFault) : StorageError := .backend ("Failed to " ++ doing)

def put (root : Path) (files : FileTree) (id : Iri) (t : Instant) (r : Resource) :
    Except StorageError Unit × FileTree :=
  let (written, files) := files.run (FileTree.publish (directory root id) (fileName t) (Encoding.resource r))
  (written.mapError (ioFault "write memento"), files)

def list (root : Path) (files : FileTree) (id : Iri) : Except StorageError (List Instant) :=
  match files.list (directory root id) with
  | .ok names => .ok ((names.filterMap parse?).mergeSort fun a b => a ≤ b)
  | .error .notFound => .ok []
  | .error f => .error (ioFault "list mementos" f)

/-- The file of a time, read. -/
def load (root : Path) (files : FileTree) (id : Iri) (t : Instant) : Except StorageError (Option Resource) :=
  match files.readFile (path root id t) with
  | .error .notFound => .ok none
  | .error f => .error (ioFault "read memento" f)
  | .ok bytes =>
    match Encoding.decodeResource bytes with
    | none => .error (.undecodable "Failed to deserialize memento")
    | some (r, _) => if r.id = id then .ok (some r) else .error (.hashMismatch id.text r.id.text)

def get (root : Path) (files : FileTree) (id : Iri) (t : Instant) : Except StorageError (Option Resource) := do
  match Memento.select (← list root files id) t with
  | none => return none
  | some selected => load root files id selected

/-- The directory goes with the last file in it. -/
def delete (root : Path) (files : FileTree) (id : Iri) (t : Instant) : Except StorageError Bool × FileTree :=
  match files.run (FileTree.removeFile (path root id t)) with
  | (.ok (), files) => (.ok true, files.after (FileTree.removeDirectory (directory root id)))
  | (.error .notFound, files) => (.ok false, files)
  | (.error f, files) => (.error (ioFault "delete memento" f), files)

end MementoFiles

end LinkedData
