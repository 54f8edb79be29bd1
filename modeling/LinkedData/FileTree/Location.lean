/-
  LinkedData.FileTree.Location — places in a file tree, written as text.

  A location is absolute when it starts with a slash; any other is relative to some
  directory. One dot stands for a directory itself, two for the one above it. Nothing is
  looked up here: `path` only says which names a location goes through.
-/

import LinkedData.FileTree

namespace LinkedData.Location

def isAbsolute (s : String) : Bool := s.toList.head? == some '/'

/-- `s` seen from the directory `base`. -/
def join (base s : String) : String :=
  if isAbsolute s ∨ base = "" then s
  else if base.toList.getLast? = some '/' then base ++ s
  else base ++ "/" ++ s

/-- What stands between the slashes. -/
def steps : List Char → List (List Char)
  | [] => [[]]
  | c :: cs =>
    match steps cs with
    | [] => [[c]]
    | s :: more => if c = '/' then [] :: s :: more else (c :: s) :: more

def names (s : String) : List String := (steps s.toList).map String.ofList

/-- The names that lead anywhere. -/
def kept (s : String) : List String := (names s).filter (!FileTree.isHere ·)

/-- The path of a location below the directory `here`. An empty name or a dot counts only at the end,
    where it asks for a directory. -/
def path (here : Path) (s : String) : Path :=
  let ending := ((names s).getLast?).filter FileTree.isHere
  (if isAbsolute s then [] else here) ++ kept s ++ ending.toList

/-- The path without steps up, whatever is there. -/
def flatten (p : Path) : Path :=
  p.foldl (fun q name => if FileTree.isHere name then q else if name = ".." then q.dropLast else q ++ [name]) []

/-- The location without its last step; nothing when it has none. -/
def parent? (s : String) : Option String :=
  if kept s = [] then none
  else some ((if isAbsolute s then "/" else "") ++ "/".intercalate (kept s).dropLast)

/-- The last name, unless it is a step up. -/
def fileName? (s : String) : Option String := ((kept s).getLast?).filter (· ≠ "..")

/-- The location without what it says of being a directory at its end. -/
def trimmed (s : String) : String :=
  let rec strip : List Char → List Char
    | '/' :: cs => strip cs
    | '.' :: '/' :: cs => strip cs
    | cs => cs
  String.ofList (strip s.toList.reverse).reverse

/-- What follows the last point of a name, if the point is not its first character. -/
def ending? (name : String) : Option String :=
  let cs := name.toList
  let tail := cs.reverse.takeWhile (· ≠ '.')
  if tail.length + 1 < cs.length then some (String.ofList tail.reverse) else none

/-- The location with a point and an ending after its name, if it has a name. -/
def withEnding? (s ending : String) : Option String := (fileName? s).map fun _ => trimmed s ++ "." ++ ending

end LinkedData.Location
