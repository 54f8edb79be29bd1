/-
  LinkedData.Settings — the values that settings have, in whatever form they were given.

  Settings are tables of values; a layer is put over another one key by key, tables into
  tables, everything else in the place of what was there (`overlay`). Names of settings are
  compared without regard to case, so they are kept in lower case. What a value is taken for
  is up to who reads it: each reader below says which values it takes.
-/

import LinkedData.Decimal.Shortest
import LinkedData.Text.Case

namespace LinkedData

inductive Setting
  | nothing
  | text (s : String)
  | integer (n : Int)
  | real (x : Binary64)
  | flag (b : Bool)
  | list (items : List Setting)
  | table (fields : List (String × Setting))
  deriving Inhabited

namespace Setting

/-- The fields of a table; anything else has none. -/
def fields : Setting → List (String × Setting)
  | table fs => fs
  | _ => []

def get? (s : Setting) (name : String) : Option Setting := s.fields.lookup name

/-- Give a field a value, in the place it has. -/
def assign (name : String) (v : Setting) : List (String × Setting) → List (String × Setting)
  | [] => [(name, v)]
  | f :: fs => if f.1 = name then (name, v) :: fs else f :: assign name v fs

mutual

/-- Put `v` at `name` of a table. A table there takes over the fields of a table, one by one. -/
def put (root : Setting) (name : String) : Setting → Setting
  | table incoming =>
    let name := Text.lower name
    table (assign name (putAll ((root.get? name).getD (table [])) incoming) root.fields)
  | v => table (assign (Text.lower name) v root.fields)

def putAll (root : Setting) : List (String × Setting) → Setting
  | [] => root
  | (name, v) :: more => putAll (put root name v) more

end

/-! ## Places in a table

  A name may be a path: names joined by points, with the numbers of list items in brackets. A
  negative number counts from the end of the list. -/

inductive Place
  | name (name : String)
  | child (parent : Place) (name : String)
  | item (parent : Place) (index : Int)

namespace Place

def nameChar (c : Char) : Bool := c.isAlphanum || c == ' ' || c == '_' || c == '-'

def isSpace (c : Char) : Bool := c == ' ' || c == '\t'

/-- A number of 64 bits, with spaces around it, and what follows. -/
def index? (cs : List Char) : Option (Int × List Char) :=
  let (negative, cs) := match cs.dropWhile isSpace with
    | '-' :: cs => (true, cs)
    | cs => (false, cs)
  let digits := cs.takeWhile Char.isDigit
  if digits = [] then none
  else (Text.int64? (if negative then -(Text.value digits : Int) else Text.value digits)).map
    (·, (cs.dropWhile Char.isDigit).dropWhile isSpace)

/-- The rest of a path, one name or one number at a time: `fuel` is at least its length. -/
def rest : Nat → Place → List Char → Option Place
  | _, place, [] => some place
  | 0, _, _ => none
  | fuel + 1, place, '.' :: cs =>
    let name := cs.takeWhile nameChar
    if name = [] then none else rest fuel (.child place (String.ofList name)) (cs.dropWhile nameChar)
  | fuel + 1, place, '[' :: cs =>
    match index? cs with
    | some (index, ']' :: cs) => rest fuel (.item place index) cs
    | _ => none
  | _, _, _ => none

def parse? (s : String) : Option Place :=
  let cs := s.toList
  let name := cs.takeWhile nameChar
  if name = [] then none else rest cs.length (.name (String.ofList name)) (cs.dropWhile nameChar)

end Place

/-- The items of a list; anything else has none. -/
def items : Setting → List Setting
  | list xs => xs
  | _ => []

/-- Where the item of a number is in a list, and the list with room for it: nothing is put at the end,
    or at the front for a negative number. -/
def room (index : Int) (xs : List Setting) : Nat × List Setting :=
  match index with
  | .ofNat n => (n, xs ++ List.replicate (n + 1 - xs.length) nothing)
  | .negSucc n => (xs.length - (n + 1), List.replicate (n + 1 - xs.length) nothing ++ xs)

/-- Change what is at a place. What is not there is nothing; what stands in the way gives way. -/
def modify (place : Place) (f : Setting → Setting) (root : Setting) : Setting :=
  match place with
  | .name name =>
    let name := Text.lower name
    table (assign name (f ((root.get? name).getD nothing)) root.fields)
  | .child parent name =>
    modify parent (fun t =>
      let name := Text.lower name
      table (assign name (f ((t.get? name).getD nothing)) t.fields)) root
  | .item parent index =>
    modify parent (fun l =>
      let (i, xs) := room index l.items
      list (xs.set i (f (xs.getD i nothing)))) root

/-- Put a value at a place. -/
def putAt (root : Setting) (place : Place) (v : Setting) : Setting :=
  match place with
  | .name name => root.put name v
  | .child parent name => modify parent (fun t => t.put name v) root
  | .item parent index => modify (.item parent index) (fun _ => v) root

/-- Put a layer over another one. A name that is no path is just a name. -/
def overlay (root : Setting) (layer : List (String × Setting)) : Setting :=
  layer.foldl (fun root f => root.putAt ((Place.parse? f.1).getD (.name f.1)) f.2) root

/-! ## Readers -/

/-- Text, numbers and flags. -/
def text? : Setting → Option String
  | text s => some s
  | integer n => some (toString n)
  | real x => some x.text
  | flag b => some (toString b)
  | _ => none

def yes : List String := ["1", "true", "on", "yes"]

def no : List String := ["0", "false", "off", "no"]

/-- Flags, numbers other than zero, and words. -/
def flag? : Setting → Option Bool
  | flag b => some b
  | integer n => some (n ≠ 0)
  | real x => some x.isNonzero
  | text s =>
    let word := Text.lower s
    if yes.contains word then some true else if no.contains word then some false else none
  | _ => none

/-- Digits, perhaps after a plus sign, with a value of at most `most`. -/
def digits? (most : Nat) (s : String) : Option Nat :=
  let cs := match s.toList with
    | '+' :: cs => cs
    | cs => cs
  if cs = [] ∨ ¬ cs.all Char.isDigit ∨ most < Text.value cs then none else some (Text.value cs)

/-- Natural numbers up to `most`, numbers near them, flags, and words. -/
def natural? (most : Nat) : Setting → Option Nat
  | integer n => if 0 ≤ n ∧ n.toNat ≤ most then some n.toNat else none
  | real x => some (x.toNat most)
  | flag b => some b.toNat
  | text s =>
    let word := Text.lower s
    if ["true", "on", "yes"].contains word then some 1
    else if ["false", "off", "no"].contains word then some 0
    else digits? most word
  | _ => none

end Setting

end LinkedData
