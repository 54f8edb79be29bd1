/-
  LinkedData.Toml.Document — TOML documents, read into settings.

  A document is a list of statements: headers that open a table, and keys with values that go
  into the open one. `Node` is the tree that they build. A table remembers how it came to be,
  because no table may be opened twice, and one that grew out of dotted keys or headers may
  only go on growing in the same way. A table can also stand for a time: then its first field
  has a name that says so, and the time as its text.
-/

import LinkedData.Toml.Number
import LinkedData.Toml.Text

namespace LinkedData.Toml

/-! ## The tree -/

inductive Node
  | value (v : Setting)
  /-- `implied`: it was never opened, something inside it was. `dotted`: by a dotted key. -/
  | table (implied dotted : Bool) (fields : List (String × Node))
  /-- Tables opened one after another under one name; the last is the open one. -/
  | tables (elements : List Node)
  /-- A table and a list that are written as values: nothing is ever added to them. -/
  | closedTable (fields : List (String × Node))
  | closedList (items : List Node)
  deriving Inhabited

namespace Node

def assign (name : String) (v : Node) : List (String × Node) → List (String × Node)
  | [] => [(name, v)]
  | f :: fs => if f.1 = name then (name, v) :: fs else f :: assign name v fs

/-- Change the table at the end of a path, through tables that are made where there are none.
    `dotted`: the path is that of a dotted key, which never enters a table that was opened. -/
def within (dotted : Bool) (f : Node → Option Node) : List String → Node → Option Node
  | [], t => f t
  | name :: path, table i d fs =>
    match fs.lookup name with
    | none => (within dotted f path (table true dotted [])).map fun t => table i d (assign name t fs)
    | some (tables ts) => do
      let t ← within dotted f path (← ts.getLast?)
      some (table i d (assign name (tables (ts.dropLast ++ [t])) fs))
    | some (table i' d' fs') =>
      if dotted ∧ ¬ i' then none
      else (within dotted f path (table i' d' fs')).map fun t => table i d (assign name t fs)
    | some _ => none
  | _ :: _, _ => none

/-- A new field of a table; `dotted` says whether it got there by a dotted key. -/
def addField (dotted : Bool) (name : String) (v : Node) : Node → Option Node
  | table i d fs =>
    if d ≠ dotted ∨ (fs.lookup name).isSome then none else some (table i d (assign name v fs))
  | _ => none

def addPair (path : List String) (v : Node) (t : Node) : Option Node :=
  within true (addField (path.dropLast ≠ []) (path.getLastD "") v) path.dropLast t

/-- Open a table. One that was only implied by headers so far is there already, and comes last now. -/
def openTable (name : String) : Node → Option Node
  | table i d fs =>
    match fs.lookup name with
    | none => some (table i d (assign name (table false false []) fs))
    | some (table true false inner) => some (table i d (fs.filter (·.1 ≠ name) ++ [(name, table false false inner)]))
    | some _ => none
  | _ => none

/-- Open one more of the tables under a name. -/
def openElement (name : String) : Node → Option Node
  | table i d fs =>
    match fs.lookup name with
    | none => some (table i d (assign name (tables [table false false []]) fs))
    | some (tables ts) => some (table i d (assign name (tables (ts ++ [table false false []])) fs))
    | some _ => none
  | _ => none

/-- A table to which nothing more is added. -/
def close : Node → Node
  | table _ _ fs => closedTable fs
  | n => n

/-- The name of the field that makes a time of a table. -/
def timeName : String := "$__toml_private_datetime"

/-- The time that a table with such a first field stands for. -/
def time? : Node → Option Setting
  | value (.text s) => (TimeForm.quoted.time? s.toList).map fun t => .text (String.ofList t)
  | _ => none

/-! A table whose first field says that it is a time has to be one; its other fields do not
    matter then. -/

mutual

def setting? : Node → Option Setting
  | value v => some v
  | table _ _ fs | closedTable fs => fieldsSetting? fs
  | tables ns | closedList ns => (elements? ns).map .list

def fieldsSetting? : List (String × Node) → Option Setting
  | [] => some (.table [])
  | (name, n) :: fs =>
    if name = timeName then time? n
    else do
      let v ← setting? n
      return .table ((name, v) :: (← settings? fs))

def settings? : List (String × Node) → Option (List (String × Setting))
  | [] => some []
  | (name, n) :: fs => do
    let v ← setting? n
    return (name, v) :: (← settings? fs)

def elements? : List Node → Option (List Setting)
  | [] => some []
  | n :: ns => do
    let v ← setting? n
    return v :: (← elements? ns)

end

end Node

/-! ## Values -/

/-- How deep values may be nested. -/
def depthLimit : Nat := 80

/-- The rest of a line after a comment sign, up to its end. -/
def skipComment? (cs : List Char) : Option (List Char) :=
  let line := cs.takeWhile (· ≠ '\n')
  let rest := cs.dropWhile (· ≠ '\n')
  let line := if line.getLast? = some '\r' ∧ rest ≠ [] then line.dropLast else line
  if line.all isPlain then some rest else none

/-- Blanks, line ends and comments; `fuel` is at least the number of characters. -/
def skipLines : Nat → List Char → Option (List Char)
  | 0, cs => some cs
  | fuel + 1, cs =>
    match skipSpaces cs with
    | '#' :: cs => skipComment? cs >>= skipLines fuel
    | cs =>
      match lineEnd? cs with
      | some cs => skipLines fuel cs
      | none => some cs

/-! Every reader below takes `fuel`, at least the number of characters that remain, and the
    `depth` of the value around it. -/

mutual

def value (fuel depth : Nat) (cs : List Char) : Option (Node × List Char) :=
  match fuel, cs with
  | fuel + 1, '[' :: cs => if depthLimit ≤ depth + 1 then none else array fuel (depth + 1) [] cs
  | fuel + 1, '\x7b' :: cs =>
    if depthLimit ≤ depth + 1 then none
    else match skipSpaces cs with
      | '\x7d' :: cs => some (.closedTable [], cs)
      | cs => inlineTable fuel (depth + 1) (.table false false []) cs
  | _ + 1, '"' :: _ | _ + 1, '\'' :: _ => (string cs).map fun t => (.value (.text (String.ofList t.1)), t.2)
  | _ + 1, cs => (word cs).map fun w => (.value w.1, w.2)
  | 0, _ => none

/-- The items of an array after those in `done`, last one first, and its closing bracket. -/
def array (fuel depth : Nat) (done : List Node) (cs : List Char) : Option (Node × List Char) :=
  match fuel with
  | 0 => none
  | fuel + 1 => do
    match ← skipLines fuel cs with
    | ']' :: cs => some (.closedList done.reverse, cs)
    | cs =>
      let (v, cs) ← value fuel depth cs
      match ← skipLines fuel cs with
      | ',' :: cs => array fuel depth (v :: done) cs
      | ']' :: cs => some (.closedList (v :: done).reverse, cs)
      | _ => none

/-- The pairs of an inline table after those in `t`, and its closing brace. -/
def inlineTable (fuel depth : Nat) (t : Node) (cs : List Char) : Option (Node × List Char) :=
  match fuel with
  | 0 => none
  | fuel + 1 => do
    let (path, cs) ← key cs
    match cs with
    | '=' :: cs =>
      let (v, cs) ← value fuel depth (skipSpaces cs)
      let t ← Node.addPair path v t
      match skipSpaces cs with
      | ',' :: cs => inlineTable fuel depth t cs
      | '\x7d' :: cs => some (t.close, cs)
      | _ => none
    | _ => none

end

/-! ## Statements -/

structure Document where
  root : Node
  /-- The path of the open table. -/
  open_ : List String

namespace Document

def empty : Document := ⟨.table false false [], []⟩

def openTable (d : Document) (path : List String) : Option Document :=
  (d.root.within false (Node.openTable (path.getLastD "")) path.dropLast).map (⟨·, path⟩)

def openElement (d : Document) (path : List String) : Option Document :=
  (d.root.within false (Node.openElement (path.getLastD "")) path.dropLast).map (⟨·, path⟩)

def addPair (d : Document) (path : List String) (v : Node) : Option Document :=
  (d.root.within false (Node.addPair path v) d.open_).map ({ d with root := · })

end Document

/-- One statement. -/
def statement (d : Document) (cs : List Char) : Option (Document × List Char) :=
  match cs with
  | '[' :: '[' :: cs => do
    match ← key cs with
    | (path, ']' :: ']' :: cs) => (d.openElement path).map (·, cs)
    | _ => none
  | '[' :: cs => do
    match ← key cs with
    | (path, ']' :: cs) => (d.openTable path).map (·, cs)
    | _ => none
  | cs => do
    match ← key cs with
    | (path, '=' :: cs) =>
      let (v, cs) ← value (cs.length + 1) 0 (skipSpaces cs)
      (d.addPair path v).map (·, cs)
    | _ => none

/-- The end of a line, with a comment before it perhaps; or the end of the document. -/
def finishLine? (cs : List Char) : Option (List Char) := do
  let cs ← match skipSpaces cs with
    | '#' :: cs => skipComment? cs
    | cs => some cs
  match cs with
  | [] => some []
  | cs => lineEnd? cs

/-- Statement after statement; `fuel` is more than the number of characters. -/
def statements : Nat → Document → List Char → Option Document
  | 0, _, _ => none
  | fuel + 1, d, cs => do
    match ← skipLines cs.length cs with
    | [] => some d
    | cs =>
      let (d, cs) ← statement d cs
      statements fuel d (← finishLine? cs)

/-- The settings of a document; nothing when it is no TOML document. -/
def parse (s : String) : Option (List (String × Setting)) :=
  let cs := match s.toList with
    | '\ufeff' :: cs => cs
    | cs => cs
  match (statements (cs.length + 1) .empty cs).bind (·.root.setting?) with
  | some (.table fs) => some fs
  | _ => none

end LinkedData.Toml
