/-
  LinkedData.Yaml.Document — YAML documents, read into settings.

  A document is one node: a scalar, a list of nodes, or a table with a node for each key. A plain
  scalar is what it looks like; a tag says otherwise. A node may have an anchor, and come up
  again by it.
-/

import LinkedData.Decimal.Reader
import LinkedData.Settings
import LinkedData.Yaml.Token

namespace LinkedData.Yaml

/-! ## Scalars -/

/-- An integer of 64 bits in a base, with a sign or without one. -/
def based? (base : Nat) (cs : List Char) : Option Int := do
  let (negative, ds) := Text.unsigned cs
  if ds = [] then none
  let values ← ds.mapM Hex.digitValue?
  if ¬ values.all (· < base) then none
  let n := values.foldl (fun n d => base * n + d) 0
  Text.int64? (if negative then -(n : Int) else n)

/-- An integer; `0x` and `0o` say that it is not decimal. -/
def integer? : List Char → Option Int
  | '0' :: 'x' :: cs => based? 16 cs
  | '0' :: 'o' :: cs => based? 8 cs
  | '+' :: cs => Text.integer? cs
  | cs => Text.integer? cs

/-- Names of real numbers that no setting can be. -/
def unreadable : List String :=
  [".inf", ".Inf", ".INF", "+.inf", "+.Inf", "+.INF", "-.inf", "-.Inf", "-.INF", ".nan", ".NaN", ".NAN"]

/-- A real number, or the name of one. A number has a digit. -/
def isReal (s : String) : Bool :=
  unreadable.contains s || s.toList.any Char.isDigit && (Binary64.ofText? s.toList).isSome

def real? (s : String) : Option Setting := (Binary64.ofText? s.toList).map .real

def flag? (s : String) : Option Setting :=
  if s = "true" then some (.flag true) else if s = "false" then some (.flag false) else none

def isNothing (s : String) : Bool := s == "~" || s == "null"

/-- The value of a node. What does not go with its tag has none. -/
abbrev Node := Option Setting

/-- A plain scalar without a tag. -/
def untagged (s : String) : Option Setting :=
  match integer? s.toList, flag? s with
  | some n, _ => some (.integer n)
  | none, some b => some b
  | none, none =>
    if isNothing s then some .nothing else if isReal s then real? s else some (.text s)

/-- A plain scalar with the name of a tag. -/
def tagged (name s : String) : Option Node :=
  match name with
  | "bool" => some (flag? s)
  | "int" => some ((Text.integer? s.toList).map .integer)
  | "float" => if isReal s then (real? s).map some else some none
  | "null" => some (if isNothing s then some .nothing else none)
  | _ => some (some (.text s))

/-- A scalar; only a plain one is something other than text. -/
def scalar (tag : Option String) (isPlain : Bool) (s : String) : Option Node :=
  match tag, isPlain with
  | _, false => some (some (.text s))
  | none, true => (untagged s).map some
  | some name, true => tagged name s

/-! ## Tables -/

/-- A key: text or an integer. -/
abbrev Key := String ⊕ Int

namespace Key

def ofSetting? : Setting → Option Key
  | .text s => some (.inl s)
  | .integer n => some (.inr n)
  | _ => none

def text : Key → String
  | .inl s => s
  | .inr n => toString n

end Key

/-- Keys and values in turn, put together. What has no value is no key, and no key is there twice. -/
def pairs : List (Key × Setting) → List Node → Option (List (Key × Setting))
  | done, none :: nodes => pairs done nodes
  | done, some k :: v :: nodes => do
    let k ← Key.ofSetting? k
    if done.any (·.1 = k) then none else pairs (done ++ [(k, v.getD .nothing)]) nodes
  | done, _ => some done

def table (nodes : List Node) : Option Node :=
  (pairs [] nodes).map fun fs => some (.table (fs.foldl (fun fs f => Setting.assign f.1.text f.2 fs) []))

def list (nodes : List Node) : Node := some (.list (nodes.map (·.getD .nothing)))

/-! ## Nodes -/

/-- The tokens that follow, and what is known for them. -/
structure Source where
  tokens : List Token
  rule : Option (String × String)
  /-- The anchors so far; as long as a node is not complete, its anchor has no value. -/
  anchors : Array (String × Node)

abbrev Reading := StateT Source Option

namespace Reading

def peek : Reading (Option Token) := return (← get).tokens.head?

def skip : Reading Unit := modify fun s => { s with tokens := s.tokens.drop 1 }

/-- One of some tokens follows. -/
def isNext (ts : List Token) : Reading Bool := return ((← peek).map ts.contains).getD false

/-- Over a token, if it follows. -/
def skip? (t : Token) : Reading Bool := do
  if ← isNext [t] then
    skip
    return true
  else return false

/-- Over the comma between two items. -/
def separated (first : Bool) : Reading Bool := if first then return true else skip? .comma

/-- The value of the newest anchor with a name. -/
def reference (name : String) : Reading Node := do
  ((← get).anchors.toList.reverse.lookup name : Option Node)

def anchor? : Reading (Option Nat) := do
  match ← peek with
  | some (.anchor name) =>
    skip
    let s ← get
    set { s with anchors := s.anchors.push (name, none) }
    return some s.anchors.size
  | _ => return none

def tag? : Reading (Option String) := do
  match ← peek with
  | some (.tag t) =>
    skip
    return some (← t.coreName? (← get).rule)
  | _ => return none

/-- The anchor and the tag of a node, in any order. -/
def properties : Reading (Option Nat × Option String) := do
  match ← anchor? with
  | some i => return (some i, ← tag?)
  | none =>
    match ← tag? with
    | some name => return (← anchor?, some name)
    | none => return (none, none)

/-- A node is complete. -/
def complete (anchor : Option Nat) (v : Node) : Reading Unit :=
  match anchor with
  | some i => modify fun s => { s with anchors := s.anchors.modify i fun a => (a.1, v) }
  | none => return

/-! Every reader below takes `fuel`, more than twice the number of tokens that remain. -/

mutual

/-- A node. In a block it may be a block itself, and as the value of a key a list that is not
    indented. -/
def node (fuel : Nat) (inBlock inTable : Bool) : Reading Node :=
  match fuel with
  | 0 => failure
  | fuel + 1 => do
    match ← peek with
    | some (.reference name) =>
      skip
      reference name
    | _ =>
      let (anchor, tag) ← properties
      let v ← match ← peek, inBlock, inTable with
        | some (.scalar isPlain s), _, _ => do
          skip
          scalar tag isPlain s
        | some .entry, _, true => items fuel false []
        | some .flowSequenceStart, _, _ => do
          skip
          flowItems fuel []
        | some .flowMappingStart, _, _ => do
          skip
          flowFields fuel []
        | some .sequenceStart, true, _ => do
          skip
          items fuel true []
        | some .mappingStart, true, _ => do
          skip
          fields fuel []
        | _, _, _ => if anchor.isSome ∨ tag.isSome then (scalar tag true "" : Option Node) else failure
      complete anchor v
      return v

/-- A node, or nothing in front of some tokens. -/
def nodeBefore (fuel : Nat) (ends : List Token) (inBlock inTable : Bool) : Reading Node :=
  match fuel with
  | 0 => failure
  | fuel + 1 => do
    if ← isNext ends then return some .nothing else node fuel inBlock inTable

/-- The items of a list after those in `done`, last one first. One that is indented has an end. -/
def items (fuel : Nat) (indented : Bool) (done : List Node) : Reading Node :=
  match fuel with
  | 0 => failure
  | fuel + 1 => do
    if ← skip? .entry then
      let v ← nodeBefore fuel (if indented then [.entry, .blockEnd] else [.entry, .key, .value, .blockEnd]) true false
      items fuel indented (v :: done)
    else if indented then
      if ← skip? .blockEnd then return list done.reverse else failure
    else return list done.reverse

/-- The keys and values of a table after those in `done`, last one first. -/
def fields (fuel : Nat) (done : List Node) : Reading Node :=
  match fuel with
  | 0 => failure
  | fuel + 1 => do
    let ends := [.key, .value, .blockEnd]
    if ← skip? .blockEnd then table done.reverse
    else if ¬ (← isNext [.key, .value]) then failure
    else
      let k ← if ← skip? .key then nodeBefore fuel ends true true else pure (some .nothing)
      let v ← if ← skip? .value then nodeBefore fuel ends true true else pure (some .nothing)
      fields fuel (v :: k :: done)

/-- The items of a list in brackets. An item may be a pair without braces. -/
def flowItems (fuel : Nat) (done : List Node) : Reading Node :=
  match fuel with
  | 0 => failure
  | fuel + 1 => do
    if ← skip? .flowSequenceEnd then return list done.reverse
    if ¬ (← separated done.isEmpty) then failure
    if ← skip? .flowSequenceEnd then return list done.reverse
    if ← skip? .key then
      let k ← node fuel false false
      let v ← if ← skip? .value then nodeBefore fuel [.comma, .flowSequenceEnd] false false else pure (some .nothing)
      flowItems fuel ((← table [k, v]) :: done)
    else
      let v ← node fuel false false
      flowItems fuel (v :: done)

/-- The keys and values of a table in braces. A node may stand for a key without a value. -/
def flowFields (fuel : Nat) (done : List Node) : Reading Node :=
  match fuel with
  | 0 => failure
  | fuel + 1 => do
    let ends := [.comma, .flowMappingEnd]
    if ← skip? .flowMappingEnd then return ← table done.reverse
    if ¬ (← separated done.isEmpty) then failure
    if ← skip? .flowMappingEnd then return ← table done.reverse
    if ← isNext [.key, .value] then
      let k ← if ← skip? .key then nodeBefore fuel (.value :: ends) false false else pure (some .nothing)
      let v ← if ← skip? .value then nodeBefore fuel ends false false else pure (some .nothing)
      flowFields fuel (v :: k :: done)
    else
      let k ← node fuel false false
      flowFields fuel (some .nothing :: k :: done)

end

end Reading

/-! ## Documents -/

/-- What comes before the node of a document. Of its rules for tags, the last directive counts. -/
def header (versioned : Bool) (rule : Option (String × String)) :
    List Token → Option (Option (String × String) × List Token)
  | .version :: ts => if versioned then none else header true none ts
  | .rule handle meaning :: ts => header versioned (some (handle, meaning)) ts
  | .documentStart :: ts => some (rule, ts)
  | _ => none

def hasHeader : List Token → Bool
  | .version :: _ | .rule _ _ :: _ | .documentStart :: _ => true
  | _ => false

def skipEnds (ts : List Token) : List Token := ts.dropWhile (· = .documentEnd)

/-- The settings of a text with one document or none; nothing when it has another form, or is no
    table. -/
def parse (s : String) : Option (List (String × Setting)) := do
  match skipEnds (← Token.ofText? s) with
  | [] => some []
  | ts =>
    let (rule, ts) ← if hasHeader ts then header false none ts else some (none, ts)
    let (root, source) ← (Reading.node (3 * ts.length + 3) true false).run ⟨ts, rule, #[]⟩
    match root, skipEnds source.tokens with
    | some (.table fs), [] => some fs
    | _, _ => none

end LinkedData.Yaml
