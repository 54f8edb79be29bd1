/-
  LinkedData.Listing — resources and histories as text for a terminal.

  A resource is a few lines about it and then its triples, graph by graph. A history is a
  numbered table of times, in a frame as wide as its widest cells.
-/

import LinkedData.Instant.Rfc3339
import LinkedData.Rdf.NTriples
import LinkedData.Resource

namespace LinkedData.Listing

def line (s : String) : String := s ++ "\n"

def lines (ls : List String) : String := String.join (ls.map line)

/-! ## Resources -/

def graphTitle : GraphName → String
  | none => "# default graph"
  | some i => "# graph <" ++ i.text ++ ">"

/-- An empty line, the title, and the triples. -/
def graph (e : GraphName × Graph) : List String := "" :: graphTitle e.1 :: e.2.toList.map Triple.line

/-- Content of an unknown type is just bytes. -/
def binary (b : Binary) : String :=
  "# binary: " ++ b.location.text ++ " (" ++ toString b.size.toNat ++ " bytes, " ++
    b.mime.getD "application/octet-stream" ++ ")"

def resource (r : Resource) : String :=
  lines (["# " ++ r.id.text, "# interaction model: " ++ r.model.iri.text, "# modified: " ++ r.modified.write .full] ++
    (r.binary.map binary).toList ++ r.dataset.graphs.toList.flatMap graph)

/-! ## Histories -/

/-- The rows of the table, its heading first. -/
def rows (times : List Instant) : List (String × String) :=
  ("#", "Memento") :: times.mapIdx fun i t => (toString (i + 1), t.write .full)

def fill (width : Nat) (s : String) : String := s ++ "".pushn ' ' (width - s.length)

def widest (cells : List String) : Nat := (cells.map String.length).foldl max 0

/-- A cell has a blank on either side, and a blank divides the cells. -/
def row (first second : Nat) (r : String × String) : String :=
  "│ " ++ fill first r.1 ++ "   " ++ fill second r.2 ++ " │"

def rule (left mark right : Char) (width : Nat) : String :=
  (("".push left).pushn mark width).push right

def table (times : List Instant) : String :=
  let cells := rows times
  let first := widest (cells.map (·.1))
  let second := widest (cells.map (·.2))
  let width := first + second + 5
  let body := cells.map (row first second)
  "\n".intercalate (rule '┌' '─' '┐' width :: body.take 1 ++ rule '╞' '═' '╡' width :: body.drop 1 ++
    [rule '└' '─' '┘' width])

/-- The times recorded for a resource, oldest first. -/
def history (id : String) (times : List Instant) : String :=
  if times = [] then "No mementos recorded for " ++ id
  else "Mementos for " ++ id ++ "\n\n" ++ table times

end LinkedData.Listing
