/-
  LinkedData.Json — JSON documents as values. How one is spelled is left to who writes it out.
-/

namespace LinkedData

inductive Json
  | null
  | bool (b : Bool)
  | number (n : Int)
  | text (s : String)
  | list (items : List Json)
  | object (fields : List (String × Json))

def Json.ofOption {α : Type} (f : α → Json) : Option α → Json
  | none => .null
  | some a => f a

end LinkedData
