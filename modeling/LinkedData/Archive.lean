/-
  LinkedData.Archive — history and contents, kept as they are.

  An archive keeps mementos and blobs, and never fails. What is said of stores of either kind
  can be said of it without files.
-/

import LinkedData.Blob
import LinkedData.Memento

namespace LinkedData

open Std

structure Archive where
  states : ExtTreeMap Iri (ExtTreeMap Instant Resource compare) compare
  contents : ExtTreeMap Iri Bytes compare

namespace Archive

def empty : Archive := ⟨∅, ∅⟩

/-! ## Mementos -/

def history (a : Archive) (id : Iri) : ExtTreeMap Instant Resource compare := a.states.getD id ∅

def put (a : Archive) (id : Iri) (t : Instant) (r : Resource) : Archive :=
  { a with states := a.states.insert id ((a.history id).insert t r) }

def list (a : Archive) (id : Iri) : List Instant := (a.history id).keys

def get (a : Archive) (id : Iri) (t : Instant) : Option Resource :=
  (Memento.select (a.list id) t).bind fun k => (a.history id)[k]?

def delete (a : Archive) (id : Iri) (t : Instant) : Bool × Archive :=
  ((a.history id).contains t, { a with states := a.states.insert id ((a.history id).erase t) })

instance : MementoStore Archive :=
  ⟨fun a id t r => (.ok (), a.put id t r), fun a id => .ok (a.list id), fun a id t => .ok (a.get id t),
   fun a id t => let (found, a) := a.delete id t; (.ok found, a)⟩

/-! ## Blobs -/

def store (a : Archive) (content : Bytes) (mime : Option String) : Binary × Archive :=
  let binary := Blob.describe content mime
  (binary, { a with contents := a.contents.insert binary.location content })

instance : BlobStore Archive :=
  ⟨fun a content mime => let (binary, a) := a.store content mime; (.ok binary, a),
   fun a location => .ok a.contents[location]?⟩

end Archive

end LinkedData
