/-
  LinkedData.Encoding.Document — terms and resources as JSON documents.

  An alternative is an object with one field, named for it. A graph that has a name of its
  own has no place in a document, because the names of an object's fields are plain text:
  only a dataset with no more than the default graph has one (`dataset?`).
-/

import LinkedData.Instant.Rfc3339
import LinkedData.Json
import LinkedData.Resource

namespace LinkedData.Document

def iri (i : Iri) : Json := .text i.text

def blank (b : BlankNode) : Json :=
  .object [("scope", .number b.scope.toNat), ("index", .number b.index.toNat)]

def literal (l : Literal) : Json :=
  .object [("lexical", .text l.lexical), ("datatype", iri l.datatype), ("language", .ofOption .text l.language)]

def term : Term → Json
  | .iri i => .object [("Iri", iri i)]
  | .blank b => .object [("BlankNode", blank b)]
  | .literal l => .object [("Literal", literal l)]

def triple (t : Triple) : Json :=
  .object [("subject", term t.subject.toTerm), ("predicate", iri t.predicate), ("object", term t.object)]

def graph (g : Graph) : Json := .object [("triples", .list (g.toList.map triple))]

/-- The field of a graph. -/
def namedGraph? : GraphName × Graph → Option (String × Json)
  | (none, g) => some ("Default", graph g)
  | (some _, _) => none

def dataset? (d : Dataset) : Option Json :=
  (d.graphs.toList.mapM namedGraph?).map fun fields => .object [("graphs", .object fields)]

def binary (b : Binary) : Json :=
  .object [("location", iri b.location), ("mime_type", .ofOption .text b.mime), ("size", .number b.size.toNat),
    ("digest", .text b.digest)]

def resource? (r : Resource) : Option Json :=
  (dataset? r.dataset).map fun d =>
    .object [("identifier", iri r.id), ("interaction_model", .text r.model.name), ("dataset", d),
      ("modified", .text (r.modified.write .stored)), ("binary", .ofOption binary r.binary)]

end LinkedData.Document
