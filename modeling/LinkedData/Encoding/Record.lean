/-
  LinkedData.Encoding.Record — resources and records as bytes, field after field.

  An alternative is its number and then its fields; sets and maps are lists in their order;
  a time is its text, with no more fraction digits than it needs.
-/

import LinkedData.Encoding.Primitive
import LinkedData.Instant.Rfc3339
import LinkedData.Resource

namespace LinkedData.Encoding

open Std

def iri (i : Iri) : Bytes := text i.text

def decodeIri (bs : Bytes) : Option (Iri × Bytes) := do
  let (s, rest) ← decodeText bs
  some (⟨s⟩, rest)

def blank (b : BlankNode) : Bytes := number 8 b.scope.toNat ++ number 4 b.index.toNat

def decodeBlank (bs : Bytes) : Option (BlankNode × Bytes) := do
  let (scope, bs) ← decodeNumber 8 bs
  let (index, rest) ← decodeNumber 4 bs
  some (⟨UInt64.ofNat scope, UInt32.ofNat index⟩, rest)

def literal (l : Literal) : Bytes := text l.lexical ++ iri l.datatype ++ option text l.language

def decodeLiteral (bs : Bytes) : Option (Literal × Bytes) := do
  let (lexical, bs) ← decodeText bs
  let (datatype, bs) ← decodeIri bs
  let (language, rest) ← decodeOption decodeText bs
  some (⟨lexical, datatype, language⟩, rest)

def subject : Subject → Bytes
  | .iri i => tag 0 ++ iri i
  | .blank b => tag 1 ++ blank b

def decodeSubject (bs : Bytes) : Option (Subject × Bytes) := do
  let (alternative, bs) ← decodeNumber 4 bs
  match alternative with
  | 0 => (decodeIri bs).map fun r => (.iri r.1, r.2)
  | 1 => (decodeBlank bs).map fun r => (.blank r.1, r.2)
  | _ => none

def term : Term → Bytes
  | .iri i => tag 0 ++ iri i
  | .blank b => tag 1 ++ blank b
  | .literal l => tag 2 ++ literal l

def decodeTerm (bs : Bytes) : Option (Term × Bytes) := do
  let (alternative, bs) ← decodeNumber 4 bs
  match alternative with
  | 0 => (decodeIri bs).map fun r => (.iri r.1, r.2)
  | 1 => (decodeBlank bs).map fun r => (.blank r.1, r.2)
  | 2 => (decodeLiteral bs).map fun r => (.literal r.1, r.2)
  | _ => none

def triple (t : Triple) : Bytes := subject t.subject ++ iri t.predicate ++ term t.object

def decodeTriple (bs : Bytes) : Option (Triple × Bytes) := do
  let (s, bs) ← decodeSubject bs
  let (p, bs) ← decodeIri bs
  let (o, rest) ← decodeTerm bs
  some (⟨s, p, o⟩, rest)

def graph (g : Graph) : Bytes := list triple g.toList

def decodeGraph (bs : Bytes) : Option (Graph × Bytes) := do
  let (ts, rest) ← decodeList decodeTriple bs
  some (Graph.ofList ts, rest)

def graphName : GraphName → Bytes
  | none => tag 0
  | some i => tag 1 ++ iri i

def decodeGraphName (bs : Bytes) : Option (GraphName × Bytes) := do
  let (alternative, bs) ← decodeNumber 4 bs
  match alternative with
  | 0 => some (none, bs)
  | 1 => (decodeIri bs).map fun r => (some r.1, r.2)
  | _ => none

def namedGraph (e : GraphName × Graph) : Bytes := graphName e.1 ++ graph e.2

def decodeNamedGraph (bs : Bytes) : Option ((GraphName × Graph) × Bytes) := do
  let (n, bs) ← decodeGraphName bs
  let (g, rest) ← decodeGraph bs
  some ((n, g), rest)

def dataset (d : Dataset) : Bytes := list namedGraph d.graphs.toList

def decodeDataset (bs : Bytes) : Option (Dataset × Bytes) := do
  let (es, rest) ← decodeList decodeNamedGraph bs
  some (⟨ExtTreeMap.ofList es compare⟩, rest)

def modelNumber : InteractionModel → Nat
  | .rdfSource => 0
  | .nonRdfSource => 1
  | .container => 2
  | .basicContainer => 3
  | .directContainer => 4
  | .indirectContainer => 5

def model (m : InteractionModel) : Bytes := tag (modelNumber m)

def decodeModel (bs : Bytes) : Option (InteractionModel × Bytes) := do
  let (alternative, rest) ← decodeNumber 4 bs
  let m ← InteractionModel.all.find? (modelNumber · = alternative)
  some (m, rest)

def instant (t : Instant) : Bytes := text (t.write .stored)

def decodeInstant (bs : Bytes) : Option (Instant × Bytes) := do
  let (s, rest) ← decodeText bs
  let t ← Instant.readRelaxed s
  some (t, rest)

def binary (b : Binary) : Bytes :=
  iri b.location ++ option text b.mime ++ number 8 b.size.toNat ++ text b.digest

def decodeBinary (bs : Bytes) : Option (Binary × Bytes) := do
  let (location, bs) ← decodeIri bs
  let (mime, bs) ← decodeOption decodeText bs
  let (size, bs) ← decodeNumber 8 bs
  let (digest, rest) ← decodeText bs
  some (⟨location, mime, UInt64.ofNat size, digest⟩, rest)

def resource (r : Resource) : Bytes :=
  iri r.id ++ model r.model ++ dataset r.dataset ++ instant r.modified ++ option binary r.binary

def decodeResource (bs : Bytes) : Option (Resource × Bytes) := do
  let (id, bs) ← decodeIri bs
  let (m, bs) ← decodeModel bs
  let (d, bs) ← decodeDataset bs
  let (modified, bs) ← decodeInstant bs
  let (b, rest) ← decodeOption decodeBinary bs
  some (⟨id, m, d, modified, b⟩, rest)

def record (r : Record) : Bytes := resource r.resource ++ option instant r.tombstonedAt

def decodeRecord (bs : Bytes) : Option (Record × Bytes) := do
  let (r, bs) ← decodeResource bs
  let (at_, rest) ← decodeOption decodeInstant bs
  some (⟨r, at_⟩, rest)

end LinkedData.Encoding
