/-
  LinkedData.Vocabulary — the IRIs that the platform reads and writes, by vocabulary.
-/

import LinkedData.Rdf.Term

namespace LinkedData.Vocabulary

/-! ## RDF and XML Schema -/

def Rdf.type : Iri := ⟨"http://www.w3.org/1999/02/22-rdf-syntax-ns#type"⟩
def Rdf.langString : Iri := ⟨"http://www.w3.org/1999/02/22-rdf-syntax-ns#langString"⟩
def Xsd.string : Iri := ⟨"http://www.w3.org/2001/XMLSchema#string"⟩
def Xsd.dateTime : Iri := ⟨"http://www.w3.org/2001/XMLSchema#dateTime"⟩

/-! ## Linked Data Platform -/

def Ldp.resource : Iri := ⟨"http://www.w3.org/ns/ldp#Resource"⟩
def Ldp.rdfSource : Iri := ⟨"http://www.w3.org/ns/ldp#RDFSource"⟩
def Ldp.nonRdfSource : Iri := ⟨"http://www.w3.org/ns/ldp#NonRDFSource"⟩
def Ldp.container : Iri := ⟨"http://www.w3.org/ns/ldp#Container"⟩
def Ldp.basicContainer : Iri := ⟨"http://www.w3.org/ns/ldp#BasicContainer"⟩
def Ldp.directContainer : Iri := ⟨"http://www.w3.org/ns/ldp#DirectContainer"⟩
def Ldp.indirectContainer : Iri := ⟨"http://www.w3.org/ns/ldp#IndirectContainer"⟩

def Ldp.contains : Iri := ⟨"http://www.w3.org/ns/ldp#contains"⟩
def Ldp.member : Iri := ⟨"http://www.w3.org/ns/ldp#member"⟩
def Ldp.membershipResource : Iri := ⟨"http://www.w3.org/ns/ldp#membershipResource"⟩
def Ldp.hasMemberRelation : Iri := ⟨"http://www.w3.org/ns/ldp#hasMemberRelation"⟩
def Ldp.isMemberOfRelation : Iri := ⟨"http://www.w3.org/ns/ldp#isMemberOfRelation"⟩
def Ldp.insertedContentRelation : Iri := ⟨"http://www.w3.org/ns/ldp#insertedContentRelation"⟩
/-- The inserted content relation that stands for the child itself. -/
def Ldp.memberSubject : Iri := ⟨"http://www.w3.org/ns/ldp#MemberSubject"⟩
def Ldp.inbox : Iri := ⟨"http://www.w3.org/ns/ldp#inbox"⟩

/-! ## Access control, annotation, provenance -/

def Acl.accessControl : Iri := ⟨"http://www.w3.org/ns/auth/acl#accessControl"⟩
def Oa.annotationService : Iri := ⟨"http://www.w3.org/ns/oa#annotationService"⟩
def Prov.activity : Iri := ⟨"http://www.w3.org/ns/prov#Activity"⟩
def Prov.wasAssociatedWith : Iri := ⟨"http://www.w3.org/ns/prov#wasAssociatedWith"⟩
def Prov.wasGeneratedBy : Iri := ⟨"http://www.w3.org/ns/prov#wasGeneratedBy"⟩
def Prov.atTime : Iri := ⟨"http://www.w3.org/ns/prov#atTime"⟩

/-! ## Activity streams -/

def Activity.context : Iri := ⟨"https://www.w3.org/ns/activitystreams"⟩
def Activity.create : Iri := ⟨"https://www.w3.org/ns/activitystreams#Create"⟩
def Activity.update : Iri := ⟨"https://www.w3.org/ns/activitystreams#Update"⟩
def Activity.delete : Iri := ⟨"https://www.w3.org/ns/activitystreams#Delete"⟩

/-! ## The server's own: graph names, constraints, agents -/

def Server.userManaged : Iri := ⟨"http://www.trellisldp.org/ns/trellis#PreferUserManaged"⟩
def Server.serverManaged : Iri := ⟨"http://www.trellisldp.org/ns/trellis#PreferServerManaged"⟩
def Server.audit : Iri := ⟨"http://www.trellisldp.org/ns/trellis#PreferAudit"⟩
def Server.invalidType : Iri := ⟨"http://www.trellisldp.org/ns/trellis#InvalidType"⟩
def Server.invalidProperty : Iri := ⟨"http://www.trellisldp.org/ns/trellis#InvalidProperty"⟩
def Server.invalidRange : Iri := ⟨"http://www.trellisldp.org/ns/trellis#InvalidRange"⟩
def Server.invalidCardinality : Iri := ⟨"http://www.trellisldp.org/ns/trellis#InvalidCardinality"⟩
def Server.anonymousAgent : Iri := ⟨"http://www.trellisldp.org/ns/trellis#AnonymousAgent"⟩
def Server.administratorAgent : Iri := ⟨"http://www.trellisldp.org/ns/trellis#AdministratorAgent"⟩

end LinkedData.Vocabulary
