/-
  LinkedData.Proofs.Targets — the graphs of a target in its new state.

  A created resource has the user graph it was given and a server graph that only says its
  model. A replaced one has a new user graph and the server graph it had, a deleted one both
  as they were. The log alone grows with each.
-/

import LinkedData.Proofs.Upkeep

namespace LinkedData.Mutation

open Std Vocabulary

theorem userGraph_logged (kind : ChangeKind) (agent : Iri) (time : Instant) (b : BlankNode) (r : Resource) :
    (logged kind agent time b r).userGraph = r.userGraph :=
  Dataset.graph_update_of_ne _ (by decide) _

theorem serverGraph_logged (kind : ChangeKind) (agent : Iri) (time : Instant) (b : BlankNode) (r : Resource) :
    (logged kind agent time b r).serverGraph = r.serverGraph :=
  Dataset.graph_update_of_ne _ (by decide) _

theorem userGraph_born (id : Iri) (model : InteractionModel) (userGraph : Graph) (binary : Option Binary)
    (previous : Option Record) (agent : Iri) (time : Instant) (b : BlankNode) :
    (born id model userGraph binary previous agent time b).userGraph = userGraph := by
  unfold born
  rw [userGraph_logged]
  show ((((Dataset.ofUserGraph userGraph).insert .server _).set .audit _).graph .user) = _
  rw [Dataset.graph_set, if_neg (by decide), Dataset.insert, Dataset.graph_update_of_ne _ (by decide),
    Dataset.ofUserGraph, Dataset.graph_set, if_pos rfl]

theorem mem_serverGraph_born {id : Iri} {model : InteractionModel} {userGraph : Graph} {binary : Option Binary}
    {previous : Option Record} {agent : Iri} {time : Instant} {b : BlankNode} {t : Triple} :
    t ∈ (born id model userGraph binary previous agent time b).serverGraph ↔ t = Resource.typing id model := by
  unfold born
  rw [serverGraph_logged]
  show t ∈ ((((Dataset.ofUserGraph userGraph).insert .server _).set .audit _).graph .server) ↔ _
  rw [Dataset.graph_set, if_neg (by decide), Dataset.insert, Dataset.graph_update_self, Dataset.ofUserGraph,
    Dataset.graph_set, if_neg (by decide), Dataset.graph_empty, ExtTreeSet.mem_insert, LawfulEqCmp.compare_eq_iff_eq]
  simp [eq_comm]

theorem userGraph_revised (current : Resource) (userGraph : Graph) (agent : Iri) (time : Instant) (b : BlankNode) :
    (revised current userGraph agent time b).userGraph = userGraph := by
  unfold revised
  rw [userGraph_logged]
  show ((current.dataset.set .user userGraph).graph .user) = _
  rw [Dataset.graph_set, if_pos rfl]

theorem serverGraph_revised (current : Resource) (userGraph : Graph) (agent : Iri) (time : Instant) (b : BlankNode) :
    (revised current userGraph agent time b).serverGraph = current.serverGraph := by
  unfold revised
  rw [serverGraph_logged]
  show ((current.dataset.set .user userGraph).graph .server) = _
  rw [Dataset.graph_set, if_neg (by decide)]
  rfl

theorem userGraph_buried (deleted : Resource) (agent : Iri) (time : Instant) (b : BlankNode) :
    (buried deleted agent time b).userGraph = deleted.userGraph := by
  unfold buried
  rw [userGraph_logged]
  rfl

theorem userGraph_founded (root agent : Iri) (time : Instant) (b : BlankNode) :
    (founded root agent time b).userGraph = ∅ := by
  unfold founded
  rw [userGraph_logged]
  show ((Dataset.empty.insert .server (Resource.typing root .basicContainer)).graph .user) = _
  rw [Dataset.insert, Dataset.graph_update_of_ne _ (by decide), Dataset.graph_empty]

theorem mem_serverGraph_founded {root agent : Iri} {time : Instant} {b : BlankNode} {t : Triple} :
    t ∈ (founded root agent time b).serverGraph ↔ t = Resource.typing root .basicContainer := by
  unfold founded
  rw [serverGraph_logged]
  show t ∈ ((Dataset.empty.insert .server (Resource.typing root .basicContainer)).graph .server) ↔ _
  rw [Dataset.insert, Dataset.graph_update_self, Dataset.graph_empty, ExtTreeSet.mem_insert,
    LawfulEqCmp.compare_eq_iff_eq]
  simp [eq_comm]

/-! ## Logs -/

/-- The log of a record; where there is none it is empty. -/
def logOf (previous : Option Record) : Graph := (previous.map (·.resource.auditGraph)).getD ∅

/-- What the log of `x` has of an activity: that it made `x` what it is, that it is one and of which
    type, whose it was, and when. -/
def entry (x : Iri) (activity : BlankNode) (kind : ChangeKind) (agent : Iri) (time : Instant) : List Triple :=
  [⟨.iri x, Prov.wasGeneratedBy, .blank activity⟩,
   ⟨.blank activity, Rdf.type, .iri Prov.activity⟩,
   ⟨.blank activity, Rdf.type, .iri (match kind with
     | .created => Activity.create
     | .updated => Activity.update
     | .deleted => Activity.delete)⟩,
   ⟨.blank activity, Prov.wasAssociatedWith, .iri agent⟩,
   ⟨.blank activity, Prov.atTime, .literal (.typed (time.write .full) Xsd.dateTime)⟩]

theorem auditTriples_eq_entry (x : Iri) (activity : BlankNode) (kind : ChangeKind) (agent : Iri) (time : Instant) :
    auditTriples x activity kind agent time = entry x activity kind agent time := by
  cases kind <;> rfl

theorem auditGraph_logged (kind : ChangeKind) (agent : Iri) (time : Instant) (b : BlankNode) (r : Resource) :
    (logged kind agent time b r).auditGraph = r.auditGraph.extend (entry r.id b kind agent time) := by
  rw [← auditTriples_eq_entry]
  exact Dataset.graph_update_self _ _ _

theorem auditGraph_born (id : Iri) (model : InteractionModel) (userGraph : Graph) (binary : Option Binary)
    (previous : Option Record) (agent : Iri) (time : Instant) (b : BlankNode) :
    (born id model userGraph binary previous agent time b).auditGraph =
      (logOf previous).extend (entry id b .created agent time) := by
  unfold born
  rw [auditGraph_logged]
  congr 1
  show ((((Dataset.ofUserGraph userGraph).insert .server _).set .audit _).graph .audit) = _
  rw [Dataset.graph_set, if_pos rfl]
  rfl

theorem auditGraph_revised (current : Resource) (userGraph : Graph) (agent : Iri) (time : Instant) (b : BlankNode) :
    (revised current userGraph agent time b).auditGraph =
      current.auditGraph.extend (entry current.id b .updated agent time) := by
  unfold revised
  rw [auditGraph_logged]
  congr 1
  show ((current.dataset.set .user userGraph).graph .audit) = _
  rw [Dataset.graph_set, if_neg (by decide)]
  rfl

theorem auditGraph_buried (deleted : Resource) (agent : Iri) (time : Instant) (b : BlankNode) :
    (buried deleted agent time b).auditGraph =
      deleted.auditGraph.extend (entry deleted.id b .deleted agent time) :=
  auditGraph_logged _ _ _ _ _

theorem auditGraph_founded (root agent : Iri) (time : Instant) (b : BlankNode) :
    (founded root agent time b).auditGraph = Graph.extend ∅ (entry root b .created agent time) := by
  unfold founded
  rw [auditGraph_logged]
  refine congrArg (Graph.extend · _) ?_
  show ((Dataset.empty.insert .server (Resource.typing root .basicContainer)).graph .audit) = _
  rw [Dataset.insert, Dataset.graph_update_of_ne _ (by decide), Dataset.graph_empty]

end LinkedData.Mutation
