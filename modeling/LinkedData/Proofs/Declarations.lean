/-
  LinkedData.Proofs.Declarations — what a membership container makes of a graph that was accepted.

  An accepted graph says one membership resource, one relation, and at most one inserted content
  relation (`Declaration.StatedBy`). The rules are about the graph and do not know whose it is, so
  any of the three may be said of another resource. The container takes what is said of itself:
  `membershipOf` is what it makes of a declaration, and `accepted_maintained` says so of every
  accepted graph. One that names the membership resource of another is no container of members.
-/

import LinkedData.Proofs.Verdicts

namespace LinkedData

open Std Vocabulary

/-- The property that names a relation of this direction. -/
def MemberRelation.property : MemberRelation → Iri
  | hasMember _ => Ldp.hasMemberRelation
  | isMemberOf _ => Ldp.isMemberOfRelation

/-- What a graph says of membership, each with the resource that it is said of. -/
structure Declaration where
  about : Subject
  resource : Iri
  relating : Subject
  relation : MemberRelation
  inserting : Option (Subject × Iri)
  deriving DecidableEq, Repr

namespace Declaration

/-- `g` says `d`, and says nothing else by the properties of membership. -/
structure StatedBy (d : Declaration) (g : Graph) : Prop where
  resource : g.withPredicate Ldp.membershipResource = [⟨d.about, Ldp.membershipResource, .iri d.resource⟩]
  relation : g.withPredicate Ldp.hasMemberRelation ++ g.withPredicate Ldp.isMemberOfRelation =
    [⟨d.relating, d.relation.property, .iri d.relation.predicate⟩]
  content : g.withPredicate Ldp.insertedContentRelation =
    d.inserting.toList.map fun i => ⟨i.1, Ldp.insertedContentRelation, .iri i.2⟩

/-- What container `id` makes of `d`. -/
def membershipOf (d : Declaration) (id : Iri) : Option Membership :=
  if d.about = .iri id then
    some ⟨d.resource, if d.relating = .iri id then d.relation else .hasMember Ldp.member,
      (d.inserting.filter fun i => i.1 = .iri id ∧ i.2 ≠ Ldp.memberSubject).map (·.2)⟩
  else none

end Declaration

/-! ## The graph -/

namespace Constraint

variable {m : InteractionModel} {domain : String} {g : Graph}

/-- An accepted graph has IRIs where they have to be. -/
theorem exists_iri_of_violations_eq_nil (h : violations m domain g = []) {p : Iri} (hp : p ∈ iriProperties)
    {t : Triple} (ht : t ∈ g.withPredicate p) : ∃ s o, t = ⟨s, p, .iri o⟩ := by
  obtain ⟨htg, rfl⟩ := Graph.mem_withPredicate.mp ht
  have hrange := mt outOfRange_iff.mpr (Bool.eq_false_iff.mp (outOfRange_of_violations_eq_nil h htg))
  obtain ⟨s, p, o⟩ := t
  cases o with
  | iri o => exact ⟨s, o, rfl⟩
  | blank b => exact absurd (.inl ⟨.inr hp, rfl⟩) hrange
  | literal l => exact absurd (.inl ⟨.inr hp, rfl⟩) hrange

theorem length_eq_one_of_notOne {ts : List Triple} (h : notOne ts = []) : ts.length = 1 := by
  unfold notOne at h
  split at h
  · assumption
  · cases h

theorem length_le_one_of_tooMany {ts : List Triple} (h : tooMany ts = []) : ts.length ≤ 1 := by
  unfold tooMany at h
  split at h
  · assumption
  · cases h

/-- An accepted graph of a membership container says its membership. -/
theorem exists_statedBy (hm : m.isMembershipContainer = true) (h : violations m domain g = []) :
    ∃ d : Declaration, d.StatedBy g := by
  have hcard := (List.append_eq_nil_iff.mp h).1
  unfold cardinality at hcard
  rw [if_pos hm] at hcard
  obtain ⟨hone, hrest⟩ := List.append_eq_nil_iff.mp hcard
  obtain ⟨hresource, hrelation⟩ := List.append_eq_nil_iff.mp hone
  have hcontent := List.flatMap_eq_nil_iff.mp hrest Ldp.insertedContentRelation (by decide)
  obtain ⟨t, ht⟩ := List.length_eq_one_iff.mp (length_eq_one_of_notOne hresource)
  obtain ⟨about, resource, rfl⟩ := exists_iri_of_violations_eq_nil h (by decide) (ht ▸ List.mem_singleton_self t)
  obtain ⟨relating, relation, hrel⟩ : ∃ (s : Subject) (r : MemberRelation),
      g.withPredicate Ldp.hasMemberRelation ++ g.withPredicate Ldp.isMemberOfRelation =
        [⟨s, r.property, .iri r.predicate⟩] := by
    obtain ⟨u, hu⟩ := List.length_eq_one_iff.mp (length_eq_one_of_notOne hrelation)
    rw [hu]
    rcases List.mem_append.mp (hu ▸ List.mem_singleton_self u) with hmem | hmem
    · obtain ⟨s, o, rfl⟩ := exists_iri_of_violations_eq_nil h (by decide) hmem
      exact ⟨s, .hasMember o, rfl⟩
    · obtain ⟨s, o, rfl⟩ := exists_iri_of_violations_eq_nil h (by decide) hmem
      exact ⟨s, .isMemberOf o, rfl⟩
  cases hi : g.withPredicate Ldp.insertedContentRelation with
  | nil => exact ⟨⟨about, resource, relating, relation, none⟩, ht, hrel, hi⟩
  | cons v vs =>
    have hvs : vs = [] := by
      have hlen := length_le_one_of_tooMany hcontent
      rw [hi, List.length_cons] at hlen
      exact List.eq_nil_of_length_eq_zero (by omega)
    subst hvs
    obtain ⟨s, o, rfl⟩ := exists_iri_of_violations_eq_nil h (by decide) (hi ▸ List.mem_cons_self)
    exact ⟨⟨about, resource, relating, relation, some (s, o)⟩, ht, hrel, hi⟩

/-- Direct containers say no inserted content relation. -/
theorem withPredicate_insertedContentRelation_eq_nil (h : violations .directContainer domain g = []) :
    g.withPredicate Ldp.insertedContentRelation = [] := by
  refine List.eq_nil_iff_forall_not_mem.mpr fun t ht => ?_
  obtain ⟨htg, hp⟩ := Graph.mem_withPredicate.mp ht
  have hnil := List.flatMap_eq_nil_iff.mp (List.append_eq_nil_iff.mp h).2 t (ExtTreeSet.mem_toList.mpr htg)
  unfold ofTriple at hnil
  rw [if_pos (intrudes_iff.mpr (.inr (.inr (.inr ⟨hp, rfl⟩))))] at hnil
  cases hnil

end Constraint

/-! ## The container -/

namespace Membership

variable {r : Resource} {p : Iri}

theorem firstIri_eq (r : Resource) (p : Iri) : firstIri r p =
    (((r.userGraph.withPredicate p).filter (·.subject = .iri r.id)).filterMap (·.object.iri?)).head? := by
  unfold firstIri Graph.objects Graph.withPredicate
  rw [List.filterMap_map, List.filter_filter]
  simp only [Bool.decide_and, Function.comp_def]

theorem firstIri_of_eq_nil (h : r.userGraph.withPredicate p = []) : firstIri r p = none := by
  rw [firstIri_eq, h]
  rfl

theorem firstIri_of_eq_singleton {s : Subject} {o : Iri} (h : r.userGraph.withPredicate p = [⟨s, p, .iri o⟩]) :
    firstIri r p = if s = .iri r.id then some o else none := by
  rw [firstIri_eq, h]
  split <;> simp [*, Term.iri?]

variable {d : Declaration}

/-- The relation is named by its property, and not by the other one. -/
theorem relationOf_of_statedBy (h : d.StatedBy r.userGraph) :
    relationOf r = if d.relating = .iri r.id then d.relation else .hasMember Ldp.member := by
  have hnamed {p : Iri} {t : Triple} (ht : r.userGraph.withPredicate p = [t]) : t.predicate = p :=
    (Graph.mem_withPredicate.mp (ht ▸ List.mem_singleton_self t)).2
  have hne : Ldp.hasMemberRelation ≠ Ldp.isMemberOfRelation := by decide
  unfold relationOf
  rcases List.append_eq_singleton_iff.mp h.relation with ⟨hhas, his⟩ | ⟨hhas, his⟩
  · have hp : d.relation.property = Ldp.isMemberOfRelation := hnamed his
    cases hrel : d.relation with
    | hasMember o =>
      rw [hrel] at hp
      exact absurd hp hne
    | isMemberOf o =>
      rw [hrel] at his
      rw [firstIri_of_eq_nil hhas, firstIri_of_eq_singleton his]
      by_cases hs : d.relating = .iri r.id
      · rw [if_pos hs, if_pos hs]
        rfl
      · rw [if_neg hs, if_neg hs]
  · have hp : d.relation.property = Ldp.hasMemberRelation := hnamed hhas
    cases hrel : d.relation with
    | isMemberOf o =>
      rw [hrel] at hp
      exact absurd hp hne.symm
    | hasMember o =>
      rw [hrel] at hhas
      rw [firstIri_of_eq_nil his, firstIri_of_eq_singleton hhas]
      by_cases hs : d.relating = .iri r.id
      · rw [if_pos hs, if_pos hs]
        rfl
      · rw [if_neg hs, if_neg hs]

theorem insertedContentOf_of_statedBy (h : d.StatedBy r.userGraph)
    (hd : r.model = .directContainer → d.inserting = none) (hm : r.model.isMembershipContainer = true) :
    insertedContentOf r = (d.inserting.filter fun i => i.1 = .iri r.id ∧ i.2 ≠ Ldp.memberSubject).map (·.2) := by
  have hcontent := h.content
  unfold insertedContentOf
  cases hi : d.inserting with
  | none =>
    rw [hi] at hcontent
    rw [firstIri_of_eq_nil hcontent]
    exact ite_self none
  | some i =>
    have hmodel : r.model = .indirectContainer := by
      cases hr : r.model with
      | directContainer => exact absurd ((hd hr).symm.trans hi) (by simp)
      | indirectContainer => rfl
      | rdfSource | nonRdfSource | container | basicContainer => rw [hr] at hm; cases hm
    rw [hi] at hcontent
    rw [if_pos hmodel, firstIri_of_eq_singleton hcontent]
    by_cases hs : i.1 = .iri r.id <;> by_cases ho : i.2 = Ldp.memberSubject <;> simp [hs, ho, Option.filter]

/-- A membership container whose graph is accepted says in it one membership resource, one relation, and, if it is
    an indirect one, one inserted content relation or none. It takes of this what is said of itself. -/
theorem accepted_maintained {domain : String} (hm : r.model.isMembershipContainer = true)
    (h : Constraint.violations r.model domain r.userGraph = []) :
    ∃ d : Declaration, d.StatedBy r.userGraph ∧ (r.model = .directContainer → d.inserting = none) ∧
      ofContainer? r = d.membershipOf r.id := by
  obtain ⟨d, hd⟩ := Constraint.exists_statedBy hm h
  have hdirect : r.model = .directContainer → d.inserting = none := by
    intro hr
    have hnone := hd.content.symm.trans (Constraint.withPredicate_insertedContentRelation_eq_nil (hr ▸ h))
    simpa using hnone
  refine ⟨d, hd, hdirect, ?_⟩
  unfold ofContainer? Declaration.membershipOf
  rw [if_pos hm, firstIri_of_eq_singleton hd.resource, relationOf_of_statedBy hd,
    insertedContentOf_of_statedBy hd hdirect hm]
  by_cases hs : d.about = .iri r.id
  · rw [if_pos hs, if_pos hs]
    rfl
  · rw [if_neg hs, if_neg hs]
    rfl

/-! An indirect container, `trellis:data/c`, whose graph says its membership of it or of others. -/

def declaring (about relating inserting : Iri) : Resource where
  id := ⟨"trellis:data/c"⟩
  model := .indirectContainer
  dataset := .ofUserGraph (.ofList
    [⟨.iri about, Ldp.membershipResource, .iri ⟨"trellis:data/m"⟩⟩,
     ⟨.iri relating, Ldp.hasMemberRelation, .iri ⟨"urn:member"⟩⟩,
     ⟨.iri inserting, Ldp.insertedContentRelation, .iri ⟨"urn:who"⟩⟩])
  modified := ⟨1, 0⟩
  binary := none

/-- One that says all of itself. -/
theorem declaring_maintained :
    (declaring ⟨"trellis:data/c"⟩ ⟨"trellis:data/c"⟩ ⟨"trellis:data/c"⟩).model.isMembershipContainer = true ∧
      Constraint.violations .indirectContainer "trellis:data/"
        (declaring ⟨"trellis:data/c"⟩ ⟨"trellis:data/c"⟩ ⟨"trellis:data/c"⟩).userGraph = [] ∧
      ∃ d : Declaration,
        d.StatedBy (declaring ⟨"trellis:data/c"⟩ ⟨"trellis:data/c"⟩ ⟨"trellis:data/c"⟩).userGraph ∧
        ofContainer? (declaring ⟨"trellis:data/c"⟩ ⟨"trellis:data/c"⟩ ⟨"trellis:data/c"⟩) =
          d.membershipOf ⟨"trellis:data/c"⟩ := by
  have haccepted :
      Constraint.violations .indirectContainer "trellis:data/"
        (declaring ⟨"trellis:data/c"⟩ ⟨"trellis:data/c"⟩ ⟨"trellis:data/c"⟩).userGraph = [] := by
    decide +kernel
  obtain ⟨d, hd, -, hm⟩ := accepted_maintained
    (r := declaring ⟨"trellis:data/c"⟩ ⟨"trellis:data/c"⟩ ⟨"trellis:data/c"⟩) rfl haccepted
  exact ⟨rfl, haccepted, d, hd, hm⟩

/-- Said of another, a membership resource makes no membership, a relation leaves the default one, and an inserted
    content relation leaves the child as the member; and the graph is accepted each time. -/
theorem declaring_of_another :
    (Constraint.violations .indirectContainer "trellis:data/"
      (declaring ⟨"trellis:data/x"⟩ ⟨"trellis:data/c"⟩ ⟨"trellis:data/c"⟩).userGraph = [] ∧
      ofContainer? (declaring ⟨"trellis:data/x"⟩ ⟨"trellis:data/c"⟩ ⟨"trellis:data/c"⟩) = none) ∧
    (Constraint.violations .indirectContainer "trellis:data/"
      (declaring ⟨"trellis:data/c"⟩ ⟨"trellis:data/x"⟩ ⟨"trellis:data/c"⟩).userGraph = [] ∧
      ofContainer? (declaring ⟨"trellis:data/c"⟩ ⟨"trellis:data/x"⟩ ⟨"trellis:data/c"⟩) =
        some ⟨⟨"trellis:data/m"⟩, .hasMember Ldp.member, some ⟨"urn:who"⟩⟩) ∧
    (Constraint.violations .indirectContainer "trellis:data/"
      (declaring ⟨"trellis:data/c"⟩ ⟨"trellis:data/c"⟩ ⟨"trellis:data/x"⟩).userGraph = [] ∧
      ofContainer? (declaring ⟨"trellis:data/c"⟩ ⟨"trellis:data/c"⟩ ⟨"trellis:data/x"⟩) =
        some ⟨⟨"trellis:data/m"⟩, .hasMember ⟨"urn:member"⟩, none⟩) := by
  decide +kernel

end Membership

end LinkedData
