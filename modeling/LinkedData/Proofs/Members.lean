/-
  LinkedData.Proofs.Members — member triples, and the graphs that say which there are.

  A member triple has the predicate of its relation and is kept with the membership resource
  or with the child. A graph that breaks no constraint never makes `ldp:contains` a relation
  (`predicate_relationOf_ne_contains`), so member triples never look like containment. A
  container lists a child once (`nodup_children`).
-/

import LinkedData.Constraint
import LinkedData.Membership
import Mathlib.Data.List.Nodup

namespace LinkedData

open Std Vocabulary

def MemberRelation.predicate : MemberRelation → Iri
  | hasMember p | isMemberOf p => p

namespace Membership

variable {m : Membership} {child : Resource} {t : MemberTriple}

/-- A member triple is kept with the membership resource, or, if members say it themselves, with the child. -/
theorem holder_cases (h : t ∈ m.triples child) :
    t.holder = m.target ∨ (∃ k, m.relation = .isMemberOf k) ∧ t.holder = child.id := by
  unfold triples at h
  split at h
  · obtain ⟨o, -, rfl⟩ := List.mem_map.mp h
    exact .inl rfl
  · next k hr =>
    rw [List.mem_singleton.mp h]
    exact .inr ⟨⟨k, hr⟩, rfl⟩

theorem holder_of_mem_triples (h : t ∈ m.triples child) : t.holder = m.target ∨ t.holder = child.id :=
  (holder_cases h).imp_right And.right

theorem predicate_of_mem_triples (h : t ∈ m.triples child) : t.triple.predicate = m.relation.predicate := by
  unfold triples at h
  split at h
  · next p hr =>
    obtain ⟨o, -, rfl⟩ := List.mem_map.mp h
    rw [hr]
    rfl
  · next p hr =>
    rw [List.mem_singleton.mp h, hr]
    rfl

theorem relation_of_ofContainer? {r : Resource} (h : ofContainer? r = some m) : m.relation = relationOf r := by
  unfold ofContainer? at h
  split at h
  · obtain ⟨i, -, rfl⟩ := Option.map_eq_some_iff.mp h
    rfl
  · cases h

theorem isContainer_of_ofContainer? {r : Resource} (h : ofContainer? r = some m) : r.isContainer = true := by
  unfold ofContainer? at h
  split at h
  · next hm =>
    unfold Resource.isContainer
    cases hmodel : r.model <;> simp_all [InteractionModel.isMembershipContainer, InteractionModel.isContainer]
  · cases h

theorem mem_of_firstIri {r : Resource} {p i : Iri} (h : firstIri r p = some i) :
    ⟨.iri r.id, p, .iri i⟩ ∈ r.userGraph := by
  unfold firstIri at h
  obtain ⟨o, ho, hi⟩ := List.mem_filterMap.mp (List.mem_of_head? h)
  have hterm : o = .iri i := by cases o <;> simp_all [Term.iri?]
  rw [hterm] at ho
  exact Graph.mem_objects.mp ho

/-- The relation is one that the user graph names, or the default one. -/
theorem predicate_relationOf (r : Resource) :
    (relationOf r).predicate = Ldp.member ∨ ∃ p ∈ [Ldp.hasMemberRelation, Ldp.isMemberOfRelation],
      ⟨.iri r.id, p, .iri (relationOf r).predicate⟩ ∈ r.userGraph := by
  unfold relationOf
  cases hh : firstIri r Ldp.hasMemberRelation with
  | some p => exact .inr ⟨_, List.mem_cons_self, mem_of_firstIri hh⟩
  | none =>
    cases hi : firstIri r Ldp.isMemberOfRelation with
    | some p => exact .inr ⟨_, List.mem_cons_of_mem _ List.mem_cons_self, mem_of_firstIri hi⟩
    | none => exact .inl rfl

end Membership

namespace Constraint

/-- A graph that breaks no rule keeps the range of its properties. -/
theorem outOfRange_of_violations_eq_nil {m : InteractionModel} {domain : String} {g : Graph}
    (h : violations m domain g = []) {t : Triple} (ht : t ∈ g) : outOfRange domain t = false := by
  have hnil := List.flatMap_eq_nil_iff.mp (List.append_eq_nil_iff.mp h).2 t (ExtTreeSet.mem_toList.mpr ht)
  unfold ofTriple at hnil
  simpa using (List.append_eq_nil_iff.mp hnil).2

/-- Containment is no membership relation of a resource whose graph was checked. -/
theorem predicate_relationOf_ne_contains {m : InteractionModel} {domain : String} {r : Resource}
    (h : violations m domain r.userGraph = []) : (Membership.relationOf r).predicate ≠ Ldp.contains := by
  rcases Membership.predicate_relationOf r with he | ⟨p, hp, hmem⟩
  · rw [he]
    decide
  · have hrange := outOfRange_of_violations_eq_nil h hmem
    intro hc
    rw [hc] at hrange
    simp only [List.mem_cons, List.not_mem_nil, or_false] at hp
    unfold outOfRange at hrange
    dsimp only [Term.iri?] at hrange
    rw [if_pos hp] at hrange
    simp at hrange

end Constraint

namespace Graph

theorem nodup_toList (g : Graph) : g.toList.Nodup :=
  ExtTreeSet.distinct_toList.imp fun h he => h (by rw [he]; exact ReflCmp.compare_self)

theorem mem_extend {g : Graph} {ts : List Triple} {t : Triple} : t ∈ g.extend ts ↔ t ∈ g ∨ t ∈ ts := by
  unfold extend
  induction ts generalizing g with
  | nil => simp
  | cons a ts ih =>
    rw [List.foldl_cons, ih, ExtTreeSet.mem_insert, LawfulEqCmp.compare_eq_iff_eq, List.mem_cons]
    simp only [eq_comm, or_assoc, or_left_comm]

theorem nodup_objects (g : Graph) (s : Subject) (p : Iri) : (g.objects s p).Nodup := by
  unfold objects
  refine List.Nodup.map_on ?_ (g.nodup_toList.filter _)
  intro a ha b hb hab
  simp only [List.mem_filter, decide_eq_true_eq] at ha hb
  cases a
  cases b
  simp_all

end Graph

namespace Resource

theorem nodup_children (r : Resource) : r.children.Nodup := by
  refine List.Nodup.filterMap ?_ (Graph.nodup_objects _ _ _)
  intro a b i ha hb
  cases a <;> cases b <;> simp_all [Term.iri?]

end Resource

end LinkedData
