/-
  LinkedData.Proofs.Contributors — the state in which member triples are exact.

  The invariant (`Exact`) speaks of all triples at once: apart from types and containment, a
  server graph holds what some container's children contribute to it, and nothing else. In such a
  state every live resource is listed, so what is contributed before and after a mutation is the
  sum of the four parts that it can be seen in from the target (`contributed`,
  `contributed_applyTo`).

  The invariant is not kept by every step. A step is careful (`Careful`) when it deletes no
  container and no base of a membership resource, gives memberships bases that are there, and
  leaves containers with relations of their own.
-/

import LinkedData.Proofs.Supply

namespace LinkedData

open Std SteadyStore Vocabulary

/-- `d` keeps its members by `r`. -/
def Relates (see : Iri → Option Record) (d r : Iri) : Prop :=
  ∃ m, membershipIn see d = some m ∧ m.relation.predicate = r

/-- Containers do not share relations, and none uses that of types. -/
structure Apart (see : Iri → Option Record) : Prop where
  unique : ∀ {d d' r}, Relates see d r → Relates see d' r → d = d'
  typing : ∀ {d}, ¬ Relates see d Rdf.type

/-- A step of a careful run. -/
structure Careful (before after : Iri → Option Record) : Prop where
  /-- What is deleted is no container, and no base of a membership resource. -/
  kept : ∀ {x c}, liveIn before x = some c → liveIn after x = none →
    c.isContainer = false ∧ ∀ {d m}, membershipIn before d = some m → m.target ≠ x
  /-- A membership that is given to a container has a base that is there, or is the container. -/
  based : ∀ {d m}, membershipIn after d = some m → membershipIn before d ≠ some m →
    m.target = d ∨ (liveIn before m.target).isSome
  apart : Apart after

/-- Listings, membership resources and member triples are as the containers say. -/
structure Exact (root : Iri) (see : Iri → Option Record) : Prop extends Hierarchy root see where
  listed : ∀ {x c p}, liveIn see x = some c → Identifier.parent? root x = .ok (some p) →
    ∃ d, liveIn see p = some d ∧ d.isContainer = true ∧ Resource.containment p x ∈ d.serverGraph
  held : ∀ {d m}, membershipIn see d = some m → (liveIn see m.target).isSome
  apart : Apart see
  exact : ∀ {k c t}, liveIn see k = some c → t.predicate ≠ Rdf.type → t.predicate ≠ Ldp.contains →
    (t ∈ c.serverGraph ↔ ∃ d, Contributes see d ⟨k, t⟩)

/-! ## Steps of tables can be checked -/

namespace Table

/-- Whether a step from one table to another is careful is a question about what is in them. -/
theorem careful_iff (t t' : Table) : Careful (find t) (find t') ↔
    (∀ x ∈ t.ids, ∀ c ∈ liveIn (find t) x, liveIn (find t') x = none →
      c.isContainer = false ∧ ∀ d ∈ t.ids, ∀ m ∈ membershipIn (find t) d, m.target ≠ x) ∧
    (∀ d ∈ t'.ids, ∀ m ∈ membershipIn (find t') d, membershipIn (find t) d ≠ some m →
      m.target = d ∨ (liveIn (find t) m.target).isSome) ∧
    ∀ d ∈ t'.ids, ∀ m ∈ membershipIn (find t') d, m.relation.predicate ≠ Rdf.type ∧
      ∀ d' ∈ t'.ids, ∀ m' ∈ membershipIn (find t') d', m.relation.predicate = m'.relation.predicate → d = d' := by
  constructor
  · intro h'
    obtain ⟨hkept, hbased, hapart⟩ := h'
    refine ⟨fun x _ c hc hnone => ?_, fun d _ m hm hne => hbased hm hne, fun d _ m hm => ⟨fun ht => ?_, ?_⟩⟩
    · exact ⟨(hkept hc hnone).1, fun d _ m hm => (hkept hc hnone).2 hm⟩
    · exact hapart.typing ⟨m, hm, ht⟩
    · exact fun d' _ m' hm' he => hapart.unique ⟨m, hm, he⟩ ⟨m', hm', rfl⟩
  · intro h'
    obtain ⟨hkept, hbased, hapart⟩ := h'
    refine ⟨fun {x c} hc hnone => ?_, fun {d m} hm hne => hbased d (mem_ids_of_membershipIn hm) m hm hne, ?_, ?_⟩
    · obtain ⟨hcont, hnot⟩ := hkept x (mem_ids_of_liveIn hc) c hc hnone
      exact ⟨hcont, fun {d m} hm => hnot d (mem_ids_of_membershipIn hm) m hm⟩
    · rintro d d' r ⟨m, hm, rfl⟩ ⟨m', hm', he⟩
      exact (hapart d (mem_ids_of_membershipIn hm) m hm).2 d' (mem_ids_of_membershipIn hm') m' hm' he.symm
    · rintro d ⟨m, hm, ht⟩
      exact (hapart d (mem_ids_of_membershipIn hm) m hm).1 ht

instance (t t' : Table) : Decidable (Careful (find t) (find t')) := decidable_of_iff _ (careful_iff t t').symm

end Table

/-! ## Times do not matter -/

namespace Akin

variable {see see' : Iri → Option Record}

theorem relates (h : Akin see see') {d r : Iri} (hd : Relates see d r) : Relates see' d r := by
  obtain ⟨m, hm, hr⟩ := hd
  exact ⟨m, by rwa [h.membershipIn_eq], hr⟩

end Akin

theorem Apart.of_akin {see see' : Iri → Option Record} (h : Apart see) (ha : Akin see see') : Apart see' where
  unique hd hd' := h.unique (ha.symm.relates hd) (ha.symm.relates hd')
  typing hd := h.typing (ha.symm.relates hd)

theorem Exact.of_akin {root : Iri} {see see' : Iri → Option Record} (h : Exact root see) (ha : Akin see see') :
    Exact root see' where
  toHierarchy := h.toHierarchy.of_akin ha
  listed hx hp := by
    obtain ⟨c, hc, -⟩ := ha.of_liveIn hx
    obtain ⟨d, hd, hcont, hmem⟩ := h.listed hc hp
    obtain ⟨d', hd', -, hmod, hdat⟩ := ha.symm.of_liveIn hd
    refine ⟨d', hd', ?_, ?_⟩
    · rw [Resource.isContainer, hmod]
      exact hcont
    · rw [Resource.serverGraph, hdat]
      exact hmem
  held hm := by
    rw [ha.membershipIn_eq] at hm
    rw [ha.liveIn_isSome]
    exact h.held hm
  apart := h.apart.of_akin ha
  exact {k c t} hk ht hc := by
    obtain ⟨c₀, hc₀, -, -, hdat⟩ := ha.of_liveIn hk
    rw [Resource.serverGraph, ← hdat]
    rw [show t ∈ c₀.dataset.serverGraph ↔ _ from h.exact hc₀ ht hc]
    exact exists_congr fun d => ⟨ha.contributes, ha.symm.contributes⟩

theorem Careful.of_akin {before after after' : Iri → Option Record} (h : Careful before after')
    (ha : Akin after after') :
    Careful before after where
  kept {x c} hx hnone := by
    refine h.kept hx ?_
    have hs := ha.liveIn_isSome x
    rw [hnone] at hs
    exact Option.not_isSome_iff_eq_none.mp (by rw [hs]; simp)
  based hm hne := h.based (by rw [ha.membershipIn_eq]; exact hm) hne
  apart := h.apart.of_akin ha.symm

namespace Exact

variable {root : Iri} {see : Iri → Option Record} {p id agent : Iri} {time : Instant} {b : BlankNode} {o : Outcome}
  {q : MemberTriple}

/-- What is contributed before a mutation. -/
theorem contributed (h : Exact root see) (hp : Identifier.parent? root id = .ok (some p)) :
    (∃ d, Contributes see d q) ↔ Elsewhere see p id q ∨ BySiblings see p id q ∨
      ∃ y, liveIn see id = some y ∧ (AsChild see p y q ∨ AsContainer see y q) := by
  rw [exists_contributes_iff p id]
  refine or_congr_right ⟨?_, ?_⟩
  · intro h'
    rcases h' with ⟨c, m, hc, hm, hs⟩ | ⟨y, m, hy, hm, hs⟩
    · rcases (supplied_split _ _ _ id).mp hs with hs | ⟨-, y, hy, hq⟩
      · exact .inl ⟨c, m, hc, hm, hs⟩
      · exact .inr ⟨y, hy, .inl ⟨c, m, hc, hm, hq⟩⟩
    · exact .inr ⟨y, hy, .inr ⟨m, hm, hs⟩⟩
  · intro h'
    rcases h' with ⟨c, m, hc, hm, hs⟩ | ⟨y, hy, ⟨c, m, hc, hm, hq⟩ | ⟨m, hm, hs⟩⟩
    · exact .inl ⟨c, m, hc, hm, (supplied_split _ _ _ id).mpr (.inl hs)⟩
    · obtain ⟨c', hc', -, hlists⟩ := h.listed hy hp
      rw [hc] at hc'
      cases hc'
      refine .inl ⟨c, m, hc, hm, (supplied_split _ _ _ id).mpr (.inr ⟨?_, y, hy, hq⟩)⟩
      rw [Resource.mem_children, h.id_eq hc]
      exact hlists
    · exact .inr ⟨y, m, hy, hm, hs⟩

/-- What is contributed after it, if the target is listed while it is live. -/
theorem contributed_applyTo (h : Exact root see) (hp : Identifier.parent? root id = .ok (some p))
    (hl : o.Lawful see p id)
    (hlists : ∀ {y}, o.target.live? = some y → ∀ {c}, liveIn see p = some c → id ∈ (c.edited o.edits).children) :
    (∃ d, Contributes (o.applyTo id see) d q) ↔ Elsewhere see p id q ∨ BySiblings see p id q ∨
      ∃ y, o.target.live? = some y ∧ (AsChild see p y q ∨ AsContainer see y q) := by
  have hchild : (∃ y c m, o.target.live? = some y ∧ liveIn see p = some c ∧ Membership.ofContainer? c = some m ∧
      id ∈ (c.edited o.edits).children ∧ q ∈ m.triples y) ↔
        ∃ y, o.target.live? = some y ∧ AsChild see p y q := by
    constructor
    · intro h'
      obtain ⟨y, c, m, hy, hc, hm, -, hq⟩ := h'
      exact ⟨y, hy, c, m, hc, hm, hq⟩
    · intro h'
      obtain ⟨y, hy, c, m, hc, hm, hq⟩ := h'
      exact ⟨y, c, m, hy, hc, hm, hlists hy hc, hq⟩
  rw [exists_contributes_iff p id, h.elsewhere_applyTo hp hl, Hierarchy.contributes_parent_iff hp hl,
    h.contributes_target_iff hp hl, hchild, or_assoc]
  refine or_congr_right (or_congr_right ?_)
  constructor
  · intro h'
    rcases h' with ⟨y, hy, hq⟩ | ⟨y, hy, hq⟩
    · exact ⟨y, hy, .inl hq⟩
    · exact ⟨y, hy, .inr hq⟩
  · intro h'
    rcases h' with ⟨y, hy, hq | hq⟩
    · exact .inl ⟨y, hy, hq⟩
    · exact .inr ⟨y, hy, hq⟩

end Exact

end LinkedData
