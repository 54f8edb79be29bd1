/-
  LinkedData.Proofs.Links — where the links in server graphs lead.

  While all memberships are plain, which is that members are the children themselves and the
  membership resource links to them, every link in a server graph is contributed by a child and
  leads to it, or leads to a resource that was abandoned at some time: it was live, and its parent
  was not (`Backed`). A deletion takes along what the parent's membership says of the resource,
  but only while there is a parent, and the deletion of a container takes along nothing of what
  its children contribute. So a link is left dangling only by a resource that was abandoned
  before it was deleted (`links_lead`), and it can be (`dangling_member`).
-/

import LinkedData.Proofs.Supply

namespace LinkedData

open Std SteadyStore Vocabulary

/-- Members are the children, and the membership resource links to them. -/
def Membership.Plain (m : Membership) : Prop :=
  m.insertedContent = none ∧ m.relation = .hasMember m.relation.predicate

instance (m : Membership) : Decidable m.Plain := inferInstanceAs (Decidable (_ ∧ _))

namespace Membership

variable {m : Membership} {child child' : Resource} {q : MemberTriple}

theorem Plain.triples_eq (h : m.Plain) (child : Resource) :
    m.triples child = [⟨m.target, ⟨.iri m.resource, m.relation.predicate, .iri child.id⟩⟩] := by
  unfold triples members
  rw [h.2, h.1]
  rfl

theorem Plain.triples_congr (h : m.Plain) (hid : child.id = child'.id) : m.triples child = m.triples child' := by
  rw [h.triples_eq, h.triples_eq, hid]

theorem Plain.object (h : m.Plain) (hq : q ∈ m.triples child) : q.triple.object = .iri child.id := by
  rw [h.triples_eq, List.mem_singleton] at hq
  rw [hq]

end Membership

/-- All memberships are plain. -/
def AllPlain (see : Iri → Option Record) : Prop := ∀ d m, membershipIn see d = some m → m.Plain

/-- Whether the memberships in a table are plain is a question about what is in it. -/
theorem Table.allPlain_iff (t : Table) :
    AllPlain (find t) ↔ ∀ d ∈ t.ids, ∀ m ∈ membershipIn (find t) d, m.Plain :=
  ⟨fun h d _ m hm => h d m hm, fun h d m hm => h d (mem_ids_of_membershipIn hm) m hm⟩

instance (t : Table) : Decidable (AllPlain (find t)) := decidable_of_iff _ t.allPlain_iff.symm

/-- A live resource whose parent is not live. -/
def Abandoned (root : Iri) (see : Iri → Option Record) (x : Iri) : Prop :=
  (liveIn see x).isSome ∧ ∃ p, Identifier.parent? root x = .ok (some p) ∧ liveIn see p = none

/-- Links, types and containment apart, are contributed, or lead to something lost. -/
def Backed (lost : Iri → Prop) (see : Iri → Option Record) : Prop :=
  ∀ k c t, liveIn see k = some c → t ∈ c.serverGraph → t.predicate ≠ Rdf.type → t.predicate ≠ Ldp.contains →
    (∃ d, Contributes see d ⟨k, t⟩) ∨ ∃ x, t.object = .iri x ∧ lost x

theorem Backed.mono {lost lost' : Iri → Prop} {see : Iri → Option Record} (h : Backed lost see)
    (hl : ∀ x, lost x → lost' x) : Backed lost' see := by
  intro k c t hk ht htype hcon
  rcases h k c t hk ht htype hcon with hd | ⟨x, ho, hx⟩
  · exact .inl hd
  · exact .inr ⟨x, ho, hl x hx⟩

theorem Backed.of_akin {lost : Iri → Prop} {see see' : Iri → Option Record} (h : Backed lost see)
    (ha : Akin see see') :
    Backed lost see' := by
  intro k c t hk ht htype hcon
  obtain ⟨c₀, hc₀, -, -, hdat⟩ := ha.of_liveIn hk
  have ht₀ : t ∈ c₀.serverGraph := by rwa [Resource.serverGraph, hdat]
  rcases h k c₀ t hc₀ ht₀ htype hcon with ⟨d, hd⟩ | hlost
  · exact .inl ⟨d, ha.contributes hd⟩
  · exact .inr hlost

theorem Akin.abandoned {root : Iri} {see see' : Iri → Option Record} (h : Akin see see') {x : Iri}
    (hx : Abandoned root see x) : Abandoned root see' x := by
  obtain ⟨hlive, p, hp, hnone⟩ := hx
  refine ⟨by rwa [h.liveIn_isSome], p, hp, ?_⟩
  have hs := h.liveIn_isSome p
  rw [hnone] at hs
  simpa using hs

namespace Hierarchy

variable {root : Iri} {see : Iri → Option Record} {p id agent : Iri} {time : Instant} {b : BlankNode} {op : Operation}
  {o : Outcome} {lost : Iri → Prop}

/-- A created resource is linked to as a child on its parent's list. -/
theorem backed_created (h : Hierarchy root see) (hp : Identifier.parent? root id = .ok (some p))
    {model : InteractionModel} {userGraph : Graph} {binary : Option Binary} (hl : o.Lawful see p id)
    (ho : Mutation.Comes see p id agent time b (.create model userGraph binary) o) (hb : Backed lost see) :
    Backed lost (o.applyTo id see) := by
  obtain ⟨d, hd, -, hlists⟩ := h.listed_created hp ho
  obtain ⟨x, ha⟩ := h.arrival ho
  intro k r t hk ht htype hcon
  rcases (ha.graphs hk htype hcon).mp ht with ⟨y, hy, hold⟩ | ⟨c, m, hpar, hm, hq⟩
  · refine (hb k y t hy hold htype hcon).imp_left ?_
    rintro ⟨d, hd⟩
    rcases h.contributes_applyTo hp hl hd with hd | ⟨y, c, m, hlive, -⟩ | ⟨y, hlive, -⟩
    · exact hd
    · rw [ha.before] at hlive
      cases hlive
    · rw [ha.before] at hlive
      cases hlive
  · have hin : id ∈ (c.edited o.edits).children := by
      rw [Outcome.liveIn_applyTo_of_ne _ see (Ne.symm (Identifier.parent?_ne hp)), hpar] at hd
      cases hd
      rwa [Resource.mem_children, Resource.id_edited, h.id_eq hpar]
    exact .inl ⟨p, (contributes_parent_iff hp hl).mpr (.inr ⟨x, c, m, ha.after, hpar, hm, hin, hq⟩)⟩

/-- A replaced resource is linked to as before, and a replaced container by its new membership. -/
theorem backed_revised (h : Hierarchy root see) (hp : Identifier.parent? root id = .ok (some p)) {userGraph : Graph}
    {expected : Option InteractionModel} (hc : Operation.Checked root.text (.replace userGraph expected))
    (ho : Mutation.Comes see p id agent time b (.replace userGraph expected) o) (hplain : AllPlain see)
    (hb : Backed lost see) : Backed lost (o.applyTo id see) := by
  have hl := h.lawful hp hc ho
  have hlisting := h.listing_applyTo hp hc ho
  obtain ⟨current, x, hr⟩ := h.revision hp ho
  have hcongr : ∀ {c m}, liveIn see p = some c → Membership.ofContainer? c = some m →
      m.triples current = m.triples x :=
    fun hpar hm => (hplain _ _ (membershipIn_eq_some.mpr ⟨_, hpar, hm⟩)).triples_congr
      ((h.id_eq hr.before).trans hr.id_eq.symm)
  have htarget : ∀ {q}, AsContainer see x q → ∃ d, Contributes (o.applyTo id see) d q := fun hq =>
    ⟨id, (h.contributes_target_iff hp hl).mpr ⟨x, hr.after, hq⟩⟩
  intro k r t hk ht htype hcon
  obtain ⟨y, hy, hgraph⟩ := hr.graphs hk
  rcases hgraph.mp ht with ⟨⟨hin, -⟩ | ⟨c, m, hpar, hm, hne, -⟩, hkept⟩ | ⟨-, hin⟩
  · refine (hb k y t hy hin htype hcon).imp_left ?_
    rintro ⟨d, hd⟩
    rcases h.contributes_applyTo hp hl hd with hd | ⟨z, c, m, hz, hpar, hm, hchild, hq⟩ | ⟨z, hz, hq⟩
    · exact hd
    · rw [hr.before] at hz
      cases hz
      -- the parent still lists the target, and a plain membership says the same of it
      have hbefore : Listed see p id :=
        ⟨c, hpar, Membership.isContainer_of_ofContainer? hm, by rwa [Resource.mem_children, h.id_eq hpar] at hchild⟩
      have hlive' : liveIn (o.applyTo id see) id = some (x.edited o.edits) := by
        rw [Outcome.liveIn_applyTo_self, hr.after]
        rfl
      have hpar' : liveIn (o.applyTo id see) p = some (c.edited o.edits) := by
        rw [Outcome.liveIn_applyTo_of_ne o see (Ne.symm (Identifier.parent?_ne hp)), hpar]
        rfl
      obtain ⟨c', hc', -, hmem⟩ := (hlisting.kept hp hr.before hlive' hpar hpar').mpr hbefore
      rw [hpar'] at hc'
      cases hc'
      refine ⟨p, (contributes_parent_iff hp hl).mpr (.inr ⟨x, c, m, hr.after, hpar, hm, ?_, hcongr hpar hm ▸ hq⟩)⟩
      rwa [Resource.mem_children, Resource.id_edited, h.id_eq hpar]
    · rw [hr.before] at hz
      cases hz
      by_cases hmm : Membership.ofContainer? current = Membership.ofContainer? x
      · exact htarget ((hr.asContainer_iff h hmm).mpr hq)
      · exact absurd ⟨hmm, hq⟩ hkept
  · exact absurd (hcongr hpar hm) hne
  · exact .inl (htarget hin)

/-- A deleted resource leaves links to its children, which are abandoned. -/
theorem backed_buried (h : Hierarchy root see) (hp : Identifier.parent? root id = .ok (some p)) (hl : o.Lawful see p id)
    (ho : Mutation.Comes see p id agent time b .delete o) (hplain : AllPlain see) (hb : Backed lost see) :
    Backed (fun x => lost x ∨ Abandoned root (o.applyTo id see) x) (o.applyTo id see) := by
  obtain ⟨current, hdep⟩ := h.departure ho
  intro k r t hk ht htype hcon
  obtain ⟨y, hy, hgraph⟩ := hdep.graphs hk hcon
  obtain ⟨hin, hkept⟩ := hgraph.mp ht
  rcases hb k y t hy hin htype hcon with ⟨d, hd⟩ | ⟨z, ho, hz⟩
  · rcases h.contributes_applyTo hp hl hd with
      hd | ⟨z, c, m, hz, hpar, hm, -, hq⟩ | ⟨z, hz, m, hm, w, hw, child, hchild, hq⟩
    · exact .inl hd
    · rw [hdep.before] at hz
      cases hz
      have hs : BySiblings see p id ⟨k, t⟩ := by
        by_contra hs
        exact hkept ⟨⟨c, m, hpar, hm, hq⟩, hs⟩
      exact .inl ⟨p, (contributes_parent_iff hp hl).mpr (.inl hs)⟩
    · have hobject := (hplain _ _ (membershipIn_eq_some.mpr ⟨z, hz, hm⟩)).object hq
      rw [h.id_eq hchild] at hobject
      have hwp := (h.child_live hz hw).2
      refine .inr ⟨w, hobject, .inr ⟨?_, id, hwp, ?_⟩⟩
      · rw [Outcome.liveIn_applyTo_of_ne _ see (Identifier.parent?_ne hwp), hchild]
        rfl
      · rw [Outcome.liveIn_applyTo_self, hdep.after]
        rfl
  · exact .inr ⟨z, ho, .inl hz⟩

theorem backed_applyTo (h : Hierarchy root see) (hp : Identifier.parent? root id = .ok (some p))
    (hc : op.Checked root.text) (ho : Mutation.Comes see p id agent time b op o) (hplain : AllPlain see)
    (hb : Backed lost see) :
    Backed (fun x => lost x ∨ Abandoned root (o.applyTo id see) x) (o.applyTo id see) := by
  have hl := h.lawful hp hc ho
  cases op with
  | create model userGraph binary => exact (h.backed_created hp hl ho hb).mono fun _ => .inl
  | replace userGraph expected => exact (h.backed_revised hp hc ho hplain hb).mono fun _ => .inl
  | delete => exact h.backed_buried hp hl ho hplain hb

theorem backed_founded (h : Hierarchy root see) (hl : liveIn see root = none) (hb : Backed lost see) :
    Backed lost ((founding root agent time b).applyTo root see) := by
  intro k r t hk ht htype hcon
  simp only [h.contributes_founding hl]
  by_cases he : root = k
  · rw [← he, liveIn_founding_self] at hk
    cases hk
    rw [Mutation.mem_serverGraph_founded] at ht
    exact absurd (congrArg Triple.predicate ht) htype
  · rw [liveIn_founding_of_ne he] at hk
    exact hb k r t hk ht htype hcon

end Hierarchy

/-! ## Runs -/

theorem Repository.Moved.backed {σ : Type} [RecordStore σ] [KeyedStore σ] {r r' : Repository σ} (hm : Moved r r')
    (h : Hierarchy r.root (find r.store)) (hplain : AllPlain (find r.store)) {lost : Iri → Prop}
    (hb : Backed lost (find r.store)) :
    Backed (fun x => lost x ∨ Abandoned r'.root (find r'.store) x) (find r'.store) := by
  cases hm with
  | still hr hs =>
    rw [hs]
    exact hb.mono fun _ => .inl
  | founded hl ha => exact ((h.backed_founded hl hb).of_akin ha.content).mono fun _ => .inl
  | mutated hr hp hc ho ha =>
    unfold outcomeAt Mutation.outcomeFrom at ho
    rw [Transaction.look_begin] at ho
    rw [ha.root]
    have hafter := h.backed_applyTo hp hc (Mutation.comes_of_outcome ho) hplain hb
    exact (hafter.of_akin ha.content).mono fun x => .imp_right ha.content.abandoned

namespace Service

variable {σ α ε : Type} [RecordStore σ] [KeyedStore σ] [MementoStore α] [BlobStore α] [EventSink ε]
  {s : Service σ α ε} {past : List (Service σ α ε)}

omit [KeyedStore σ] [MementoStore α] [BlobStore α] [EventSink ε] in
/-- `x` is live, and its parent is not. -/
def Abandons (s : Service σ α ε) (x : Iri) : Prop :=
  s.alive x = true ∧ ∃ p, Identifier.parent? s.root x = .ok (some p) ∧ s.alive p = false

omit [MementoStore α] [BlobStore α] [EventSink ε] in
theorem abandons_iff {x : Iri} : s.Abandons x ↔ Abandoned s.root (find s.repository.store) x := by
  simp only [Abandons, Abandoned, alive_eq, Option.isSome_eq_false_iff, Option.isNone_iff_eq_none]

omit [MementoStore α] [BlobStore α] [EventSink ε] in
theorem allPlain_iff : AllPlain (find s.repository.store) ↔
    ∀ d c m, s.get d = .ok (some c) → Membership.ofContainer? c = some m → m.Plain := by
  simp only [AllPlain, membershipIn_eq_some, get_eq_ok]
  refine forall_congr' fun d => ⟨fun h c m hc hm => h m ⟨c, hc, hm⟩, fun h m hm => ?_⟩
  obtain ⟨c, hc, hm⟩ := hm
  exact h c m hc hm

theorem Trace.backed (h : Trace s past) (hplain : ∀ e ∈ past, AllPlain (find e.repository.store)) :
    Backed (fun x => ∃ e ∈ s :: past, e.Abandons x) (find s.repository.store) := by
  induction h with
  | empty hs =>
    intro k c t hk
    simp [liveIn, hs] at hk
  | @serve s past now q h ih =>
    have hmoved := serve_moved h.reachable.selfKeyed now q
    have hb := ih fun e he => hplain e (List.mem_cons_of_mem _ he)
    refine (hmoved.backed h.reachable.hierarchy (hplain s List.mem_cons_self) hb).mono fun x hx => ?_
    rcases hx with ⟨e, he, hx⟩ | hx
    · exact ⟨e, List.mem_cons_of_mem _ he, hx⟩
    · exact ⟨_, List.mem_cons_self, abandons_iff.mpr hx⟩

/-- While memberships are plain, a link in a server graph leads to a live resource, or is a member
    link to one that was live at some time while its parent was not. -/
theorem links_lead (h : Trace s past)
    (hplain : ∀ e ∈ s :: past, ∀ d c m, e.get d = .ok (some c) → Membership.ofContainer? c = some m → m.Plain)
    {k : Iri} {holder : Resource} {t : Triple} (hk : s.get k = .ok (some holder)) (ht : t ∈ holder.serverGraph)
    (htype : t.predicate ≠ Rdf.type) :
    ∃ x, t.object = .iri x ∧
      (s.alive x = true ∨ t.predicate ≠ Ldp.contains ∧ ∃ e ∈ past, e.Abandons x) := by
  have hall : ∀ e ∈ s :: past, AllPlain (find e.repository.store) := fun e he => allPlain_iff.mpr (hplain e he)
  rw [get_eq_ok] at hk
  by_cases hcon : t.predicate = Ldp.contains
  · obtain ⟨x, child, rfl, hx, -⟩ := h.reachable.hierarchy.contains hk ht hcon
    exact ⟨x, rfl, .inl (by rw [alive_eq, hx]; rfl)⟩
  · rcases h.backed (fun e he => hall e (List.mem_cons_of_mem _ he)) k holder t hk ht htype hcon with
      hd | ⟨x, ho, e, he, hx⟩
    · obtain ⟨d, c, m, hc, hm, x, -, child, hchild, hq⟩ := hd
      have hobject := (hall s List.mem_cons_self d m (membershipIn_eq_some.mpr ⟨c, hc, hm⟩)).object hq
      rw [h.reachable.hierarchy.id_eq hchild] at hobject
      exact ⟨x, hobject, .inl (by rw [alive_eq, hchild]; rfl)⟩
    · rcases List.mem_cons.mp he with rfl | he
      · exact ⟨x, ho, .inl hx.1⟩
      · exact ⟨x, ho, .inr ⟨hcon, e, he, hx⟩⟩

/-! A direct container with a child in it, both of which are deleted, the container first. -/

/-- The user graph of a direct container whose children are members of `trellis:data/m`. -/
def crewGraph : Graph := .ofList
  [⟨.iri ⟨"trellis:data/d"⟩, Ldp.membershipResource, .iri ⟨"trellis:data/m"⟩⟩,
   ⟨.iri ⟨"trellis:data/d"⟩, Ldp.hasMemberRelation, .iri ⟨"urn:member"⟩⟩]

def disbanding : List (Instant × Request) :=
  [(⟨1, 0⟩, .makeRoot),
   (⟨2, 0⟩, .create ⟨"trellis:data/m"⟩ .rdfSource .empty (.anonymous ⟨2, 0⟩)),
   (⟨3, 0⟩, .create ⟨"trellis:data/d"⟩ .directContainer (.ofUserGraph crewGraph) (.anonymous ⟨3, 0⟩)),
   (⟨4, 0⟩, .create ⟨"trellis:data/d/x"⟩ .rdfSource .empty (.anonymous ⟨4, 0⟩)),
   (⟨5, 0⟩, .delete ⟨"trellis:data/d"⟩ (.anonymous ⟨5, 0⟩)),
   (⟨6, 0⟩, .delete ⟨"trellis:data/d/x"⟩ (.anonymous ⟨6, 0⟩))]

def disbanded : Service Table Archive Sink := (blank.trail [] disbanding).1

def beforeDisbanded : List (Service Table Archive Sink) := (blank.trail [] disbanding).2

def memberLink : Triple := ⟨.iri ⟨"trellis:data/m"⟩, ⟨"urn:member"⟩, .iri ⟨"trellis:data/d/x"⟩⟩

theorem trace_disbanded : disbanded.Trace beforeDisbanded := (Trace.empty Table.get?_empty).trail disbanding

theorem plain_disbanded : ∀ e ∈ disbanded :: beforeDisbanded, ∀ d c m, e.get d = .ok (some c) →
    Membership.ofContainer? c = some m → m.Plain := by
  have hall : ∀ e ∈ disbanded :: beforeDisbanded, AllPlain (find e.repository.store) := by decide +kernel
  exact fun e he => allPlain_iff.mp (hall e he)

theorem disbanded_member :
    ∃ holder, disbanded.get ⟨"trellis:data/m"⟩ = .ok (some holder) ∧ memberLink ∈ holder.serverGraph := by
  simp only [get_eq_ok]
  decide +kernel

/-- The link that is left was to a child that was live while its container was not. -/
theorem disbanded_links_lead : disbanded.Trace beforeDisbanded ∧
    (∀ e ∈ disbanded :: beforeDisbanded, ∀ d c m, e.get d = .ok (some c) →
      Membership.ofContainer? c = some m → m.Plain) ∧
    (∃ holder, disbanded.get ⟨"trellis:data/m"⟩ = .ok (some holder) ∧ memberLink ∈ holder.serverGraph) ∧
    memberLink.predicate ≠ Rdf.type ∧
    ∃ x, memberLink.object = .iri x ∧ (disbanded.alive x = true ∨
      memberLink.predicate ≠ Ldp.contains ∧ ∃ e ∈ beforeDisbanded, e.Abandons x) := by
  have htype : memberLink.predicate ≠ Rdf.type := by decide
  obtain ⟨holder, hk, ht⟩ := disbanded_member
  exact ⟨trace_disbanded, plain_disbanded, ⟨holder, hk, ht⟩, htype,
    links_lead trace_disbanded plain_disbanded hk ht htype⟩

/-- The membership resource still links to the child, which is no longer there. -/
theorem dangling_member : disbanded.Trace beforeDisbanded ∧
    (∀ e ∈ disbanded :: beforeDisbanded, ∀ d c m, e.get d = .ok (some c) →
      Membership.ofContainer? c = some m → m.Plain) ∧
    (∃ holder, disbanded.get ⟨"trellis:data/m"⟩ = .ok (some holder) ∧ memberLink ∈ holder.serverGraph) ∧
    memberLink.predicate ≠ Rdf.type ∧ memberLink.object = .iri ⟨"trellis:data/d/x"⟩ ∧
      disbanded.alive ⟨"trellis:data/d/x"⟩ = false :=
  ⟨trace_disbanded, plain_disbanded, disbanded_member, by decide, rfl, by decide +kernel⟩

end Service

end LinkedData
