/-
  LinkedData.Proofs.Exactness — member triples are exactly what children contribute.

  In every state of a careful run from an empty store, a live resource has a member triple in
  its server graph if and only if a child of the container with that relation contributes it
  (`membership_exact`). For each kind of mutation, what the graphs hold after it is held against
  what is contributed after it (`mem_created`, `mem_revised`, `mem_buried`). The parts cannot be
  confused, since each container has a relation of its own: what is withdrawn from one is never
  contributed by another.
-/

import LinkedData.Proofs.Contributors

namespace LinkedData

open Std SteadyStore Vocabulary

section

variable {root : Iri} {see : Iri → Option Record} {p id d agent : Iri} {time : Instant} {b : BlankNode} {o : Outcome}
  {q : MemberTriple} {y : Resource}

/-! ## Whose relation a contributed triple has -/

theorem Contributes.relates (h : Contributes see d q) : Relates see d q.triple.predicate := by
  obtain ⟨c, m, hc, hm, x, -, child, -, hq⟩ := h
  exact ⟨m, membershipIn_eq_some.mpr ⟨c, hc, hm⟩, (Membership.predicate_of_mem_triples hq).symm⟩

theorem BySiblings.relates (h : BySiblings see p id q) : Relates see p q.triple.predicate := by
  obtain ⟨c, m, hc, hm, x, -, child, -, hq⟩ := h
  exact ⟨m, membershipIn_eq_some.mpr ⟨c, hc, hm⟩, (Membership.predicate_of_mem_triples hq).symm⟩

theorem AsChild.relates (h : AsChild see p y q) : Relates see p q.triple.predicate := by
  obtain ⟨c, m, hc, hm, hq⟩ := h
  exact ⟨m, membershipIn_eq_some.mpr ⟨c, hc, hm⟩, (Membership.predicate_of_mem_triples hq).symm⟩

theorem AsContainer.relates (h : AsContainer see y q) (hy : liveIn see id = some y) :
    Relates see id q.triple.predicate := by
  obtain ⟨m, hm, x, -, child, -, hq⟩ := h
  exact ⟨m, membershipIn_eq_some.mpr ⟨y, hy, hm⟩, (Membership.predicate_of_mem_triples hq).symm⟩

end

namespace Exact

variable {root : Iri} {see : Iri → Option Record} {p id agent : Iri} {time : Instant} {b : BlankNode} {o : Outcome}

/-- Contributed triples are kept with resources that are live. -/
theorem holder_live (h : Exact root see) {d : Iri} {q : MemberTriple} (hd : Contributes see d q) :
    ∃ c, liveIn see q.holder = some c := by
  obtain ⟨c, m, hc, hm, x, hx, child, hchild, hq⟩ := hd
  rcases Membership.holder_of_mem_triples hq with he | he
  · rw [he]
    exact Option.isSome_iff_exists.mp (h.held (membershipIn_eq_some.mpr ⟨c, hc, hm⟩))
  · rw [he, h.id_eq hchild]
    exact ⟨child, hchild⟩

/-! ## The graphs after each kind of mutation -/

/-- What the graphs hold after an outcome, types and containment apart. -/
def Holds (see : Iri → Option Record) (p id : Iri) (o : Outcome) : Prop :=
  ∀ {k r t}, liveIn (o.applyTo id see) k = some r → t.predicate ≠ Rdf.type → t.predicate ≠ Ldp.contains →
    (t ∈ r.serverGraph ↔ Elsewhere see p id ⟨k, t⟩ ∨ BySiblings see p id ⟨k, t⟩ ∨
      ∃ y, o.target.live? = some y ∧ (AsChild see p y ⟨k, t⟩ ∨ AsContainer see y ⟨k, t⟩))

theorem mem_created (h : Exact root see) (hp : Identifier.parent? root id = .ok (some p)) {model : InteractionModel}
    {userGraph : Graph} {binary : Option Binary} (hl : o.Lawful see p id)
    (ho : Mutation.Comes see p id agent time b (.create model userGraph binary) o) : Holds see p id o := by
  intro k r t hk ht hcon
  obtain ⟨x, ha⟩ := h.arrival ho
  have hold : (∃ y, liveIn see k = some y ∧ t ∈ y.serverGraph) ↔ ∃ d, Contributes see d ⟨k, t⟩ := by
    constructor
    · intro h'
      obtain ⟨y, hy, hin⟩ := h'
      exact (h.exact hy ht hcon).mp hin
    · intro h'
      obtain ⟨d, hd⟩ := h'
      obtain ⟨c, hc⟩ := h.holder_live hd
      exact ⟨c, hc, (h.exact hc ht hcon).mpr ⟨d, hd⟩⟩
  have hchildless : ¬ AsContainer see x ⟨k, t⟩ := by
    intro h'
    obtain ⟨m, -, z, hz, -⟩ := h'
    obtain ⟨c, hc, -⟩ := hl.contains ha.after (Resource.mem_children.mp hz) rfl
    rw [ha.before] at hc
    cases hc
  rw [ha.graphs hk ht hcon, hold, h.contributed hp, or_assoc, or_assoc]
  refine or_congr_right (or_congr_right ?_)
  simp [ha.before, ha.after, hchildless]

theorem mem_revised (h : Exact root see) (hp : Identifier.parent? root id = .ok (some p)) {userGraph : Graph}
    {expected : Option InteractionModel} (ho : Mutation.Comes see p id agent time b (.replace userGraph expected) o) :
    Holds see p id o := by
  intro k r t hk ht hcon
  obtain ⟨current, x, hr⟩ := h.revision hp ho
  obtain ⟨y, hy, hafter⟩ := hr.graphs (t := t) hk
  -- what is dropped for one membership is not contributed to another
  have hpid : ¬ (Relates see p t.predicate ∧ Relates see id t.predicate) :=
    fun hrel => Identifier.parent?_ne hp (h.apart.unique hrel.1 hrel.2)
  have helse : Elsewhere see p id ⟨k, t⟩ → ¬ Relates see p t.predicate ∧ ¬ Relates see id t.predicate := by
    intro h'
    obtain ⟨d, hdid, hdp, hd⟩ := h'
    exact ⟨fun hrel => hdp (h.apart.unique hd.relates hrel), fun hrel => hdid (h.apart.unique hd.relates hrel)⟩
  have hchild : ∀ {z}, AsChild see p z ⟨k, t⟩ → Relates see p t.predicate := AsChild.relates
  have hsib : BySiblings see p id ⟨k, t⟩ → Relates see p t.predicate := BySiblings.relates
  have hcont : AsContainer see current ⟨k, t⟩ → Relates see id t.predicate := fun hc => hc.relates hr.before
  rw [hafter, h.exact hy ht hcon, h.contributed hp]
  simp only [hr.before, hr.after, Option.some.injEq, exists_eq_left']
  have hjoins : Joins see p current x ⟨k, t⟩ → AsChild see p x ⟨k, t⟩ := Joins.asChild
  have hjoined : AsChild see p x ⟨k, t⟩ → Joins see p current x ⟨k, t⟩ ∨ AsChild see p current ⟨k, t⟩ :=
    AsChild.joins
  have hsame := hr.asContainer_iff (q := ⟨k, t⟩) h.toHierarchy
  have hcurrent := @hchild current
  have hx := @hchild x
  grind

theorem mem_buried (h : Exact root see) (hp : Identifier.parent? root id = .ok (some p))
    (hkept : ∀ {c}, liveIn see id = some c → c.isContainer = false)
    (ho : Mutation.Comes see p id agent time b .delete o) : Holds see p id o := by
  intro k r t hk ht hcon
  obtain ⟨current, hd⟩ := h.departure ho
  obtain ⟨y, hy, hafter⟩ := hd.graphs hk hcon
  have hchildless : ¬ AsContainer see current ⟨k, t⟩ := by
    intro h'
    obtain ⟨m, hm, -⟩ := h'
    have hc := Membership.isContainer_of_ofContainer? hm
    rw [hkept hd.before] at hc
    cases hc
  have helse : Elsewhere see p id ⟨k, t⟩ → ¬ Relates see p t.predicate := by
    intro h'
    obtain ⟨d, -, hdp, hd⟩ := h'
    exact fun hr => hdp (h.apart.unique hd.relates hr)
  have hcur : AsChild see p current ⟨k, t⟩ → Relates see p t.predicate := AsChild.relates
  rw [hafter, h.exact hy ht hcon, h.contributed hp]
  simp only [hd.before, hd.after, Option.some.injEq, exists_eq_left', reduceCtorEq, false_and, exists_false]
  grind

/-! ## The invariant after an outcome -/

theorem not_relates_contains (h : Exact root see) {d : Iri} : ¬ Relates see d Ldp.contains := by
  intro h'
  obtain ⟨m, hm, hr⟩ := h'
  obtain ⟨c, hc, hm⟩ := membershipIn_eq_some.mp hm
  exact h.relation hc hm hr

theorem holds (h : Exact root see) (hp : Identifier.parent? root id = .ok (some p)) {op : Operation}
    (hl : o.Lawful see p id)
    (hkept : ∀ {c}, liveIn see id = some c → o.target.live? = none → c.isContainer = false)
    (ho : Mutation.Comes see p id agent time b op o) : Holds see p id o := by
  cases op with
  | create model userGraph binary => exact h.mem_created hp hl ho
  | replace userGraph expected => exact h.mem_revised hp ho
  | delete =>
    refine h.mem_buried hp (fun hc => ?_) ho
    cases ho
    exact hkept hc rfl

/-- Membership resources stay live, whatever a careful step does. -/
theorem held_applyTo (h : Exact root see) (hc : Careful see (o.applyTo id see)) {d : Iri} {m : Membership}
    (hm : membershipIn (o.applyTo id see) d = some m) : (liveIn (o.applyTo id see) m.target).isSome := by
  have hstays : ∀ x, id ≠ x → (liveIn see x).isSome → (liveIn (o.applyTo id see) x).isSome := by
    intro x hne hx
    rw [Outcome.liveIn_applyTo_of_ne o see hne, Option.isSome_map]
    exact hx
  by_cases hold : membershipIn see d = some m
  · by_cases ht : id = m.target
    · cases hnone : liveIn (o.applyTo id see) m.target with
      | some c => rfl
      | none =>
        obtain ⟨c, hlive⟩ := Option.isSome_iff_exists.mp (h.held hold)
        exact absurd rfl ((hc.kept hlive hnone).2 hold)
    · exact hstays m.target ht (h.held hold)
  · have hd : d = id := by
      by_contra hne
      rw [membershipIn_applyTo_of_ne o see (Ne.symm hne)] at hm
      exact hold hm
    obtain ⟨c, hlive, -⟩ := membershipIn_eq_some.mp hm
    by_cases ht : m.target = d
    · rw [ht, hlive]
      rfl
    · rcases hc.based hm hold with he | hs
      · exact absurd he ht
      · exact hstays m.target (fun he => ht (he.symm.trans hd.symm)) hs

/-- A live resource stays listed, since containers are not deleted, and a new one comes to be. -/
theorem listed_applyTo (h : Exact root see) (hlisting : Listing root see (o.applyTo id see))
    (hc : Careful see (o.applyTo id see)) {x q : Iri} {c : Resource} (hx : liveIn (o.applyTo id see) x = some c)
    (hq : Identifier.parent? root x = .ok (some q)) : Listed (o.applyTo id see) q x := by
  cases hx₀ : liveIn see x with
  | none => exact hlisting.born hq hx₀ hx
  | some y =>
    obtain ⟨d, hd, hcont, hmem⟩ := h.listed hx₀ hq
    cases hd' : liveIn (o.applyTo id see) q with
    | none =>
      have hnot := (hc.kept hd hd').1
      rw [hcont] at hnot
      cases hnot
    | some d' => exact (hlisting.kept hq hx₀ hx hd hd').mpr ⟨d, hd, hcont, hmem⟩

theorem applyTo (h : Exact root see) (hv : Identifier.Valid root id) (hp : Identifier.parent? root id = .ok (some p))
    {op : Operation} (hchecked : op.Checked root.text) (hc : Careful see (o.applyTo id see))
    (ho : Mutation.Comes see p id agent time b op o) : Exact root (o.applyTo id see) := by
  have hl := h.lawful hp hchecked ho
  have hkept : ∀ {c}, liveIn see id = some c → o.target.live? = none → c.isContainer = false := fun hlive hnone =>
    (hc.kept hlive (by rw [Outcome.liveIn_applyTo_self, hnone]; rfl)).1
  have hlisting := h.listing_applyTo hp hchecked ho
  refine ⟨h.toHierarchy.applyTo hv hp hl, h.listed_applyTo hlisting hc, h.held_applyTo hc, hc.apart, ?_⟩
  intro k r t hk ht hcon
  have hchild : ∀ {y}, o.target.live? = some y → ∀ {c}, liveIn see p = some c →
      id ∈ (c.edited o.edits).children := by
    intro y hy c hpar
    have hlive : liveIn (o.applyTo id see) id = some (y.edited o.edits) := by
      rw [Outcome.liveIn_applyTo_self, hy]
      rfl
    obtain ⟨d, hd, -, hmem⟩ := h.listed_applyTo hlisting hc hlive hp
    rw [Outcome.liveIn_applyTo_of_ne o see (Ne.symm (Identifier.parent?_ne hp)), hpar] at hd
    cases hd
    rwa [Resource.mem_children, Resource.id_edited, h.id_eq hpar]
  rw [h.holds hp hl hkept ho hk ht hcon, h.contributed_applyTo hp hl hchild]

theorem empty (h : ∀ x, see x = none) : Exact root see where
  toHierarchy := .empty h
  listed hx := by simp [liveIn, h] at hx
  held hm := by simp [membershipIn, liveIn, h] at hm
  apart := {
    unique hd := by simp [Relates, membershipIn, liveIn, h] at hd
    typing hd := by simp [Relates, membershipIn, liveIn, h] at hd }
  exact hk := by simp [liveIn, h] at hk

theorem founded (h : Exact root see) (hl : liveIn see root = none)
    (hc : Careful see ((Hierarchy.founding root agent time b).applyTo root see)) :
    Exact root ((Hierarchy.founding root agent time b).applyTo root see) := by
  refine ⟨h.toHierarchy.founded hl, ?_, fun {d m} hm => ?_, hc.apart, ?_⟩
  · intro x c q hx hq
    by_cases he : root = x
    · exact absurd he.symm (Identifier.parent?_eq_some hq).1
    · rw [Hierarchy.liveIn_founding_of_ne he] at hx
      obtain ⟨d, hd, hmem⟩ := h.listed hx hq
      have hne : root ≠ q := fun hr => by rw [← hr, hl] at hd; cases hd
      exact ⟨d, by rwa [Hierarchy.liveIn_founding_of_ne hne], hmem⟩
  · obtain ⟨c, hd, hm'⟩ := membershipIn_eq_some.mp hm
    by_cases he : root = d
    · rw [← he, Hierarchy.liveIn_founding_self] at hd
      cases hd
      cases hm'
    · rw [Hierarchy.liveIn_founding_of_ne he] at hd
      obtain ⟨y, hy⟩ := Option.isSome_iff_exists.mp (h.held (membershipIn_eq_some.mpr ⟨c, hd, hm'⟩))
      have hne : root ≠ m.target := fun hr => by rw [← hr, hl] at hy; cases hy
      rw [Hierarchy.liveIn_founding_of_ne hne, hy]
      rfl
  · intro k r t hk ht hcon
    simp only [h.contributes_founding hl]
    by_cases he : root = k
    · rw [← he, Hierarchy.liveIn_founding_self] at hk
      cases hk
      rw [Mutation.mem_serverGraph_founded]
      refine iff_of_false (fun hin => ?_) ?_
      · rw [hin] at ht
        exact ht rfl
      · intro h'
        obtain ⟨d, hd⟩ := h'
        obtain ⟨c, hlive⟩ := h.holder_live hd
        rw [← he, hl] at hlive
        cases hlive
    · rw [Hierarchy.liveIn_founding_of_ne he] at hk
      exact h.exact hk ht hcon

end Exact

/-! ## Runs -/

theorem Repository.Moved.exact {σ : Type} [RecordStore σ] [KeyedStore σ] {r r' : Repository σ} (hm : Moved r r')
    (h : Exact r.root (find r.store)) (hc : Careful (find r.store) (find r'.store)) :
    Exact r'.root (find r'.store) := by
  cases hm with
  | still hr hs => rw [hr, hs]; exact h
  | founded hl ha =>
    rw [ha.root]
    exact (h.founded hl (hc.of_akin ha.content)).of_akin ha.content
  | @mutated id p agent op o now hr hp hchecked ho ha =>
    rw [ha.root]
    unfold outcomeAt Mutation.outcomeFrom at ho
    rw [Transaction.look_begin] at ho
    have hcomes := Mutation.comes_of_outcome ho
    exact (h.applyTo (refusal?_eq_none.mp hr).1 hp hchecked (hc.of_akin ha.content) hcomes).of_akin ha.content

namespace Service

variable {σ α ε : Type} [RecordStore σ] [KeyedStore σ] [MementoStore α] [BlobStore α] [EventSink ε]
  {s : Service σ α ε}

/-- The states that careful requests lead to from an empty store. -/
inductive CarefulRun : Service σ α ε → Prop
  | empty {s : Service σ α ε} (h : ∀ id, find s.repository.store id = none) : CarefulRun s
  | serve {s : Service σ α ε} (now : Instant) (q : Request) (h : CarefulRun s)
      (hc : Careful (find s.repository.store) (find (s.serve now q).repository.store)) : CarefulRun (s.serve now q)

theorem CarefulRun.reachable (h : CarefulRun s) : s.Reachable := by
  induction h with
  | empty h => exact .empty h
  | serve now q _ _ ih => exact .serve now q ih

theorem CarefulRun.exact (h : CarefulRun s) : Exact s.repository.root (find s.repository.store) := by
  induction h with
  | empty h => exact .empty h
  | serve now q h hc ih => exact (serve_moved h.reachable.selfKeyed now q).exact ih hc

/-- After a careful run, the server graph of a live resource has a triple by the relation of a live
    container just if a child of that container contributes it. -/
theorem membership_exact (h : CarefulRun s) {d k : Iri} {container holder : Resource} {m : Membership} {t : Triple}
    (hd : s.get d = .ok (some container)) (hm : Membership.ofContainer? container = some m)
    (hk : s.get k = .ok (some holder)) (ht : t.predicate = m.relation.predicate) :
    t ∈ holder.serverGraph ↔
      ∃ x ∈ container.children, ∃ child, s.get x = .ok (some child) ∧ ⟨k, t⟩ ∈ m.triples child := by
  have hi := h.exact
  rw [get_eq_ok] at hd hk
  have hrel : Relates (find s.repository.store) d t.predicate :=
    ⟨m, membershipIn_eq_some.mpr ⟨container, hd, hm⟩, ht.symm⟩
  have htype : t.predicate ≠ Rdf.type := fun he => hi.apart.typing (he ▸ hrel)
  have hcon : t.predicate ≠ Ldp.contains := fun he => hi.not_relates_contains (he ▸ hrel)
  rw [hi.exact hk htype hcon]
  constructor
  · intro h'
    obtain ⟨d', hd'⟩ := h'
    cases hi.apart.unique hd'.relates hrel
    obtain ⟨c, m', hc, hm', x, hx, child, hchild, hq⟩ := hd'
    rw [hd] at hc
    cases hc
    rw [hm] at hm'
    cases hm'
    exact ⟨x, hx, child, get_eq_ok.mpr hchild, hq⟩
  · intro h'
    obtain ⟨x, hx, child, hchild, hq⟩ := h'
    exact ⟨d, container, m, hd, hm, x, hx, child, get_eq_ok.mp hchild, hq⟩

/-- The user graph of a direct container whose children are members of `trellis:data/team#it`. -/
def teamGraph : Graph := .ofList
  [⟨.iri ⟨"trellis:data/team"⟩, Ldp.membershipResource, .iri ⟨"trellis:data/team#it"⟩⟩,
   ⟨.iri ⟨"trellis:data/team"⟩, Ldp.hasMemberRelation, .iri ⟨"urn:member"⟩⟩]

/-- That container, and a child of it. -/
def team : Service Table Archive Sink :=
  ((blank.serve ⟨1, 0⟩ .makeRoot).serve ⟨2, 0⟩
    (.create ⟨"trellis:data/team"⟩ .directContainer (.ofUserGraph teamGraph) (.anonymous ⟨2, 0⟩))).serve ⟨3, 0⟩
    (.create ⟨"trellis:data/team/ann"⟩ .rdfSource .empty (.anonymous ⟨3, 0⟩))

theorem carefulRun_team : team.CarefulRun := by
  unfold team
  refine .serve _ _ (.serve _ _ (.serve _ _ (.empty Table.get?_empty) ?_) ?_) ?_
  · decide +kernel
  · decide +kernel
  · decide +kernel

/-- The container is the holder of its own members, and the child is the one that it has. -/
theorem team_membership_exact :
    team.CarefulRun ∧ ∃ c m, team.get ⟨"trellis:data/team"⟩ = .ok (some c) ∧
      Membership.ofContainer? c = some m ∧
      m.relation = .hasMember ⟨"urn:member"⟩ ∧ c.children = [⟨"trellis:data/team/ann"⟩] ∧
      ⟨.iri ⟨"trellis:data/team#it"⟩, ⟨"urn:member"⟩, .iri ⟨"trellis:data/team/ann"⟩⟩ ∈ c.serverGraph ∧
      ∀ t, t.predicate = ⟨"urn:member"⟩ → (t ∈ c.serverGraph ↔
        ∃ x ∈ c.children, ∃ child, team.get x = .ok (some child) ∧
          ⟨⟨"trellis:data/team"⟩, t⟩ ∈ m.triples child) := by
  have hview : ∃ c ∈ liveIn (find team.repository.store) ⟨"trellis:data/team"⟩,
      Membership.ofContainer? c = some ⟨⟨"trellis:data/team#it"⟩, .hasMember ⟨"urn:member"⟩, none⟩ ∧
      c.children = [⟨"trellis:data/team/ann"⟩] ∧
      ⟨.iri ⟨"trellis:data/team#it"⟩, ⟨"urn:member"⟩, .iri ⟨"trellis:data/team/ann"⟩⟩ ∈
        c.serverGraph := by
    decide +kernel
  obtain ⟨c, hget, hm, hchildren, hann⟩ := hview
  rw [Option.mem_def, ← get_eq_ok] at hget
  exact ⟨carefulRun_team, c, _, hget, hm, rfl, hchildren, hann,
    fun t ht => membership_exact carefulRun_team hget hm hget ht⟩

end Service

end LinkedData
