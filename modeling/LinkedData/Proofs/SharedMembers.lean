/-
  LinkedData.Proofs.SharedMembers — what becomes of a triple that several children contribute.

  A replacement or a deletion withdraws a triple through two containers at most: through the
  parent of its target, which the target contributes to as a child, and through the target, when
  it is a container that gets another membership. Each of the two asks its own children alone who
  else contributes the triple, and that decides whether it stays (`Carries.stays_iff`). So it does
  while a contributor is left that the withdrawing container lists (`shared_member_stays`). A child
  of another container is not asked, even if that has the same membership (`rival_ignored`).
-/

import LinkedData.Proofs.Supply

namespace LinkedData

open Std SteadyStore Vocabulary

/-- What `x` is makes `q` a member triple of `p`, whether `p` lists `x` or not; of whom `x` is a child is not asked. -/
def Gives (see : Iri → Option Record) (p x : Iri) (q : MemberTriple) : Prop :=
  ∃ y, liveIn see x = some y ∧ AsChild see p y q

instance (see : Iri → Option Record) (p x : Iri) (q : MemberTriple) : Decidable (Gives see p x q) :=
  decidable_of_iff (∃ y ∈ liveIn see x, ∃ c ∈ liveIn see p, ∃ m ∈ Membership.ofContainer? c, q ∈ m.triples y)
    (exists_congr fun _ => and_congr_right fun _ => exists_congr fun _ => exists_and_left.symm)

/-- `x` is live before and after, and maintains another membership. -/
def Reconfigured (see see' : Iri → Option Record) (x : Iri) : Prop :=
  (liveIn see x).isSome ∧ (liveIn see' x).isSome ∧ membershipIn see x ≠ membershipIn see' x

/-- Whether a triple stays when `id`, a child of `p`, is replaced or deleted. -/
def Stays (see see' : Iri → Option Record) (p id : Iri) (q : MemberTriple) : Prop :=
  Reconfigured see see' id ∧ Contributes see' id q ∨
    (Gives see p id q → Gives see' p id q ∨ Contributes see' p q) ∧
      (Reconfigured see see' id → ¬ Contributes see id q)

namespace Akin

variable {before see see' : Iri → Option Record} {p id : Iri} {q : MemberTriple}

theorem gives (h : Akin see see') (hg : Gives see p id q) : Gives see' p id q := by
  obtain ⟨y, hy, c, m, hc, hm, hq⟩ := hg
  obtain ⟨y', hy', hid, -, hdat⟩ := h.symm.of_liveIn hy
  obtain ⟨c', hc', hm'⟩ := membershipIn_eq_some.mp
    ((h.membershipIn_eq p).trans (membershipIn_eq_some.mpr ⟨c, hc, hm⟩))
  exact ⟨y', hy', c', m, hc', hm', by rwa [m.triples_congr hid (by rw [Resource.userGraph, hdat]; rfl)]⟩

theorem reconfigured_iff (h : Akin see see') : Reconfigured before see id ↔ Reconfigured before see' id := by
  rw [Reconfigured, Reconfigured, h.liveIn_isSome, h.membershipIn_eq]

theorem stays_iff (h : Akin see see') : Stays before see p id q ↔ Stays before see' p id q := by
  have hcontributes : ∀ d, Contributes see d q ↔ Contributes see' d q :=
    fun d => ⟨h.contributes, h.symm.contributes⟩
  have hgives : Gives see p id q ↔ Gives see' p id q := ⟨h.gives, h.symm.gives⟩
  rw [Stays, Stays, h.reconfigured_iff, hcontributes, hcontributes, hgives]

end Akin

section

variable {see : Iri → Option Record} {p id : Iri} {q : MemberTriple} {o : Outcome}

theorem asChild_iff_membershipIn {y : Resource} :
    AsChild see p y q ↔ ∃ m, membershipIn see p = some m ∧ q ∈ m.triples y := by
  simp only [AsChild, membershipIn_eq_some]
  constructor
  · rintro ⟨c, m, hc, hm, hq⟩
    exact ⟨m, ⟨c, hc, hm⟩, hq⟩
  · rintro ⟨m, ⟨c, hc, hm⟩, hq⟩
    exact ⟨c, m, hc, hm, hq⟩

theorem gives_applyTo (hne : id ≠ p) :
    Gives (o.applyTo id see) p id q ↔ ∃ y, o.target.live? = some y ∧ AsChild see p y q := by
  simp only [Gives, asChild_iff_membershipIn, membershipIn_applyTo_of_ne o see hne, Outcome.liveIn_applyTo_self]
  cases o.target.live? with
  | none => simp
  | some y => simp [Membership.triples_edited]

theorem reconfigured_applyTo {current : Resource} (hc : liveIn see id = some current) :
    Reconfigured see (o.applyTo id see) id ↔
      ∃ y, o.target.live? = some y ∧ Membership.ofContainer? current ≠ Membership.ofContainer? y := by
  rw [Reconfigured, membershipIn_applyTo_self, Outcome.liveIn_applyTo_self, membershipIn, hc]
  cases o.target.live? with
  | none => simp
  | some y => simp

end

namespace Hierarchy

variable {root : Iri} {see : Iri → Option Record} {p id agent k : Iri} {time : Instant} {b : BlankNode}
  {op : Operation} {o : Outcome} {y r : Resource} {t : Triple}

/-- The parent is left with what the siblings contribute, and the target if it is live. -/
theorem gives_or_contributes (hp : Identifier.parent? root id = .ok (some p)) (hl : o.Lawful see p id)
    {q : MemberTriple} :
    Gives (o.applyTo id see) p id q ∨ Contributes (o.applyTo id see) p q ↔
      (∃ y, o.target.live? = some y ∧ AsChild see p y q) ∨ BySiblings see p id q := by
  rw [gives_applyTo (Ne.symm (Identifier.parent?_ne hp)), contributes_parent_iff hp hl]
  constructor
  · rintro (hy | hs | ⟨y, c, m, hy, hc, hm, -, hq⟩)
    · exact .inl hy
    · exact .inr hs
    · exact .inl ⟨y, hy, c, m, hc, hm, hq⟩
  · rintro (hy | hs)
    · exact .inl hy
    · exact .inr (.inl hs)

theorem stays_replaced (h : Hierarchy root see) (hp : Identifier.parent? root id = .ok (some p)) {userGraph : Graph}
    {expected : Option InteractionModel} (hl : o.Lawful see p id)
    (ho : Mutation.Comes see p id agent time b (.replace userGraph expected) o) (hk : liveIn see k = some y)
    (ht : t ∈ y.serverGraph) (hk' : liveIn (o.applyTo id see) k = some r) :
    t ∈ r.serverGraph ↔ Stays see (o.applyTo id see) p id ⟨k, t⟩ := by
  obtain ⟨current, x, hr⟩ := h.revision hp ho
  obtain ⟨y', hy', hgraph⟩ := hr.graphs (t := t) hk'
  rw [hk] at hy'
  cases hy'
  have hgives : Gives see p id ⟨k, t⟩ ↔ AsChild see p current ⟨k, t⟩ := by simp [Gives, hr.before]
  have hown : Contributes see id ⟨k, t⟩ ↔ AsContainer see current ⟨k, t⟩ := by
    simp [Contributes, AsContainer, hr.before]
  have hjoins : Joins see p current x ⟨k, t⟩ → AsChild see p x ⟨k, t⟩ := Joins.asChild
  rw [hgraph, Stays, gives_or_contributes hp hl, reconfigured_applyTo hr.before, h.contributes_target_iff hp hl, hgives,
    hown]
  simp only [hr.after, Option.some.injEq, exists_eq_left', ht, true_and]
  grind

theorem stays_deleted (h : Hierarchy root see) (hp : Identifier.parent? root id = .ok (some p)) (hl : o.Lawful see p id)
    (ho : Mutation.Comes see p id agent time b .delete o) (hk : liveIn see k = some y) (ht : t ∈ y.serverGraph)
    (hk' : liveIn (o.applyTo id see) k = some r) (hcon : t.predicate ≠ Ldp.contains) :
    t ∈ r.serverGraph ↔ Stays see (o.applyTo id see) p id ⟨k, t⟩ := by
  obtain ⟨current, hd⟩ := h.departure ho
  obtain ⟨y', hy', hgraph⟩ := hd.graphs hk' hcon
  rw [hk] at hy'
  cases hy'
  have hgives : Gives see p id ⟨k, t⟩ ↔ AsChild see p current ⟨k, t⟩ := by simp [Gives, hd.before]
  rw [hgraph, Stays, gives_or_contributes hp hl, reconfigured_applyTo hd.before, hgives]
  simp only [hd.after, reduceCtorEq, false_and, exists_false, false_or, false_implies, and_true, ht, true_and, not_and,
    not_not]

theorem stays_applyTo (h : Hierarchy root see) (hp : Identifier.parent? root id = .ok (some p))
    (hc : op.Checked root.text) (hop : op.isCreate = false) (ho : Mutation.Comes see p id agent time b op o)
    (hk : liveIn see k = some y) (ht : t ∈ y.serverGraph) (hk' : liveIn (o.applyTo id see) k = some r)
    (hcon : t.predicate ≠ Ldp.contains) : t ∈ r.serverGraph ↔ Stays see (o.applyTo id see) p id ⟨k, t⟩ := by
  have hl := h.lawful hp hc ho
  cases op with
  | create model userGraph binary => cases hop
  | replace userGraph expected => exact h.stays_replaced hp hl ho hk ht hk'
  | delete => exact h.stays_deleted hp hl ho hk ht hk' hcon

end Hierarchy

/-! ## Requests -/

theorem Stays.refl (see : Iri → Option Record) (p id : Iri) (q : MemberTriple) : Stays see see p id q :=
  .inr ⟨.inl, fun h => absurd rfl h.2.2⟩

theorem Repository.Carries.stays_iff {σ : Type} [RecordStore σ] [KeyedStore σ] {r r' : Repository σ} {p id k : Iri}
    {op : Operation} (hm : Carries r id op r') (h : Hierarchy r.root (find r.store))
    (hp : Identifier.parent? r.root id = .ok (some p)) (hop : op.isCreate = false) {y y' : Resource} {t : Triple}
    (hk : liveIn (find r.store) k = some y) (ht : t ∈ y.serverGraph) (hk' : liveIn (find r'.store) k = some y')
    (hcon : t.predicate ≠ Ldp.contains) :
    t ∈ y'.serverGraph ↔ Stays (find r.store) (find r'.store) p id ⟨k, t⟩ := by
  cases hm with
  | still hr hs =>
    rw [hs] at hk' ⊢
    rw [hk] at hk'
    cases hk'
    exact iff_of_true ht (.refl _ _ _ _)
  | done hr hp' hc ho ha =>
    rw [hp] at hp'
    cases hp'
    unfold outcomeAt Mutation.outcomeFrom at ho
    rw [Transaction.look_begin] at ho
    obtain ⟨z, hz, -, -, hdat⟩ := ha.content.of_liveIn hk'
    have hafter := h.stays_applyTo hp hc hop (Mutation.comes_of_outcome ho) hk ht hz hcon
    rw [ha.content.stays_iff] at hafter
    rwa [Resource.serverGraph, hdat] at hafter

namespace Service

variable {σ α ε : Type} [RecordStore σ] [KeyedStore σ] [MementoStore α] [BlobStore α] [EventSink ε]
  {s : Service σ α ε}

omit [KeyedStore σ] [MementoStore α] [BlobStore α] [EventSink ε] in
/-- A live child that `d` lists contributes `q`. -/
def Supplies (s : Service σ α ε) (d : Iri) (q : MemberTriple) : Prop :=
  ∃ c m, s.get d = .ok (some c) ∧ Membership.ofContainer? c = some m ∧
    ∃ x ∈ c.children, ∃ child, s.get x = .ok (some child) ∧ q ∈ m.triples child

omit [KeyedStore σ] [MementoStore α] [BlobStore α] [EventSink ε] in
/-- What `x` is makes `q` a member triple of `p`, whether `p` lists `x` or not; of whom `x` is a child is not asked. -/
def Offers (s : Service σ α ε) (p x : Iri) (q : MemberTriple) : Prop :=
  ∃ c m child, s.get p = .ok (some c) ∧ Membership.ofContainer? c = some m ∧ s.get x = .ok (some child) ∧
    q ∈ m.triples child

omit [KeyedStore σ] [MementoStore α] [BlobStore α] [EventSink ε] in
/-- `x` is live in both states, and maintains different memberships. -/
def Reconfigures (s s' : Service σ α ε) (x : Iri) : Prop :=
  ∃ c c', s.get x = .ok (some c) ∧ s'.get x = .ok (some c') ∧ Membership.ofContainer? c ≠ Membership.ofContainer? c'

omit [MementoStore α] [BlobStore α] [EventSink ε] in
theorem supplies_iff {d : Iri} {q : MemberTriple} : s.Supplies d q ↔ Contributes (find s.repository.store) d q := by
  simp only [Supplies, Contributes, Supplied, get_eq_ok]

omit [MementoStore α] [BlobStore α] [EventSink ε] in
theorem offers_iff {p x : Iri} {q : MemberTriple} : s.Offers p x q ↔ Gives (find s.repository.store) p x q := by
  simp only [Offers, Gives, AsChild, get_eq_ok]
  constructor
  · intro h'
    obtain ⟨c, m, child, hc, hm, hx, hq⟩ := h'
    exact ⟨child, hx, c, m, hc, hm, hq⟩
  · intro h'
    obtain ⟨child, hx, c, m, hc, hm, hq⟩ := h'
    exact ⟨c, m, child, hc, hm, hx, hq⟩

omit [MementoStore α] [BlobStore α] [EventSink ε] in
theorem reconfigures_iff {s' : Service σ α ε} {x : Iri} :
    s.Reconfigures s' x ↔ Reconfigured (find s.repository.store) (find s'.repository.store) x := by
  simp only [Reconfigures, Reconfigured, get_eq_ok, Option.isSome_iff_exists]
  constructor
  · intro h'
    obtain ⟨c, c', hc, hc', hm⟩ := h'
    refine ⟨⟨c, hc⟩, ⟨c', hc'⟩, ?_⟩
    rw [membershipIn, membershipIn, hc, hc']
    exact hm
  · intro h'
    obtain ⟨⟨c, hc⟩, ⟨c', hc'⟩, hm⟩ := h'
    rw [membershipIn, membershipIn, hc, hc'] at hm
    exact ⟨c, c', hc, hc', hm⟩

/-- When a child of `p` is replaced or deleted, a triple that a child of `d` contributes afterwards
    stays, unless it is withdrawn through `p`, or through the target, and `d` is another container. -/
theorem shared_member_stays (h : s.Reachable) (now : Instant) {request : Request} {id p : Iri}
    (hr : request.Revises id) (hp : Identifier.parent? s.root id = .ok (some p)) {k d : Iri} {holder holder' : Resource}
    {t : Triple} (hk : s.get k = .ok (some holder)) (ht : t ∈ holder.serverGraph)
    (hk' : (s.serve now request).get k = .ok (some holder')) (hd : (s.serve now request).Supplies d ⟨k, t⟩)
    (hrivals : s.Reconfigures (s.serve now request) id ∧ d = id ∨
      (s.Offers p id ⟨k, t⟩ → d = p) ∧ (s.Reconfigures (s.serve now request) id → ¬ s.Supplies id ⟨k, t⟩)) :
    t ∈ holder'.serverGraph := by
  rw [supplies_iff] at hd
  rw [supplies_iff, offers_iff, reconfigures_iff] at hrivals
  obtain ⟨op, hop, hcarries⟩ := serve_carries h.selfKeyed now hr
  have hcon : t.predicate ≠ Ldp.contains := by
    obtain ⟨c, m, hc, hm, x, -, child, -, hq⟩ := hd
    exact (h.serve now request).hierarchy.predicate_ne_contains hc hm hq
  rw [hcarries.stays_iff h.hierarchy hp hop (get_eq_ok.mp hk) ht (get_eq_ok.mp hk') hcon]
  rcases hrivals with ⟨hreconf, rfl⟩ | ⟨hoffers, hown⟩
  · exact .inl ⟨hreconf, hd⟩
  · exact .inr ⟨fun hg => .inr (hoffers hg ▸ hd), hown⟩

/-! Two containers whose children name the members of `trellis:data/m`, each with a child that names the same.
    Both are themselves in a container of clubs. -/

/-- The user graph of a membership container of `trellis:data/m`. -/
def clubGraph (club relation : Iri) (more : List Triple) : Graph := .ofList
  (⟨.iri club, Ldp.membershipResource, .iri ⟨"trellis:data/m"⟩⟩ ::
    ⟨.iri club, Ldp.hasMemberRelation, .iri relation⟩ :: more)

/-- That of one whose children name the members. -/
def namingGraph (club relation : Iri) : Graph :=
  clubGraph club relation [⟨.iri club, Ldp.insertedContentRelation, .iri ⟨"urn:who"⟩⟩]

/-- The user graph of a child that names Bob. -/
def badgeGraph (badge : Iri) : Graph := .ofList [⟨.iri badge, ⟨"urn:who"⟩, .iri ⟨"urn:bob"⟩⟩]

def clubbing : List (Instant × Request) :=
  [(⟨1, 0⟩, .makeRoot),
   (⟨2, 0⟩, .create ⟨"trellis:data/m"⟩ .rdfSource .empty (.anonymous ⟨2, 0⟩)),
   (⟨3, 0⟩, .create ⟨"trellis:data/g"⟩ .directContainer
     (.ofUserGraph (clubGraph ⟨"trellis:data/g"⟩ ⟨"urn:club"⟩ [])) (.anonymous ⟨3, 0⟩)),
   (⟨4, 0⟩, .create ⟨"trellis:data/g/a"⟩ .indirectContainer
     (.ofUserGraph (namingGraph ⟨"trellis:data/g/a"⟩ ⟨"urn:member"⟩)) (.anonymous ⟨4, 0⟩)),
   (⟨5, 0⟩, .create ⟨"trellis:data/g/b"⟩ .indirectContainer
     (.ofUserGraph (namingGraph ⟨"trellis:data/g/b"⟩ ⟨"urn:member"⟩)) (.anonymous ⟨5, 0⟩)),
   (⟨6, 0⟩, .create ⟨"trellis:data/g/a/x"⟩ .rdfSource
     (.ofUserGraph (badgeGraph ⟨"trellis:data/g/a/x"⟩)) (.anonymous ⟨6, 0⟩)),
   (⟨7, 0⟩, .create ⟨"trellis:data/g/b/y"⟩ .rdfSource
     (.ofUserGraph (badgeGraph ⟨"trellis:data/g/b/y"⟩)) (.anonymous ⟨7, 0⟩))]

def clubbed : Service Table Archive Sink := (blank.trail [] clubbing).1

/-- With another child in the first container, which names the same. -/
def joined : Service Table Archive Sink :=
  clubbed.serve ⟨8, 0⟩
    (.create ⟨"trellis:data/g/a/z"⟩ .rdfSource (.ofUserGraph (badgeGraph ⟨"trellis:data/g/a/z"⟩))
      (.anonymous ⟨8, 0⟩))

/-- The child of the first container is deleted. -/
def quit : Request := .delete ⟨"trellis:data/g/a/x"⟩ (.anonymous ⟨9, 0⟩)

/-- The first container gets another relation. -/
def reform : Request :=
  .replace ⟨"trellis:data/g/a"⟩ (.ofUserGraph (namingGraph ⟨"trellis:data/g/a"⟩ ⟨"urn:friend"⟩))
    (.anonymous ⟨9, 0⟩)

def bob : MemberTriple :=
  ⟨⟨"trellis:data/m"⟩, ⟨.iri ⟨"trellis:data/m"⟩, ⟨"urn:member"⟩, .iri ⟨"urn:bob"⟩⟩⟩

theorem trace_clubbed : clubbed.Trace (blank.trail [] clubbing).2 := (Trace.empty Table.get?_empty).trail clubbing

theorem reachable_joined : joined.Reachable := .serve _ _ trace_clubbed.reachable

/-- Bob stays a member through the other child of the first container. -/
theorem joined_member_stays : joined.Reachable ∧ quit.Revises ⟨"trellis:data/g/a/x"⟩ ∧
    Identifier.parent? joined.root ⟨"trellis:data/g/a/x"⟩ = .ok (some ⟨"trellis:data/g/a"⟩) ∧
    joined.Offers ⟨"trellis:data/g/a"⟩ ⟨"trellis:data/g/a/x"⟩ bob ∧
      (joined.serve ⟨9, 0⟩ quit).Supplies ⟨"trellis:data/g/a"⟩ bob ∧
    ∃ holder holder', joined.get bob.holder = .ok (some holder) ∧ bob.triple ∈ holder.serverGraph ∧
      (joined.serve ⟨9, 0⟩ quit).get bob.holder = .ok (some holder') ∧ bob.triple ∈ holder'.serverGraph := by
  have hquit : quit.Revises ⟨"trellis:data/g/a/x"⟩ := .delete _
  have hview : Identifier.parent? joined.root ⟨"trellis:data/g/a/x"⟩ = .ok (some ⟨"trellis:data/g/a"⟩) ∧
      Gives (find joined.repository.store) ⟨"trellis:data/g/a"⟩ ⟨"trellis:data/g/a/x"⟩ bob ∧
      ¬ Contributes (find joined.repository.store) ⟨"trellis:data/g/a/x"⟩ bob ∧
      Contributes (find (joined.serve ⟨9, 0⟩ quit).repository.store) ⟨"trellis:data/g/a"⟩ bob ∧
      (∃ holder ∈ liveIn (find joined.repository.store) bob.holder, bob.triple ∈ holder.serverGraph) ∧
      (joined.serve ⟨9, 0⟩ quit).alive bob.holder = true := by
    decide +kernel
  rw [← offers_iff, ← supplies_iff, ← supplies_iff] at hview
  obtain ⟨hparent, hoffers, hown, hsupplies, ⟨holder, hk, ht⟩, hafter⟩ := hview
  rw [Option.mem_def, ← get_eq_ok] at hk
  obtain ⟨holder', hk'⟩ := alive_iff.mp hafter
  exact ⟨reachable_joined, hquit, hparent, hoffers, hsupplies, holder, holder', hk, ht, hk',
    shared_member_stays reachable_joined ⟨9, 0⟩ hquit hparent hk ht hk' hsupplies
      (.inr ⟨fun _ => rfl, fun _ => hown⟩)⟩

/-- Without that child he is no longer a member after either request, although the child of the second
    container names him. -/
theorem rival_ignored : clubbed.Reachable ∧
    (quit.Revises ⟨"trellis:data/g/a/x"⟩ ∧
      Identifier.parent? clubbed.root ⟨"trellis:data/g/a/x"⟩ = .ok (some ⟨"trellis:data/g/a"⟩)) ∧
    (reform.Revises ⟨"trellis:data/g/a"⟩ ∧
      Identifier.parent? clubbed.root ⟨"trellis:data/g/a"⟩ = .ok (some ⟨"trellis:data/g"⟩)) ∧
    (∃ holder, clubbed.get bob.holder = .ok (some holder) ∧ bob.triple ∈ holder.serverGraph) ∧
    ∀ request ∈ [quit, reform], (clubbed.serve ⟨9, 0⟩ request).Supplies ⟨"trellis:data/g/b"⟩ bob ∧
      ∃ holder', (clubbed.serve ⟨9, 0⟩ request).get bob.holder = .ok (some holder') ∧
        bob.triple ∉ holder'.serverGraph := by
  have hview : Identifier.parent? clubbed.root ⟨"trellis:data/g/a/x"⟩ = .ok (some ⟨"trellis:data/g/a"⟩) ∧
      Identifier.parent? clubbed.root ⟨"trellis:data/g/a"⟩ = .ok (some ⟨"trellis:data/g"⟩) ∧
      (∃ holder ∈ liveIn (find clubbed.repository.store) bob.holder, bob.triple ∈ holder.serverGraph) ∧
      ∀ request ∈ [quit, reform],
        Contributes (find (clubbed.serve ⟨9, 0⟩ request).repository.store) ⟨"trellis:data/g/b"⟩ bob ∧
        ∃ holder' ∈ liveIn (find (clubbed.serve ⟨9, 0⟩ request).repository.store) bob.holder,
          bob.triple ∉ holder'.serverGraph := by
    decide +kernel
  simp only [supplies_iff, get_eq_ok]
  obtain ⟨hchild, hclub, hbefore, hafter⟩ := hview
  exact ⟨trace_clubbed.reachable, ⟨.delete _, hchild⟩, ⟨.replace _ _, hclub⟩, hbefore, hafter⟩

end Service

end LinkedData
