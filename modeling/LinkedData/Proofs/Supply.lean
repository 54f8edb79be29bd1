/-
  LinkedData.Proofs.Supply — which children contribute what, before and after a mutation.

  What is contributed falls into four parts as seen from the target of a mutation: by containers
  elsewhere (`Elsewhere`), by the target's siblings (`BySiblings`), by the target as a child
  (`AsChild`), and by the target as a container (`AsContainer`). A mutation changes the last two
  alone (`elsewhere_applyTo`, `contributes_parent_iff`, `contributes_target_iff`). What graphs hold
  afterwards is said in the same terms, for each kind of mutation (`Arrival`, `Revision`,
  `Departure`); the making of the root changes nothing (`contributes_founding`).
-/

import LinkedData.Proofs.Listings

namespace LinkedData

open Std SteadyStore Vocabulary

/-- The membership that a live container maintains. -/
def membershipIn (see : Iri → Option Record) (d : Iri) : Option Membership :=
  (liveIn see d).bind Membership.ofContainer?

/-- Some child of `d` contributes `q`. -/
def Contributes (see : Iri → Option Record) (d : Iri) (q : MemberTriple) : Prop :=
  ∃ c m, liveIn see d = some c ∧ Membership.ofContainer? c = some m ∧ Supplied (liveIn see) m c.children q

instance (look : Iri → Option Resource) (m : Membership) (ids : List Iri) (q : MemberTriple) :
    Decidable (Supplied look m ids q) :=
  inferInstanceAs (Decidable (∃ x ∈ ids, ∃ c ∈ look x, q ∈ m.triples c))

instance (see : Iri → Option Record) (d : Iri) (q : MemberTriple) : Decidable (Contributes see d q) :=
  decidable_of_iff (∃ c ∈ liveIn see d, ∃ m ∈ Membership.ofContainer? c, Supplied (liveIn see) m c.children q)
    (exists_congr fun _ => exists_and_left.symm)

theorem membershipIn_eq_some {see : Iri → Option Record} {d : Iri} {m : Membership} :
    membershipIn see d = some m ↔ ∃ c, liveIn see d = some c ∧ Membership.ofContainer? c = some m :=
  Option.bind_eq_some_iff

theorem membershipIn_applyTo_of_ne {id d : Iri} (o : Outcome) (see : Iri → Option Record) (hne : id ≠ d) :
    membershipIn (o.applyTo id see) d = membershipIn see d := by
  unfold membershipIn
  rw [Outcome.liveIn_applyTo_of_ne o see hne]
  cases liveIn see d with
  | none => rfl
  | some c => exact Membership.ofContainer?_edited c o.edits

theorem membershipIn_applyTo_self {id : Iri} (o : Outcome) (see : Iri → Option Record) :
    membershipIn (o.applyTo id see) id = o.target.live?.bind Membership.ofContainer? := by
  unfold membershipIn
  rw [Outcome.liveIn_applyTo_self]
  cases o.target.live? with
  | none => rfl
  | some c => exact Membership.ofContainer?_edited c o.edits

/-! What is live in a table is under one of its keys. -/

namespace Table

def ids (t : Table) : List Iri := t.records.keys

theorem mem_ids_of_liveIn {t : Table} {x : Iri} {c : Resource} (h : liveIn (find t) x = some c) : x ∈ t.ids := by
  obtain ⟨r, hr, -⟩ := Option.bind_eq_some_iff.mp h
  rw [ids, ExtTreeMap.mem_keys]
  rw [ExtTreeMap.mem_iff_isSome_getElem?]
  exact Option.isSome_iff_exists.mpr ⟨r, hr⟩

theorem mem_ids_of_membershipIn {t : Table} {d : Iri} {m : Membership} (h : membershipIn (find t) d = some m) :
    d ∈ t.ids := by
  obtain ⟨c, hc, -⟩ := membershipIn_eq_some.mp h
  exact mem_ids_of_liveIn hc

end Table

namespace Akin

variable {see see' : Iri → Option Record}

theorem membershipIn_eq (h : Akin see see') (d : Iri) : membershipIn see' d = membershipIn see d := by
  have hle : ∀ {see see' : Iri → Option Record}, Akin see see' → ∀ {m}, membershipIn see' d = some m →
      membershipIn see d = some m := by
    intro see see' h m hm
    obtain ⟨c', hc', hm⟩ := membershipIn_eq_some.mp hm
    obtain ⟨c, hc, hid, hmod, hdat⟩ := h.of_liveIn hc'
    refine membershipIn_eq_some.mpr ⟨c, hc, ?_⟩
    rw [← hm]
    exact Membership.ofContainer?_congr hid hmod (by rw [Resource.userGraph, hdat]; rfl)
  cases hm : membershipIn see d with
  | some m => exact hle h.symm hm
  | none =>
    cases hm' : membershipIn see' d with
    | none => rfl
    | some m => rw [hle h hm'] at hm; cases hm

theorem contributes (h : Akin see see') {d : Iri} {q : MemberTriple} (hd : Contributes see d q) :
    Contributes see' d q := by
  obtain ⟨c, m, hc, hm, x, hx, child, hchild, hq⟩ := hd
  obtain ⟨c', hc', hid, hmod, hdat⟩ := h.symm.of_liveIn hc
  obtain ⟨child', hchild', hid', -, hdat'⟩ := h.symm.of_liveIn hchild
  refine ⟨c', m, hc', ?_, x, ?_, child', hchild', ?_⟩
  · rw [← hm]
    exact Membership.ofContainer?_congr hid hmod (by rw [Resource.userGraph, hdat]; rfl)
  · rw [Resource.mem_children] at hx ⊢
    rwa [hid, Resource.serverGraph, hdat]
  · rwa [m.triples_congr hid' (by rw [Resource.userGraph, hdat']; rfl)]

end Akin

/-! ## The parts of what is contributed -/

section

variable {see : Iri → Option Record} {p id : Iri} {q : MemberTriple}

/-- Contributed by a container other than the target and its parent. -/
def Elsewhere (see : Iri → Option Record) (p id : Iri) (q : MemberTriple) : Prop :=
  ∃ d, d ≠ id ∧ d ≠ p ∧ Contributes see d q

/-- Contributed by a sibling of the target. -/
def BySiblings (see : Iri → Option Record) (p id : Iri) (q : MemberTriple) : Prop :=
  ∃ c m, liveIn see p = some c ∧ Membership.ofContainer? c = some m ∧
    Supplied (liveIn see) m (c.children.filter (· ≠ id)) q

/-- Contributed by `y` as a child of `p`. -/
def AsChild (see : Iri → Option Record) (p : Iri) (y : Resource) (q : MemberTriple) : Prop :=
  ∃ c m, liveIn see p = some c ∧ Membership.ofContainer? c = some m ∧ q ∈ m.triples y

/-- Contributed by the children of `y`. -/
def AsContainer (see : Iri → Option Record) (y : Resource) (q : MemberTriple) : Prop :=
  ∃ m, Membership.ofContainer? y = some m ∧ Supplied (liveIn see) m y.children q

theorem supplied_congr {look look' : Iri → Option Resource} {m : Membership} {ids : List Iri}
    (h : ∀ x ∈ ids, look x = look' x) : Supplied look m ids q ↔ Supplied look' m ids q := by
  refine exists_congr fun x => and_congr_right fun hx => ?_
  rw [h x hx]

theorem supplied_split (look : Iri → Option Resource) (m : Membership) (ids : List Iri) (id : Iri) :
    Supplied look m ids q ↔ Supplied look m (ids.filter (· ≠ id)) q ∨
      (id ∈ ids ∧ ∃ y, look id = some y ∧ q ∈ m.triples y) := by
  constructor
  · intro h'
    obtain ⟨x, hx, c, hc, hq⟩ := h'
    by_cases he : x = id
    · subst he
      exact .inr ⟨hx, c, hc, hq⟩
    · exact .inl ⟨x, List.mem_filter.mpr ⟨hx, by simpa using he⟩, c, hc, hq⟩
  · intro h'
    rcases h' with ⟨x, hx, c, hc, hq⟩ | ⟨hid, c, hc, hq⟩
    · exact ⟨x, (List.mem_filter.mp hx).1, c, hc, hq⟩
    · exact ⟨id, hid, c, hc, hq⟩

/-- Children other than the target supply after an outcome what they did before. -/
theorem supplied_applyTo {o : Outcome} {m : Membership} {ids ids' : List Iri}
    (h : ∀ x, x ≠ id → (x ∈ ids' ↔ x ∈ ids)) :
    Supplied (liveIn (o.applyTo id see)) m (ids'.filter (· ≠ id)) q ↔
      Supplied (liveIn see) m (ids.filter (· ≠ id)) q := by
  constructor
  · intro h'
    obtain ⟨x, hx, c, hc, hq⟩ := h'
    obtain ⟨hmem, hne⟩ := List.mem_filter.mp hx
    have hne : x ≠ id := by simpa using hne
    rw [Outcome.liveIn_applyTo_of_ne o see (Ne.symm hne), Option.map_eq_some_iff] at hc
    obtain ⟨c, hc, rfl⟩ := hc
    rw [Membership.triples_edited] at hq
    exact ⟨x, List.mem_filter.mpr ⟨(h x hne).mp hmem, by simpa using hne⟩, c, hc, hq⟩
  · intro h'
    obtain ⟨x, hx, c, hc, hq⟩ := h'
    obtain ⟨hmem, hne⟩ := List.mem_filter.mp hx
    have hne : x ≠ id := by simpa using hne
    refine ⟨x, List.mem_filter.mpr ⟨(h x hne).mpr hmem, by simpa using hne⟩, c.edited o.edits, ?_, ?_⟩
    · rw [Outcome.liveIn_applyTo_of_ne o see (Ne.symm hne), hc]
      rfl
    · rwa [Membership.triples_edited]

theorem exists_contributes_iff (p id : Iri) : (∃ d, Contributes see d q) ↔
    Elsewhere see p id q ∨ Contributes see p q ∨ Contributes see id q := by
  constructor
  · intro h'
    obtain ⟨d, hd⟩ := h'
    by_cases hid : d = id
    · exact .inr (.inr (hid ▸ hd))
    · by_cases hp : d = p
      · exact .inr (.inl (hp ▸ hd))
      · exact .inl ⟨d, hid, hp, hd⟩
  · intro h'
    rcases h' with ⟨d, -, -, hd⟩ | hd | hd
    · exact ⟨d, hd⟩
    · exact ⟨p, hd⟩
    · exact ⟨id, hd⟩

end

namespace Hierarchy

variable {root : Iri} {see : Iri → Option Record} {p id agent : Iri} {time : Instant} {b : BlankNode} {o : Outcome}
  {q : MemberTriple}

/-- A child that is listed is live, so one that is not live is not listed. -/
theorem child_live (h : Hierarchy root see) {d x : Iri} {c : Resource} (hd : liveIn see d = some c)
    (hx : x ∈ c.children) :
    (∃ child, liveIn see x = some child) ∧ Identifier.parent? root x = .ok (some d) := by
  obtain ⟨y, child, he, hy, hp⟩ := h.contains hd (Resource.mem_children.mp hx) rfl
  cases he
  exact ⟨⟨child, hy⟩, hp⟩

/-- Edits list what was listed, the target apart. -/
theorem mem_children_edited (hl : o.Lawful see p id) {c : Resource} {x : Iri} (hne : c.id ≠ p ∨ x ≠ id) :
    x ∈ (c.edited o.edits).children ↔ x ∈ c.children := by
  rw [Resource.mem_children, Resource.mem_children, Resource.id_edited]
  exact containment_edited hl hne

/-- No container lists the target but its parent. -/
theorem not_mem_children (h : Hierarchy root see) (hp : Identifier.parent? root id = .ok (some p)) {d : Iri}
    {c : Resource} (hd : liveIn see d = some c) (hne : d ≠ p) : id ∉ c.children := by
  intro hin
  have hpar := (h.child_live hd hin).2
  rw [hp] at hpar
  cases hpar
  exact hne rfl

/-- Children that are not the target, and stay on a list, supply what they did. -/
theorem supplied_edited (hl : o.Lawful see p id) {c : Resource} (hne : c.id ≠ p) (hnot : id ∉ c.children)
    (m : Membership) :
    Supplied (liveIn (o.applyTo id see)) m (c.edited o.edits).children q ↔ Supplied (liveIn see) m c.children q := by
  have hchildren : ∀ x, x ∈ (c.edited o.edits).children ↔ x ∈ c.children :=
    fun x => mem_children_edited hl (.inl hne)
  have happly : Supplied (liveIn (o.applyTo id see)) m ((c.edited o.edits).children.filter (· ≠ id)) q ↔
      Supplied (liveIn see) m (c.children.filter (· ≠ id)) q := supplied_applyTo fun x _ => hchildren x
  rw [supplied_split _ _ _ id, happly, supplied_split (liveIn see) m c.children id]
  simp [hchildren, hnot]

/-- Elsewhere nothing changes. -/
theorem elsewhere_applyTo (h : Hierarchy root see) (hp : Identifier.parent? root id = .ok (some p))
    (hl : o.Lawful see p id) : Elsewhere (o.applyTo id see) p id q ↔ Elsewhere see p id q := by
  have hsame : ∀ {d c}, d ≠ p → liveIn see d = some c → ∀ m,
      (Supplied (liveIn (o.applyTo id see)) m (c.edited o.edits).children q ↔
        Supplied (liveIn see) m c.children q) := by
    intro d c hdp hc
    exact supplied_edited hl (by rw [h.id_eq hc]; exact hdp) (h.not_mem_children hp hc hdp)
  constructor
  · intro h'
    obtain ⟨d, hid, hdp, c', m, hc', hm, hs⟩ := h'
    rw [Outcome.liveIn_applyTo_of_ne o see (Ne.symm hid), Option.map_eq_some_iff] at hc'
    obtain ⟨c, hc, rfl⟩ := hc'
    rw [Membership.ofContainer?_edited] at hm
    exact ⟨d, hid, hdp, c, m, hc, hm, (hsame hdp hc m).mp hs⟩
  · intro h'
    obtain ⟨d, hid, hdp, c, m, hc, hm, hs⟩ := h'
    refine ⟨d, hid, hdp, c.edited o.edits, m, ?_, by rwa [Membership.ofContainer?_edited], (hsame hdp hc m).mpr hs⟩
    rw [Outcome.liveIn_applyTo_of_ne o see (Ne.symm hid), hc]
    rfl

/-- The parent has the same siblings, and the target if it is live and listed. -/
theorem contributes_parent_iff (hp : Identifier.parent? root id = .ok (some p)) (hl : o.Lawful see p id) :
    Contributes (o.applyTo id see) p q ↔ BySiblings see p id q ∨
      ∃ y c m, o.target.live? = some y ∧ liveIn see p = some c ∧ Membership.ofContainer? c = some m ∧
        id ∈ (c.edited o.edits).children ∧ q ∈ m.triples y := by
  have hpid : p ≠ id := Identifier.parent?_ne hp
  have hsib : ∀ {c : Resource} (m : Membership),
      (Supplied (liveIn (o.applyTo id see)) m ((c.edited o.edits).children.filter (· ≠ id)) q ↔
        Supplied (liveIn see) m (c.children.filter (· ≠ id)) q) := fun m =>
    supplied_applyTo fun x hx => mem_children_edited hl (.inr hx)
  constructor
  · intro h'
    obtain ⟨c', m, hc', hm, hs⟩ := h'
    rw [Outcome.liveIn_applyTo_of_ne o see hpid.symm, Option.map_eq_some_iff] at hc'
    obtain ⟨c, hc, rfl⟩ := hc'
    rw [Membership.ofContainer?_edited] at hm
    rcases (supplied_split _ _ _ id).mp hs with hs | ⟨hin, y, hy, hq⟩
    · exact .inl ⟨c, m, hc, hm, (hsib m).mp hs⟩
    · rw [Outcome.liveIn_applyTo_self, Option.map_eq_some_iff] at hy
      obtain ⟨y, hy, rfl⟩ := hy
      rw [Membership.triples_edited] at hq
      exact .inr ⟨y, c, m, hy, hc, hm, hin, hq⟩
  · have hmk : ∀ {c m}, liveIn see p = some c → Membership.ofContainer? c = some m →
        Supplied (liveIn (o.applyTo id see)) m (c.edited o.edits).children q → Contributes (o.applyTo id see) p q := by
      intro c m hc hm hs
      refine ⟨c.edited o.edits, m, ?_, by rwa [Membership.ofContainer?_edited], hs⟩
      rw [Outcome.liveIn_applyTo_of_ne o see hpid.symm, hc]
      rfl
    intro h'
    rcases h' with ⟨c, m, hc, hm, hs⟩ | ⟨y, c, m, hy, hc, hm, hin, hq⟩
    · exact hmk hc hm ((supplied_split _ _ _ id).mpr (.inl ((hsib m).mpr hs)))
    · refine hmk hc hm ((supplied_split _ _ _ id).mpr (.inr ⟨hin, y.edited o.edits, ?_, ?_⟩))
      · rw [Outcome.liveIn_applyTo_self, hy]
        rfl
      · rwa [Membership.triples_edited]

/-- The target has the children that it lists, which are others. -/
theorem contributes_target_iff (h : Hierarchy root see) (hp : Identifier.parent? root id = .ok (some p))
    (hl : o.Lawful see p id) :
    Contributes (o.applyTo id see) id q ↔ ∃ y, o.target.live? = some y ∧ AsContainer see y q := by
  have hpid : p ≠ id := Identifier.parent?_ne hp
  have hown : ∀ {y}, o.target.live? = some y → ∀ m,
      (Supplied (liveIn (o.applyTo id see)) m (y.edited o.edits).children q ↔
        Supplied (liveIn see) m y.children q) := by
    intro y hy
    have hyid : y.id = id := by
      obtain ⟨-, rfl⟩ := Record.live?_eq_some.mp hy
      exact hl.target
    refine supplied_edited hl (by rw [hyid]; exact hpid.symm) fun hin => ?_
    obtain ⟨c, hc, hmem⟩ := hl.contains hy (Resource.mem_children.mp hin) rfl
    rw [hyid, ← h.id_eq hc, ← Resource.mem_children] at hmem
    exact h.not_mem_children hp hc (h.id_eq hc ▸ hpid.symm) (h.id_eq hc ▸ hmem)
  constructor
  · intro h'
    obtain ⟨y', m, hy', hm, hs⟩ := h'
    rw [Outcome.liveIn_applyTo_self, Option.map_eq_some_iff] at hy'
    obtain ⟨y, hy, rfl⟩ := hy'
    rw [Membership.ofContainer?_edited] at hm
    exact ⟨y, hy, m, hm, (hown hy m).mp hs⟩
  · intro h'
    obtain ⟨y, hy, m, hm, hs⟩ := h'
    refine ⟨y.edited o.edits, m, ?_, by rwa [Membership.ofContainer?_edited], (hown hy m).mpr hs⟩
    rw [Outcome.liveIn_applyTo_self, hy]
    rfl

/-- What was contributed before a mutation still is, unless the target had a part in it. -/
theorem contributes_applyTo (h : Hierarchy root see) (hp : Identifier.parent? root id = .ok (some p))
    (hl : o.Lawful see p id) {d : Iri} (hd : Contributes see d q) :
    (∃ d, Contributes (o.applyTo id see) d q) ∨
      (∃ y c m, liveIn see id = some y ∧ liveIn see p = some c ∧ Membership.ofContainer? c = some m ∧
        id ∈ c.children ∧ q ∈ m.triples y) ∨
      ∃ y, liveIn see id = some y ∧ AsContainer see y q := by
  rcases (exists_contributes_iff p id).mp ⟨d, hd⟩ with he | ⟨c, m, hc, hm, hs⟩ | ⟨y, m, hy, hm, hs⟩
  · exact .inl ((exists_contributes_iff p id).mpr (.inl ((h.elsewhere_applyTo hp hl).mpr he)))
  · rcases (supplied_split _ _ _ id).mp hs with hs | ⟨hin, y, hy, hq⟩
    · exact .inl ⟨p, (contributes_parent_iff hp hl).mpr (.inl ⟨c, m, hc, hm, hs⟩)⟩
    · exact .inr (.inl ⟨y, c, m, hy, hc, hm, hin, hq⟩)
  · exact .inr (.inr ⟨y, hy, m, hm, hs⟩)

end Hierarchy

/-! ## Graphs after a mutation

    Types and containment apart, what a live resource has in its server graph after a mutation is
    what it had before, less what the target took along, and with what the target brought. -/

/-- A resource is created as `x`. -/
structure Arrival (see : Iri → Option Record) (p id : Iri) (o : Outcome) (x : Resource) : Prop where
  before : liveIn see id = none
  after : o.target.live? = some x
  /-- What it contributes is added. -/
  graphs : ∀ {k r t}, liveIn (o.applyTo id see) k = some r → t.predicate ≠ Rdf.type →
    t.predicate ≠ Ldp.contains →
    (t ∈ r.serverGraph ↔ (∃ y, liveIn see k = some y ∧ t ∈ y.serverGraph) ∨ AsChild see p x ⟨k, t⟩)

/-- `x` contributes `q`, and not just what `current` does. -/
def Joins (see : Iri → Option Record) (p : Iri) (current x : Resource) (q : MemberTriple) : Prop :=
  ∃ c m, liveIn see p = some c ∧ Membership.ofContainer? c = some m ∧ m.triples current ≠ m.triples x ∧
    q ∈ m.triples x

/-- `current` is replaced by `x`. -/
structure Revision (see : Iri → Option Record) (p id : Iri) (o : Outcome) (current x : Resource) : Prop where
  before : liveIn see id = some current
  after : o.target.live? = some x
  id_eq : x.id = id
  serverGraph : x.serverGraph = current.serverGraph
  /-- As a child it takes along what no sibling contributes, and brings what it contributes now. Then,
      if it has another membership, all its children leave the old one and join the new one. -/
  graphs : ∀ {k r t}, liveIn (o.applyTo id see) k = some r → ∃ y, liveIn see k = some y ∧
    (t ∈ r.serverGraph ↔
      ((t ∈ y.serverGraph ∧
        ¬ (AsChild see p current ⟨k, t⟩ ∧ ¬ AsChild see p x ⟨k, t⟩ ∧ ¬ BySiblings see p id ⟨k, t⟩) ∨
          Joins see p current x ⟨k, t⟩) ∧
        ¬ (Membership.ofContainer? current ≠ Membership.ofContainer? x ∧ AsContainer see current ⟨k, t⟩)) ∨
      Membership.ofContainer? current ≠ Membership.ofContainer? x ∧ AsContainer see x ⟨k, t⟩)

/-- `current` is deleted. -/
structure Departure (see : Iri → Option Record) (p id : Iri) (o : Outcome) (current : Resource) : Prop where
  before : liveIn see id = some current
  after : o.target.live? = none
  /-- It takes along what no sibling contributes. -/
  graphs : ∀ {k r t}, liveIn (o.applyTo id see) k = some r → t.predicate ≠ Ldp.contains →
    ∃ y, liveIn see k = some y ∧
      (t ∈ r.serverGraph ↔ t ∈ y.serverGraph ∧
        ¬ (AsChild see p current ⟨k, t⟩ ∧ ¬ BySiblings see p id ⟨k, t⟩))

section

variable {root : Iri} {see : Iri → Option Record} {p id : Iri} {o : Outcome} {q : MemberTriple} {y : Resource}

theorem asChild_iff {c : Resource} {m : Membership} (hc : liveIn see p = some c)
    (hm : Membership.ofContainer? c = some m) :
    AsChild see p y q ↔ q ∈ m.triples y := by
  simp only [AsChild, hc, Option.some.injEq, exists_and_left, exists_eq_left', hm]

theorem bySiblings_iff {c : Resource} {m : Membership} (hc : liveIn see p = some c)
    (hm : Membership.ofContainer? c = some m) :
    BySiblings see p id q ↔ Supplied (liveIn see) m (c.children.filter (· ≠ id)) q := by
  simp only [BySiblings, hc, Option.some.injEq, exists_and_left, exists_eq_left', hm]

theorem Joins.asChild {current x : Resource} (h : Joins see p current x q) : AsChild see p x q := by
  obtain ⟨c, m, hc, hm, -, hq⟩ := h
  exact ⟨c, m, hc, hm, hq⟩

/-- What is contributed after a replacement, and was not before, is brought. -/
theorem AsChild.joins {current x : Resource} (h : AsChild see p x q) :
    Joins see p current x q ∨ AsChild see p current q := by
  obtain ⟨c, m, hc, hm, hq⟩ := h
  by_cases he : m.triples current = m.triples x
  · exact .inr ⟨c, m, hc, hm, he ▸ hq⟩
  · exact .inl ⟨c, m, hc, hm, he, hq⟩

/-- Children of a container that stays the same contribute what they did. -/
theorem Revision.asContainer_iff {current x : Resource} (h : Hierarchy root see) (hr : Revision see p id o current x)
    (hm : Membership.ofContainer? current = Membership.ofContainer? x) :
    AsContainer see x q ↔ AsContainer see current q := by
  have hchildren : ∀ y, y ∈ x.children ↔ y ∈ current.children := fun y => by
    rw [Resource.mem_children, Resource.mem_children, hr.id_eq, h.id_eq hr.before, hr.serverGraph]
  unfold AsContainer Supplied
  simp only [hm, hchildren]

end

namespace Hierarchy

variable {root : Iri} {see : Iri → Option Record} {p id agent : Iri} {time : Instant} {b : BlankNode} {o : Outcome}
  {q : MemberTriple}

theorem arrival (h : Hierarchy root see) {model : InteractionModel} {userGraph : Graph} {binary : Option Binary}
    (ho : Mutation.Comes see p id agent time b (.create model userGraph binary) o) : ∃ x, Arrival see p id o x := by
  cases ho with
  | @create _ _ _ container x hid hpar hcont hx =>
    refine ⟨x, hid, Record.live?_live x, fun {k r t} hk ht hcon => ?_⟩
    obtain ⟨as, has, hmem⟩ := Upkeep.join_edits p container id x
    have hadded : ⟨k, t⟩ ∈ as ↔ AsChild see p x ⟨k, t⟩ := by
      rw [hmem]
      constructor
      · intro h'
        rcases h' with he | ⟨m, hm, hq⟩
        · cases he
          exact absurd rfl hcon
        · exact ⟨container, m, hpar, hm, hq⟩
      · intro h'
        obtain ⟨c, m, hc, hm, hq⟩ := h'
        rw [hpar] at hc
        cases hc
        exact .inr ⟨m, hm, hq⟩
    rcases liveIn_applyTo hk with ⟨rfl, y, hy, rfl⟩ | ⟨hne, y, hy, rfl⟩
    · rw [Record.live?_live] at hy
      cases hy
      have hxid : x.id = id := by rw [← hx]; rfl
      have hborn : t ∉ x.serverGraph := by
        intro hin
        rw [← hx, Mutation.mem_serverGraph_born] at hin
        rw [hin] at ht
        exact ht rfl
      dsimp only
      rw [has, Resource.mem_serverGraph_adds, hxid, hadded]
      simp [hid, hborn]
    · dsimp only
      rw [has, Resource.mem_serverGraph_adds, h.id_eq hy, hadded]
      simp [hy]

/-- The renewed target is none of its siblings, and none of its children. -/
theorem supplied_renewed {x : Resource} {m : Membership} {ids : List Iri} {q : MemberTriple} (hid : id ∉ ids) :
    Supplied (Mutation.renewed (liveIn see) id x) m ids q ↔ Supplied (liveIn see) m ids q := by
  refine supplied_congr fun y hy => ?_
  have hne : id ≠ y := fun he => hid (he ▸ hy)
  rw [Mutation.renewed, if_neg hne]

theorem above_renewed {x : Resource} (hne : id ≠ p) {c : Resource} {m : Membership} :
    Upkeep.above (Mutation.renewed (liveIn see) id x) p = some (c, m) ↔
      liveIn see p = some c ∧ Membership.ofContainer? c = some m := by
  rw [Upkeep.above_eq_some, Mutation.renewed, if_neg hne]

/-- The edits of a replaced child, as a child. -/
theorem rejoin_parts (see : Iri → Option Record) (hne : id ≠ p) (current x : Resource) :
    ∃ ds as : List MemberTriple,
      (Upkeep.rejoin (Mutation.renewed (liveIn see) id x) p id current x).edits = ds.map .drop ++ as.map .add ∧
      (∀ q, q ∈ ds ↔ AsChild see p current q ∧ ¬ AsChild see p x q ∧ ¬ BySiblings see p id q) ∧
      ∀ q, q ∈ as ↔ Joins see p current x q := by
  obtain ⟨ds, as, he, hds, has⟩ := Upkeep.rejoin_edits (Mutation.renewed (liveIn see) id x) p id current x
  have hsib : ∀ {c : Resource} {m q},
      Supplied (Mutation.renewed (liveIn see) id x) m (c.children.filter (· ≠ id)) q ↔
      Supplied (liveIn see) m (c.children.filter (· ≠ id)) q := fun {c m q} => supplied_renewed (by simp)
  refine ⟨ds, as, he, fun q => ?_, fun q => ?_⟩
  · rw [hds]
    constructor
    · intro h'
      obtain ⟨c, m, ha, -, hcur, hnew, hs⟩ := h'
      obtain ⟨hc, hm⟩ := (above_renewed hne).mp ha
      rw [asChild_iff hc hm, asChild_iff hc hm, bySiblings_iff hc hm]
      exact ⟨hcur, hnew, hsib.not.mp hs⟩
    · intro h'
      obtain ⟨⟨c, m, hc, hm, hcur⟩, hnew, hs⟩ := h'
      rw [asChild_iff hc hm] at hnew
      rw [bySiblings_iff hc hm] at hs
      exact ⟨c, m, (above_renewed hne).mpr ⟨hc, hm⟩, fun he => hnew (he ▸ hcur), hcur, hnew, hsib.not.mpr hs⟩
  · simp only [has, above_renewed hne, Joins, and_assoc]

/-- The edits of a replaced container, as a container. -/
theorem reconfigure_parts (see : Iri → Option Record) {current x : Resource} (hid : id ∉ current.children)
    (hx : ∀ y, y ∈ x.children ↔ y ∈ current.children) :
    ∃ ds as : List MemberTriple,
      (Upkeep.reconfigure (Mutation.renewed (liveIn see) id x) current x).edits = ds.map .drop ++ as.map .add ∧
      (∀ q, q ∈ ds ↔ Membership.ofContainer? current ≠ Membership.ofContainer? x ∧ AsContainer see current q) ∧
      ∀ q, q ∈ as ↔ Membership.ofContainer? current ≠ Membership.ofContainer? x ∧ AsContainer see x q := by
  obtain ⟨ds, as, he, hds, has⟩ := Upkeep.reconfigure_edits (Mutation.renewed (liveIn see) id x) current x
  have hsame : ∀ {m q}, Supplied (liveIn see) m x.children q ↔ Supplied (liveIn see) m current.children q :=
    fun {m q} => exists_congr fun y => and_congr_left fun _ => hx y
  refine ⟨ds, as, he, fun q => ?_, fun q => ?_⟩
  · simp only [hds, AsContainer, supplied_renewed hid]
  · simp only [has, AsContainer, supplied_renewed hid, hsame]

theorem revision (h : Hierarchy root see) (hp : Identifier.parent? root id = .ok (some p)) {userGraph : Graph}
    {expected : Option InteractionModel} (ho : Mutation.Comes see p id agent time b (.replace userGraph expected) o) :
    ∃ current x, Revision see p id o current x := by
  have hne : id ≠ p := Ne.symm (Identifier.parent?_ne hp)
  cases ho with
  | @replace _ _ current x hid hm hx =>
    have hxid : x.id = id := by
      rw [← hx]
      exact (h.id_eq hid : current.id = id)
    have hgraph : x.serverGraph = current.serverGraph := by rw [← hx, Mutation.serverGraph_revised]
    have hown : id ∉ current.children := h.not_mem_children hp hid hne
    have hchildren : ∀ y, y ∈ x.children ↔ y ∈ current.children := fun y => by
      rw [Resource.mem_children, Resource.mem_children, hxid, h.id_eq hid, hgraph]
    refine ⟨current, x, hid, Record.live?_live x, hxid, hgraph, fun {k r t} hk => ?_⟩
    obtain ⟨ds, as, he, hds, has⟩ := rejoin_parts see hne current x
    obtain ⟨ds', as', he', hds', has'⟩ := reconfigure_parts see hown hchildren
    rcases liveIn_applyTo hk with ⟨rfl, y, hy, rfl⟩ | ⟨-, y, hy, rfl⟩
    · rw [Record.live?_live] at hy
      cases hy
      refine ⟨current, hid, ?_⟩
      dsimp only
      simp only [he, he', Resource.edited_append, Resource.mem_serverGraph_adds, Resource.mem_serverGraph_drops,
        Resource.id_edited, hxid, hgraph, hds, has, hds', has']
    · refine ⟨y, hy, ?_⟩
      dsimp only
      simp only [he, he', Resource.edited_append, Resource.mem_serverGraph_adds, Resource.mem_serverGraph_drops,
        Resource.id_edited, h.id_eq hy, hds, has, hds', has']

theorem departure (h : Hierarchy root see) (ho : Mutation.Comes see p id agent time b .delete o) :
    ∃ current, Departure see p id o current := by
  cases ho with
  | @delete current x es hid he hx =>
    refine ⟨current, hid, Record.live?_tombstone x, fun {k r t} hk hcon => ?_⟩
    obtain ⟨ds, hedits, hds⟩ := Upkeep.leave_edits (liveIn see) p id current
    rw [he] at hedits
    have hdropped : ⟨k, t⟩ ∈ ds ↔ AsChild see p current ⟨k, t⟩ ∧ ¬ BySiblings see p id ⟨k, t⟩ := by
      rw [hds]
      constructor
      · intro h'
        rcases h' with hq | ⟨c, m, ha, hq, hs⟩
        · cases hq
          exact absurd rfl hcon
        · obtain ⟨hc, hm⟩ := Upkeep.above_eq_some.mp ha
          rw [asChild_iff hc hm, bySiblings_iff hc hm]
          exact ⟨hq, hs⟩
      · intro h'
        obtain ⟨⟨c, m, hc, hm, hq⟩, hs⟩ := h'
        rw [bySiblings_iff hc hm] at hs
        exact .inr ⟨c, m, Upkeep.above_eq_some.mpr ⟨hc, hm⟩, hq, hs⟩
    rcases liveIn_applyTo hk with ⟨rfl, y, hy, -⟩ | ⟨-, y, hy, rfl⟩
    · cases hy
    · refine ⟨y, hy, ?_⟩
      dsimp only
      rw [hedits, Resource.mem_serverGraph_drops, h.id_eq hy, hdropped]

/-! ## The making of the root -/

/-- The outcome that makes the root. -/
def founding (root agent : Iri) (time : Instant) (b : BlankNode) : Outcome :=
  ⟨.live (Mutation.founded root agent time b), []⟩

theorem liveIn_founding_of_ne {x : Iri} (hne : root ≠ x) :
    liveIn ((founding root agent time b).applyTo root see) x = liveIn see x := by
  rw [Outcome.liveIn_applyTo_of_ne _ see hne]
  cases liveIn see x <;> rfl

theorem liveIn_founding_self :
    liveIn ((founding root agent time b).applyTo root see) root = some (Mutation.founded root agent time b) :=
  Outcome.liveIn_applyTo_self _ see

/-- The root does not contribute, and is no child. -/
theorem contributes_founding (h : Hierarchy root see) (hl : liveIn see root = none) {d : Iri} {q : MemberTriple} :
    Contributes ((founding root agent time b).applyTo root see) d q ↔ Contributes see d q := by
  have hroot : ∀ {c : Resource} {m : Membership}, liveIn see d = some c →
      (Supplied (liveIn ((founding root agent time b).applyTo root see)) m c.children q ↔
        Supplied (liveIn see) m c.children q) := by
    intro c m hd
    refine supplied_congr fun x hx => ?_
    obtain ⟨⟨child, hchild⟩, -⟩ := h.child_live hd hx
    refine liveIn_founding_of_ne fun he => ?_
    rw [← he, hl] at hchild
    cases hchild
  constructor
  · intro h'
    obtain ⟨c, m, hd, hm, hs⟩ := h'
    by_cases he : root = d
    · rw [← he, liveIn_founding_self] at hd
      cases hd
      cases hm
    · rw [liveIn_founding_of_ne he] at hd
      exact ⟨c, m, hd, hm, (hroot hd).mp hs⟩
  · intro h'
    obtain ⟨c, m, hd, hm, hs⟩ := h'
    have he : root ≠ d := fun he => by rw [← he, hl] at hd; cases hd
    exact ⟨c, m, by rwa [liveIn_founding_of_ne he], hm, (hroot hd).mpr hs⟩

end Hierarchy

end LinkedData
