/-
  LinkedData.Proofs.Containment — the tree of records, and what containers list.

  In every state that requests lead to from an empty store (`containment_well_formed`):
  - every record is under its own identifier, which is valid, and has a record above it;
  - a live container lists, once each, live resources one segment below it and nothing else.
  A tombstone may still list children, and children outlive a deleted container, so the second
  says nothing of containers that were deleted; one created again starts without children.
  Membership writes into the same graphs by predicates that clients choose. That they never
  choose `ldp:contains` is part of the invariant, and comes from the constraints.
-/

import LinkedData.Archive
import LinkedData.Proofs.Contributions
import LinkedData.Proofs.Requests

namespace LinkedData

open Std SteadyStore Vocabulary

structure Hierarchy (root : Iri) (see : Iri → Option Record) : Prop where
  keyed : ∀ {x r}, see x = some r → r.id = x
  valid : ∀ {x r}, see x = some r → Identifier.Valid root x
  above : ∀ {x r p}, see x = some r → Identifier.parent? root x = .ok (some p) → (see p).isSome
  contains : ∀ {p c t}, liveIn see p = some c → t ∈ c.serverGraph → t.predicate = Ldp.contains →
    ∃ x child, t = Resource.containment p x ∧ liveIn see x = some child ∧ Identifier.parent? root x = .ok (some p)
  relation : ∀ {d c m}, liveIn see d = some c → Membership.ofContainer? c = some m →
    m.relation.predicate ≠ Ldp.contains

namespace Hierarchy

variable {root : Iri} {see see' : Iri → Option Record}

theorem id_eq (h : Hierarchy root see) {x : Iri} {r : Resource} (hx : liveIn see x = some r) : r.id = x := by
  obtain ⟨a, ha, hl⟩ := Option.bind_eq_some_iff.mp hx
  obtain ⟨-, rfl⟩ := Record.live?_eq_some.mp hl
  exact h.keyed ha

theorem empty (h : ∀ x, see x = none) : Hierarchy root see where
  keyed hx := by simp [h] at hx
  valid hx := by simp [h] at hx
  above hx := by simp [h] at hx
  contains hx := by simp [liveIn, h] at hx
  relation hx := by simp [liveIn, h] at hx

theorem of_akin (h : Hierarchy root see) (ha : Akin see see') : Hierarchy root see' where
  keyed hx := by
    obtain ⟨r, hr, hc⟩ := ha.eq_some hx
    have hid := congrArg Record.id hc
    rw [Record.id_content, Record.id_content] at hid
    exact hid.symm.trans (h.keyed hr)
  valid hx := by
    obtain ⟨r, hr, -⟩ := ha.eq_some hx
    exact h.valid hr
  above hx hp := by
    obtain ⟨r, hr, -⟩ := ha.eq_some hx
    obtain ⟨q, hq⟩ := Option.isSome_iff_exists.mp (h.above hr hp)
    obtain ⟨q', hq', -⟩ := ha.symm.eq_some hq
    rw [hq']
    rfl
  contains {p c t} hp ht hpred := by
    obtain ⟨c₀, hc₀, -, -, hd⟩ := ha.of_liveIn hp
    have ht₀ : t ∈ c₀.serverGraph := by rw [Resource.serverGraph, hd]; exact ht
    obtain ⟨x, child, rfl, hx, hpar⟩ := h.contains hc₀ ht₀ hpred
    obtain ⟨child', hx', -⟩ := ha.symm.of_liveIn hx
    exact ⟨x, child', rfl, hx', hpar⟩
  relation {d c m} hd hm := by
    obtain ⟨c₀, hc₀, hid, hmod, hdat⟩ := ha.of_liveIn hd
    refine h.relation hc₀ (m := m) ?_
    rw [← hm]
    exact Membership.ofContainer?_congr hid hmod (by rw [Resource.userGraph, hdat]; rfl)

/-! ## Outcomes -/

theorem predicate_ne_contains_of_checked {m : InteractionModel} {domain : String} {r : Resource} {c : Membership}
    (h : Constraint.violations m domain r.userGraph = []) (hc : Membership.ofContainer? r = some c) :
    c.relation.predicate ≠ Ldp.contains := by
  rw [Membership.relation_of_ofContainer? hc]
  exact Constraint.predicate_relationOf_ne_contains h

end Hierarchy

/-- What every outcome for `id`, a child of `p`, keeps to, as far as containment is concerned. -/
structure Outcome.Lawful (see : Iri → Option Record) (p id : Iri) (o : Outcome) : Prop where
  target : o.target.id = id
  /-- Only the listing of the target in its parent is edited. -/
  edits : ∀ e ∈ o.edits, e.member.triple.predicate = Ldp.contains → e.member = ⟨p, Resource.containment p id⟩
  /-- A target that is live lists what it listed before. -/
  contains : ∀ {y t}, o.target.live? = some y → t ∈ y.serverGraph → t.predicate = Ldp.contains →
    ∃ c, liveIn see id = some c ∧ t ∈ c.serverGraph
  /-- One that is not is not listed. -/
  unlisted : o.target.live? = none → ∀ {c}, liveIn see p = some c →
    Resource.containment p id ∉ (c.edited o.edits).serverGraph
  relation : ∀ {y m}, o.target.live? = some y → Membership.ofContainer? y = some m →
    m.relation.predicate ≠ Ldp.contains
  above : (see p).isSome

namespace Hierarchy

variable {root : Iri} {see see' : Iri → Option Record} {p id agent : Iri} {time : Instant} {b : BlankNode}
  {o : Outcome}

theorem predicate_ne_contains (h : Hierarchy root see) {d : Iri} {c child : Resource} {m : Membership}
    {q : MemberTriple} (hd : liveIn see d = some c) (hm : Membership.ofContainer? c = some m)
    (hq : q ∈ m.triples child) :
    q.triple.predicate ≠ Ldp.contains := by
  rw [Membership.predicate_of_mem_triples hq]
  exact h.relation hd hm

theorem isSome_of_liveIn {x : Iri} {c : Resource} (h : liveIn see x = some c) : (see x).isSome := by
  obtain ⟨r, hr, -⟩ := Option.bind_eq_some_iff.mp h
  rw [hr]
  rfl

theorem lawful_create (h : Hierarchy root see) {model : InteractionModel} {userGraph : Graph} {binary : Option Binary}
    (hc : Constraint.violations model root.text userGraph = [])
    (ho : Mutation.Comes see p id agent time b (.create model userGraph binary) o) : o.Lawful see p id := by
  cases ho with
  | @create _ _ _ container x hid hpar hcont hx =>
    obtain ⟨as, has, hmem⟩ := Upkeep.join_edits p container id x
    refine ⟨by rw [← hx]; rfl, ?_, ?_, ?_, ?_, isSome_of_liveIn hpar⟩
    · intro e he hpred
      dsimp only at he
      rw [has] at he
      obtain ⟨q, hq, rfl⟩ := List.mem_map.mp he
      rcases (hmem q).mp hq with rfl | ⟨m, hm, hq⟩
      · rfl
      · exact absurd hpred (h.predicate_ne_contains hpar hm hq)
    · intro y t hy ht hpred
      rw [Record.live?_live] at hy
      cases hy
      rw [← hx, Mutation.mem_serverGraph_born] at ht
      rw [ht] at hpred
      exact absurd hpred (show Rdf.type ≠ Ldp.contains by decide)
    · intro hy
      cases hy
    · intro y m hy hm
      rw [Record.live?_live] at hy
      cases hy
      have hchecked : Constraint.violations model root.text x.userGraph = [] := by
        rw [← hx, Mutation.userGraph_born]
        exact hc
      exact predicate_ne_contains_of_checked hchecked hm

/-- A replacement is no matter of containment: it edits member triples alone. -/
theorem edits_replace (h : Hierarchy root see) (hp : Identifier.parent? root id = .ok (some p))
    {model : InteractionModel} {userGraph : Graph} {expected : Option InteractionModel}
    (hc : Constraint.violations model root.text userGraph = [])
    (ho : Mutation.Comes see p id agent time b (.replace userGraph expected) o) :
    ∀ e ∈ o.edits, e.member.triple.predicate ≠ Ldp.contains := by
  cases ho with
  | @replace _ _ current x hid hm hx =>
    have hchecked : Constraint.violations model root.text x.userGraph = [] := by
      rw [← hx, Mutation.userGraph_revised]
      exact hc
    obtain ⟨ds, as, hrejoin, hds, has⟩ := Upkeep.rejoin_edits (Mutation.renewed (liveIn see) id x) p id current x
    obtain ⟨ds', as', hreconf, hds', has'⟩ := Upkeep.reconfigure_edits (Mutation.renewed (liveIn see) id x) current x
    have hpar : ∀ {c m q child}, Upkeep.above (Mutation.renewed (liveIn see) id x) p = some (c, m) →
        q ∈ m.triples child → q.triple.predicate ≠ Ldp.contains := by
      intro c m q child ha hq
      obtain ⟨hsee, hcm⟩ := Upkeep.above_eq_some.mp ha
      rw [Mutation.renewed, if_neg (Ne.symm (Identifier.parent?_ne hp))] at hsee
      exact h.predicate_ne_contains hsee hcm hq
    intro e he hpred
    dsimp only at he
    rw [hrejoin, hreconf] at he
    simp only [List.mem_append, List.mem_map] at he
    rcases he with (⟨q, hq, rfl⟩ | ⟨q, hq, rfl⟩) | (⟨q, hq, rfl⟩ | ⟨q, hq, rfl⟩)
    · obtain ⟨c, m, ha, -, hq, -⟩ := (hds q).mp hq
      exact hpar ha hq hpred
    · obtain ⟨c, m, ha, -, hq⟩ := (has q).mp hq
      exact hpar ha hq hpred
    · obtain ⟨-, m, hm, y, -, child, -, hq⟩ := (hds' q).mp hq
      exact h.predicate_ne_contains hid hm hq hpred
    · obtain ⟨-, m, hm, y, -, child, -, hq⟩ := (has' q).mp hq
      exact predicate_ne_contains_of_checked hchecked hm ((Membership.predicate_of_mem_triples hq).symm.trans hpred)

theorem lawful_replace (h : Hierarchy root see) (hp : Identifier.parent? root id = .ok (some p))
    {model : InteractionModel} {userGraph : Graph} {expected : Option InteractionModel}
    (hc : Constraint.violations model root.text userGraph = [])
    (ho : Mutation.Comes see p id agent time b (.replace userGraph expected) o) : o.Lawful see p id := by
  have hedits := h.edits_replace hp hc ho
  cases ho with
  | @replace _ _ current x hid hm hx =>
    have hcid : current.id = id := h.id_eq hid
    have hchecked : Constraint.violations model root.text x.userGraph = [] := by
      rw [← hx, Mutation.userGraph_revised]
      exact hc
    obtain ⟨r, hr, -⟩ := Option.bind_eq_some_iff.mp hid
    refine ⟨by rw [← hx]; exact hcid, ?_, ?_, ?_, ?_, h.above hr hp⟩
    · exact fun e he hpred => absurd hpred (hedits e he)
    · intro y t hy ht _
      rw [Record.live?_live] at hy
      cases hy
      refine ⟨current, hid, ?_⟩
      rwa [← Mutation.serverGraph_revised current userGraph agent time b, hx]
    · intro hy
      cases hy
    · intro y m hy hm
      rw [Record.live?_live] at hy
      cases hy
      exact predicate_ne_contains_of_checked hchecked hm

theorem lawful_delete (h : Hierarchy root see) (hp : Identifier.parent? root id = .ok (some p))
    (ho : Mutation.Comes see p id agent time b .delete o) : o.Lawful see p id := by
  cases ho with
  | @delete current x es hid he hx =>
    obtain ⟨ds, hds, hmem⟩ := Upkeep.leave_edits (liveIn see) p id current
    rw [he] at hds
    obtain ⟨r, hr, -⟩ := Option.bind_eq_some_iff.mp hid
    refine ⟨?_, ?_, ?_, ?_, ?_, h.above hr hp⟩
    · rw [← hx]
      exact (Resource.id_edited _ _).trans (h.id_eq hid)
    · intro e he hpred
      dsimp only at he
      rw [hds] at he
      obtain ⟨q, hq, rfl⟩ := List.mem_map.mp he
      rcases (hmem q).mp hq with rfl | ⟨c, m, ha, hq, -⟩
      · rfl
      · obtain ⟨hsee, hm⟩ := Upkeep.above_eq_some.mp ha
        exact absurd hpred (h.predicate_ne_contains hsee hm hq)
    · intro y t hy
      cases hy
    · intro _ c hc
      dsimp only
      rw [hds, Resource.mem_serverGraph_drops, h.id_eq hc]
      exact fun hin => hin.2 ((hmem _).mpr (.inl rfl))
    · intro y m hy
      cases hy

theorem lawful (h : Hierarchy root see) (hp : Identifier.parent? root id = .ok (some p)) {op : Operation}
    (hc : op.Checked root.text) (ho : Mutation.Comes see p id agent time b op o) : o.Lawful see p id := by
  cases op with
  | create model userGraph binary => exact h.lawful_create hc ho
  | replace userGraph expected =>
    obtain ⟨m, -, hc⟩ := hc
    exact h.lawful_replace hp hc ho
  | delete => exact h.lawful_delete hp ho

/-! ## The invariant after an outcome -/

/-- A live resource after an outcome is the target, or one that was live before, edited. -/
theorem liveIn_applyTo {x : Iri} {r : Resource} (hx : liveIn (o.applyTo id see) x = some r) :
    (id = x ∧ ∃ y, o.target.live? = some y ∧ r = y.edited o.edits) ∨
      (id ≠ x ∧ ∃ y, liveIn see x = some y ∧ r = y.edited o.edits) := by
  by_cases he : id = x
  · subst he
    rw [Outcome.liveIn_applyTo_self, Option.map_eq_some_iff] at hx
    obtain ⟨y, hy, rfl⟩ := hx
    exact .inl ⟨rfl, y, hy, rfl⟩
  · rw [Outcome.liveIn_applyTo_of_ne o see he, Option.map_eq_some_iff] at hx
    obtain ⟨y, hy, rfl⟩ := hx
    exact .inr ⟨he, y, hy, rfl⟩

/-- Places stay in order whatever the target and the edits are. -/
theorem places (h : Hierarchy root see) (hid : o.target.id = id) (hv : Identifier.Valid root id)
    (hp : ∀ p, Identifier.parent? root id = .ok (some p) → (see p).isSome) :
    (∀ {x r}, o.applyTo id see x = some r → r.id = x) ∧
      (∀ {x r}, o.applyTo id see x = some r → Identifier.Valid root x) ∧
      ∀ {x r p}, o.applyTo id see x = some r → Identifier.parent? root x = .ok (some p) →
        (o.applyTo id see p).isSome := by
  refine ⟨fun {x r} hx => ?_, fun {x r} hx => ?_, fun {x r p} hx hpar => o.isSome_applyTo see ?_⟩
  · by_cases he : id = x
    · subst he
      rw [Outcome.applyTo_self] at hx
      cases hx
      rw [Record.id_edited, hid]
    · rw [Outcome.applyTo_of_ne o see he, Option.map_eq_some_iff] at hx
      obtain ⟨r₀, hr₀, rfl⟩ := hx
      rw [Record.id_edited, h.keyed hr₀]
  · by_cases he : id = x
    · exact he ▸ hv
    · rw [Outcome.applyTo_of_ne o see he, Option.map_eq_some_iff] at hx
      obtain ⟨r₀, hr₀, -⟩ := hx
      exact h.valid hr₀
  · by_cases he : id = x
    · exact hp p (he ▸ hpar)
    · rw [Outcome.applyTo_of_ne o see he, Option.map_eq_some_iff] at hx
      obtain ⟨r₀, hr₀, -⟩ := hx
      exact h.above hr₀ hpar

theorem relation_applyTo (h : Hierarchy root see)
    (ht : ∀ {y m}, o.target.live? = some y → Membership.ofContainer? y = some m →
      m.relation.predicate ≠ Ldp.contains)
    {d : Iri} {c : Resource} {m : Membership} (hd : liveIn (o.applyTo id see) d = some c)
    (hm : Membership.ofContainer? c = some m) : m.relation.predicate ≠ Ldp.contains := by
  rcases liveIn_applyTo hd with ⟨-, y, hy, rfl⟩ | ⟨-, y, hy, rfl⟩
  · rw [Membership.ofContainer?_edited] at hm
    exact ht hy hm
  · rw [Membership.ofContainer?_edited] at hm
    exact h.relation hy hm

theorem applyTo (h : Hierarchy root see) (hv : Identifier.Valid root id)
    (hp : Identifier.parent? root id = .ok (some p)) (hl : o.Lawful see p id) : Hierarchy root (o.applyTo id see) := by
  obtain ⟨hkeyed, hvalid, habove⟩ := h.places hl.target hv fun q hq => by
    rw [hp] at hq
    cases hq
    exact hl.above
  refine ⟨hkeyed, hvalid, habove, ?_, h.relation_applyTo hl.relation⟩
  intro q c t hq ht hpred
  by_cases hnew : q = p ∧ t = Resource.containment p id
  · obtain ⟨rfl, rfl⟩ := hnew
    -- the parent lists the target, which is therefore live
    cases hy : o.target.live? with
    | some y => exact ⟨id, _, rfl, by rw [Outcome.liveIn_applyTo_self, hy]; rfl, hp⟩
    | none =>
      rw [Outcome.liveIn_applyTo_of_ne o see (Ne.symm (Identifier.parent?_ne hp)), Option.map_eq_some_iff] at hq
      obtain ⟨y, hy', rfl⟩ := hq
      exact absurd ht (hl.unlisted hy hy')
  · have hsame : ∀ y : Resource, y.id = q → t ∈ (y.edited o.edits).serverGraph → t ∈ y.serverGraph := by
      intro y hy hin
      refine (Resource.mem_serverGraph_edited_of_not_mem fun e he hmem => hnew ?_).mp hin
      have hm := hl.edits e he (by rw [hmem]; exact hpred)
      rw [hmem, hy] at hm
      cases hm
      exact ⟨rfl, rfl⟩
    have hold : ∃ y, liveIn see q = some y ∧ t ∈ y.serverGraph := by
      rcases liveIn_applyTo hq with ⟨rfl, y, hy, rfl⟩ | ⟨-, y, hy, rfl⟩
      · refine hl.contains hy (hsame y ?_ ht) hpred
        obtain ⟨-, rfl⟩ := Record.live?_eq_some.mp hy
        exact hl.target
      · exact ⟨y, hy, hsame y (h.id_eq hy) ht⟩
    obtain ⟨y, hy, hty⟩ := hold
    obtain ⟨z, child, rfl, hz, hzp⟩ := h.contains hy hty hpred
    have hne : id ≠ z := by
      rintro rfl
      rw [hp] at hzp
      cases hzp
      exact hnew ⟨rfl, rfl⟩
    exact ⟨z, _, rfl, by rw [Outcome.liveIn_applyTo_of_ne o see hne, hz]; rfl, hzp⟩

theorem founded (h : Hierarchy root see) (hl : liveIn see root = none) :
    Hierarchy root (Outcome.applyTo ⟨.live (Mutation.founded root agent time b), []⟩ root see) := by
  obtain ⟨hkeyed, hvalid, habove⟩ := h.places (o := ⟨.live (Mutation.founded root agent time b), []⟩)
    (show _ = root from rfl) (by simp [Identifier.Valid, Identifier.validate])
    (by simp [Identifier.parent?, Identifier.validate, Except.map])
  refine ⟨hkeyed, hvalid, habove, ?_, h.relation_applyTo ?_⟩
  · intro q c t hq ht hpred
    rcases liveIn_applyTo hq with ⟨rfl, y, hy, rfl⟩ | ⟨-, y, hy, rfl⟩
    · rw [Record.live?_live] at hy
      cases hy
      rw [Mutation.mem_serverGraph_founded] at ht
      rw [ht] at hpred
      exact absurd hpred (show Rdf.type ≠ Ldp.contains by decide)
    · obtain ⟨z, child, rfl, hz, hzp⟩ := h.contains hy ht hpred
      have hne : root ≠ z := fun he => by rw [← he, hl] at hz; cases hz
      exact ⟨z, _, rfl, by rw [Outcome.liveIn_applyTo_of_ne _ _ hne, hz]; rfl, hzp⟩
  · intro y m hy hm
    rw [Record.live?_live] at hy
    cases hy
    cases hm

end Hierarchy

/-! ## Runs -/

namespace Repository

variable {σ : Type} [RecordStore σ] [KeyedStore σ]

theorem Moved.hierarchy {r r' : Repository σ} (hm : Moved r r') (h : Hierarchy r.root (find r.store)) :
    Hierarchy r'.root (find r'.store) := by
  cases hm with
  | still hr hs => rw [hr, hs]; exact h
  | founded hl ha =>
    rw [ha.root]
    exact (h.founded hl).of_akin ha.content
  | @mutated id p agent op o now hr hp hc ho ha =>
    rw [ha.root]
    unfold outcomeAt Mutation.outcomeFrom at ho
    rw [Transaction.look_begin] at ho
    have hcomes := Mutation.comes_of_outcome ho
    exact (h.applyTo (refusal?_eq_none.mp hr).1 hp (h.lawful hp hc hcomes)).of_akin ha.content

end Repository

namespace Service

variable {σ α ε : Type} [RecordStore σ] [KeyedStore σ] [MementoStore α] [BlobStore α] [EventSink ε]
  {s : Service σ α ε}

theorem Reachable.hierarchy (h : Reachable s) : Hierarchy s.repository.root (find s.repository.store) := by
  induction h with
  | empty h => exact .empty h
  | serve now q h ih => exact (serve_moved h.selfKeyed now q).hierarchy ih

/-- Records are under their own valid identifiers and have one above them; a live container lists
    live resources one segment below it, each once, and its server graph says nothing else of
    containment. -/
theorem containment_well_formed (h : Reachable s) :
    (∀ x r, s.repository.record x = .ok (some r) →
      r.id = x ∧ Identifier.Valid s.root x ∧
        (x ≠ s.root → ∃ p r', Identifier.parent? s.root x = .ok (some p) ∧
          s.repository.record p = .ok (some r'))) ∧
    ∀ p c, s.get p = .ok (some c) →
      (∀ t ∈ c.serverGraph, t.predicate = Ldp.contains → t.subject = .iri p ∧
        ∃ x child, t.object = .iri x ∧ s.get x = .ok (some child) ∧ Identifier.parent? s.root x = .ok (some p)) ∧
      c.children.Nodup ∧
      ∀ x ∈ c.children, ∃ child, s.get x = .ok (some child) ∧ Identifier.parent? s.root x = .ok (some p) := by
  have hi := h.hierarchy
  have hrecord : ∀ {x : Iri} {r : Record}, s.repository.record x = .ok (some r) ↔ find s.repository.store x = some r :=
    fun {x r} => by rw [Repository.record_eq]; simp
  refine ⟨fun x r hx => ?_, fun p c hp => ?_⟩
  · rw [hrecord] at hx
    refine ⟨hi.keyed hx, hi.valid hx, fun hne => ?_⟩
    obtain ⟨p, hp⟩ := Identifier.exists_parent (hi.valid hx) hne
    obtain ⟨r', hr'⟩ := Option.isSome_iff_exists.mp (hi.above hx hp)
    exact ⟨p, r', hp, hrecord.mpr hr'⟩
  · rw [get_eq_ok] at hp
    have hlists : ∀ t ∈ c.serverGraph, t.predicate = Ldp.contains → ∃ x child, t = Resource.containment p x ∧
        s.get x = .ok (some child) ∧ Identifier.parent? s.root x = .ok (some p) := by
      intro t ht hpred
      obtain ⟨x, child, rfl, hx, hpar⟩ := hi.contains hp ht hpred
      exact ⟨x, child, rfl, get_eq_ok.mpr hx, hpar⟩
    refine ⟨fun t ht hpred => ?_, c.nodup_children, fun x hx => ?_⟩
    · obtain ⟨x, child, rfl, hx, hpar⟩ := hlists t ht hpred
      exact ⟨rfl, x, child, rfl, hx, hpar⟩
    · obtain ⟨y, child, hxy, hy, hpar⟩ := hlists _ (Resource.mem_children.mp hx) rfl
      cases hxy
      exact ⟨child, hy, hpar⟩

/-- A service over empty tables. -/
def blank : Service Table Archive Sink :=
  ⟨.open ⟨"trellis:data/"⟩ .empty 0 ⟨0, 0⟩, .empty, true, .discard, "urn:agents:", .new 1, 0, 0⟩

/-- A resource created in the root container. -/
def firstChild : Service Table Archive Sink :=
  (blank.serve ⟨1, 0⟩ .makeRoot).serve ⟨2, 0⟩
    (.create ⟨"trellis:data/a"⟩ .rdfSource .empty (.anonymous ⟨2, 0⟩))

theorem reachable_firstChild : firstChild.Reachable := by
  unfold firstChild
  exact .serve _ _ (.serve _ _ (.empty Table.get?_empty))

theorem firstChild_well_formed :
    firstChild.Reachable ∧ (firstChild.get ⟨"trellis:data/"⟩).map (·.map Resource.children) =
      .ok (some [⟨"trellis:data/a"⟩]) ∧
      ∀ c, firstChild.get ⟨"trellis:data/"⟩ = .ok (some c) →
        ∀ x ∈ c.children, ∃ child, firstChild.get x = .ok (some child) ∧
        Identifier.parent? firstChild.root x = .ok (some ⟨"trellis:data/"⟩) := by
  refine ⟨reachable_firstChild, by decide +kernel, fun c hc => ?_⟩
  exact ((containment_well_formed reachable_firstChild).2 _ c hc).2.2

end Service

end LinkedData
